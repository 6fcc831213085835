import Shepherd.Proofs.Board.Slots

/-!
# Failures

An addition fails if some item names a cell that is not on the board, whatever stands before it in
the list; a removal fails for what is not there and for agent and exit; a word fails that is not the
name of an action. The errors say which of these it was. On a board that is changed in place a
failure changes nothing, neither the entities nor the index, the carry slot or the next identity.
-/

namespace Shepherd.Grid.Board

variable {b : Board} {e : BoardError}

/-! ### Causes -/

theorem addItems_eq_error_iff {items : List Item} :
    b.addItems items = .error e ↔
      ∃ p, FirstOutside b.size (items.filterMap Item.cell?) p ∧ e = .outOfBounds p b.size := by
  rw [addItems_eq]
  simp only [← firstOutside?_eq_some_iff]
  cases firstOutside? b.size (items.filterMap Item.cell?) with
  | none => simp
  | some p => simp [eq_comm]

/-- Among the cells of the expansion the same one is the first that does not fit. -/
theorem firstOutside_expand_iff {size : Int} {items : List Item} {p : Position} :
    FirstOutside size ((items.flatMap (Item.expand size)).map (·.1)) p ↔
      FirstOutside size (items.filterMap Item.cell?) p := by
  rw [← firstOutside?_eq_some_iff, firstOutside?_expand, firstOutside?_eq_some_iff]

/-- If some cell does not fit, one of these is the first. -/
theorem exists_firstOutside_iff {size : Int} {cells : List Position} :
    (∃ p, FirstOutside size cells p) ↔ ∃ p ∈ cells, p.inBounds size = false := by
  constructor
  · rintro ⟨p, hp, before, after, rfl, -⟩
    exact ⟨p, List.mem_append_right _ List.mem_cons_self, hp⟩
  · rintro ⟨p, hmem, hp⟩
    cases hfirst : firstOutside? size cells with
    | none => exact absurd (firstOutside?_eq_none_iff.1 hfirst p hmem) (by simp [hp])
    | some q => exact ⟨q, firstOutside?_eq_some_iff.1 hfirst⟩

theorem remove_eq_error_iff {id : EntityId} :
    b.remove id = .error e ↔ (e = .unknownEntity id ∧ ∀ d ∈ b.entities, d.id ≠ id) ∨
      (e = .fixedEntity id ∧ (id = b.agent.id ∨ id = b.exit.id)) := by
  rw [← entity?_eq_none_iff, remove]
  cases hfound : b.entity? id with
  | none =>
    have habsent := entity?_eq_none_iff.1 hfound
    have hfree : ¬ (id = b.agent.id ∨ id = b.exit.id) := by
      rintro (rfl | rfl)
      · exact habsent b.agent (mem_entities.2 (.inl rfl)) rfl
      · exact habsent b.exit (mem_entities.2 (.inr (.inl rfl))) rfl
    simp [hfree, eq_comm]
  | some d =>
    by_cases hfixed : id = b.agent.id ∨ id = b.exit.id
    · simp [hfixed, eq_comm]
    · simp [hfixed]

theorem applyToken_eq_error_iff {token : String} :
    b.applyToken token = .error e ↔
      e = .unknownAction token ∧ ∀ a : Action, token ≠ a.name := by
  rw [applyToken]
  cases haction : Action.ofName? token with
  | none =>
    have hnone : ∀ a : Action, token ≠ a.name := fun a hname => by
      rw [Action.ofName?_eq_some_iff.2 hname] at haction
      cases haction
    simp [hnone, eq_comm]
  | some a =>
    have hname := Action.ofName?_eq_some_iff.1 haction
    simp only [reduceCtorEq, false_iff, not_and]
    exact fun _ hnone => hnone a hname

theorem applyToken_name (b : Board) (a : Action) : b.applyToken a.name = .ok (b.apply a) := by
  rw [applyToken, Action.ofName?_name]

/-- Which operations on a board fail, and how. -/
structure FailsExactly (b : Board) : Prop where
  add : ∀ items : List Item, (∃ e, b.addItems items = .error e) ↔
    ∃ p ∈ items.filterMap Item.cell?, p.inBounds b.size = false
  /-- The error of an addition names the first cell that does not fit, in the order in which the
  items are expanded. -/
  outOfBounds : ∀ (items : List Item) (e : BoardError), b.addItems items = .error e ↔
    ∃ p, FirstOutside b.size ((items.flatMap (Item.expand b.size)).map (·.1)) p ∧
      e = .outOfBounds p b.size
  /-- The cell is one that an item names, and the first of these that does not fit. -/
  named : ∀ (items : List Item) (p : Position),
    FirstOutside b.size ((items.flatMap (Item.expand b.size)).map (·.1)) p ↔
    FirstOutside b.size (items.filterMap Item.cell?) p
  remove : ∀ id e, b.remove id = .error e ↔
    (e = .unknownEntity id ∧ ∀ d ∈ b.entities, d.id ≠ id) ∨
      (e = .fixedEntity id ∧ (id = b.agent.id ∨ id = b.exit.id))
  notIssued : ∀ id, b.nextId ≤ id → b.remove id = .error (.unknownEntity id)
  gone : ∀ id b' d, b.remove id = .ok (b', d) →
    ∀ ops, (b'.performAll ops).remove id = .error (.unknownEntity id)
  word : ∀ token e, b.applyToken token = .error e ↔
    e = .unknownAction token ∧ ∀ a : Action, token ≠ a.name
  name : ∀ a : Action, b.applyToken a.name = .ok (b.apply a)

theorem Reachable.failsExactly (h : Reachable b) : FailsExactly b where
  add items := by
    simp only [addItems_eq_error_iff, ← exists_firstOutside_iff]
    exact ⟨fun ⟨_, p, hp, _⟩ => ⟨p, hp⟩, fun ⟨p, hp⟩ => ⟨_, p, hp, rfl⟩⟩
  outOfBounds items e := by simp only [addItems_eq_error_iff, firstOutside_expand_iff]
  named _ _ := firstOutside_expand_iff
  remove _ _ := remove_eq_error_iff
  notIssued id hid := by
    refine remove_eq_error_iff.2 (.inl ⟨rfl, fun d hd hdid => ?_⟩)
    exact absurd (h.numbered.issued hd) (Nat.not_lt.2 (hdid ▸ hid))
  gone id b' d hremove ops := by
    obtain ⟨hlookup, -, -, heq⟩ := remove_eq_ok hremove
    obtain ⟨hd, rfl⟩ := h.numbered.entity?_eq_some_iff.1 hlookup
    have hissued : d.id < b'.nextId := heq ▸ h.numbered.issued hd
    have hnone := ((h.of_remove hremove).lasting ops).gone d.id hissued (entity?_of_remove hremove)
    exact remove_eq_error_iff.2 (.inl ⟨rfl, entity?_eq_none_iff.1 hnone⟩)
  word _ _ := applyToken_eq_error_iff
  name a := b.applyToken_name a

/-! ### Traces -/

/-- Nothing remains of an operation that fails. -/
structure LeavesNoTrace (s : Slots) : Prop where
  state : ∀ op e s', s.perform op = (.error e, s') → s' = s
  /-- What is done next answers and ends as if the failure had not been. -/
  later : ∀ op e s', s.perform op = (.error e, s') → ∀ ops,
    s.run (op :: ops) = (.error e :: (s.run ops).1, (s.run ops).2)

theorem answering_of_error {α : Type} {next : α → Board} {answer : α → Answer}
    {result : Except BoardError α} (he : (b.answering next answer result).1 = .error e) :
    (b.answering next answer result).2 = b := by
  cases result with
  | ok => cases he
  | error => rfl

theorem respond_of_error {op : Operation} (he : (b.respond op).1 = .error e) :
    (b.respond op).2 = b := by
  cases op with
  | add | remove | resize | word => exact answering_of_error he
  | act | replay => cases he

theorem Reachable.leavesNoTrace (h : Reachable b) : LeavesNoTrace b.slots := by
  have hstate : ∀ op e s', b.slots.perform op = (.error e, s') → s' = b.slots := by
    intro op e s' hfail
    rw [h.perform_slots, Prod.mk.injEq] at hfail
    rw [← hfail.2, respond_of_error hfail.1]
  refine ⟨hstate, fun op e s' hfail ops => ?_⟩
  obtain rfl := hstate op e s' hfail
  rw [Slots.run, hfail]

/-- On every board that comes about in place, operations fail exactly for the causes that their
errors name, and those that fail leave no trace. -/
theorem Reachable.failures_exact (h : Reachable b) :
    FailsExactly b ∧ LeavesNoTrace b.slots ∧
      (∀ op, b.slots.perform op = ((b.respond op).1, (b.respond op).2.slots)) ∧
      ∃ l s ops, Slots.ofLayout l = .ok s ∧ (s.run ops).2 = b.slots :=
  ⟨h.failsExactly, h.leavesNoTrace, h.perform_slots, h.exists_run⟩

/-- On a board whose slots have moved up after a removal: the sheep and the ring before a misplaced
target are not added, and the next addition gets the identity that they would have got. -/
theorem failures_exact_moved_up : ∃ b, Reachable b ∧ b.entities.map (·.id) = [0, 1, 3] ∧
    FailsExactly b ∧ LeavesNoTrace b.slots ∧
    (b.slots.run [.add [.sheep ⟨0, 1⟩ .red, .surround .wall, .target ⟨3, 0⟩ .red,
        .block .water ⟨-1, 0⟩], .remove 2, .remove 1, .word "jump", .add [.sheep ⟨0, 1⟩ .red]]).1 =
      [.error (.outOfBounds ⟨3, 0⟩ 3), .error (.unknownEntity 2), .error (.fixedEntity 1),
        .error (.unknownAction "jump"), .ok (.added [4])] := by
  have reachable := (Reachable.ofLayout (l := ⟨3, ⟨⟨1, 1⟩, .north⟩, ⟨2, 1⟩, .none⟩) rfl).performAll
    [.add [.sheep ⟨1, 0⟩ .red, .block .leaves ⟨0, 0⟩], .remove 2]
  obtain ⟨exact, untouched, -, -⟩ := reachable.failures_exact
  exact ⟨_, reachable, by decide +kernel, exact, untouched, by rfl⟩

end Shepherd.Grid.Board
