import Shepherd.Grid.Board.Tick

/-!
# Reachable boards

What can be done to a board, and the boards that come about in this way from a layout. A property
that every layout has and every successful operation keeps holds of all of them: words and replays
are ticks, and an operation that fails leaves the board as it was.
-/

namespace Shepherd.Grid

/-- What can be done to a board. -/
inductive Operation where
  | add (items : List Item)
  | remove (id : EntityId)
  | resize (size : Int)
  | act (a : Action)
  | word (token : String)
  | replay (actions : List Action)

namespace Board

/-- The board after an operation; one that fails leaves the board as it was. -/
def perform (b : Board) : Operation → Board
  | .add items =>
    match b.addItems items with
    | .ok (b', _) => b'
    | .error _ => b
  | .remove id =>
    match b.remove id with
    | .ok (b', _) => b'
    | .error _ => b
  | .resize size =>
    match b.resized size with
    | .ok b' => b'
    | .error _ => b
  | .act a => b.apply a
  | .word token =>
    match b.applyToken token with
    | .ok b' => b'
    | .error _ => b
  | .replay actions => b.replay actions

/-- The board after operations in order. -/
def performAll (b : Board) (ops : List Operation) : Board := ops.foldl perform b

/-- The boards that operations lead to from a layout. -/
inductive Reachable : Board → Prop
  | ofLayout {l : Layout} {b : Board} (h : ofLayout l = .ok b) : Reachable b
  | perform {b : Board} (h : Reachable b) (op : Operation) : Reachable (b.perform op)

/-! ### What a successful operation does -/

/-- The board of a layout, written out. -/
theorem ofLayout_eq_ok {l : Layout} {b : Board} (h : ofLayout l = .ok b) :
    0 < l.size ∧ l.player.position.inBounds l.size ∧ l.exit.inBounds l.size ∧
      b = { size := l.size, agent := .ofKind agentId l.player.position .agent,
            exit := .ofKind exitId l.exit .exitZone, objects := [], limits := l.limits,
            nextId := exitId + 1, facing := l.player.facing, carrying := none } := by
  unfold ofLayout at h
  split at h
  · cases h
  · next hsize =>
    split at h
    · cases h
    · next hnone =>
      have hcells := List.find?_eq_none.1 hnone
      simp only [List.mem_cons, List.not_mem_nil, or_false, forall_eq_or_imp, forall_eq,
        Bool.not_eq_true', Bool.not_eq_false] at hcells
      exact ⟨by omega, hcells.1, hcells.2, (Except.ok.inj h).symm⟩

/-- Adding puts numbered entities behind the others. -/
theorem addItems_eq_ok {b b' : Board} {items : List Item} {ids : List EntityId}
    (h : b.addItems items = .ok (b', ids)) :
    (∀ s ∈ items.flatMap (Item.expand b.size), s.1.inBounds b.size) ∧
      b' = { b with
        objects := b.objects ++ numbered b.nextId (items.flatMap (Item.expand b.size))
        nextId := b.nextId + (numbered b.nextId (items.flatMap (Item.expand b.size))).length } ∧
      ids = (numbered b.nextId (items.flatMap (Item.expand b.size))).map (·.id) := by
  simp only [addItems] at h
  split at h
  · cases h
  · next hnone =>
    have hcells := List.find?_eq_none.1 hnone
    simp only [List.mem_map, Bool.not_eq_true', Bool.not_eq_false, forall_exists_index, and_imp,
      forall_apply_eq_imp_iff₂] at hcells
    have hpair := Prod.mk.inj (Except.ok.inj h)
    exact ⟨hcells, hpair.1.symm, hpair.2.symm⟩

/-- The board without an object, its links as they were. -/
def without (b : Board) (id : EntityId) : Board :=
  { b with objects := b.objects.filter (·.id != id) }

/-- Removing takes out an object that is there and prunes the rest. -/
theorem remove_eq_ok {b b' : Board} {id : EntityId} {e : Entity}
    (h : b.remove id = .ok (b', e)) :
    b.entity? id = some e ∧ id ≠ b.agent.id ∧ id ≠ b.exit.id ∧
      b' = (b.without id).pruneLinks := by
  unfold remove at h
  split at h
  · cases h
  · next found =>
    split at h
    · cases h
    · next hfixed =>
      have hpair := Prod.mk.inj (Except.ok.inj h)
      rw [not_or] at hfixed
      exact ⟨hpair.2 ▸ found, hfixed.1, hfixed.2, hpair.1.symm⟩

/-- The board with another side and the objects that survive, its links as they were. -/
def cropped (b : Board) (size : Int) : Board :=
  { b with
    size := size
    agent := { b.agent with pos := b.agent.pos.clamp size }
    exit := { b.exit with pos := b.exit.pos.clamp size }
    objects := b.objects.filter (b.survives size) }

/-- Resizing crops the board, prunes it and takes the carried unit along. -/
theorem resized_eq_ok {b b' : Board} {size : Int} (h : b.resized size = .ok b') :
    0 < size ∧ b' = (b.cropped size).pruneLinks.trackCarried := by
  unfold resized at h
  split at h
  · cases h
  · next hsize => exact ⟨by omega, (Except.ok.inj h).symm⟩

/-- What an operation comes to: nothing, a successful edit, or ticks. -/
theorem perform_cases (b : Board) (op : Operation) :
    b.perform op = b ∨
    (∃ items ids, b.addItems items = .ok (b.perform op, ids)) ∨
    (∃ id e, b.remove id = .ok (b.perform op, e)) ∨
    (∃ size, b.resized size = .ok (b.perform op)) ∨
    ∃ actions, b.perform op = b.replay actions := by
  cases op with
  | add items =>
    rw [perform]
    split
    · next hadd => exact .inr (.inl ⟨items, _, hadd⟩)
    · exact .inl rfl
  | remove id =>
    rw [perform]
    split
    · next hremove => exact .inr (.inr (.inl ⟨id, _, hremove⟩))
    · exact .inl rfl
  | resize size =>
    rw [perform]
    split
    · next hresize => exact .inr (.inr (.inr (.inl ⟨size, hresize⟩)))
    · exact .inl rfl
  | act a => exact .inr (.inr (.inr (.inr ⟨[a], rfl⟩)))
  | word token =>
    rw [perform, applyToken]
    cases Action.ofName? token with
    | none => exact .inl rfl
    | some a => exact .inr (.inr (.inr (.inr ⟨[a], rfl⟩)))
  | replay actions => exact .inr (.inr (.inr (.inr ⟨actions, rfl⟩)))

/-! ### Induction over operations -/

/-- A property that layouts have and successful operations keep. -/
structure Preserved (P : Board → Prop) : Prop where
  ofLayout : ∀ {l b}, ofLayout l = .ok b → P b
  addItems : ∀ {b items b' ids}, P b → b.addItems items = .ok (b', ids) → P b'
  remove : ∀ {b id b' e}, P b → b.remove id = .ok (b', e) → P b'
  resized : ∀ {b size b'}, P b → b.resized size = .ok b' → P b'
  apply : ∀ {b} a, P b → P (b.apply a)

/-- What every tick keeps, a replay keeps. -/
theorem replay_keeps {P : Board → Prop} (tick : ∀ {b} a, P b → P (b.apply a))
    (actions : List Action) {b : Board} (h : P b) : P (b.replay actions) := by
  induction actions generalizing b with
  | nil => exact h
  | cons a actions ih =>
    rw [replay_cons]
    exact ih (tick a h)

/-- One operation keeps what is preserved. -/
theorem Preserved.perform {P : Board → Prop} (p : Preserved P) {b : Board} (h : P b)
    (op : Operation) : P (b.perform op) := by
  rcases perform_cases b op with
    hsame | ⟨items, ids, hadd⟩ | ⟨id, e, hremove⟩ | ⟨size, hresize⟩ | ⟨actions, hreplay⟩
  · rwa [hsame]
  · exact p.addItems h hadd
  · exact p.remove h hremove
  · exact p.resized h hresize
  · rw [hreplay]
    exact replay_keeps p.apply actions h

section Edits
variable {b b' : Board} (h : Reachable b)
include h

theorem Reachable.of_addItems {items : List Item} {ids : List EntityId}
    (hadd : b.addItems items = .ok (b', ids)) : Reachable b' := by
  have hperform : b.perform (.add items) = b' := by rw [Board.perform, hadd]
  exact hperform ▸ h.perform (.add items)

theorem Reachable.of_remove {id : EntityId} {e : Entity}
    (hremove : b.remove id = .ok (b', e)) : Reachable b' := by
  have hperform : b.perform (.remove id) = b' := by rw [Board.perform, hremove]
  exact hperform ▸ h.perform (.remove id)

theorem Reachable.of_resized {size : Int} (hresize : b.resized size = .ok b') : Reachable b' := by
  have hperform : b.perform (.resize size) = b' := by rw [Board.perform, hresize]
  exact hperform ▸ h.perform (.resize size)

end Edits

/-- What is preserved holds of every reachable board. -/
theorem Preserved.reachable {P : Board → Prop} (p : Preserved P) {b : Board} (h : Reachable b) :
    P b := by
  induction h with
  | ofLayout h => exact p.ofLayout h
  | perform _ op ih => exact p.perform ih op

end Board

end Shepherd.Grid
