import Mathlib.Data.List.Pairwise
import Shepherd.Proofs.Board.Herd

/-!
# Drawing

Entities are drawn by ascending priority, and in their order on the board where priorities are
equal. Every object has the priority of its kind, apart from the carried unit, so that on a
reachable board the agent is drawn last. Right before it comes the carried unit, or the exit if
there is none. -/

namespace Shepherd.Grid

/-! ### Sorting by a key -/

section Sorting
variable {α : Type} {key : α → Int} {l : List α}

/-- Whether the first key is not above the second. -/
def keyLE (key : α → Int) (x y : α) : Bool := key x ≤ key y

theorem keyLE_trans (x y z : α) (hxy : keyLE key x y = true) (hyz : keyLE key y z = true) :
    keyLE key x z = true :=
  decide_eq_true (Int.le_trans (of_decide_eq_true hxy) (of_decide_eq_true hyz))

theorem keyLE_total (x y : α) : (keyLE key x y || keyLE key y x) = true := by
  simpa [keyLE] using Int.le_total (key x) (key y)

theorem pairwise_mergeSort_key (key : α → Int) (l : List α) :
    (l.mergeSort (keyLE key)).Pairwise fun x y => key x ≤ key y :=
  (List.pairwise_mergeSort keyLE_trans keyLE_total l).imp of_decide_eq_true

/-- Sorting is stable: what has one key keeps its order. -/
theorem filter_mergeSort_key (key : α → Int) (l : List α) (k : Int) :
    (l.mergeSort (keyLE key)).filter (key · = k) = l.filter (key · = k) := by
  have hsame : (l.filter (key · = k)).Pairwise fun x y => keyLE key x y = true := by
    refine List.pairwise_of_forall_mem_list fun x hx y hy => decide_eq_true (Int.le_of_eq ?_)
    rw [of_decide_eq_true (List.mem_filter.1 hx).2, of_decide_eq_true (List.mem_filter.1 hy).2]
  have hkept := (List.sublist_mergeSort keyLE_trans keyLE_total hsame
    List.filter_sublist).filter (key · = k)
  simp only [List.filter_filter, Bool.and_self] at hkept
  -- both have as many entries with the key
  have hcount := ((List.mergeSort_perm l (keyLE key)).filter (key · = k)).length_eq
  exact (hkept.eq_of_length hcount.symm).symm

/-- Where keys ascend, what has the one greatest key is the last. -/
theorem exists_eq_concat_of_greatest {x : α} (ascending : l.Pairwise fun y z => key y ≤ key z)
    (distinct : l.Nodup) (mem : x ∈ l) (greatest : ∀ y ∈ l, y ≠ x → key y < key x) :
    ∃ below, l = below ++ [x] := by
  obtain ⟨below, above, rfl⟩ := List.append_of_mem mem
  cases above with
  | nil => exact ⟨below, rfl⟩
  | cons y above =>
    have hle : key x ≤ key y :=
      (List.pairwise_cons.1 (List.pairwise_append.1 ascending).2.1).1 y List.mem_cons_self
    have hne : y ≠ x := fun h =>
      (List.nodup_cons.1 (List.nodup_append.1 distinct).2.1).1 (h ▸ List.mem_cons_self)
    have hlt := greatest y (by simp) hne
    omega

end Sorting

namespace Board

/-! ### Priorities -/

/-- Every entity has the priority of its kind, unless it is carried. -/
structure Layered (b : Board) : Prop where
  agent : b.agent.priority = Kind.agent.defaultPriority
  exit : b.exit.priority = Kind.exitZone.defaultPriority
  resting : ∀ e ∈ b.objects, b.carrying ≠ some e.id → e.priority = e.kind.defaultPriority

namespace Layered
variable {b : Board}

theorem move (h : Layered b) (a : Action) : Layered (b.move a) := by
  rw [move_eq]
  exact ⟨h.agent, h.exit, h.resting⟩

/-- A unit that is dropped gets back the priority of its kind. -/
theorem settle (h : Layered b) : Layered b.settle := by
  rcases settle_cases b with hsame | ⟨unit, hcarry, -, hpick⟩ | ⟨u, target, hcarry, -, hdrop⟩
  · rwa [hsame]
  · rw [hpick]
    refine ⟨h.agent, h.exit, List.forall_mem_map.2 fun e he hother => ?_⟩
    rw [(keepsIdentity_lifted unit.id).id] at hother
    have hid : e.id ≠ unit.id := fun hid => hother (congrArg some hid.symm)
    rw [lifted, if_neg hid]
    have hfree : b.carrying ≠ some e.id := fun hcarried => by
      rw [hcarry] at hcarried
      cases hcarried
    exact h.resting e he hfree
  · rw [hdrop]
    refine ⟨h.agent, h.exit, List.forall_mem_map.2 fun e he _ => ?_⟩
    rw [linkedUp, Function.comp_apply]
    by_cases hu : e.id = u
    · have hid : (if e.id = target.id then { e with kind := e.kind.withLink (some u) } else e).id =
          u := by split <;> exact hu
      rw [if_pos hid, placedOn, Kind.defaultPriority_withLink]
    · have hid : (if e.id = target.id then { e with kind := e.kind.withLink (some u) } else e).id ≠
          u := by split <;> exact hu
      have hpriority := h.resting e he fun hcarried =>
        hu (Option.some.inj (hcarry.symm.trans hcarried)).symm
      rw [if_neg hid]
      split
      · rw [Kind.defaultPriority_withLink]
        exact hpriority
      · exact hpriority

theorem trackCarried (h : Layered b) : Layered b.trackCarried := by
  rw [trackCarried_eq]
  refine ⟨h.agent, h.exit, List.forall_mem_map.2 fun e he hother => ?_⟩
  rw [(keepsIdentity_tracked b).id] at hother
  rw [tracked, if_neg hother]
  exact h.resting e he hother

/-- Pruning empties the carry slot only if the carried unit went. -/
theorem prune (h : Layered b) {p : Entity → Bool} {b' : Board}
    (agent : b'.agent.priority = b.agent.priority) (exit : b'.exit.priority = b.exit.priority)
    (carrying : b'.carrying = b.carrying) (objects : b'.objects = b.objects.filter p) :
    Layered b'.pruneLinks := by
  refine ⟨agent.trans h.agent, exit.trans h.exit, List.forall_mem_map.2 fun e he hother => ?_⟩
  have hcontains : b'.contains e.id = true :=
    List.any_eq_true.2 ⟨e, mem_entities.2 (.inr (.inr he)), beq_self_eq_true _⟩
  have hresting : b.carrying ≠ some e.id := fun hcarry => hother <| by
    rw [pruneLinks, carrying, hcarry, Option.filter_some, if_pos hcontains]
    rfl
  rw [pruned, Kind.defaultPriority_withLink]
  rw [objects] at he
  exact h.resting e (List.mem_filter.1 he).1 hresting

end Layered

/-- Every operation keeps the priorities. -/
theorem preserved_layered : Preserved Layered where
  ofLayout h := by
    obtain ⟨-, -, -, rfl⟩ := ofLayout_eq_ok h
    exact ⟨rfl, rfl, fun _ he => absurd he List.not_mem_nil⟩
  addItems h hadd := by
    obtain ⟨-, rfl, -⟩ := addItems_eq_ok hadd
    refine ⟨h.agent, h.exit, fun e he hother => ?_⟩
    rcases List.mem_append.1 he with he | he
    · exact h.resting e he hother
    · exact (mem_added he).2.2.2.2
  remove h hremove := by
    obtain ⟨-, -, -, rfl⟩ := remove_eq_ok hremove
    exact h.prune rfl rfl rfl rfl
  resized {b size _} h hresize := by
    obtain ⟨-, rfl⟩ := resized_eq_ok hresize
    have hpruned : Layered (b.cropped size).pruneLinks := h.prune rfl rfl rfl rfl
    exact hpruned.trackCarried
  apply a h := (h.move a).settle.trackCarried

theorem Reachable.layered {b : Board} (h : Reachable b) : Layered b := preserved_layered.reachable h

section Priorities
variable {b : Board} {e : Entity}

/-- What is neither carried nor agent nor exit is drawn below the exit. -/
theorem Layered.below_exit (h : Layered b) (n : Numbered b) (he : e ∈ b.objects)
    (hother : b.carrying ≠ some e.id) : e.priority < b.exit.priority := by
  have hagent := n.no_agent e he
  have hexit := n.no_exit e he
  rw [h.resting e he hother, h.exit]
  cases hkind : e.kind with
  | agent => exact absurd hkind hagent
  | exitZone => exact absurd hkind hexit
  | obstacle | herdUnit | herdTarget => simp only [Kind.defaultPriority]; decide

/-- The agent is drawn above everything else. -/
theorem Layered.below_agent (h : Layered b) (n : Numbered b) (herd : Herd b) (he : e ∈ b.entities)
    (hne : e ≠ b.agent) : e.priority < b.agent.priority := by
  have hexit : b.exit.priority < b.agent.priority := by
    rw [h.exit, h.agent]
    decide
  rcases mem_entities.1 he with rfl | rfl | he
  · exact absurd rfl hne
  · exact hexit
  · by_cases hcarry : b.carrying = some e.id
    · obtain ⟨unit, hunit, hid, -, hpriority⟩ := herd.carried e.id hcarry
      rw [← eq_of_id_eq n.sorted hunit he hid, hpriority, h.agent]
      decide
    · exact Int.lt_trans (h.below_exit n he hcarry) hexit

end Priorities

/-! ### The order -/

section Order
variable {b : Board}

theorem drawOrder_perm (b : Board) : b.drawOrder.Perm b.entities := List.mergeSort_perm _ _

theorem drawOrder_ascending (b : Board) :
    b.drawOrder.Pairwise fun d e => d.priority ≤ e.priority :=
  pairwise_mergeSort_key Entity.priority b.entities

/-- Nothing is drawn after the agent. -/
theorem Layered.exists_drawOrder_eq (h : Layered b) (n : Numbered b) (herd : Herd b) :
    ∃ below, b.drawOrder = below ++ [b.agent] ∧ below.Perm (b.exit :: b.objects) := by
  have hperm := drawOrder_perm b
  obtain ⟨below, hbelow⟩ := exists_eq_concat_of_greatest (drawOrder_ascending b)
    (hperm.nodup_iff.2 n.nodup_entities) (hperm.mem_iff.2 (mem_entities.2 (.inl rfl)))
    fun e he hne => h.below_agent n herd (hperm.mem_iff.1 he) hne
  rw [hbelow] at hperm
  exact ⟨below, hbelow, (List.perm_append_comm.trans hperm).cons_inv⟩

/-- What is above exit and objects is drawn right before the agent. -/
theorem Layered.drawn_next (h : Layered b) (n : Numbered b) (herd : Herd b) {e : Entity}
    (he : e ∈ b.exit :: b.objects)
    (greatest : ∀ d ∈ b.exit :: b.objects, d ≠ e → d.priority < e.priority) :
    ∃ below, b.drawOrder = below ++ [e, b.agent] := by
  obtain ⟨below, hbelow, hperm⟩ := h.exists_drawOrder_eq n herd
  have hascending := drawOrder_ascending b
  rw [hbelow] at hascending
  have hdistinct : (b.exit :: b.objects).Nodup := (List.nodup_cons.1 n.nodup_entities).2
  obtain ⟨rest, rfl⟩ := exists_eq_concat_of_greatest (List.pairwise_append.1 hascending).1
    (hperm.nodup_iff.2 hdistinct) (hperm.mem_iff.2 he)
    fun d hd hne => greatest d (hperm.mem_iff.1 hd) hne
  exact ⟨rest, by rw [hbelow, List.append_assoc, List.singleton_append]⟩

/-- The carried unit is drawn right before the agent. -/
theorem Layered.carried_next (h : Layered b) (n : Numbered b) (herd : Herd b) {unit : Entity}
    (mem : unit ∈ b.objects) (hcarry : b.carrying = some unit.id)
    (hpriority : unit.priority = Kind.carriedPriority) :
    ∃ below, b.drawOrder = below ++ [unit, b.agent] := by
  have hexit : b.exit.priority < unit.priority := by
    rw [h.exit, hpriority]
    decide
  refine h.drawn_next n herd (List.mem_cons_of_mem _ mem) fun d hd hne => ?_
  rcases List.mem_cons.1 hd with rfl | hd
  · exact hexit
  · have hother : b.carrying ≠ some d.id := fun hcarried =>
      hne (eq_of_id_eq n.sorted hd mem (Option.some.inj (hcarried.symm.trans hcarry)))
    exact Int.lt_trans (h.below_exit n hd hother) hexit

/-- Where nothing is carried, the exit is drawn right before the agent. -/
theorem Layered.exit_next (h : Layered b) (n : Numbered b) (herd : Herd b)
    (hcarry : b.carrying = none) : ∃ below, b.drawOrder = below ++ [b.exit, b.agent] := by
  refine h.drawn_next n herd List.mem_cons_self fun d hd hne => ?_
  rcases List.mem_cons.1 hd with rfl | hd
  · exact absurd rfl hne
  · exact h.below_exit n hd (by rw [hcarry]; nofun)

end Order

/-- The order in which the entities of a board are drawn. -/
structure DrawnInOrder (b : Board) (order : List Entity) : Prop where
  perm : order.Perm b.entities
  ascending : order.Pairwise fun d e => d.priority ≤ e.priority
  /-- Entities of one priority keep their order. -/
  stable : ∀ priority : Int, order.filter (·.priority = priority) =
    b.entities.filter (·.priority = priority)
  agent_last : order.getLast? = some b.agent
  carried_next : ∀ u, b.carrying = some u → ∃ below e, b.entity? u = some e ∧
    order = below ++ [e, b.agent]
  exit_next : b.carrying = none → ∃ below, order = below ++ [b.exit, b.agent]

/-- **The agent is drawn last, and before it what it carries.** On every board that operations lead
to, the draw order lists the entities by ascending priority and keeps their order where priorities
are equal. The agent is last, and right before it comes the carried unit, or the exit if there is
none. -/
theorem Reachable.drawnInOrder {b : Board} (h : Reachable b) : DrawnInOrder b b.drawOrder := by
  obtain ⟨n, herd, -⟩ := preserved_herd.reachable h
  have hlayered := h.layered
  refine ⟨drawOrder_perm b, drawOrder_ascending b,
    filter_mergeSort_key Entity.priority b.entities, ?_, ?_, hlayered.exit_next n herd⟩
  · obtain ⟨below, hbelow, -⟩ := hlayered.exists_drawOrder_eq n herd
    rw [hbelow, List.getLast?_concat]
  · intro u hcarry
    obtain ⟨unit, hunit, rfl, -, hpriority⟩ := herd.carried u hcarry
    obtain ⟨below, hbelow⟩ := hlayered.carried_next n herd hunit hcarry hpriority
    exact ⟨below, unit, n.entity?_object hunit, hbelow⟩

/-- One unit is on its target and another one carried; both were carried before. -/
theorem drawnInOrder_second_carried : ∃ b : Board, Reachable b ∧ b.carrying = some 4 ∧
    b.entities.map (fun e => (e.id, e.priority)) =
      [(0, 9999), (1, 2), (2, 1), (3, 0), (4, 9998), (5, 0)] ∧ DrawnInOrder b b.drawOrder := by
  have reachable := (Reachable.ofLayout (l := ⟨5, ⟨⟨1, 3⟩, .north⟩, ⟨3, 3⟩, .none⟩) rfl).perform
    (.add [.sheep ⟨1, 2⟩ .pink, .target ⟨2, 2⟩ .pink, .sheep ⟨3, 2⟩ .white, .block .wall ⟨4, 4⟩])
    |>.perform (.replay [.forward, .right, .right])
  exact ⟨_, reachable, by decide +kernel, by decide +kernel, reachable.drawnInOrder⟩

end Shepherd.Grid.Board
