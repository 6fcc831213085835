import Shepherd.Proofs.Board.Identity

/-!
# Integrity

Whatever was done to a board, agent and exit have their slots, every entity stands on a cell of the
board, and every identity stands for one entity for good. `Housed` is about a board by itself, and
each operation keeps it. `Evolves` compares a board with a later one: entities may go, those that
are left are who they were, and new ones have new identities.
-/

namespace Shepherd.Grid

/-! ### Cells and walkability -/

/-- An entity on a cell of the board, and as walkable as its kind. -/
structure Entity.Standing (size : Int) (e : Entity) : Prop where
  inBounds : e.pos.inBounds size = true
  walkable : e.walkable = e.kind.defaultWalkable

namespace Board

section Standing
variable {size : Int} {e : Entity}

theorem standing_ofKind {id : EntityId} {pos : Position} {kind : Kind}
    (h : pos.inBounds size = true) : (Entity.ofKind id pos kind).Standing size :=
  ⟨h, rfl⟩

/-- A change of cell, priority and link only is no matter as long as the cell is on the board. -/
theorem standing_of_keepsIdentity {f : Entity → Entity} (hf : KeepsIdentity f) (h : e.Standing size)
    (hpos : (f e).pos.inBounds size = true) : (f e).Standing size := by
  obtain ⟨link, hkind⟩ := hf.kind e
  exact ⟨hpos, by rw [hf.walkable, h.walkable, hkind, Kind.defaultWalkable_withLink]⟩

end Standing

/-- There are cells, and all entities stand on them. -/
structure Housed (b : Board) : Prop where
  size_pos : 0 < b.size
  standing : ∀ e ∈ b.entities, e.Standing b.size

namespace Housed
variable {b : Board}

theorem agent (h : Housed b) : b.agent.Standing b.size :=
  h.standing _ (mem_entities.2 (.inl rfl))

theorem exit (h : Housed b) : b.exit.Standing b.size :=
  h.standing _ (mem_entities.2 (.inr (.inl rfl)))

theorem object (h : Housed b) {e : Entity} (he : e ∈ b.objects) : e.Standing b.size :=
  h.standing e (mem_entities.2 (.inr (.inr he)))

theorem of_parts {b : Board} (size_pos : 0 < b.size) (agent : b.agent.Standing b.size)
    (exit : b.exit.Standing b.size) (objects : ∀ e ∈ b.objects, e.Standing b.size) : Housed b := by
  refine ⟨size_pos, fun e he => ?_⟩
  rcases mem_entities.1 he with rfl | rfl | he
  · exact agent
  · exact exit
  · exact objects e he

/-- Objects can be changed as long as they stay on the board. -/
theorem map (h : Housed b) {f : Entity → Entity} (hf : KeepsIdentity f)
    (hpos : ∀ e ∈ b.objects, (f e).pos.inBounds b.size = true) (carrying : Option EntityId) :
    Housed { b with objects := b.objects.map f, carrying := carrying } := by
  refine of_parts h.size_pos h.agent h.exit ?_
  rw [List.forall_mem_map]
  exact fun e he => standing_of_keepsIdentity hf (h.object he) (hpos e he)

theorem step (h : Housed b) (goal : Position) : Housed (b.step goal) := by
  rw [Board.step]
  split
  · exact h
  · exact of_parts h.size_pos ⟨Position.inBounds_clamp h.size_pos goal, h.agent.walkable⟩ h.exit
      fun e he => h.object he

theorem move (h : Housed b) (a : Action) : Housed (b.move a) := by
  cases a with
  | forward | backward | left | right => exact h.step _
  | turnLeft | turnRight => exact ⟨h.size_pos, h.standing⟩

theorem settle (h : Housed b) : Housed b.settle := by
  rcases settle_cases b with hsame | ⟨unit, -, -, hpick⟩ | ⟨unit, target, -, htarget, hdrop⟩
  · rwa [hsame]
  · rw [hpick]
    refine h.map (keepsIdentity_lifted _) (fun e he => ?_) _
    have hpos : (lifted unit.id e).pos = e.pos := by unfold lifted; split <;> rfl
    rw [hpos]
    exact (h.object he).inBounds
  · rw [hdrop]
    refine h.map (keepsIdentity_linkedUp unit target) (fun e he => ?_) _
    have hmem : target ∈ b.objects := by
      obtain ⟨c, -, hfound⟩ := Option.bind_eq_some_iff.1 htarget
      exact List.mem_of_find?_eq_some hfound
    rcases linkedUp_pos unit target e with hpos | hpos <;> rw [hpos]
    · exact (h.object hmem).inBounds
    · exact (h.object he).inBounds

theorem trackCarried (h : Housed b) : Housed b.trackCarried := by
  rw [trackCarried_eq]
  refine h.map (keepsIdentity_tracked b) (fun e he => ?_) _
  rw [tracked]
  split
  · exact h.agent.inBounds
  · exact (h.object he).inBounds

theorem pruneLinks (h : Housed b) : Housed b.pruneLinks :=
  h.map (keepsIdentity_pruned b) (fun _ he => (h.object he).inBounds) _

theorem without (h : Housed b) (id : EntityId) : Housed (b.without id) :=
  of_parts h.size_pos h.agent h.exit fun _ he => h.object (List.mem_filter.1 he).1

/-- Objects survive only on cells of the new board, and agent and exit move onto it. -/
theorem cropped (h : Housed b) {size : Int} (hsize : 0 < size) : Housed (b.cropped size) := by
  have hclamp := Position.inBounds_clamp hsize
  refine of_parts hsize ⟨hclamp _, h.agent.walkable⟩ ⟨hclamp _, h.exit.walkable⟩ fun e he => ?_
  obtain ⟨he, hsurvives⟩ := List.mem_filter.1 he
  exact ⟨(Bool.and_eq_true_iff.1 hsurvives).2, (h.object he).walkable⟩

theorem addItems (h : Housed b) {items : List Item} {b' : Board} {ids : List EntityId}
    (hadd : b.addItems items = .ok (b', ids)) : Housed b' := by
  obtain ⟨hcells, rfl, -⟩ := addItems_eq_ok hadd
  refine of_parts h.size_pos h.agent h.exit fun e he => ?_
  rcases List.mem_append.1 he with he | he
  · exact h.object he
  · obtain ⟨-, -, s, hs, he⟩ := mem_numbered he
    rw [he]
    exact standing_ofKind (hcells s hs)

end Housed

/-- Every operation leaves all entities on the board. -/
theorem preserved_housed : Preserved Housed where
  ofLayout h := by
    obtain ⟨hsize, hagent, hexit, rfl⟩ := ofLayout_eq_ok h
    exact .of_parts hsize (standing_ofKind hagent) (standing_ofKind hexit)
      fun _ he => absurd he List.not_mem_nil
  addItems h hadd := h.addItems hadd
  remove h hremove := by
    obtain ⟨-, -, -, rfl⟩ := remove_eq_ok hremove
    exact (h.without _).pruneLinks
  resized h hresize := by
    obtain ⟨hsize, rfl⟩ := resized_eq_ok hresize
    exact (h.cropped hsize).pruneLinks.trackCarried
  apply a h := (h.move a).settle.trackCarried

theorem Reachable.housed {b : Board} (h : Reachable b) : Housed b := preserved_housed.reachable h

/-! ### Later boards -/

/-- What a board has in common with one that it came from: of the identities that had been given
away by then, only those that were there can be left, and they stand for what they stood for. -/
structure Evolves (b b' : Board) : Prop where
  nextId : b.nextId ≤ b'.nextId
  known : ∀ e' ∈ b'.entities, e'.id < b.nextId →
    ∃ e ∈ b.entities, e.id = e'.id ∧ ∃ link, e'.kind = e.kind.withLink link

namespace Evolves
variable {b b' b'' : Board}

theorem refl (b : Board) : Evolves b b :=
  ⟨Nat.le_refl _, fun e he _ => ⟨e, he, rfl, e.kind.link?, e.kind.withLink_link?.symm⟩⟩

theorem trans (first : Evolves b b') (second : Evolves b' b'') : Evolves b b'' := by
  refine ⟨Nat.le_trans first.nextId second.nextId, fun e'' he'' hid => ?_⟩
  obtain ⟨e', he', hid', link', hkind'⟩ :=
    second.known e'' he'' (Nat.lt_of_lt_of_le hid first.nextId)
  obtain ⟨e, he, hid, link, hkind⟩ := first.known e' he' (hid' ▸ hid)
  exact ⟨e, he, hid.trans hid', link', by rw [hkind', hkind, Kind.withLink_withLink]⟩

/-- Objects may go, and others change, as long as they stay who they are. -/
theorem of_objects (agent_id : b'.agent.id = b.agent.id) (agent_kind : b'.agent.kind = b.agent.kind)
    (exit_id : b'.exit.id = b.exit.id) (exit_kind : b'.exit.kind = b.exit.kind)
    (next : b'.nextId = b.nextId) {kept : List Entity} (hkept : kept ⊆ b.objects)
    {f : Entity → Entity} (hf : KeepsIdentity f) (objects : b'.objects = kept.map f) :
    Evolves b b' := by
  refine ⟨Nat.le_of_eq next.symm, fun e' he' _ => ?_⟩
  rcases mem_entities.1 he' with rfl | rfl | he'
  · exact ⟨b.agent, mem_entities.2 (.inl rfl), agent_id.symm, b.agent.kind.link?, by
      rw [agent_kind, Kind.withLink_link?]⟩
  · exact ⟨b.exit, mem_entities.2 (.inr (.inl rfl)), exit_id.symm, b.exit.kind.link?, by
      rw [exit_kind, Kind.withLink_link?]⟩
  · rw [objects] at he'
    obtain ⟨e, he, rfl⟩ := List.mem_map.1 he'
    exact ⟨e, mem_entities.2 (.inr (.inr (hkept he))), (hf.id e).symm, hf.kind e⟩

theorem move (b : Board) (a : Action) : Evolves b (b.move a) := by
  rw [move_eq]
  exact of_objects rfl rfl rfl rfl rfl (List.Subset.refl _) .refl (List.map_id' _).symm

theorem settle (b : Board) : Evolves b b.settle := by
  obtain ⟨f, hf, hsettle⟩ := settle_frame b
  rw [hsettle]
  exact of_objects rfl rfl rfl rfl rfl (List.Subset.refl _) hf rfl

theorem trackCarried (b : Board) : Evolves b b.trackCarried := by
  rw [trackCarried_eq]
  exact of_objects rfl rfl rfl rfl rfl (List.Subset.refl _) (keepsIdentity_tracked b) rfl

theorem apply (b : Board) (a : Action) : Evolves b (b.apply a) :=
  ((move b a).trans (settle _)).trans (trackCarried _)

theorem replay (b : Board) (actions : List Action) : Evolves b (b.replay actions) := by
  exact replay_keeps (P := Evolves b) (fun a h => h.trans (apply _ a)) actions (refl b)

theorem without (b : Board) (id : EntityId) : Evolves b (b.without id).pruneLinks :=
  of_objects rfl rfl rfl rfl rfl List.filter_sublist.subset (keepsIdentity_pruned _) rfl

theorem cropped (b : Board) (size : Int) : Evolves b (b.cropped size).pruneLinks :=
  of_objects rfl rfl rfl rfl rfl List.filter_sublist.subset (keepsIdentity_pruned _) rfl

theorem addItems {items : List Item} {ids : List EntityId}
    (hadd : b.addItems items = .ok (b', ids)) : Evolves b b' := by
  obtain ⟨-, rfl, -⟩ := addItems_eq_ok hadd
  refine ⟨Nat.le_add_right _ _, fun e he hid => ?_⟩
  refine (refl b).known e (mem_entities.2 ?_) hid
  rcases mem_entities.1 he with rfl | rfl | he
  · exact .inl rfl
  · exact .inr (.inl rfl)
  · rcases List.mem_append.1 he with he | he
    · exact .inr (.inr he)
    · exact absurd hid (Nat.not_lt.2 (mem_added he).1)

theorem perform (b : Board) (op : Operation) : Evolves b (b.perform op) := by
  rcases perform_cases b op with
    hsame | ⟨items, ids, hadd⟩ | ⟨id, e, hremove⟩ | ⟨size, hresize⟩ | ⟨actions, hreplay⟩
  · rw [hsame]
    exact refl b
  · exact addItems hadd
  · obtain ⟨-, -, -, heq⟩ := remove_eq_ok hremove
    rw [heq]
    exact without b id
  · obtain ⟨-, heq⟩ := resized_eq_ok hresize
    rw [heq]
    exact (cropped b size).trans (trackCarried _)
  · rw [hreplay]
    exact replay b actions

theorem performAll (b : Board) (ops : List Operation) : Evolves b (b.performAll ops) := by
  induction ops generalizing b with
  | nil => exact refl b
  | cons op ops ih => exact (perform b op).trans (ih _)

end Evolves

/-! ### Reachable boards -/

/-- What stands on a board, as those see it who go through the entities or look them up. -/
structure Integrity (b : Board) : Prop where
  size_pos : 0 < b.size
  agent : ∃ e, b.entities[0]? = some e ∧ e.id = agentId ∧ e.kind = .agent
  exit : ∃ e, b.entities[1]? = some e ∧ e.id = exitId ∧ e.kind = .exitZone
  /-- No other slot holds an agent or an exit. -/
  others : ∀ slot e, b.entities[slot]? = some e → (e.kind = .agent → slot = 0) ∧
    (e.kind = .exitZone → slot = 1)
  ascending : b.entities.Pairwise fun d e => d.id < e.id
  issued : ∀ e ∈ b.entities, e.id < b.nextId
  lookup : ∀ id e, b.entity? id = some e ↔ e ∈ b.entities ∧ e.id = id
  unknown : ∀ id, b.entity? id = none ↔ ∀ e ∈ b.entities, e.id ≠ id
  inBounds : ∀ e ∈ b.entities, (0 ≤ e.pos.x ∧ e.pos.x ≤ b.size - 1) ∧
    0 ≤ e.pos.y ∧ e.pos.y ≤ b.size - 1
  walkable : ∀ e ∈ b.entities, e.walkable = e.kind.defaultWalkable

/-- What the identities of a board are on a later one. -/
structure Lasting (b b' : Board) : Prop where
  nextId : b.nextId ≤ b'.nextId
  /-- An entity may be linked with another one, but stays what it is and keeps its colour. -/
  same : ∀ id e e', b.entity? id = some e → b'.entity? id = some e' →
    ∃ link, e'.kind = e.kind.withLink link
  /-- An identity that was given away and is gone does not come back. -/
  gone : ∀ id < b.nextId, b.entity? id = none → b'.entity? id = none

section Identities
variable {b b' : Board}

theorem Numbered.issued (n : Numbered b) {e : Entity} (he : e ∈ b.entities) : e.id < b.nextId := by
  rcases mem_entities.1 he with rfl | rfl | he
  · rw [n.agent_id]
    exact Nat.lt_trans Nat.zero_lt_one n.fresh
  · rw [n.exit_id]
    exact n.fresh
  · exact n.upper e he

theorem entity?_eq_none_iff {id : EntityId} :
    b.entity? id = none ↔ ∀ e ∈ b.entities, e.id ≠ id := by
  rw [entity?, List.find?_eq_none]
  simp only [beq_iff_eq, Ne]

theorem Numbered.integrity (n : Numbered b) (h : Housed b) : Integrity b where
  size_pos := h.size_pos
  agent := ⟨b.agent, rfl, n.agent_id, n.agent_kind⟩
  exit := ⟨b.exit, rfl, n.exit_id, n.exit_kind⟩
  others := by
    intro slot e hslot
    match slot with
    | 0 =>
      obtain rfl := Option.some.inj hslot
      rw [n.agent_kind]
      exact ⟨fun _ => rfl, nofun⟩
    | 1 =>
      obtain rfl := Option.some.inj hslot
      rw [n.exit_kind]
      exact ⟨nofun, fun _ => rfl⟩
    | slot + 2 =>
      have he : e ∈ b.objects := List.mem_of_getElem? hslot
      exact ⟨fun hkind => absurd hkind (n.no_agent e he),
        fun hkind => absurd hkind (n.no_exit e he)⟩
  ascending := n.entities_sorted
  issued := fun _ he => n.issued he
  lookup := fun _ _ => n.entity?_eq_some_iff
  unknown := fun _ => entity?_eq_none_iff
  inBounds := fun e he => by
    have := Position.inBounds_iff.1 (h.standing e he).inBounds
    omega
  walkable := fun e he => (h.standing e he).walkable

theorem Evolves.lasting (h : Evolves b b') (n : Numbered b) (n' : Numbered b') : Lasting b b' where
  nextId := h.nextId
  same := by
    intro id e e' hlookup hlookup'
    obtain ⟨he, hid⟩ := n.entity?_eq_some_iff.1 hlookup
    obtain ⟨he', rfl⟩ := n'.entity?_eq_some_iff.1 hlookup'
    obtain ⟨d, hd, hdid, hkind⟩ := h.known e' he' (hid ▸ n.issued he)
    rwa [eq_of_id_eq n.entities_sorted hd he (hdid.trans hid.symm)] at hkind
  gone := by
    intro id hid hnone
    rw [entity?_eq_none_iff] at hnone ⊢
    rintro e' he' rfl
    obtain ⟨e, he, heid, -⟩ := h.known e' he' hid
    exact hnone e he heid

theorem Reachable.performAll (h : Reachable b) (ops : List Operation) :
    Reachable (b.performAll ops) := by
  induction ops generalizing b with
  | nil => exact h
  | cons op ops ih => exact ih (h.perform op)

theorem Reachable.lasting (h : Reachable b) (ops : List Operation) :
    Lasting b (b.performAll ops) :=
  (Evolves.performAll b ops).lasting h.numbered (h.performAll ops).numbered

/-- A removed object cannot be looked up. -/
theorem entity?_of_remove {id : EntityId} {e : Entity} (h : b.remove id = .ok (b', e)) :
    b'.entity? id = none := by
  obtain ⟨-, hagent, hexit, rfl⟩ := remove_eq_ok h
  rw [entity?_eq_none_iff]
  intro d hd hid
  rcases mem_entities.1 hd with rfl | rfl | hobject
  · exact hagent hid.symm
  · exact hexit hid.symm
  · obtain ⟨kept, hkept, rfl⟩ := List.mem_map.1 hobject
    exact absurd hid (bne_iff_ne.1 (List.mem_filter.1 hkept).2)

/-- An object that does not survive a resize cannot be looked up afterwards. -/
theorem entity?_of_resized (n : Numbered b) {size : Int} (h : b.resized size = .ok b') {e : Entity}
    (he : e ∈ b.objects) (hsurvives : b.survives size e = false) : b'.entity? e.id = none := by
  obtain ⟨-, rfl⟩ := resized_eq_ok h
  have hlow := n.lower e he
  rw [trackCarried_eq, entity?_eq_none_iff]
  intro d hd hid
  rcases mem_entities.1 hd with rfl | rfl | hobject
  · exact absurd (n.agent_id.symm.trans hid) (Nat.ne_of_lt (Nat.lt_trans Nat.zero_lt_one hlow))
  · exact absurd (n.exit_id.symm.trans hid) (Nat.ne_of_lt hlow)
  · obtain ⟨pruned, hpruned, rfl⟩ := List.mem_map.1 hobject
    obtain ⟨kept, hkept, rfl⟩ := List.mem_map.1 hpruned
    rw [(keepsIdentity_tracked _).id] at hid
    obtain ⟨hmem, hstays⟩ := List.mem_filter.1 hkept
    rw [eq_of_id_eq n.sorted hmem he hid, hsurvives] at hstays
    cases hstays

section Gone
variable (h : Reachable b) (ops : List Operation)
include h

/-- A removed object is never found again. -/
theorem Reachable.entity?_removed {id : EntityId} {e : Entity}
    (hremove : b.remove id = .ok (b', e)) : (b'.performAll ops).entity? id = none := by
  have hb' : Reachable b' := by
    have hperform : b.perform (.remove id) = b' := by rw [Board.perform, hremove]
    exact hperform ▸ h.perform (.remove id)
  obtain ⟨hlookup, -, -, heq⟩ := remove_eq_ok hremove
  obtain ⟨he, rfl⟩ := h.numbered.entity?_eq_some_iff.1 hlookup
  refine (hb'.lasting ops).gone _ ?_ (entity?_of_remove hremove)
  rw [heq]
  exact h.numbered.issued he

/-- Neither is an object that did not survive a resize. -/
theorem Reachable.entity?_cropped {size : Int} {e : Entity} (hresize : b.resized size = .ok b')
    (he : e ∈ b.objects) (hsurvives : b.survives size e = false) :
    (b'.performAll ops).entity? e.id = none := by
  have hb' : Reachable b' := by
    have hperform : b.perform (.resize size) = b' := by rw [Board.perform, hresize]
    exact hperform ▸ h.perform (.resize size)
  refine (hb'.lasting ops).gone _ ?_ (entity?_of_resized h.numbered hresize he hsurvives)
  obtain ⟨-, rfl⟩ := resized_eq_ok hresize
  rw [trackCarried_eq]
  exact h.numbered.upper e he

end Gone

end Identities

end Board

end Shepherd.Grid
