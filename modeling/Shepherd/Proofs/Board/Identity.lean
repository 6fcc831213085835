import Shepherd.Proofs.Board.Reachable

/-!
# Identities

Agent, exit and objects of a reachable board have identities of their own, the objects in ascending
order, so that looking up an identity finds the one entity that carries it. Ticks and edits change
an entity's place, priority and link, never its identity, its kind or its colour.
-/

namespace Shepherd.Grid

/-! ### Changes that keep who an entity is -/

/-- A change of places, priorities and links only. -/
structure KeepsIdentity (f : Entity → Entity) : Prop where
  id : ∀ e, (f e).id = e.id
  walkable : ∀ e, (f e).walkable = e.walkable
  kind : ∀ e, ∃ link, (f e).kind = e.kind.withLink link

namespace KeepsIdentity

theorem of_kind_eq {f : Entity → Entity} (id : ∀ e, (f e).id = e.id)
    (walkable : ∀ e, (f e).walkable = e.walkable) (kind : ∀ e, (f e).kind = e.kind) :
    KeepsIdentity f :=
  ⟨id, walkable, fun e => ⟨e.kind.link?, by rw [kind, Kind.withLink_link?]⟩⟩

theorem refl : KeepsIdentity fun e => e :=
  of_kind_eq (fun _ => rfl) (fun _ => rfl) fun _ => rfl

theorem comp {f g : Entity → Entity} (hg : KeepsIdentity g) (hf : KeepsIdentity f) :
    KeepsIdentity (g ∘ f) := by
  refine ⟨fun e => (hg.id _).trans (hf.id e), fun e => (hg.walkable _).trans (hf.walkable e), ?_⟩
  intro e
  obtain ⟨l, hl⟩ := hf.kind e
  obtain ⟨l', hl'⟩ := hg.kind (f e)
  exact ⟨l', by rw [Function.comp_apply, hl', hl, Kind.withLink_withLink]⟩

theorem ite {f : Entity → Entity} (hf : KeepsIdentity f) (p : Entity → Prop) [DecidablePred p] :
    KeepsIdentity fun e => if p e then f e else e := by
  refine ⟨?_, ?_, ?_⟩ <;> intro e <;> by_cases he : p e
  · simp only [if_pos he, hf.id]
  · simp only [if_neg he]
  · simp only [if_pos he, hf.walkable]
  · simp only [if_neg he]
  · simpa only [if_pos he] using hf.kind e
  · simpa only [if_neg he] using refl.kind e

end KeepsIdentity

namespace Board

theorem mem_entities {b : Board} {e : Entity} :
    e ∈ b.entities ↔ e = b.agent ∨ e = b.exit ∨ e ∈ b.objects := by
  rw [entities_def, List.mem_cons, List.mem_cons]

/-! ### What the steps of a tick do to the objects -/

section Frame
variable (b : Board) (a : Action)

/-- A step changes at most the agent's cell. -/
theorem step_eq (goal : Position) :
    b.step goal = { b with agent := { b.agent with pos := (b.step goal).agent.pos } } := by
  rw [step]
  split <;> rfl

/-- A move changes at most the agent's cell and where it faces. -/
theorem move_eq : b.move a =
    { b with
      agent := { b.agent with pos := (b.move a).agent.pos }
      facing := (b.move a).facing } := by
  cases a with
  | forward | backward | left | right => rw [move, step_eq]
  | turnLeft | turnRight => rfl

@[simp] theorem move_exit : (b.move a).exit = b.exit := by rw [move_eq]

@[simp] theorem move_size : (b.move a).size = b.size := by rw [move_eq]

@[simp] theorem move_objects : (b.move a).objects = b.objects := by rw [move_eq]

@[simp] theorem move_carrying : (b.move a).carrying = b.carrying := by rw [move_eq]

@[simp] theorem move_nextId : (b.move a).nextId = b.nextId := by rw [move_eq]

/-- An object after the carried one was put on the agent's cell. -/
def tracked (e : Entity) : Entity :=
  if b.carrying = some e.id then { e with pos := b.agent.pos } else e

theorem keepsIdentity_tracked : KeepsIdentity b.tracked :=
  KeepsIdentity.ite (f := fun e => { e with pos := b.agent.pos })
    (.of_kind_eq (fun _ => rfl) (fun _ => rfl) fun _ => rfl) _

theorem trackCarried_eq : b.trackCarried = { b with objects := b.objects.map b.tracked } := by
  unfold trackCarried
  split
  · next h =>
    have same : b.tracked = fun e => e := funext fun e => by simp [tracked, h]
    rw [same, List.map_id']
  · next id h =>
    have same : b.tracked = fun e => if e.id = id then { e with pos := b.agent.pos } else e := by
      funext e
      simp only [tracked, h, Option.some.injEq, eq_comm]
    rw [same]

/-- An object after the unit with a given identity was picked up. -/
def lifted (unit : EntityId) (e : Entity) : Entity :=
  if e.id = unit then { e with priority := Kind.carriedPriority } else e

theorem keepsIdentity_lifted (unit : EntityId) : KeepsIdentity (lifted unit) :=
  KeepsIdentity.ite (f := fun e => { e with priority := Kind.carriedPriority })
    (.of_kind_eq (fun _ => rfl) (fun _ => rfl) fun _ => rfl) _

/-- An object after a unit was dropped on a target. -/
def linkedUp (unit : EntityId) (target : Entity) : Entity → Entity :=
  (fun e => if e.id = unit then placedOn target e else e) ∘
    fun e => if e.id = target.id then { e with kind := e.kind.withLink (some unit) } else e

theorem keepsIdentity_linkedUp (unit : EntityId) (target : Entity) :
    KeepsIdentity (linkedUp unit target) := by
  refine KeepsIdentity.comp (KeepsIdentity.ite ?_ _) (KeepsIdentity.ite ?_ _)
  · exact ⟨fun _ => rfl, fun _ => rfl, fun _ => ⟨_, rfl⟩⟩
  · exact ⟨fun _ => rfl, fun _ => rfl, fun _ => ⟨_, rfl⟩⟩

/-- A unit that is dropped moves to its target's cell; nothing else moves. -/
theorem linkedUp_pos (unit : EntityId) (target e : Entity) :
    (linkedUp unit target e).pos = target.pos ∨ (linkedUp unit target e).pos = e.pos := by
  rw [linkedUp, Function.comp_apply]
  generalize hlinked : (if e.id = target.id then
    { e with kind := e.kind.withLink (some unit) } else e) = linked
  have hpos : linked.pos = e.pos := by
    rw [← hlinked]
    split <;> rfl
  split
  · exact .inl rfl
  · exact .inr hpos

theorem dropOnto_eq (unit : EntityId) (target : Entity) :
    b.dropOnto unit target =
      { b with objects := b.objects.map (linkedUp unit target), carrying := none } := by
  simp only [dropOnto, updateObject, List.map_map, linkedUp]

/-- What settling comes to: nothing, a unit picked up, or a unit dropped. -/
theorem settle_cases :
    b.settle = b ∨
    (∃ unit, b.carrying = none ∧ b.unitHere? = some unit ∧
      b.settle = { b with objects := b.objects.map (lifted unit.id), carrying := some unit.id }) ∨
    ∃ unit target, b.carrying = some unit ∧ b.targetHere? unit = some target ∧
      b.settle = { b with objects := b.objects.map (linkedUp unit target), carrying := none } := by
  unfold settle
  split
  · next unit hcarry =>
    split
    · next target htarget =>
      exact .inr (.inr ⟨unit, target, hcarry, htarget, dropOnto_eq ..⟩)
    · exact .inl rfl
  · next hcarry =>
    split
    · next unit hunit => exact .inr (.inl ⟨unit, hcarry, hunit, rfl⟩)
    · exact .inl rfl

/-- Settling changes the carry slot and the objects, and of these no identity. -/
theorem settle_frame : ∃ f, KeepsIdentity f ∧
    b.settle = { b with objects := b.objects.map f, carrying := b.settle.carrying } := by
  rcases settle_cases b with h | ⟨unit, -, -, h⟩ | ⟨unit, target, -, -, h⟩
  · exact ⟨_, .refl, by rw [h, List.map_id']⟩
  · exact ⟨_, keepsIdentity_lifted unit.id, by rw [h]⟩
  · exact ⟨_, keepsIdentity_linkedUp unit target, by rw [h]⟩

end Frame

theorem keepsIdentity_pruned (b : Board) : KeepsIdentity b.pruned :=
  ⟨fun _ => rfl, fun _ => rfl, fun _ => ⟨_, rfl⟩⟩

/-! ### Numbering -/

/-- Agent and exit have the first two identities, and the objects ascending ones from then on. -/
structure Numbered (b : Board) : Prop where
  agent_id : b.agent.id = agentId
  agent_kind : b.agent.kind = .agent
  exit_id : b.exit.id = exitId
  exit_kind : b.exit.kind = .exitZone
  lower : ∀ e ∈ b.objects, exitId < e.id
  upper : ∀ e ∈ b.objects, e.id < b.nextId
  fresh : exitId < b.nextId
  sorted : b.objects.Pairwise fun d e => d.id < e.id
  no_agent : ∀ e ∈ b.objects, e.kind ≠ .agent
  no_exit : ∀ e ∈ b.objects, e.kind ≠ .exitZone

/-- In a list with ascending identities, equal identities mean equal entities. -/
theorem eq_of_id_eq {l : List Entity} (sorted : l.Pairwise fun d e => d.id < e.id) {d e : Entity}
    (hd : d ∈ l) (he : e ∈ l) (hid : d.id = e.id) : d = e := by
  induction sorted with
  | nil => cases hd
  | cons first _ ih =>
    rcases List.mem_cons.1 hd with rfl | hd' <;> rcases List.mem_cons.1 he with rfl | he'
    · rfl
    · exact absurd hid (Nat.ne_of_lt (first e he'))
    · exact absurd hid (Nat.ne_of_gt (first d hd'))
    · exact ih hd' he'

/-- New entities carry the next identities and are what was asked for. -/
theorem mem_numbered {id : EntityId} {staged : List (Position × Kind)} {e : Entity}
    (h : e ∈ numbered id staged) :
    id ≤ e.id ∧ e.id < id + staged.length ∧ ∃ s ∈ staged, e = .ofKind e.id s.1 s.2 := by
  induction staged generalizing id with
  | nil => cases h
  | cons s rest ih =>
    rw [List.length_cons]
    rcases List.mem_cons.1 h with rfl | h
    · exact ⟨Nat.le_refl _, Nat.lt_add_of_pos_right (Nat.succ_pos _), s, List.mem_cons_self, rfl⟩
    · obtain ⟨low, high, r, hr, he⟩ := ih h
      refine ⟨Nat.le_of_succ_le low, ?_, r, List.mem_cons_of_mem _ hr, he⟩
      rwa [Nat.add_right_comm] at high

theorem length_numbered (id : EntityId) (staged : List (Position × Kind)) :
    (numbered id staged).length = staged.length := by
  induction staged generalizing id with
  | nil => rfl
  | cons s rest ih => rw [numbered, List.length_cons, List.length_cons, ih]

theorem sorted_numbered (id : EntityId) (staged : List (Position × Kind)) :
    (numbered id staged).Pairwise fun d e => d.id < e.id := by
  induction staged generalizing id with
  | nil => exact .nil
  | cons s rest ih =>
    exact .cons (fun e he => Nat.lt_of_succ_le (mem_numbered he).1) (ih _)

/-- Items put objects on a board that are neither agent nor exit and have no link yet. -/
theorem kind_of_mem_expand {size : Int} {item : Item} {s : Position × Kind}
    (h : s ∈ item.expand size) : s.2 ≠ .agent ∧ s.2 ≠ .exitZone ∧ s.2.link? = none := by
  cases item with
  | block | sheep | target =>
    rw [List.mem_singleton.1 h]
    simp [Kind.link?]
  | surround =>
    obtain ⟨pos, -, rfl⟩ := List.mem_map.1 h
    simp [Kind.link?]

/-- What is added is new to the board, stands for an item, and has no link yet. -/
theorem mem_added {b : Board} {items : List Item} {e : Entity}
    (h : e ∈ numbered b.nextId (items.flatMap (Item.expand b.size))) :
    b.nextId ≤ e.id ∧ e.kind ≠ .agent ∧ e.kind ≠ .exitZone ∧ e.kind.link? = none ∧
      e.priority = e.kind.defaultPriority := by
  obtain ⟨low, -, s, hs, he⟩ := mem_numbered h
  obtain ⟨item, -, hitem⟩ := List.mem_flatMap.1 hs
  obtain ⟨hagent, hexit, hlink⟩ := kind_of_mem_expand hitem
  have hkind : e.kind = s.2 := congrArg Entity.kind he
  refine ⟨low, hkind ▸ hagent, hkind ▸ hexit, hkind ▸ hlink, ?_⟩
  rw [he]
  rfl

namespace Numbered
variable {b : Board}

/-- All identities ascend, those of agent and exit included. -/
theorem entities_sorted (h : Numbered b) : b.entities.Pairwise fun d e => d.id < e.id := by
  refine .cons ?_ (.cons (fun e he => ?_) h.sorted)
  · intro e he
    rw [h.agent_id]
    rcases List.mem_cons.1 he with rfl | he
    · rw [h.exit_id]; decide
    · exact Nat.lt_trans (by decide) (h.lower e he)
  · rw [h.exit_id]
    exact h.lower e he

theorem nodup_entities (h : Numbered b) : b.entities.Nodup :=
  h.entities_sorted.imp fun hlt heq => Nat.ne_of_lt hlt (congrArg Entity.id heq)

/-- Looking up an identity finds the entity that carries it. -/
theorem entity?_eq_some_iff (h : Numbered b) {id : EntityId} {e : Entity} :
    b.entity? id = some e ↔ e ∈ b.entities ∧ e.id = id := by
  constructor
  · intro found
    have hid := List.find?_some (p := fun e : Entity => e.id == id) found
    exact ⟨List.mem_of_find?_eq_some found, beq_iff_eq.1 hid⟩
  · rintro ⟨he, rfl⟩
    cases found : b.entity? e.id with
    | none => simpa using List.find?_eq_none.1 found e he
    | some d =>
      have hid := List.find?_some (p := fun d : Entity => d.id == e.id) found
      have hd := List.mem_of_find?_eq_some found
      rw [eq_of_id_eq h.entities_sorted hd he (beq_iff_eq.1 hid)]

/-- What is neither agent nor exit is an object. -/
theorem mem_objects (h : Numbered b) {e : Entity} (he : e ∈ b.entities) (hagent : e.kind ≠ .agent)
    (hexit : e.kind ≠ .exitZone) : e ∈ b.objects := by
  rcases mem_entities.1 he with rfl | rfl | he
  · exact absurd h.agent_kind hagent
  · exact absurd h.exit_kind hexit
  · exact he

/-- An object has neither the identity of the agent nor that of the exit. -/
theorem not_fixed (h : Numbered b) {e : Entity} (he : e ∈ b.objects) :
    ¬(e.id = b.agent.id ∨ e.id = b.exit.id) := by
  have hlow := h.lower e he
  rw [h.agent_id, h.exit_id]
  rintro (hid | hid) <;> rw [hid] at hlow <;> revert hlow <;> decide

/-- Dropping objects and changing others without their identities keeps the numbering. -/
theorem of_objects (h : Numbered b) {b' : Board} (agent_id : b'.agent.id = b.agent.id)
    (agent_kind : b'.agent.kind = b.agent.kind) (exit_id : b'.exit.id = b.exit.id)
    (exit_kind : b'.exit.kind = b.exit.kind) (next : b'.nextId = b.nextId) {kept : List Entity}
    (hkept : kept.Sublist b.objects) {f : Entity → Entity} (hf : KeepsIdentity f)
    (objects : b'.objects = kept.map f) : Numbered b' where
  agent_id := agent_id.trans h.agent_id
  agent_kind := agent_kind.trans h.agent_kind
  exit_id := exit_id.trans h.exit_id
  exit_kind := exit_kind.trans h.exit_kind
  fresh := next ▸ h.fresh
  lower := by
    simp only [objects, List.forall_mem_map, hf.id]
    exact fun e he => h.lower e (hkept.subset he)
  upper := by
    simp only [objects, List.forall_mem_map, hf.id, next]
    exact fun e he => h.upper e (hkept.subset he)
  sorted := by
    simp only [objects, List.pairwise_map, hf.id]
    exact h.sorted.sublist hkept
  no_agent := by
    simp only [objects, List.forall_mem_map]
    intro e he
    obtain ⟨link, hkind⟩ := hf.kind e
    rw [hkind, Ne, Kind.withLink_eq_agent]
    exact h.no_agent e (hkept.subset he)
  no_exit := by
    simp only [objects, List.forall_mem_map]
    intro e he
    obtain ⟨link, hkind⟩ := hf.kind e
    rw [hkind, Ne, Kind.withLink_eq_exitZone]
    exact h.no_exit e (hkept.subset he)

theorem addItems (h : Numbered b) {items : List Item} {b' : Board} {ids : List EntityId}
    (hadd : b.addItems items = .ok (b', ids)) : Numbered b' := by
  obtain ⟨-, rfl, -⟩ := addItems_eq_ok hadd
  refine ⟨h.agent_id, h.agent_kind, h.exit_id, h.exit_kind, ?_, ?_, ?_, ?_, ?_, ?_⟩
  · intro e he
    rcases List.mem_append.1 he with he | he
    · exact h.lower e he
    · exact Nat.lt_of_lt_of_le h.fresh (mem_added he).1
  · intro e he
    simp only [length_numbered]
    rcases List.mem_append.1 he with he | he
    · exact Nat.lt_add_right _ (h.upper e he)
    · exact (mem_numbered he).2.1
  · exact Nat.lt_add_right _ h.fresh
  · refine List.pairwise_append.2 ⟨h.sorted, sorted_numbered _ _, fun d hd e he => ?_⟩
    exact Nat.lt_of_lt_of_le (h.upper d hd) (mem_added he).1
  · intro e he
    rcases List.mem_append.1 he with he | he
    · exact h.no_agent e he
    · exact (mem_added he).2.1
  · intro e he
    rcases List.mem_append.1 he with he | he
    · exact h.no_exit e he
    · exact (mem_added he).2.2.1

/-- Pruning after some objects went keeps the numbering. -/
theorem prune (h : Numbered b) {p : Entity → Bool} {b' : Board}
    (agent_id : b'.agent.id = b.agent.id) (agent_kind : b'.agent.kind = b.agent.kind)
    (exit_id : b'.exit.id = b.exit.id) (exit_kind : b'.exit.kind = b.exit.kind)
    (next : b'.nextId = b.nextId) (objects : b'.objects = b.objects.filter p) :
    Numbered b'.pruneLinks := by
  have sub : (b.objects.filter p).Sublist b.objects := List.filter_sublist
  refine h.of_objects agent_id agent_kind exit_id exit_kind next sub (keepsIdentity_pruned b') ?_
  rw [pruneLinks, objects]

theorem move (h : Numbered b) (a : Action) : Numbered (b.move a) := by
  rw [move_eq]
  exact h.of_objects rfl rfl rfl rfl rfl (.refl _) .refl (List.map_id' _).symm

theorem settle (h : Numbered b) : Numbered b.settle := by
  obtain ⟨f, hf, hsettle⟩ := settle_frame b
  rw [hsettle]
  exact h.of_objects rfl rfl rfl rfl rfl (.refl _) hf rfl

theorem trackCarried (h : Numbered b) : Numbered b.trackCarried := by
  rw [trackCarried_eq]
  exact h.of_objects rfl rfl rfl rfl rfl (.refl _) (keepsIdentity_tracked b) rfl

end Numbered

/-- Every operation keeps the numbering. -/
theorem preserved_numbered : Preserved Numbered where
  ofLayout h := by
    obtain ⟨-, -, -, rfl⟩ := ofLayout_eq_ok h
    have empty {P : Entity → Prop} : ∀ e ∈ ([] : List Entity), P e :=
      fun _ he => absurd he List.not_mem_nil
    exact ⟨rfl, rfl, rfl, rfl, empty, empty, Nat.lt_succ_self _, .nil, empty, empty⟩
  addItems h hadd := h.addItems hadd
  remove h hremove := by
    obtain ⟨-, -, -, rfl⟩ := remove_eq_ok hremove
    exact h.prune rfl rfl rfl rfl rfl rfl
  resized {b size _} h hresize := by
    obtain ⟨-, rfl⟩ := resized_eq_ok hresize
    have hpruned : Numbered (b.cropped size).pruneLinks := h.prune rfl rfl rfl rfl rfl rfl
    exact hpruned.trackCarried
  apply a h := (h.move a).settle.trackCarried

theorem Reachable.numbered {b : Board} (h : Reachable b) : Numbered b :=
  preserved_numbered.reachable h

end Board

end Shepherd.Grid
