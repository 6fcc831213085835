import Shepherd.Proofs.Board.LifeCycle
import Shepherd.Proofs.Board.Symmetry

/-!
# The frame of a tick

A tick has to do with three entities at most: the agent, one unit, and the target on which that unit
is dropped. `Change` says what can become of an entity, `TickFrame` what stays on a board as a
whole: a turn moves nothing, a step turns nothing, and an agent that carries nothing ends up with
the first free unit of its cell.
-/

namespace Shepherd.Grid

/-- What an entity is on its board, whatever happens to it: its identity, its kind and colour, and
whether the agent may step onto it. -/
def Entity.essence (e : Entity) : EntityId × Kind × Bool := (e.id, e.kind.withLink none, e.walkable)

/-- Whether an action is a turn on the spot. -/
def Action.isTurn : Action → Bool
  | .turnLeft | .turnRight => true
  | .forward | .backward | .left | .right => false

theorem essence_of_keepsIdentity {f : Entity → Entity} (hf : KeepsIdentity f) (e : Entity) :
    (f e).essence = e.essence := by
  obtain ⟨link, hkind⟩ := hf.kind e
  rw [Entity.essence, hf.id, hf.walkable, hkind, Kind.withLink_withLink, Entity.essence]

namespace Board

/-! ### What stays as it is -/

section Apply
variable (b : Board) (a : Action)

@[simp] theorem apply_agent : (b.apply a).agent = (b.move a).agent := by
  obtain ⟨f, -, hsettle⟩ := settle_frame (b.move a)
  rw [apply, trackCarried_eq, hsettle]

@[simp] theorem apply_exit : (b.apply a).exit = b.exit := by
  obtain ⟨f, -, hframe⟩ := apply_frame b a
  rw [hframe]

@[simp] theorem apply_limits : (b.apply a).limits = b.limits := by
  obtain ⟨f, -, hframe⟩ := apply_frame b a
  rw [hframe]

@[simp] theorem apply_nextId : (b.apply a).nextId = b.nextId := by
  obtain ⟨f, -, hframe⟩ := apply_frame b a
  rw [hframe]

@[simp] theorem apply_facing : (b.apply a).facing = a.turn b.facing := by
  obtain ⟨f, -, hsettle⟩ := settle_frame (b.move a)
  rw [apply, trackCarried_eq, hsettle, move_eq_step]

/-- Of the agent only the cell changes. -/
theorem agent_move : (b.move a).agent = { b.agent with pos := (b.move a).agent.pos } := by
  rw [move_eq]

theorem essence_apply :
    (b.apply a).entities.map Entity.essence = b.entities.map Entity.essence := by
  obtain ⟨f, hf, hframe⟩ := apply_frame b a
  have hessence : Entity.essence ∘ f = Entity.essence := funext (essence_of_keepsIdentity hf)
  rw [hframe]
  simp only [entities_def, List.map_cons, List.map_map, hessence]
  rfl

end Apply

variable {b b' : Board} {a : Action}

/-! ### Turns -/

theorem move_agent_of_isTurn (h : a.isTurn = true) : (b.move a).agent = b.agent := by
  cases a with
  | forward | backward | left | right => cases h
  | turnLeft | turnRight => rfl

/-- Where the agent stays, everything stays: a unit is picked up or dropped on the agent's cell. -/
theorem HerdStep.pos_eq (step : HerdStep b b') (n : Numbered b) (tow : InTow b)
    (hpos : b'.agent.pos = b.agent.pos) : b'.objects.map (·.pos) = b.objects.map (·.pos) := by
  cases step with
  | carry slot objects =>
    rw [objects, List.map_map]
    refine List.map_congr_left fun e he => ?_
    by_cases hcarry : b'.carrying = some e.id
    · have htow := tow e he (slot ▸ hcarry)
      simp [tracked, hcarry, hpos, htow]
    · simp [tracked, hcarry]
  | pickUp mem kind here empty slot objects =>
    rw [objects, List.map_map]
    refine List.map_congr_left fun e _ => ?_
    simp only [Function.comp_apply, lifted]
    split <;> rfl
  | @drop unit target c mem kind target_mem target_kind here full slot objects =>
    rw [objects, List.map_map]
    refine List.map_congr_left fun e he => ?_
    have hne := id_ne_of_unit_of_target n.sorted mem kind target_mem target_kind
    by_cases hunit : e.id = unit.id
    · obtain rfl := eq_of_id_eq n.sorted he mem hunit
      simp [linkedUp_unit hne kind, here, hpos, tow e he full]
    · by_cases htarget : e.id = target.id
      · obtain rfl := eq_of_id_eq n.sorted he target_mem htarget
        simp [linkedUp_target hne target_kind]
      · simp [linkedUp_other hunit htarget]

/-! ### The entities that change -/

/-- The unit that a tick has to do with: the one carried before it, or else the one picked up. -/
def handled (b b' : Board) : Option EntityId := b.carrying <|> b'.carrying

/-- What can become of an entity in a tick. -/
inductive Change (b b' : Board) (e : Entity) : Entity → Prop
  | same : Change b b' e e
  | agent (id : e.id = agentId) (pos : Position) : Change b b' e { e with pos := pos }
  | unit {c : Color} (kind : e.kind = .herdUnit c none) (handled : handled b b' = some e.id)
    (pos : Position) (priority : Int) (target : Option EntityId) :
    Change b b' e { e with pos := pos, priority := priority, kind := .herdUnit c target }
  /-- A target changes if the unit was dropped on it, and the unit names this one target. -/
  | target {c : Color} {u : EntityId} (kind : e.kind = .herdTarget c none)
    (full : b.carrying = some u) (empty : b'.carrying = none)
    (placed : ∃ unit, b'.entity? u = some unit ∧ unit.kind = .herdUnit c (some e.id)) :
    Change b b' e { e with kind := .herdTarget c (some u) }

/-- What becomes of an object is a change of the unit, of its target, or none. -/
theorem HerdStep.change (step : HerdStep b b') (n : Numbered b) (n' : Numbered b') (h : Herd b)
    (h' : Herd b') {e : Entity} (he : e ∈ b.objects) :
    ∃ e', b'.entity? e.id = some e' ∧ Change b b' e e' := by
  obtain ⟨e', hlookup, hstep⟩ := step.entity?_object n n' h he
  refine ⟨e', hlookup, ?_⟩
  cases hstep with
  | same => exact .same
  | carry kind before after =>
    have hchange : Change b b' e { e with pos := b'.agent.pos, kind := .herdUnit _ none } :=
      .unit kind (by simp [handled, before]) b'.agent.pos e.priority none
    rwa [← kind] at hchange
  | pickUp kind here before after =>
    have hchange : Change b b' e
        { e with priority := Kind.carriedPriority, kind := .herdUnit _ none } :=
      .unit kind (by simp [handled, before, after]) e.pos Kind.carriedPriority none
    rwa [← kind] at hchange
  | drop kind mem target_kind here before after =>
    exact .unit kind (by simp [handled, before]) _ _ _
  | @dropOn u c kind before after =>
    refine .target kind before after ?_
    -- in the end the target names the unit, so the unit names the target
    obtain ⟨he', hid⟩ := n'.entity?_eq_some_iff.1 hlookup
    obtain ⟨unit, hunit, rfl, hkind⟩ :=
      h'.linked.claimed _ (n'.target_mem_objects he' rfl) c u rfl
    exact ⟨unit, n'.entity?_object hunit, hkind⟩

/-! ### The first free unit -/

/-- The free units on the agent's cell, in order. -/
def freeUnitsHere (b : Board) : List Entity :=
  b.entities.filter fun e => e.pos == b.agent.pos && e.isFreeUnit

theorem Numbered.head?_freeUnitsHere (n : Numbered b) : b.freeUnitsHere.head? = b.unitHere? := by
  have hagent : b.agent.isFreeUnit = false := by
    simp [Entity.isFreeUnit, Entity.unitColor?, n.agent_kind]
  have hexit : b.exit.isFreeUnit = false := by
    simp [Entity.isFreeUnit, Entity.unitColor?, n.exit_kind]
  rw [freeUnitsHere, List.head?_filter, entities_def, List.find?_cons, List.find?_cons, hagent,
    hexit, Bool.and_false, Bool.and_false, unitHere?]

/-- An agent that carries nothing takes the first free unit of the cell it comes to. -/
theorem carrying_apply_of_empty (hempty : b.carrying = none) :
    (b.apply a).carrying = (b.move a).unitHere?.map (·.id) := by
  have hmove : (b.move a).carrying = none := (move_carrying b a).trans hempty
  rw [apply, trackCarried_eq, settle, hmove]
  cases hunit : (b.move a).unitHere? with
  | none => exact hmove
  | some unit => rfl

/-- What was the first free unit of the cell still is after it was picked up. -/
theorem HerdStep.unitHere?_eq (step : HerdStep b (b.apply a)) (hempty : b.carrying = none) :
    (b.apply a).unitHere?.map (·.id) = (b.move a).unitHere?.map (·.id) := by
  have hmap : ∃ f : Entity → Entity, (∀ e, (f e).id = e.id ∧ (f e).pos = e.pos ∧
      (f e).kind = e.kind) ∧ (b.apply a).objects = b.objects.map f := by
    cases step with
    | carry slot objects =>
      rw [tracked_of_empty (slot.trans hempty)] at objects
      exact ⟨id, fun e => ⟨rfl, rfl, rfl⟩, objects⟩
    | pickUp _ _ _ _ _ objects =>
      refine ⟨_, fun e => ?_, objects⟩
      unfold lifted
      split <;> exact ⟨rfl, rfl, rfl⟩
    | drop _ _ _ _ _ full => cases hempty.symm.trans full
  obtain ⟨f, hf, hobjects⟩ := hmap
  have hfree (e : Entity) : (f e).isFreeUnit = e.isFreeUnit := by
    simp only [Entity.isFreeUnit, Entity.unitColor?, (hf e).2.2]
  rw [unitHere?, hobjects, apply_agent, List.find?_map, Option.map_map, unitHere?, move_objects]
  simp only [Function.comp_def, hfree, (hf _).1, (hf _).2.1]

/-! ### One tick -/

/-- What a tick leaves as it is, and where it makes a difference. -/
structure TickFrame (a : Action) (b b' : Board) : Prop where
  size : b'.size = b.size
  limits : b'.limits = b.limits
  nextId : b'.nextId = b.nextId
  /-- The same entities in the same order. -/
  essence : b'.entities.map Entity.essence = b.entities.map Entity.essence
  turn : a.isTurn = true → b'.entities.map (·.pos) = b.entities.map (·.pos)
  facing : a.isTurn = false → b'.facing = b.facing
  change : ∀ e ∈ b.entities, ∃ e', b'.entity? e.id = some e' ∧ Change b b' e e'
  first : b.carrying = none → b'.carrying = b'.freeUnitsHere.head?.map (·.id)

/-- What becomes of an entity in a tick is a change. -/
theorem Reachable.change (h : Reachable b) (a : Action) {e : Entity} (he : e ∈ b.entities) :
    ∃ e', (b.apply a).entity? e.id = some e' ∧ Change b (b.apply a) e e' := by
  have n := h.numbered
  have n' := (h.apply a).numbered
  rcases mem_entities.1 he with rfl | rfl | he
  · refine ⟨(b.apply a).agent, n'.entity?_eq_some_iff.2 ⟨mem_entities.2 (.inl rfl), ?_⟩, ?_⟩
    · rw [n'.agent_id, n.agent_id]
    · rw [apply_agent, agent_move]
      exact .agent n.agent_id _
  · refine ⟨b.exit, n'.entity?_eq_some_iff.2 ⟨mem_entities.2 (.inr (.inl ?_)), rfl⟩, .same⟩
    rw [apply_exit]
  · exact (herdStep_apply n h.herd a).change n n' h.herd (h.apply a).herd he

/-- A tick on a board that operations lead to changes nothing but the agent's cell or facing, the
unit that it has to do with, and the target on which that unit is dropped. -/
theorem Reachable.tickFrame (h : Reachable b) (a : Action) : TickFrame a b (b.apply a) := by
  obtain ⟨n, herd, tow⟩ := preserved_herd.reachable h
  have n' := (h.apply a).numbered
  have step := herdStep_apply n herd a
  refine ⟨apply_size a, apply_limits b a, apply_nextId b a, essence_apply b a, ?_, ?_, ?_, ?_⟩
  · intro hturn
    have hagent : (b.apply a).agent = b.agent := by rw [apply_agent, move_agent_of_isTurn hturn]
    have hobjects := step.pos_eq n tow (congrArg Entity.pos hagent)
    simp only [entities_def, List.map_cons, hagent, apply_exit, hobjects]
  · intro hturn
    rw [apply_facing]
    cases a with
    | forward | backward | left | right => rfl
    | turnLeft | turnRight => cases hturn
  · exact fun e he => h.change a he
  · intro hempty
    rw [n'.head?_freeUnitsHere, carrying_apply_of_empty hempty, step.unitHere?_eq hempty]

/-- A target is put under the agent and the unit in tow, and a turn drops the unit there. -/
theorem tickFrame_drop_by_turn : ∃ b : Board, Reachable b ∧ b.carrying = some 2 ∧
    b.freeUnitsHere.map (·.id) = [2, 4] ∧ (b.apply .turnRight).carrying = none ∧
    (b.apply .turnRight).facing = .east ∧ TickFrame .turnRight b (b.apply .turnRight) := by
  have reachable := (Reachable.ofLayout (l := ⟨5, ⟨⟨1, 3⟩, .north⟩, ⟨3, 3⟩, .none⟩) rfl).perform
    (.add [.sheep ⟨1, 2⟩ .pink]) |>.perform (.act .forward)
    |>.perform (.add [.target ⟨1, 2⟩ .pink, .sheep ⟨1, 2⟩ .white])
  exact ⟨_, reachable, by decide +kernel, by decide +kernel, by decide +kernel, by decide +kernel,
    reachable.tickFrame .turnRight⟩

end Board

end Shepherd.Grid
