import Shepherd.Grid.Board.Solve
import Shepherd.Proofs.Board.Herd

/-!
# The life of a herd unit

As long as only actions are taken, every unit goes one way: it is free, then carried, then placed on
a target. A free unit waits where it is, a carried one goes where the agent goes, and a placed one
stays with its target for good, as the target does with it. `HerdStep` says what one tick can do to
the herd, `OneTick` what this means for the units, and `OneWay` what is left of it after any number
of ticks.
-/

namespace Shepherd.Grid

/-- The stages in the life of a herd unit. -/
inductive Stage where | free | carried | placed
  deriving DecidableEq

/-- The place of a stage in the life of a unit. -/
def Stage.rank : Stage → Nat
  | .free => 0
  | .carried => 1
  | .placed => 2

theorem Stage.eq_placed {s : Stage} (h : Stage.placed.rank ≤ s.rank) : s = .placed := by
  cases s <;> simp [rank] at h ⊢

theorem Stage.eq_free {s : Stage} (h : s.rank ≤ Stage.free.rank) : s = .free := by
  cases s <;> simp [rank] at h ⊢

namespace Board

/-- The stage of an entity, if it is a unit. -/
def stageOf (b : Board) (e : Entity) : Option Stage :=
  match e.kind with
  | .herdUnit _ none => some (if b.carrying = some e.id then .carried else .free)
  | .herdUnit _ (some _) => some .placed
  | _ => none

/-- The stage of the unit with a given identity, if there is one. -/
def stage? (b : Board) (u : EntityId) : Option Stage := (b.entity? u).bind b.stageOf

/-! ### What a tick does to the herd -/

/-- What a tick can do to the objects and the carry slot of a board. -/
inductive HerdStep (b b' : Board) : Prop
  /-- Nothing is picked up or dropped; what is carried comes along. -/
  | carry (slot : b'.carrying = b.carrying) (objects : b'.objects = b.objects.map b'.tracked)
  | pickUp {unit : Entity} {c : Color} (mem : unit ∈ b.objects)
    (kind : unit.kind = .herdUnit c none) (here : unit.pos = b'.agent.pos)
    (empty : b.carrying = none) (slot : b'.carrying = some unit.id)
    (objects : b'.objects = b.objects.map (lifted unit.id))
  | drop {unit target : Entity} {c : Color} (mem : unit ∈ b.objects)
    (kind : unit.kind = .herdUnit c none) (target_mem : target ∈ b.objects)
    (target_kind : target.kind = .herdTarget c none) (here : target.pos = b'.agent.pos)
    (full : b.carrying = some unit.id) (slot : b'.carrying = none)
    (objects : b'.objects = b.objects.map (linkedUp unit.id target))

variable {b b' b'' : Board}

/-- With an empty carry slot nothing is in tow. -/
theorem tracked_of_empty (h : b.carrying = none) : b.tracked = id := by
  funext e
  simp [tracked, h]

theorem herdStep_apply (n : Numbered b) (h : Herd b) (a : Action) : HerdStep b (b.apply a) := by
  have n' := n.move a
  have h' := h.move a
  rw [apply, trackCarried_eq]
  rcases settle_cases (b.move a) with
    hsame | ⟨unit, hempty, hfound, hpick⟩ | ⟨u, target, hfull, hfound, hdrop⟩
  · rw [hsame]
    exact .carry (move_carrying b a) (by simp only [move_objects]; rfl)
  · obtain ⟨hmem, hpos, c, hkind⟩ := unitHere?_eq_some hfound
    rw [hpick]
    rw [move_objects] at hmem
    refine .pickUp hmem hkind hpos ((move_carrying b a).symm.trans hempty) rfl ?_
    simp only [move_objects, List.map_map]
    -- the unit is taken along to the cell on which it is
    refine List.map_congr_left fun e he => ?_
    by_cases hid : e.id = unit.id
    · obtain rfl := eq_of_id_eq n.sorted he hmem hid
      simp [lifted, tracked, hpos]
    · simp [lifted, tracked, hid, Ne.symm hid]
  · obtain ⟨c, hcolor, htmem, hpos, htkind, -⟩ := targetHere?_eq_some hfound
    obtain ⟨unit, humem, rfl, ⟨d, hukind⟩, -⟩ := h'.carried u hfull
    have hlookup := n'.entity?_object humem
    obtain rfl : d = c := by
      simpa [colorOf?, hlookup, Entity.unitColor?, hukind] using hcolor
    rw [hdrop]
    rw [move_objects] at humem htmem
    refine .drop humem hukind htmem htkind hpos ((move_carrying b a).symm.trans hfull) rfl ?_
    rw [tracked_of_empty rfl, List.map_id]
    simp only [move_objects]

/-! ### What a tick does to an object -/

/-- What becomes of an object in a tick. -/
inductive ObjectStep (b b' : Board) (e : Entity) : Entity → Prop
  | same (before : b.carrying ≠ some e.id) (after : b'.carrying ≠ some e.id) :
    ObjectStep b b' e e
  | carry {c : Color} (kind : e.kind = .herdUnit c none) (before : b.carrying = some e.id)
    (after : b'.carrying = some e.id) : ObjectStep b b' e { e with pos := b'.agent.pos }
  | pickUp {c : Color} (kind : e.kind = .herdUnit c none) (here : e.pos = b'.agent.pos)
    (before : b.carrying = none) (after : b'.carrying = some e.id) :
    ObjectStep b b' e { e with priority := Kind.carriedPriority }
  | drop {target : Entity} {c : Color} (kind : e.kind = .herdUnit c none)
    (mem : target ∈ b.objects) (target_kind : target.kind = .herdTarget c none)
    (here : target.pos = b'.agent.pos) (before : b.carrying = some e.id)
    (after : b'.carrying = none) :
    ObjectStep b b' e
      { e with
        pos := target.pos
        priority := e.kind.defaultPriority
        kind := .herdUnit c (some target.id) }
  | dropOn {unit : EntityId} {c : Color} (kind : e.kind = .herdTarget c none)
    (before : b.carrying = some unit) (after : b'.carrying = none) :
    ObjectStep b b' e { e with kind := .herdTarget c (some unit) }

/-- Every object is there after a tick too, and has changed in one of these ways. -/
theorem HerdStep.objectStep (step : HerdStep b b') (n : Numbered b) (h : Herd b) {e : Entity}
    (he : e ∈ b.objects) : ∃ e' ∈ b'.objects, e'.id = e.id ∧ ObjectStep b b' e e' := by
  cases step with
  | carry slot objects =>
    refine ⟨b'.tracked e, objects ▸ List.mem_map_of_mem he, (keepsIdentity_tracked b').id e, ?_⟩
    rw [tracked]
    split
    · next hcarried =>
      obtain ⟨unit, hmem, hid, ⟨c, hkind⟩, -⟩ := h.carried e.id (slot ▸ hcarried)
      obtain rfl := eq_of_id_eq n.sorted hmem he hid
      exact .carry hkind (slot ▸ hcarried) hcarried
    · next hother => exact .same (slot ▸ hother) hother
  | @pickUp unit c mem kind here empty slot objects =>
    refine ⟨lifted unit.id e, objects ▸ List.mem_map_of_mem he,
      (keepsIdentity_lifted unit.id).id e, ?_⟩
    rw [lifted]
    split
    · next hid =>
      obtain rfl := eq_of_id_eq n.sorted he mem hid
      exact .pickUp kind here empty slot
    · next hid =>
      refine .same (by simp [empty]) ?_
      rw [slot]
      exact fun h => hid (Option.some.inj h).symm
  | @drop unit target c mem kind target_mem target_kind here full slot objects =>
    refine ⟨linkedUp unit.id target e, objects ▸ List.mem_map_of_mem he,
      (keepsIdentity_linkedUp unit.id target).id e, ?_⟩
    have hne := id_ne_of_unit_of_target n.sorted mem kind target_mem target_kind
    by_cases hunit : e.id = unit.id
    · obtain rfl := eq_of_id_eq n.sorted he mem hunit
      rw [linkedUp_unit hne kind]
      exact .drop kind target_mem target_kind here full slot
    · by_cases htarget : e.id = target.id
      · obtain rfl := eq_of_id_eq n.sorted he target_mem htarget
        rw [linkedUp_target hne target_kind]
        exact .dropOn target_kind full slot
      · rw [linkedUp_other hunit htarget]
        refine .same ?_ (by simp [slot])
        rw [full]
        exact fun h => hunit (Option.some.inj h).symm

/-! ### Stages -/

theorem stageOf_eq_some_iff {e : Entity} {s : Stage} :
    b.stageOf e = some s ↔ ∃ c, e.kind = .herdUnit c none ∧ b.carrying = some e.id ∧ s = .carried ∨
      e.kind = .herdUnit c none ∧ b.carrying ≠ some e.id ∧ s = .free ∨
      ∃ t, e.kind = .herdUnit c (some t) ∧ s = .placed := by
  unfold stageOf
  split
  · next c hkind =>
    by_cases hcarry : b.carrying = some e.id <;> simp [hkind, hcarry, eq_comm]
  · next c t hkind => simp [hkind, eq_comm]
  · next hfree hplaced =>
    simp only [reduceCtorEq, false_iff]
    rintro ⟨c, ⟨h, -⟩ | ⟨h, -⟩ | ⟨t, h, -⟩⟩
    · exact hfree _ h
    · exact hfree _ h
    · exact hplaced _ _ h

theorem stage?_eq_some_iff (n : Numbered b) {u : EntityId} {s : Stage} :
    b.stage? u = some s ↔ ∃ e ∈ b.objects, e.id = u ∧ b.stageOf e = some s := by
  simp only [stage?, Option.bind_eq_some_iff, n.entity?_eq_some_iff]
  constructor
  · rintro ⟨e, ⟨he, hid⟩, hstage⟩
    obtain ⟨c, ⟨hkind, -⟩ | ⟨hkind, -⟩ | ⟨t, hkind, -⟩⟩ := stageOf_eq_some_iff.1 hstage
    all_goals exact ⟨e, n.unit_mem_objects he hkind, hid, hstage⟩
  · rintro ⟨e, he, hid, hstage⟩
    exact ⟨e, ⟨mem_entities.2 (.inr (.inr he)), hid⟩, hstage⟩

/-- A tick takes a unit at most one stage further, and only where it empties or fills the carry
slot. -/
theorem ObjectStep.stageOf {e e' : Entity} (step : ObjectStep b b' e e') {s : Stage}
    (h : b.stageOf e = some s) : ∃ s', b'.stageOf e' = some s' ∧
      (s' = s ∨ s = .free ∧ s' = .carried ∧ b.carrying = none ∧ b'.carrying = some e.id ∨
        s = .carried ∧ s' = .placed ∧ b.carrying = some e.id ∧ b'.carrying = none) := by
  cases step with
  | same before after =>
    refine ⟨s, ?_, .inl rfl⟩
    rw [← h]
    simp only [Board.stageOf, before, after]
  | carry kind before after =>
    refine ⟨.carried, by simp [Board.stageOf, kind, after], .inl ?_⟩
    simpa [Board.stageOf, kind, before] using h
  | pickUp kind here before after =>
    refine ⟨.carried, by simp [Board.stageOf, kind, after], .inr (.inl ⟨?_, rfl, before, after⟩)⟩
    simpa [Board.stageOf, kind, before, eq_comm] using h
  | drop kind mem target_kind here before after =>
    refine ⟨.placed, by simp [Board.stageOf], .inr (.inr ⟨?_, rfl, before, after⟩)⟩
    simpa [Board.stageOf, kind, before, eq_comm] using h
  | dropOn kind before after => simp [Board.stageOf, kind] at h

/-! ### The roster -/

/-- The units of a board, in order, with their colours. -/
def roster (b : Board) : List (EntityId × Option Color) := b.units.map fun e => (e.id, e.unitColor?)

/-- A change of places, priorities and links changes no colour. -/
theorem unitColor?_of_keepsIdentity {f : Entity → Entity} (hf : KeepsIdentity f) (e : Entity) :
    (f e).unitColor? = e.unitColor? := by
  obtain ⟨link, hkind⟩ := hf.kind e
  unfold Entity.unitColor?
  rw [hkind]
  cases e.kind <;> rfl

/-- A tick changes the agent's cell and facing, the carry slot, and of the objects no identity. -/
theorem apply_frame (b : Board) (a : Action) : ∃ f, KeepsIdentity f ∧
    b.apply a = { b with
      agent := { b.agent with pos := (b.apply a).agent.pos }
      facing := (b.apply a).facing
      objects := b.objects.map f
      carrying := (b.apply a).carrying } := by
  obtain ⟨f, hf, hsettle⟩ := settle_frame (b.move a)
  refine ⟨_, (keepsIdentity_tracked (b.move a).settle).comp hf, ?_⟩
  rw [apply, trackCarried_eq, hsettle, move_eq]
  simp only [List.map_map]

theorem roster_apply (b : Board) (a : Action) : (b.apply a).roster = b.roster := by
  obtain ⟨f, hf, hframe⟩ := apply_frame b a
  have hcolor := unitColor?_of_keepsIdentity hf
  have hagent (pos : Position) : ({ b.agent with pos := pos } : Entity).unitColor? =
    b.agent.unitColor? := rfl
  rw [hframe]
  simp only [roster, units, entities_def, List.filter_cons, hagent, List.filter_map,
    Function.comp_def, hcolor]
  split <;> split <;> simp [hf.id, hcolor, Function.comp_def, hagent]

/-- The units on the roster are those that have a stage. -/
theorem isSome_stage?_iff (n : Numbered b) {u : EntityId} :
    (b.stage? u).isSome ↔ ∃ c, (u, some c) ∈ b.roster := by
  simp only [Option.isSome_iff_exists, stage?_eq_some_iff n, roster, units, List.mem_map,
    List.mem_filter, Prod.mk.injEq]
  constructor
  · rintro ⟨s, e, he, hid, hstage⟩
    obtain ⟨c, hkind⟩ := stageOf_eq_some_iff.1 hstage
    have hcolor : e.unitColor? = some c := by
      rw [Entity.unitColor?_eq_some_iff]
      obtain ⟨hkind, -⟩ | ⟨hkind, -⟩ | ⟨t, hkind, -⟩ := hkind
      all_goals exact ⟨_, hkind⟩
    exact ⟨c, e, ⟨mem_entities.2 (.inr (.inr he)), c, hcolor⟩, hid, hcolor⟩
  · rintro ⟨c, e, ⟨he, -⟩, hid, hcolor⟩
    obtain ⟨t, hkind⟩ := Entity.unitColor?_eq_some_iff.1 hcolor
    have hstage : (b.stageOf e).isSome := by
      cases t <;> simp [stageOf, hkind]
    obtain ⟨s, hs⟩ := Option.isSome_iff_exists.1 hstage
    exact ⟨s, e, n.unit_mem_objects he hkind, hid, hs⟩

/-! ### One tick -/

/-- What one tick can do to the units of a board. -/
structure OneTick (b b' : Board) : Prop where
  /-- No unit is lost, new, or another one than before. -/
  roster : b'.roster = b.roster
  /-- A unit stays in its stage or enters the next one. -/
  advance : ∀ u s, b.stage? u = some s →
    ∃ s', b'.stage? u = some s' ∧ s.rank ≤ s'.rank ∧ s'.rank ≤ s.rank + 1
  /-- At most one unit enters another stage. -/
  one : ∀ u v, b'.stage? u ≠ b.stage? u → b'.stage? v ≠ b.stage? v → u = v
  /-- A unit that moves was carried. -/
  moved : ∀ u e e', b.entity? u = some e → b'.entity? u = some e' → (b.stage? u).isSome →
    e'.pos ≠ e.pos → b.stage? u = some .carried
  /-- What comes into the carry slot was free and is on the agent's cell. -/
  pickedUp : ∀ u, b'.carrying = some u → b.carrying = some u ∨
    b.carrying = none ∧ b.stage? u = some .free ∧ ∃ e, b'.entity? u = some e ∧
      e.pos = b'.agent.pos
  /-- What leaves the carry slot is placed on the agent's cell, on a target of its colour that was
  not linked. -/
  dropped : ∀ u, b.carrying = some u → b'.carrying = some u ∨
    b'.carrying = none ∧ ∃ e t f c, b'.entity? u = some e ∧ e.kind = .herdUnit c (some t) ∧
      e.pos = b'.agent.pos ∧ b.entity? t = some f ∧ f.kind = .herdTarget c none ∧
      b'.entity? t = some { f with kind := .herdTarget c (some u) } ∧ f.pos = b'.agent.pos
  /-- What is placed does not change. -/
  placed : ∀ u e, b.entity? u = some e → b.stage? u = some .placed → b'.entity? u = some e
  /-- A target that a unit was dropped on does not change. -/
  target : ∀ t f c u, b.entity? t = some f → f.kind = .herdTarget c (some u) →
    b'.entity? t = some f

section Tick
variable (n : Numbered b) (n' : Numbered b') (h : Herd b) (step : HerdStep b b')
include n n' h step

/-- After a tick each object can be looked up as what became of it. -/
theorem HerdStep.entity?_object {e : Entity} (he : e ∈ b.objects) :
    ∃ e', b'.entity? e.id = some e' ∧ ObjectStep b b' e e' := by
  obtain ⟨e', he', hid, hstep⟩ := step.objectStep n h he
  exact ⟨e', hid ▸ n'.entity?_object he', hstep⟩

/-- An entity with a link has done with changing. -/
theorem HerdStep.entity?_linked {e : Entity} (he : e ∈ b.objects) (hlink : e.kind.link?.isSome) :
    b'.entity? e.id = some e := by
  obtain ⟨e', hlookup, hstep⟩ := step.entity?_object n n' h he
  cases hstep with
  | same => exact hlookup
  | carry hkind | pickUp hkind | drop hkind | dropOn hkind =>
    rw [hkind] at hlink
    cases hlink

/-- A unit has a stage after a tick too: its own or the next one. -/
theorem HerdStep.stage? {u : EntityId} {s : Stage} (hs : b.stage? u = some s) :
    ∃ s', b'.stage? u = some s' ∧
      (s' = s ∨ s = .free ∧ s' = .carried ∧ b.carrying = none ∧ b'.carrying = some u ∨
        s = .carried ∧ s' = .placed ∧ b.carrying = some u ∧ b'.carrying = none) := by
  obtain ⟨e, he, rfl, hstage⟩ := (stage?_eq_some_iff n).1 hs
  obtain ⟨e', hlookup, hstep⟩ := step.entity?_object n n' h he
  obtain ⟨s', hs', hturn⟩ := hstep.stageOf hstage
  exact ⟨s', by rw [Board.stage?, hlookup, Option.bind_some, hs'], hturn⟩

theorem HerdStep.oneTick (hroster : b'.roster = b.roster) : OneTick b b' where
  roster := hroster
  advance := by
    intro u s hs
    obtain ⟨s', hs', hturn⟩ := step.stage? n n' h hs
    refine ⟨s', hs', ?_⟩
    obtain rfl | ⟨rfl, rfl, -⟩ | ⟨rfl, rfl, -⟩ := hturn
    · exact ⟨Nat.le_refl _, Nat.le_succ _⟩
    · decide
    · decide
  one := by
    -- only what fills or empties the carry slot enters another stage
    have turning (u : EntityId) (hne : b'.stage? u ≠ b.stage? u) :
        b.carrying = none ∧ b'.carrying = some u ∨ b.carrying = some u ∧ b'.carrying = none := by
      cases hs : b.stage? u with
      | none =>
        have hnone : (b'.stage? u).isSome = (b.stage? u).isSome := by
          rw [Bool.eq_iff_iff, isSome_stage?_iff n', isSome_stage?_iff n, hroster]
        rw [hs, Option.isSome_none, Option.isSome_eq_false_iff, Option.isNone_iff_eq_none] at hnone
        exact absurd (hnone.trans hs.symm) hne
      | some s =>
        obtain ⟨s', hs', rfl | ⟨-, -, hfill⟩ | ⟨-, -, hempty⟩⟩ := step.stage? n n' h hs
        · exact absurd (hs'.trans hs.symm) hne
        · exact .inl hfill
        · exact .inr hempty
    intro u v hu hv
    rcases turning u hu with ⟨hu, hu'⟩ | ⟨hu, hu'⟩ <;> rcases turning v hv with ⟨hv, hv'⟩ | ⟨hv, hv'⟩
    · exact Option.some.inj (hu'.symm.trans hv')
    · cases hu.symm.trans hv
    · cases hu.symm.trans hv
    · exact Option.some.inj (hu.symm.trans hv)
  moved := by
    intro u e e' hlookup hlookup' hunit hpos
    obtain ⟨s, hs⟩ := Option.isSome_iff_exists.1 hunit
    obtain ⟨d, hd, rfl, hstage⟩ := (stage?_eq_some_iff n).1 hs
    obtain rfl := Option.some.inj ((n.entity?_object hd).symm.trans hlookup)
    obtain ⟨d', hd', hstep⟩ := step.entity?_object n n' h hd
    obtain rfl := Option.some.inj (hd'.symm.trans hlookup')
    cases hstep with
    | same | pickUp | dropOn => exact absurd rfl hpos
    | carry hkind before | drop hkind _ _ _ before =>
      rw [Board.stage?, hlookup, Option.bind_some, stageOf_eq_some_iff]
      exact ⟨_, .inl ⟨hkind, before, rfl⟩⟩
  pickedUp := by
    intro u hu
    cases step with
    | carry slot => exact .inl (slot ▸ hu)
    | @pickUp unit c mem kind here empty slot objects =>
      obtain rfl := Option.some.inj (slot.symm.trans hu)
      refine .inr ⟨empty, (stage?_eq_some_iff n).2 ⟨unit, mem, rfl, ?_⟩, lifted unit.id unit, ?_, ?_⟩
      · exact stageOf_eq_some_iff.2 ⟨c, .inr (.inl ⟨kind, by rw [empty]; nofun, rfl⟩)⟩
      · have hin : lifted unit.id unit ∈ b'.objects := objects ▸ List.mem_map_of_mem mem
        have hfound := n'.entity?_object hin
        rwa [(keepsIdentity_lifted unit.id).id] at hfound
      · rw [lifted, if_pos rfl]
        exact here
    | drop _ _ _ _ _ _ slot => cases slot.symm.trans hu
  dropped := by
    intro u hu
    cases step with
    | carry slot => exact .inl (slot.trans hu)
    | pickUp _ _ _ empty => cases empty.symm.trans hu
    | @drop unit target c mem kind target_mem target_kind here full slot objects =>
      obtain rfl := Option.some.inj (full.symm.trans hu)
      have hne := id_ne_of_unit_of_target n.sorted mem kind target_mem target_kind
      have hunit := List.mem_map_of_mem (f := linkedUp unit.id target) mem
      have htarget := List.mem_map_of_mem (f := linkedUp unit.id target) target_mem
      rw [← objects, linkedUp_unit hne kind] at hunit
      rw [← objects, linkedUp_target hne target_kind] at htarget
      have hunit' := n'.entity?_object hunit
      have htarget' := n'.entity?_object htarget
      exact .inr ⟨slot, _, target.id, target, c, hunit', rfl, here, n.entity?_object target_mem,
        target_kind, htarget', here⟩
  placed := by
    intro u e hlookup hs
    rw [Board.stage?, hlookup, Option.bind_some] at hs
    obtain ⟨he, rfl⟩ := n.entity?_eq_some_iff.1 hlookup
    obtain ⟨c, ⟨-, -, hs⟩ | ⟨-, -, hs⟩ | ⟨t, hkind, -⟩⟩ := stageOf_eq_some_iff.1 hs
    · cases hs
    · cases hs
    · exact step.entity?_linked n n' h (n.unit_mem_objects he hkind) (by rw [hkind]; rfl)
  target := by
    intro t f c u hlookup hkind
    obtain ⟨hf, rfl⟩ := n.entity?_eq_some_iff.1 hlookup
    exact step.entity?_linked n n' h (n.target_mem_objects hf hkind) (by rw [hkind]; rfl)

end Tick

/-! ### Any number of ticks -/

/-- What any number of ticks can do to the units of a board. -/
structure OneWay (b b' : Board) : Prop where
  /-- No unit is lost, new, or another one than before. -/
  roster : b'.roster = b.roster
  /-- No unit goes back to an earlier stage. -/
  forward : ∀ u s, b.stage? u = some s → ∃ s', b'.stage? u = some s' ∧ s.rank ≤ s'.rank
  /-- As long as a unit is free, it stays where it is. -/
  waiting : ∀ u e e', b.entity? u = some e → b'.entity? u = some e' → b.stage? u = some .free →
    b'.stage? u = some .free → e'.pos = e.pos
  /-- What is placed does not change: neither its cell nor its target. -/
  placed : ∀ u e, b.entity? u = some e → b.stage? u = some .placed → b'.entity? u = some e
  /-- A target that a unit was dropped on keeps it. -/
  target : ∀ t f c u, b.entity? t = some f → f.kind = .herdTarget c (some u) →
    b'.entity? t = some f

theorem OneTick.oneWay (tick : OneTick b b') : OneWay b b' where
  roster := tick.roster
  forward := by
    intro u s hs
    obtain ⟨s', hs', hle, -⟩ := tick.advance u s hs
    exact ⟨s', hs', hle⟩
  waiting := by
    intro u e e' hlookup hlookup' hfree _
    by_cases hpos : e'.pos = e.pos
    · exact hpos
    · have hcarried := tick.moved u e e' hlookup hlookup' (by rw [hfree]; rfl) hpos
      cases hfree.symm.trans hcarried
  placed := tick.placed
  target := tick.target

namespace OneWay

theorem refl (b : Board) : OneWay b b where
  roster := rfl
  forward := fun _ s hs => ⟨s, hs, Nat.le_refl _⟩
  waiting := fun _ _ _ hlookup hlookup' _ _ => by
    rw [Option.some.inj (hlookup.symm.trans hlookup')]
  placed := fun _ _ hlookup _ => hlookup
  target := fun _ _ _ _ hlookup _ => hlookup

theorem trans (first : OneWay b b') (second : OneWay b' b'') : OneWay b b'' where
  roster := second.roster.trans first.roster
  forward := by
    intro u s hs
    obtain ⟨s', hs', hle⟩ := first.forward u s hs
    obtain ⟨s'', hs'', hle'⟩ := second.forward u s' hs'
    exact ⟨s'', hs'', Nat.le_trans hle hle'⟩
  waiting := by
    intro u e e'' hlookup hlookup'' hfree hfree''
    -- a unit that is free in the end was free in between
    obtain ⟨s', hs', -⟩ := first.forward u _ hfree
    obtain ⟨s'', hs'', hle⟩ := second.forward u s' hs'
    obtain rfl := Option.some.inj (hs''.symm.trans hfree'')
    obtain rfl := Stage.eq_free hle
    obtain ⟨e', hlookup', -⟩ := Option.bind_eq_some_iff.1 hs'
    exact (second.waiting u e' e'' hlookup' hlookup'' hs' hfree'').trans
      (first.waiting u e e' hlookup hlookup' hfree hs')
  placed := by
    intro u e hlookup hplaced
    obtain ⟨s', hs', hle⟩ := first.forward u _ hplaced
    obtain rfl := Stage.eq_placed hle
    exact second.placed u e (first.placed u e hlookup hplaced) hs'
  target := by
    intro t f c u hlookup hkind
    exact second.target t f c u (first.target t f c u hlookup hkind) hkind

end OneWay

theorem Reachable.apply (h : Reachable b) (a : Action) : Reachable (b.apply a) := h.perform (.act a)

theorem Reachable.replay (h : Reachable b) (actions : List Action) :
    Reachable (b.replay actions) := h.perform (.replay actions)

theorem Reachable.herd (h : Reachable b) : Herd b := (preserved_herd.reachable h).2.1

theorem Reachable.oneTick (h : Reachable b) (a : Action) : OneTick b (b.apply a) :=
  (herdStep_apply h.numbered h.herd a).oneTick h.numbered (h.apply a).numbered h.herd
    (roster_apply b a)

theorem Reachable.oneWay (h : Reachable b) (actions : List Action) :
    OneWay b (b.replay actions) := by
  induction actions generalizing b with
  | nil => exact .refl b
  | cons a actions ih => exact (h.oneTick a).oneWay.trans (ih (h.apply a))

/-! ### Picking up and dropping in a run -/

/-- The unit that is in the carry slot of the second board, but not of the first. -/
def gained (b b' : Board) : List EntityId :=
  (b'.carrying.filter fun u => b.carrying ≠ some u).toList

/-- What is seen at the ticks of a run, one after the other. -/
def alongTicks (see : Board → Board → List EntityId) (b : Board) : List Action → List EntityId
  | [] => []
  | a :: actions => see b (b.apply a) ++ alongTicks see (b.apply a) actions

/-- The units that are picked up in a run, in order. -/
def pickUps (b : Board) (actions : List Action) : List EntityId := b.alongTicks gained actions

/-- The units that are dropped in a run, in order. -/
def drops (b : Board) (actions : List Action) : List EntityId :=
  b.alongTicks (fun before after => gained after before) actions

theorem mem_gained {u : EntityId} :
    u ∈ gained b b' ↔ b'.carrying = some u ∧ b.carrying ≠ some u := by
  simp [gained, Option.filter_eq_some_iff]

theorem nodup_gained (b b' : Board) : (gained b b').Nodup := by
  unfold gained
  cases b'.carrying.filter fun u => b.carrying ≠ some u <;> simp

theorem Herd.stage?_carried (n : Numbered b) (h : Herd b) {u : EntityId}
    (hu : b.carrying = some u) : b.stage? u = some .carried := by
  obtain ⟨e, he, rfl, ⟨c, hkind⟩, -⟩ := h.carried u hu
  exact (stage?_eq_some_iff n).2 ⟨e, he, rfl, stageOf_eq_some_iff.2 ⟨c, .inl ⟨hkind, hu, rfl⟩⟩⟩

/-- Units that are seen only when they leave a stage for a later one are seen once. -/
theorem Reachable.nodup_alongTicks {see : Board → Board → List EntityId} {s : Stage}
    (single : ∀ b b', (see b b').Nodup)
    (leaves : ∀ {b : Board} {a : Action} {u : EntityId}, Reachable b → u ∈ see b (b.apply a) →
      b.stage? u = some s ∧ ∃ s', (b.apply a).stage? u = some s' ∧ s.rank < s'.rank)
    (h : Reachable b) (actions : List Action) :
    (b.alongTicks see actions).Nodup ∧
      ∀ u ∈ b.alongTicks see actions, ∃ t, b.stage? u = some t ∧ t.rank ≤ s.rank := by
  induction actions generalizing b with
  | nil => exact ⟨.nil, nofun⟩
  | cons a actions ih =>
    obtain ⟨hnodup, hbefore⟩ := ih (h.apply a)
    refine ⟨List.nodup_append.2 ⟨single _ _, hnodup, ?_⟩, ?_⟩
    · rintro u hu _ hlater rfl
      obtain ⟨-, s', hs', hlt⟩ := leaves h hu
      obtain ⟨t, ht, hle⟩ := hbefore u hlater
      obtain rfl := Option.some.inj (hs'.symm.trans ht)
      exact Nat.not_le.2 hlt hle
    · intro u hu
      rcases List.mem_append.1 hu with hu | hu
      · exact ⟨s, (leaves h hu).1, Nat.le_refl _⟩
      · obtain ⟨t', ht', hle⟩ := hbefore u hu
        have hunit : (b.stage? u).isSome := by
          rw [isSome_stage?_iff h.numbered, ← roster_apply b a,
            ← isSome_stage?_iff (h.apply a).numbered, ht']
          rfl
        obtain ⟨t, ht⟩ := Option.isSome_iff_exists.1 hunit
        obtain ⟨t'', ht'', hle', -⟩ := (h.oneTick a).advance u t ht
        obtain rfl := Option.some.inj (ht''.symm.trans ht')
        exact ⟨t, ht, Nat.le_trans hle' hle⟩

theorem Reachable.nodup_pickUps (h : Reachable b) (actions : List Action) :
    (b.pickUps actions).Nodup := by
  refine (h.nodup_alongTicks (s := .free) nodup_gained ?_ actions).1
  intro b a u h hu
  obtain ⟨hafter, hbefore⟩ := mem_gained.1 hu
  obtain hsame | ⟨-, hfree, -⟩ := (h.oneTick a).pickedUp u hafter
  · exact absurd hsame hbefore
  · exact ⟨hfree, _, (h.apply a).herd.stage?_carried (h.apply a).numbered hafter, by decide⟩

theorem Reachable.nodup_drops (h : Reachable b) (actions : List Action) :
    (b.drops actions).Nodup := by
  refine (h.nodup_alongTicks (s := .carried) (fun b b' => nodup_gained b' b) ?_ actions).1
  intro b a u h hu
  obtain ⟨hbefore, hafter⟩ := mem_gained.1 hu
  obtain hsame | ⟨-, e, t, -, c, hlookup, hkind, -⟩ := (h.oneTick a).dropped u hbefore
  · exact absurd hsame hafter
  · refine ⟨h.herd.stage?_carried h.numbered hbefore, .placed, ?_, by decide⟩
    rw [stage?, hlookup, Option.bind_some, stageOf_eq_some_iff]
    exact ⟨c, .inr (.inr ⟨t, hkind, rfl⟩)⟩

/-- Whatever actions are taken, every unit goes one way from each board of the run to the last one,
each tick takes at most one of them one stage further, and no unit is picked up or dropped twice. -/
theorem Reachable.replay_oneWay (h : Reachable b) (actions : List Action) :
    (∀ before after, actions = before ++ after →
      OneWay (b.replay before) (b.replay actions)) ∧
    (∀ before a after, actions = before ++ a :: after →
      OneTick (b.replay before) (b.replay (before ++ [a]))) ∧
    (b.pickUps actions).Nodup ∧ (b.drops actions).Nodup := by
  refine ⟨?_, ?_, h.nodup_pickUps actions, h.nodup_drops actions⟩
  · rintro before after rfl
    rw [replay_append]
    exact (h.replay before).oneWay after
  · rintro before a after -
    rw [replay_append]
    exact (h.replay before).oneTick a

/-- Two units that meet on one cell: the first one is dropped there on its target, then the second
one is picked up by a turn and carried to a target of its own. -/
theorem replay_oneWay_exchange : ∃ b : Board, Reachable b ∧
    b.pickUps [.forward, .right, .turnLeft, .backward, .turnRight] = [2, 4] ∧
    b.drops [.forward, .right, .turnLeft, .backward, .turnRight] = [2, 4] ∧
    (b.pickUps [.forward, .right, .turnLeft, .backward, .turnRight]).Nodup ∧
    OneTick (b.replay [.forward, .right]) (b.replay [.forward, .right, .turnLeft]) ∧
    OneWay (b.replay [.forward])
      (b.replay [.forward, .right, .turnLeft, .backward, .turnRight]) := by
  have reachable := (Reachable.ofLayout (l := ⟨6, ⟨⟨1, 3⟩, .north⟩, ⟨5, 5⟩, .none⟩) rfl).perform
    (.add [.sheep ⟨1, 2⟩ .pink, .target ⟨2, 2⟩ .pink, .sheep ⟨2, 2⟩ .white, .target ⟨3, 2⟩ .white])
  obtain ⟨oneWay, oneTick, nodup, -⟩ :=
    reachable.replay_oneWay [.forward, .right, .turnLeft, .backward, .turnRight]
  exact ⟨_, reachable, by decide +kernel, by decide +kernel, nodup,
    oneTick [.forward, .right] .turnLeft _ rfl, oneWay [.forward] _ rfl⟩

end Board
end Shepherd.Grid
