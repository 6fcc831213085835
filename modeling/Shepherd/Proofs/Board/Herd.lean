import Shepherd.Proofs.Board.Identity

/-!
# The herd

Units and targets name each other, the carry slot names a unit, and a unit's priority tells whether
it is carried. All of this is stored apart, and ticks and edits change it in several places. On a
reachable board it agrees: the links pair units with targets of their colour on their cell, the
carried unit is free and in tow, and no cell holds two placed units of one colour.

`Linked` is what holds of the links at all times, `Herd` adds the carry slot and the priorities.
Both hold even between the steps of a tick, where the carried unit may lag behind the agent.
-/

namespace Shepherd.Grid.Board

/-- Units and targets name each other in pairs of one colour on one cell, and on no cell are two
units of one colour placed. -/
structure Linked (objects : List Entity) : Prop where
  placed : ∀ e ∈ objects, ∀ c t, e.kind = .herdUnit c (some t) →
    ∃ f ∈ objects, f.id = t ∧ f.kind = .herdTarget c (some e.id) ∧ f.pos = e.pos
  claimed : ∀ f ∈ objects, ∀ c u, f.kind = .herdTarget c (some u) →
    ∃ e ∈ objects, e.id = u ∧ e.kind = .herdUnit c (some f.id)
  alone : ∀ d ∈ objects, ∀ e ∈ objects, ∀ c t t', d.kind = .herdUnit c (some t) →
    e.kind = .herdUnit c (some t') → d.pos = e.pos → d = e

/-- The links are in order, the carry slot names a free unit, and priorities tell it apart. -/
structure Herd (b : Board) : Prop where
  linked : Linked b.objects
  carried : ∀ u, b.carrying = some u → ∃ e ∈ b.objects, e.id = u ∧
    (∃ c, e.kind = .herdUnit c none) ∧ e.priority = Kind.carriedPriority
  resting : ∀ e ∈ b.objects, ∀ c t, e.kind = .herdUnit c t → b.carrying ≠ some e.id →
    e.priority = e.kind.defaultPriority

/-- The carried unit is on the agent's cell. -/
def InTow (b : Board) : Prop := ∀ e ∈ b.objects, b.carrying = some e.id → e.pos = b.agent.pos

/-! ### Changes that keep the links -/

/-- Links stay in order where kinds stay and nothing that is linked moves. -/
theorem Linked.map {objects : List Entity} (h : Linked objects) {f : Entity → Entity}
    (id : ∀ e, (f e).id = e.id) (kind : ∀ e, (f e).kind = e.kind)
    (pos : ∀ e ∈ objects, e.kind.link?.isSome → (f e).pos = e.pos) : Linked (objects.map f) where
  placed := by
    simp only [List.forall_mem_map, kind, id]
    intro e he c t hkind
    obtain ⟨g, hg, hid, hgkind, hpos⟩ := h.placed e he c t hkind
    refine ⟨f g, List.mem_map_of_mem hg, (id g).trans hid, (kind g).trans hgkind, ?_⟩
    rw [pos g hg (by rw [hgkind]; rfl), pos e he (by rw [hkind]; rfl), hpos]
  claimed := by
    simp only [List.forall_mem_map, kind, id]
    intro g hg c u hkind
    obtain ⟨e, he, hid, hekind⟩ := h.claimed g hg c u hkind
    exact ⟨f e, List.mem_map_of_mem he, (id e).trans hid, (kind e).trans hekind⟩
  alone := by
    simp only [List.forall_mem_map, kind]
    intro d hd e he c t t' hdkind hekind hpos
    rw [pos d hd (by rw [hdkind]; rfl), pos e he (by rw [hekind]; rfl)] at hpos
    rw [h.alone d hd e he c t t' hdkind hekind hpos]

/-- The links of a pruned unit are those that it had before to what is still there. -/
theorem pruned_eq_herdUnit {k : Kind} {keep : EntityId → Bool} {c : Color} {t : EntityId} :
    k.withLink (k.link?.filter keep) = .herdUnit c (some t) ↔
      k = .herdUnit c (some t) ∧ keep t = true := by
  cases k <;> simp [Kind.withLink, Kind.link?, Option.filter_eq_some_iff, and_assoc]

theorem pruned_eq_herdTarget {k : Kind} {keep : EntityId → Bool} {c : Color} {u : EntityId} :
    k.withLink (k.link?.filter keep) = .herdTarget c (some u) ↔
      k = .herdTarget c (some u) ∧ keep u = true := by
  cases k <;> simp [Kind.withLink, Kind.link?, Option.filter_eq_some_iff, and_assoc]

/-- Pruning after some objects went keeps the links in order: of two that name each other, either
both links stay or none. -/
theorem Linked.prune {objects : List Entity} (h : Linked objects) {p : Entity → Bool}
    {keep : EntityId → Bool} (hkeep : ∀ e ∈ objects, keep e.id = p e) :
    Linked ((objects.filter p).map fun e =>
      { e with kind := e.kind.withLink (e.kind.link?.filter keep) }) where
  placed := by
    simp only [List.forall_mem_map, List.mem_filter, pruned_eq_herdUnit]
    rintro e ⟨he, hpe⟩ c t ⟨hkind, hkt⟩
    obtain ⟨f, hf, rfl, hfkind, hpos⟩ := h.placed e he c t hkind
    have hpf : p f = true := hkeep f hf ▸ hkt
    have hke : keep e.id = true := hkeep e he ▸ hpe
    exact ⟨_, List.mem_map_of_mem (List.mem_filter.2 ⟨hf, hpf⟩), rfl,
      pruned_eq_herdTarget.2 ⟨hfkind, hke⟩, hpos⟩
  claimed := by
    simp only [List.forall_mem_map, List.mem_filter, pruned_eq_herdTarget]
    rintro f ⟨hf, hpf⟩ c u ⟨hkind, hku⟩
    obtain ⟨e, he, rfl, hekind⟩ := h.claimed f hf c u hkind
    have hpe : p e = true := hkeep e he ▸ hku
    have hkf : keep f.id = true := hkeep f hf ▸ hpf
    exact ⟨_, List.mem_map_of_mem (List.mem_filter.2 ⟨he, hpe⟩), rfl,
      pruned_eq_herdUnit.2 ⟨hekind, hkf⟩⟩
  alone := by
    simp only [List.forall_mem_map, List.mem_filter, pruned_eq_herdUnit]
    rintro d ⟨hd, -⟩ e ⟨he, -⟩ c t t' ⟨hdkind, -⟩ ⟨hekind, -⟩ hpos
    rw [h.alone d hd e he c t t' hdkind hekind hpos]

/-- Entities without links can join. -/
theorem Linked.append {objects new : List Entity} (h : Linked objects)
    (free : ∀ e ∈ new, e.kind.link? = none) : Linked (objects ++ new) := by
  have unlinked : ∀ e ∈ new, ∀ c t, e.kind ≠ .herdUnit c (some t) ∧
      e.kind ≠ .herdTarget c (some t) := by
    intro e he c t
    constructor <;> intro hkind <;> simpa [hkind, Kind.link?] using free e he
  refine ⟨?_, ?_, ?_⟩
  · intro e he c t hkind
    rcases List.mem_append.1 he with he | he
    · obtain ⟨f, hf, hrest⟩ := h.placed e he c t hkind
      exact ⟨f, List.mem_append_left _ hf, hrest⟩
    · exact absurd hkind (unlinked e he c t).1
  · intro f hf c u hkind
    rcases List.mem_append.1 hf with hf | hf
    · obtain ⟨e, he, hrest⟩ := h.claimed f hf c u hkind
      exact ⟨e, List.mem_append_left _ he, hrest⟩
    · exact absurd hkind (unlinked f hf c u).2
  · intro d hd e he c t t' hdkind hekind
    rcases List.mem_append.1 hd with hd | hd
    · rcases List.mem_append.1 he with he | he
      · exact h.alone d hd e he c t t' hdkind hekind
      · exact absurd hekind (unlinked e he c t').1
    · exact absurd hdkind (unlinked d hd c t).1

/-! ### Picking up and dropping -/

section Settling
variable {b : Board}

/-- The unit to be picked up is a free one on the agent's cell. -/
theorem unitHere?_eq_some {unit : Entity} (h : b.unitHere? = some unit) :
    unit ∈ b.objects ∧ unit.pos = b.agent.pos ∧ ∃ c, unit.kind = .herdUnit c none := by
  unfold unitHere? at h
  have hfound := List.find?_some h
  rw [Bool.and_eq_true, beq_iff_eq] at hfound
  exact ⟨List.mem_of_find?_eq_some h, hfound.1, Entity.isFreeUnit_iff.1 hfound.2⟩

/-- The target to be dropped on is a free one on the agent's cell, of the unit's colour, and no
other unit of the colour is there. -/
theorem targetHere?_eq_some {unit : EntityId} {target : Entity}
    (h : b.targetHere? unit = some target) : ∃ c, b.colorOf? unit = some c ∧
      target ∈ b.objects ∧ target.pos = b.agent.pos ∧ target.kind = .herdTarget c none ∧
      ∀ e ∈ b.objects, e.id ≠ unit → (∃ t, e.kind = .herdUnit c t) → e.pos ≠ b.agent.pos := by
  obtain ⟨c, hcolor, hfound⟩ := Option.bind_eq_some_iff.1 h
  have htarget := List.find?_some hfound
  simp only [Bool.and_eq_true, beq_iff_eq, Bool.not_eq_true', Entity.targetColor?_eq_some_iff,
    Entity.isFreeTarget_iff] at htarget
  obtain ⟨⟨⟨hpos, u, hkind⟩, d, hfree⟩, hcrowd⟩ := htarget
  refine ⟨c, hcolor, List.mem_of_find?_eq_some hfound, hpos, ?_, ?_⟩
  · rw [hkind] at hfree
    cases hfree
    exact hkind
  · intro e he hid hunit hhere
    have hno := List.any_eq_false.1 hcrowd e (by simp [he])
    simp [hid, Entity.unitColor?_eq_some_iff.2 hunit, hhere] at hno

/-- Picking up a free unit keeps the herd in order. -/
theorem Herd.pickUp (h : Herd b) {unit : Entity} (hcarry : b.carrying = none)
    (hunit : b.unitHere? = some unit) :
    Herd { b with objects := b.objects.map (lifted unit.id), carrying := some unit.id } := by
  obtain ⟨hmem, -, c, hkind⟩ := unitHere?_eq_some hunit
  have lifted_kind : ∀ e, (lifted unit.id e).kind = e.kind := fun e => by
    unfold lifted; split <;> rfl
  have lifted_pos : ∀ e, (lifted unit.id e).pos = e.pos := fun e => by
    unfold lifted; split <;> rfl
  refine ⟨h.linked.map (keepsIdentity_lifted _).id lifted_kind fun e _ _ => lifted_pos e, ?_, ?_⟩
  · intro u hu
    obtain rfl := Option.some.inj hu
    refine ⟨lifted unit.id unit, List.mem_map_of_mem hmem, (keepsIdentity_lifted _).id unit,
      ⟨c, (lifted_kind unit).trans hkind⟩, ?_⟩
    rw [lifted, if_pos rfl]
  · simp only [List.forall_mem_map, lifted_kind, (keepsIdentity_lifted _).id]
    intro e he d t hekind hother
    have hid : e.id ≠ unit.id := fun hid => hother (congrArg some hid.symm)
    rw [lifted, if_neg hid]
    exact h.resting e he d t hekind (by rw [hcarry]; exact Option.some_ne_none _ |>.symm)

section Dropping
variable {unit target : Entity} {c : Color}

/-- A unit and a target of one list have different identities. -/
theorem id_ne_of_unit_of_target {objects : List Entity}
    (sorted : objects.Pairwise fun d e => d.id < e.id) (humem : unit ∈ objects)
    (hukind : unit.kind = .herdUnit c none) (htmem : target ∈ objects)
    (htkind : target.kind = .herdTarget c none) : unit.id ≠ target.id := by
  intro hid
  rw [eq_of_id_eq sorted humem htmem hid, htkind] at hukind
  cases hukind

theorem linkedUp_unit (hne : unit.id ≠ target.id) (hkind : unit.kind = .herdUnit c none) :
    linkedUp unit.id target unit =
      { unit with
        pos := target.pos
        priority := unit.kind.defaultPriority
        kind := .herdUnit c (some target.id) } := by
  simp [linkedUp, hne, placedOn, hkind, Kind.withLink]

theorem linkedUp_target (hne : unit.id ≠ target.id) (hkind : target.kind = .herdTarget c none) :
    linkedUp unit.id target target = { target with kind := .herdTarget c (some unit.id) } := by
  simp [linkedUp, hne.symm, hkind, Kind.withLink]

theorem linkedUp_other {e : Entity} (hu : e.id ≠ unit.id) (ht : e.id ≠ target.id) :
    linkedUp unit.id target e = e := by
  simp [linkedUp, hu, ht]

/-- Linking a free unit with a free target of its colour keeps the links in order, where no other
unit of the colour stands on the target's cell. -/
theorem Linked.link {objects : List Entity} (h : Linked objects)
    (sorted : objects.Pairwise fun d e => d.id < e.id)
    (humem : unit ∈ objects) (hukind : unit.kind = .herdUnit c none)
    (htmem : target ∈ objects) (htkind : target.kind = .herdTarget c none)
    (room : ∀ e ∈ objects, e.id ≠ unit.id → (∃ t, e.kind = .herdUnit c t) → e.pos ≠ target.pos) :
    Linked (objects.map (linkedUp unit.id target)) := by
  have hne := id_ne_of_unit_of_target sorted humem hukind htmem htkind
  have hunit := linkedUp_unit hne hukind
  have htarget := linkedUp_target hne htkind
  have huin := List.mem_map_of_mem (f := linkedUp unit.id target) humem
  have htin := List.mem_map_of_mem (f := linkedUp unit.id target) htmem
  rw [hunit] at huin
  rw [htarget] at htin
  -- an object is the unit, the target, or one that stays as it is
  have which : ∀ e ∈ objects, e = unit ∨ e = target ∨
      (e.id ≠ unit.id ∧ linkedUp unit.id target e = e) := by
    intro e he
    by_cases hu : e.id = unit.id
    · exact .inl (eq_of_id_eq sorted he humem hu)
    · by_cases ht : e.id = target.id
      · exact .inr (.inl (eq_of_id_eq sorted he htmem ht))
      · exact .inr (.inr ⟨hu, linkedUp_other hu ht⟩)
  refine ⟨?_, ?_, ?_⟩
  · rw [List.forall_mem_map]
    intro e he d t hkind
    rcases which e he with rfl | rfl | ⟨-, hsame⟩
    · rw [hunit] at hkind ⊢
      cases hkind
      exact ⟨_, htin, rfl, rfl, rfl⟩
    · rw [htarget] at hkind
      cases hkind
    · rw [hsame] at hkind ⊢
      obtain ⟨f, hf, hid, hfkind, hpos⟩ := h.placed e he d t hkind
      refine ⟨f, ?_, hid, hfkind, hpos⟩
      rcases which f hf with rfl | rfl | ⟨-, hfsame⟩
      · rw [hukind] at hfkind
        cases hfkind
      · rw [htkind] at hfkind
        cases hfkind
      · rw [← hfsame]
        exact List.mem_map_of_mem hf
  · rw [List.forall_mem_map]
    intro f hf d u hkind
    rcases which f hf with rfl | rfl | ⟨-, hsame⟩
    · rw [hunit] at hkind
      cases hkind
    · rw [htarget] at hkind ⊢
      cases hkind
      exact ⟨_, huin, rfl, rfl⟩
    · rw [hsame] at hkind ⊢
      obtain ⟨e, he, hid, hekind⟩ := h.claimed f hf d u hkind
      refine ⟨e, ?_, hid, hekind⟩
      rcases which e he with rfl | rfl | ⟨-, hesame⟩
      · rw [hukind] at hekind
        cases hekind
      · rw [htkind] at hekind
        cases hekind
      · rw [← hesame]
        exact List.mem_map_of_mem he
  · have which_unit : ∀ e ∈ objects, ∀ d t, (linkedUp unit.id target e).kind =
        .herdUnit d (some t) →
        (e = unit ∧ d = c) ∨ (e.id ≠ unit.id ∧ linkedUp unit.id target e = e) := by
      intro e he d t hkind
      rcases which e he with rfl | rfl | hother
      · rw [hunit] at hkind
        cases hkind
        exact .inl ⟨rfl, rfl⟩
      · rw [htarget] at hkind
        cases hkind
      · exact .inr hother
    simp only [List.forall_mem_map]
    intro e he f hf d t t' hekind hfkind hpos
    rcases which_unit e he d t hekind with ⟨he', hd⟩ | ⟨hei, hesame⟩ <;>
      rcases which_unit f hf d t' hfkind with ⟨hf', hd'⟩ | ⟨hfi, hfsame⟩
    · rw [he', hf']
    · rw [he', hunit, hfsame] at hpos
      rw [hfsame, hd] at hfkind
      exact absurd hpos.symm (room f hf hfi ⟨_, hfkind⟩)
    · rw [hf', hunit, hesame] at hpos
      rw [hesame, hd'] at hekind
      exact absurd hpos (room e he hei ⟨_, hekind⟩)
    · rw [hesame, hfsame] at hpos ⊢
      rw [hesame] at hekind
      rw [hfsame] at hfkind
      exact h.alone e he f hf d t t' hekind hfkind hpos

end Dropping

/-- Dropping the carried unit keeps the herd in order. -/
theorem Herd.drop (n : Numbered b) (h : Herd b) {u : EntityId} {target : Entity}
    (hcarry : b.carrying = some u) (htarget : b.targetHere? u = some target) :
    Herd { b with objects := b.objects.map (linkedUp u target), carrying := none } := by
  obtain ⟨c, hcolor, hmem, hpos, htkind, hroom⟩ := targetHere?_eq_some htarget
  obtain ⟨unit, humem, rfl, ⟨d, hukind⟩, -⟩ := h.carried u hcarry
  obtain rfl : d = c := by
    have hfound := n.entity?_eq_some_iff.2 ⟨List.mem_cons_of_mem _ (List.mem_cons_of_mem _ humem),
      rfl⟩
    simpa [colorOf?, hfound, Entity.unitColor?, hukind] using hcolor
  have nocarry : ∀ v, (none : Option EntityId) ≠ some v := fun v => (Option.some_ne_none v).symm
  refine ⟨h.linked.link n.sorted humem hukind hmem htkind (hpos ▸ hroom),
    fun v hv => absurd hv (nocarry v), ?_⟩
  have hne := id_ne_of_unit_of_target n.sorted humem hukind hmem htkind
  rw [List.forall_mem_map]
  intro e he c t hkind _
  by_cases hu : e.id = unit.id
  · rw [eq_of_id_eq n.sorted he humem hu, linkedUp_unit hne hukind, hukind]
    rfl
  · by_cases ht : e.id = target.id
    · rw [eq_of_id_eq n.sorted he hmem ht, linkedUp_target hne htkind] at hkind
      cases hkind
    · rw [linkedUp_other hu ht] at hkind ⊢
      exact h.resting e he c t hkind fun hcarried =>
        hu (Option.some.inj (hcarry.symm.trans hcarried)).symm

/-- The herd has no part in the agent's step. -/
theorem Herd.move (h : Herd b) (a : Action) : Herd (b.move a) := by
  rw [move_eq]
  exact ⟨h.linked, h.carried, h.resting⟩

/-- A tick's pick-up and drop keep the herd in order, wherever the carried unit lags behind. -/
theorem Herd.settle (n : Numbered b) (h : Herd b) : Herd b.settle := by
  rcases settle_cases b with hsame | ⟨unit, hcarry, hunit, hpick⟩ | ⟨u, target, hcarry, ht, hdrop⟩
  · rwa [hsame]
  · rw [hpick]
    exact h.pickUp hcarry hunit
  · rw [hdrop]
    exact h.drop n hcarry ht

/-- Putting the carried unit on the agent's cell keeps the herd in order: it is on no target. -/
theorem Herd.trackCarried (n : Numbered b) (h : Herd b) : Herd b.trackCarried := by
  have tracked_kind : ∀ e, (b.tracked e).kind = e.kind := fun e => by
    unfold tracked; split <;> rfl
  have tracked_priority : ∀ e, (b.tracked e).priority = e.priority := fun e => by
    unfold tracked; split <;> rfl
  have tracked_id := (keepsIdentity_tracked b).id
  rw [trackCarried_eq]
  refine ⟨h.linked.map tracked_id tracked_kind fun e he hlinked => ?_, ?_, ?_⟩
  · have hother : b.carrying ≠ some e.id := fun hcarry => by
      obtain ⟨unit, humem, hid, ⟨c, hukind⟩, -⟩ := h.carried e.id hcarry
      rw [eq_of_id_eq n.sorted he humem hid.symm, hukind] at hlinked
      cases hlinked
    rw [tracked, if_neg hother]
  · intro u hu
    obtain ⟨e, he, hid, ⟨c, hkind⟩, hpriority⟩ := h.carried u hu
    exact ⟨b.tracked e, List.mem_map_of_mem he, (tracked_id e).trans hid,
      ⟨c, (tracked_kind e).trans hkind⟩, (tracked_priority e).trans hpriority⟩
  · simp only [List.forall_mem_map, tracked_kind, tracked_priority, tracked_id]
    exact h.resting

/-- Afterwards the carried unit is on the agent's cell. -/
theorem inTow_trackCarried (b : Board) : InTow b.trackCarried := by
  rw [trackCarried_eq]
  intro e he hcarry
  obtain ⟨d, -, rfl⟩ := List.mem_map.1 he
  rw [(keepsIdentity_tracked b).id] at hcarry
  rw [tracked, if_pos hcarry]

end Settling

/-! ### Editing -/

section Editing
variable {b : Board}

/-- After some objects went, the board contains those that are left. -/
theorem contains_of_filter (n : Numbered b) {p : Entity → Bool} {b' : Board}
    (agent : b'.agent.id = b.agent.id) (exit : b'.exit.id = b.exit.id)
    (objects : b'.objects = b.objects.filter p) {e : Entity} (he : e ∈ b.objects) :
    b'.contains e.id = p e := by
  have hlow := n.lower e he
  have hagent : b'.agent.id ≠ e.id := by
    rw [agent, n.agent_id]
    exact Nat.ne_of_lt (Nat.lt_trans Nat.zero_lt_one hlow)
  have hexit : b'.exit.id ≠ e.id := by
    rw [exit, n.exit_id]
    exact Nat.ne_of_lt hlow
  rw [Bool.eq_iff_iff]
  simp only [contains, entities_def, objects, List.any_cons, Bool.or_eq_true, beq_iff_eq, hagent,
    hexit, false_or, List.any_eq_true, List.mem_filter]
  constructor
  · rintro ⟨d, ⟨hd, hpd⟩, hid⟩
    rwa [eq_of_id_eq n.sorted hd he hid] at hpd
  · exact fun hpe => ⟨e, ⟨he, hpe⟩, rfl⟩

/-- Pruning after some objects went keeps the herd in order. -/
theorem Herd.prune (n : Numbered b) (h : Herd b) {p : Entity → Bool} {b' : Board}
    (agent : b'.agent.id = b.agent.id) (exit : b'.exit.id = b.exit.id)
    (carrying : b'.carrying = b.carrying) (objects : b'.objects = b.objects.filter p) :
    Herd b'.pruneLinks := by
  have hkeep : ∀ e ∈ b.objects, b'.contains e.id = p e := fun e he =>
    contains_of_filter n agent exit objects he
  refine ⟨?_, ?_, ?_⟩
  · simp only [pruneLinks, objects]
    exact h.linked.prune hkeep
  · intro u hu
    simp only [pruneLinks, carrying, Option.filter_eq_some_iff] at hu
    obtain ⟨e, he, rfl, ⟨c, hkind⟩, hpriority⟩ := h.carried u hu.1
    have hpe : p e = true := hkeep e he ▸ hu.2
    refine ⟨b'.pruned e, ?_, rfl, ⟨c, ?_⟩, hpriority⟩
    · simp only [pruneLinks, objects]
      exact List.mem_map_of_mem (List.mem_filter.2 ⟨he, hpe⟩)
    · simp [pruned, hkind, Kind.withLink, Kind.link?]
  · simp only [pruneLinks, objects, carrying, List.forall_mem_map, List.mem_filter]
    rintro e ⟨he, hpe⟩ c t hkind hother
    have hcarry : b.carrying ≠ some e.id := fun hcarry => hother (by
      rw [hcarry, Option.filter_some, if_pos (hkeep e he ▸ hpe)]
      rfl)
    have hunit : ∃ t, e.kind = .herdUnit c t := by
      simp only [pruned] at hkind
      cases hk : e.kind <;> simp_all [Kind.withLink]
    obtain ⟨t', hkind'⟩ := hunit
    rw [pruned, Kind.defaultPriority_withLink]
    exact h.resting e he c t' hkind' hcarry

/-- New objects have no links and rest. -/
theorem Herd.addItems (h : Herd b) {items : List Item} {b' : Board}
    {ids : List EntityId} (hadd : b.addItems items = .ok (b', ids)) : Herd b' := by
  obtain ⟨-, rfl, -⟩ := addItems_eq_ok hadd
  refine ⟨h.linked.append fun e he => (mem_added he).2.2.2.1, ?_, ?_⟩
  · intro u hu
    obtain ⟨e, he, hrest⟩ := h.carried u hu
    exact ⟨e, List.mem_append_left _ he, hrest⟩
  · intro e he c t hkind hother
    rcases List.mem_append.1 he with he | he
    · exact h.resting e he c t hkind hother
    · exact (mem_added he).2.2.2.2

end Editing

/-- Every operation keeps the herd in order and the carried unit in tow. -/
theorem preserved_herd : Preserved fun b => Numbered b ∧ Herd b ∧ InTow b where
  ofLayout h := by
    refine ⟨preserved_numbered.ofLayout h, ?_⟩
    obtain ⟨-, -, -, rfl⟩ := ofLayout_eq_ok h
    have empty {P : Entity → Prop} : ∀ e ∈ ([] : List Entity), P e :=
      fun _ he => absurd he List.not_mem_nil
    exact ⟨⟨⟨empty, empty, empty⟩, nofun, empty⟩, empty⟩
  addItems {b items b' ids} := by
    rintro ⟨n, h, tow⟩ hadd
    refine ⟨n.addItems hadd, h.addItems hadd, ?_⟩
    obtain ⟨-, rfl, -⟩ := addItems_eq_ok hadd
    intro e he hcarry
    rcases List.mem_append.1 he with he | he
    · exact tow e he hcarry
    · obtain ⟨u, hu, hid, -⟩ := h.carried e.id hcarry
      exact absurd (hid ▸ n.upper u hu) (Nat.not_lt.2 (mem_added he).1)
  remove {b id b' removed} := by
    rintro ⟨n, h, tow⟩ hremove
    refine ⟨preserved_numbered.remove n hremove, ?_⟩
    obtain ⟨-, -, -, rfl⟩ := remove_eq_ok hremove
    refine ⟨h.prune n rfl rfl rfl rfl, ?_⟩
    intro e he hcarry
    obtain ⟨d, hd, rfl⟩ := List.mem_map.1 he
    exact tow d (List.mem_filter.1 hd).1 (Option.filter_eq_some_iff.1 hcarry).1
  resized {b size b'} := by
    rintro ⟨n, h, -⟩ hresize
    refine ⟨preserved_numbered.resized n hresize, ?_⟩
    obtain ⟨-, rfl⟩ := resized_eq_ok hresize
    have herd : Herd (b.cropped size).pruneLinks := h.prune n rfl rfl rfl rfl
    have numbered : Numbered (b.cropped size).pruneLinks := n.prune rfl rfl rfl rfl rfl rfl
    exact ⟨herd.trackCarried numbered, inTow_trackCarried _⟩
  apply {b} a := by
    rintro ⟨n, h, -⟩
    have settled : Herd (b.move a).settle := (h.move a).settle (n.move a)
    exact ⟨preserved_numbered.apply a n, settled.trackCarried (n.move a).settle,
      inTow_trackCarried _⟩

/-! ### Reachable boards -/

/-- What the herd of a board looks like to those who look entities up. -/
structure HerdConsistent (b : Board) : Prop where
  /-- The carried unit is on no target but with the agent, and drawn right below it. -/
  carried : ∀ u, b.carrying = some u → ∃ e c, b.entity? u = some e ∧ e.kind = .herdUnit c none ∧
    e.pos = b.agent.pos ∧ e.priority = Kind.carriedPriority
  resting : ∀ e ∈ b.entities, ∀ c t, e.kind = .herdUnit c t → b.carrying ≠ some e.id →
    e.priority = e.kind.defaultPriority
  /-- A unit names a target exactly where the target names the unit. -/
  mutual_links : ∀ u t, (∃ e c, b.entity? u = some e ∧ e.kind = .herdUnit c (some t)) ↔
    ∃ f c, b.entity? t = some f ∧ f.kind = .herdTarget c (some u)
  together : ∀ u t e f c d, b.entity? u = some e → e.kind = .herdUnit c (some t) →
    b.entity? t = some f → f.kind = .herdTarget d (some u) → c = d ∧ e.pos = f.pos
  alone : ∀ d ∈ b.entities, ∀ e ∈ b.entities, ∀ c t t', d.kind = .herdUnit c (some t) →
    e.kind = .herdUnit c (some t') → d.pos = e.pos → d = e

section Lookup
variable {b : Board} {c : Color} {link : Option EntityId}

theorem Numbered.unit_mem_objects (n : Numbered b) {e : Entity} (he : e ∈ b.entities)
    (hkind : e.kind = .herdUnit c link) : e ∈ b.objects :=
  n.mem_objects he (by rw [hkind]; nofun) (by rw [hkind]; nofun)

theorem Numbered.target_mem_objects (n : Numbered b) {e : Entity} (he : e ∈ b.entities)
    (hkind : e.kind = .herdTarget c link) : e ∈ b.objects :=
  n.mem_objects he (by rw [hkind]; nofun) (by rw [hkind]; nofun)

theorem Numbered.entity?_object (n : Numbered b) {e : Entity} (he : e ∈ b.objects) :
    b.entity? e.id = some e :=
  n.entity?_eq_some_iff.2 ⟨List.mem_cons_of_mem _ (List.mem_cons_of_mem _ he), rfl⟩

end Lookup

/-- On every board that operations lead to, whether they succeed or fail, the herd is consistent. -/
theorem Reachable.herdConsistent {b : Board} (h : Reachable b) : HerdConsistent b := by
  obtain ⟨n, herd, tow⟩ := preserved_herd.reachable h
  refine ⟨?_, ?_, ?_, ?_, ?_⟩
  · intro u hu
    obtain ⟨e, he, rfl, ⟨c, hkind⟩, hpriority⟩ := herd.carried u hu
    exact ⟨e, c, n.entity?_object he, hkind, tow e he hu, hpriority⟩
  · intro e he c t hkind
    exact herd.resting e (n.unit_mem_objects he hkind) c t hkind
  · intro u t
    constructor
    · rintro ⟨e, c, hlookup, hkind⟩
      obtain ⟨he, rfl⟩ := n.entity?_eq_some_iff.1 hlookup
      obtain ⟨f, hf, rfl, hfkind, -⟩ :=
        herd.linked.placed e (n.unit_mem_objects he hkind) c t hkind
      exact ⟨f, c, n.entity?_object hf, hfkind⟩
    · rintro ⟨f, c, hlookup, hkind⟩
      obtain ⟨hf, rfl⟩ := n.entity?_eq_some_iff.1 hlookup
      obtain ⟨e, he, rfl, hekind⟩ :=
        herd.linked.claimed f (n.target_mem_objects hf hkind) c u hkind
      exact ⟨e, c, n.entity?_object he, hekind⟩
  · intro u t e f c d hu hekind ht hfkind
    obtain ⟨he, rfl⟩ := n.entity?_eq_some_iff.1 hu
    obtain ⟨g, hg, rfl, hgkind, hpos⟩ :=
      herd.linked.placed e (n.unit_mem_objects he hekind) c t hekind
    obtain rfl := Option.some.inj ((n.entity?_object hg).symm.trans ht)
    rw [hgkind] at hfkind
    cases hfkind
    exact ⟨rfl, hpos.symm⟩
  · intro d hd e he c t t' hdkind hekind
    exact herd.linked.alone d (n.unit_mem_objects hd hdkind) e (n.unit_mem_objects he hekind)
      c t t' hdkind hekind

/-- One unit is dropped on its target and another one carried along through a resize. -/
theorem herdConsistent_placed_and_carried : ∃ b : Board, Reachable b ∧ b.size = 6 ∧
    b.carrying = some 4 ∧ (b.entity? 2).map (·.kind) = some (.herdUnit .pink (some 3)) ∧
    HerdConsistent b := by
  have reachable := (Reachable.ofLayout (l := ⟨5, ⟨⟨1, 3⟩, .north⟩, ⟨3, 3⟩, .none⟩) rfl).perform
    (.add [.sheep ⟨1, 2⟩ .pink, .target ⟨2, 2⟩ .pink, .sheep ⟨3, 2⟩ .white])
    |>.perform (.word "forward") |>.perform (.act .right) |>.perform (.word "jump")
    |>.perform (.replay [.right]) |>.perform (.remove 0) |>.perform (.resize 6)
  exact ⟨_, reachable, by decide +kernel, by decide +kernel, by decide +kernel,
    reachable.herdConsistent⟩

end Shepherd.Grid.Board
