import Mathlib.Data.Finset.Card
import Mathlib.Data.List.Pairwise
import Shepherd.Grid.Board.Solve
import Shepherd.Proofs.Board.Herd

/-!
# Coverage

The herd is counted unit by unit: each one claims the first target of its colour on its cell, and a
target that was claimed before does not count again. All units of one colour on one cell claim the
same target, so what is counted is spots, cells together with a colour, that hold both a unit and a
target. A placed unit is alone of its colour and on its target: every one of them counts.
-/

namespace Shepherd.Grid

/-- A cell and a colour: what a unit and a target share when they match. -/
abbrev Spot := Position × Color

namespace Entity

/-- The spot that a unit is on. -/
def unitSpot? (e : Entity) : Option Spot := e.unitColor?.map (e.pos, ·)

/-- The spot that a target is on. -/
def targetSpot? (e : Entity) : Option Spot := e.targetColor?.map (e.pos, ·)

/-- Whether an entity is a unit on its target. -/
def isPlaced (e : Entity) : Bool := e.unitColor?.isSome && e.kind.link?.isSome

variable {e u t : Entity} {c : Color} {spot : Spot}

theorem unitSpot?_eq_some_iff : e.unitSpot? = some spot ↔
    e.pos = spot.1 ∧ ∃ t, e.kind = .herdUnit spot.2 t := by
  obtain ⟨pos, c⟩ := spot
  rw [← unitColor?_eq_some_iff, unitSpot?]
  cases e.unitColor? <;> simp

theorem targetSpot?_eq_some_iff : e.targetSpot? = some spot ↔
    e.pos = spot.1 ∧ ∃ u, e.kind = .herdTarget spot.2 u := by
  obtain ⟨pos, c⟩ := spot
  rw [← targetColor?_eq_some_iff, targetSpot?]
  cases e.targetColor? <;> simp

theorem isSome_unitSpot? : e.unitSpot?.isSome = e.unitColor?.isSome := Option.isSome_map

theorem isSome_targetSpot? : e.targetSpot?.isSome = e.targetColor?.isSome := Option.isSome_map

theorem isPlaced_iff : e.isPlaced = true ↔ ∃ c t, e.kind = .herdUnit c (some t) := by
  unfold isPlaced unitColor?
  cases hkind : e.kind with
  | herdUnit c link => cases link <;> simp [Kind.link?]
  | _ => simp

/-- A target matches a unit if it is on the unit's spot. -/
theorem matched_eq (h : u.unitSpot? = some spot) :
    Board.matched u = fun t => t.targetSpot? == some spot := by
  obtain ⟨pos, c⟩ := spot
  obtain ⟨hpos, hcolor⟩ := unitSpot?_eq_some_iff.1 h
  rw [← unitColor?_eq_some_iff] at hcolor
  subst hpos
  funext t
  rw [Board.matched, hcolor, targetSpot?]
  cases t.targetColor? with
  | none => rfl
  | some d => rw [Bool.eq_iff_iff]; simp [and_comm]

end Entity

namespace Board

variable {b : Board}

/-- The spots of the units, in order. -/
def unitSpots (b : Board) : List Spot := b.entities.filterMap Entity.unitSpot?

/-- The spots of the targets, in order. -/
def targetSpots (b : Board) : List Spot := b.entities.filterMap Entity.targetSpot?

/-- The spots that hold a unit and a target. -/
def coveredSpots (b : Board) : Finset Spot := b.unitSpots.toFinset ∩ b.targetSpots.toFinset

theorem mem_unitSpots {spot : Spot} :
    spot ∈ b.unitSpots ↔ ∃ u ∈ b.entities, u.unitSpot? = some spot := List.mem_filterMap

theorem mem_targetSpots {spot : Spot} :
    spot ∈ b.targetSpots ↔ ∃ t ∈ b.entities, t.targetSpot? = some spot := List.mem_filterMap

theorem mem_coveredSpots {spot : Spot} :
    spot ∈ b.coveredSpots ↔ spot ∈ b.unitSpots ∧ spot ∈ b.targetSpots := by
  rw [coveredSpots, Finset.mem_inter, List.mem_toFinset, List.mem_toFinset]

theorem length_unitSpots : b.unitSpots.length = b.coverage.total := by
  rw [unitSpots, List.length_filterMap_eq_countP, coverage, units, List.countP_eq_length_filter]
  simp only [Entity.isSome_unitSpot?]

theorem length_targetSpots :
    b.targetSpots.length = b.entities.countP (·.targetColor?.isSome) := by
  rw [targetSpots, List.length_filterMap_eq_countP]
  simp only [Entity.isSome_targetSpot?]

/-! ### What is claimed -/

section Claims
variable {targets us : List Entity} {claimed : List EntityId} {id : EntityId}

/-- One unit claims the first target that matches. -/
theorem mem_claim {u : Entity} : id ∈ claim targets claimed u ↔
    id ∈ claimed ∨ (targets.find? (matched u)).map (·.id) = some id := by
  unfold claim
  cases targets.find? (matched u) with
  | none => simp
  | some t =>
    by_cases ht : t.id ∈ claimed
    · simp only [List.contains_iff_mem.2 ht, if_true, Option.map_some, Option.some.injEq]
      refine ⟨.inl, ?_⟩
      rintro (h | rfl)
      · exact h
      · exact ht
    · simp [ht, eq_comm, or_comm]

theorem nodup_claim (h : claimed.Nodup) (u : Entity) : (claim targets claimed u).Nodup := by
  unfold claim
  split
  · split
    · exact h
    · next hnew => exact List.nodup_cons.2 ⟨by simpa using hnew, h⟩
  · exact h

/-- The claims of all units, each target once. -/
theorem mem_foldl_claim : id ∈ us.foldl (claim targets) claimed ↔
    id ∈ claimed ∨ ∃ u ∈ us, (targets.find? (matched u)).map (·.id) = some id := by
  induction us generalizing claimed with
  | nil => simp
  | cons u us ih =>
    simp only [List.foldl_cons, ih, mem_claim, List.mem_cons, exists_eq_or_imp, or_assoc]

theorem nodup_foldl_claim (h : claimed.Nodup) : (us.foldl (claim targets) claimed).Nodup := by
  induction us generalizing claimed with
  | nil => exact h
  | cons u us ih => exact ih (nodup_claim h u)

end Claims

/-- The identity of the target that units on a spot claim. -/
def claimOn (b : Board) (spot : Spot) : Option EntityId :=
  (b.targets.find? fun t => t.targetSpot? == some spot).map (·.id)

theorem mem_units {u : Entity} :
    u ∈ b.units ↔ u ∈ b.entities ∧ ∃ spot, u.unitSpot? = some spot := by
  rw [units, List.mem_filter, ← Entity.isSome_unitSpot?, Option.isSome_iff_exists]

theorem mem_targets {t : Entity} :
    t ∈ b.targets ↔ t ∈ b.entities ∧ ∃ spot, t.targetSpot? = some spot := by
  rw [targets, List.mem_filter, ← Entity.isSome_targetSpot?, Option.isSome_iff_exists]

/-- A claim is a claim on a spot that a unit is on. -/
theorem mem_claims {id : EntityId} : id ∈ b.units.foldl (claim b.targets) [] ↔
    ∃ spot ∈ b.unitSpots, b.claimOn spot = some id := by
  simp only [mem_foldl_claim, List.not_mem_nil, false_or, mem_units, mem_unitSpots]
  constructor
  · rintro ⟨u, ⟨hu, spot, hspot⟩, hclaim⟩
    rw [Entity.matched_eq hspot] at hclaim
    exact ⟨spot, ⟨u, hu, hspot⟩, hclaim⟩
  · rintro ⟨spot, ⟨u, hu, hspot⟩, hclaim⟩
    refine ⟨u, ⟨hu, spot, hspot⟩, ?_⟩
    rw [Entity.matched_eq hspot]
    exact hclaim

/-- There is something to claim on the spots that targets are on. -/
theorem isSome_claimOn {spot : Spot} : (b.claimOn spot).isSome ↔ spot ∈ b.targetSpots := by
  rw [claimOn, Option.isSome_map, List.find?_isSome, mem_targetSpots]
  simp only [mem_targets, beq_iff_eq]
  constructor
  · rintro ⟨t, ⟨ht, -⟩, hspot⟩
    exact ⟨t, ht, hspot⟩
  · rintro ⟨t, ht, hspot⟩
    exact ⟨t, ⟨ht, spot, hspot⟩, hspot⟩

/-- What is claimed is a target on the spot. -/
theorem exists_of_claimOn {spot : Spot} {id : EntityId} (h : b.claimOn spot = some id) :
    ∃ t ∈ b.entities, t.targetSpot? = some spot ∧ t.id = id := by
  obtain ⟨t, ht, hid⟩ := Option.map_eq_some_iff.1 h
  have hspot := List.find?_some (p := fun t : Entity => t.targetSpot? == some spot) ht
  exact ⟨t, (mem_targets.1 (List.mem_of_find?_eq_some ht)).1, beq_iff_eq.1 hspot, hid⟩

/-- Where identities are unique, different spots give different claims. -/
theorem Numbered.claimOn_inj (n : Numbered b) {spot spot' : Spot} {id : EntityId}
    (h : b.claimOn spot = some id) (h' : b.claimOn spot' = some id) : spot = spot' := by
  obtain ⟨t, ht, hspot, rfl⟩ := exists_of_claimOn h
  obtain ⟨t', ht', hspot', hid⟩ := exists_of_claimOn h'
  obtain rfl := eq_of_id_eq n.entities_sorted ht ht' hid.symm
  exact Option.some.inj (hspot.symm.trans hspot')

/-- What is counted is the spots that hold a unit and a target. -/
theorem Numbered.current_eq (n : Numbered b) : b.coverage.current = b.coveredSpots.card := by
  have hclaims : (b.units.foldl (claim b.targets) []).toFinset.image some =
      b.coveredSpots.image b.claimOn := by
    ext claimed
    simp only [Finset.mem_image, List.mem_toFinset, mem_claims, mem_coveredSpots]
    constructor
    · rintro ⟨id, ⟨spot, hspot, hclaim⟩, rfl⟩
      exact ⟨spot, ⟨hspot, isSome_claimOn.1 (by rw [hclaim]; rfl)⟩, hclaim⟩
    · rintro ⟨spot, ⟨hspot, htarget⟩, rfl⟩
      obtain ⟨id, hid⟩ := Option.isSome_iff_exists.1 (isSome_claimOn.2 htarget)
      exact ⟨id, ⟨spot, hspot, hid⟩, hid.symm⟩
  have hinj : Set.InjOn b.claimOn b.coveredSpots := by
    intro spot hspot spot' _ heq
    obtain ⟨id, hid⟩ := Option.isSome_iff_exists.1 (isSome_claimOn.2 (mem_coveredSpots.1 hspot).2)
    exact n.claimOn_inj hid (heq ▸ hid)
  calc b.coverage.current
    _ = (b.units.foldl (claim b.targets) []).toFinset.card :=
        (List.toFinset_card_of_nodup (nodup_foldl_claim .nil)).symm
    _ = (b.coveredSpots.image b.claimOn).card := by
        rw [← hclaims, Finset.card_image_of_injective _ (Option.some_injective _)]
    _ = b.coveredSpots.card := Finset.card_image_of_injOn hinj

/-! ### Bounds -/

/-- Placed units cover spots of their own: each is alone of its colour on its cell, and its target
is there too. -/
theorem Herd.countP_isPlaced_le (n : Numbered b) (h : Herd b) :
    b.entities.countP (·.isPlaced) ≤ b.coverage.current := by
  have hplaced {e : Entity} (he : e ∈ b.entities.filter (·.isPlaced)) :
      e ∈ b.objects ∧ ∃ c t, e.kind = .herdUnit c (some t) ∧ e.unitSpot? = some (e.pos, c) := by
    obtain ⟨hmem, hplaced⟩ := List.mem_filter.1 he
    obtain ⟨c, t, hkind⟩ := Entity.isPlaced_iff.1 hplaced
    exact ⟨n.unit_mem_objects hmem hkind, c, t, hkind,
      Entity.unitSpot?_eq_some_iff.2 ⟨rfl, some t, hkind⟩⟩
  have hcovered : Set.MapsTo Entity.unitSpot? (b.entities.filter (·.isPlaced)).toFinset
      (b.coveredSpots.image some) := by
    intro e he
    obtain ⟨hmem, c, t, hkind, hspot⟩ := hplaced (List.mem_toFinset.1 he)
    obtain ⟨f, hf, -, hfkind, hpos⟩ := h.linked.placed e hmem c t hkind
    refine Finset.mem_image.2 ⟨(e.pos, c), mem_coveredSpots.2 ⟨?_, ?_⟩, hspot.symm⟩
    · exact mem_unitSpots.2 ⟨e, mem_entities.2 (.inr (.inr hmem)), hspot⟩
    · exact mem_targetSpots.2 ⟨f, mem_entities.2 (.inr (.inr hf)),
        Entity.targetSpot?_eq_some_iff.2 ⟨hpos, some e.id, hfkind⟩⟩
  have hinj : Set.InjOn Entity.unitSpot? (b.entities.filter (·.isPlaced)).toFinset := by
    intro d hd e he heq
    obtain ⟨hdmem, c, t, hdkind, hdspot⟩ := hplaced (List.mem_toFinset.1 hd)
    obtain ⟨hemem, c', t', hekind, hespot⟩ := hplaced (List.mem_toFinset.1 he)
    rw [hdspot, hespot] at heq
    obtain ⟨hpos, rfl⟩ := Prod.mk.inj (Option.some.inj heq)
    exact h.linked.alone d hdmem e hemem c t t' hdkind hekind hpos
  calc b.entities.countP (·.isPlaced)
    _ = (b.entities.filter (·.isPlaced)).toFinset.card := by
        rw [List.toFinset_card_of_nodup (n.nodup_entities.filter _), List.countP_eq_length_filter]
    _ ≤ (b.coveredSpots.image some).card :=
        Finset.card_le_card_of_injOn Entity.unitSpot? hcovered hinj
    _ = b.coverage.current := by
        rw [Finset.card_image_of_injective _ (Option.some_injective _), n.current_eq]

theorem card_coveredSpots_le_units : b.coveredSpots.card ≤ b.unitSpots.length :=
  (Finset.card_le_card Finset.inter_subset_left).trans (List.toFinset_card_le _)

theorem card_coveredSpots_le_targets : b.coveredSpots.card ≤ b.targetSpots.length :=
  (Finset.card_le_card Finset.inter_subset_right).trans (List.toFinset_card_le _)

/-- As many spots are covered as there are units where every unit covers a spot of its own. -/
theorem card_coveredSpots_eq_iff :
    b.coveredSpots.card = b.unitSpots.length ↔
      b.unitSpots ⊆ b.targetSpots ∧ b.unitSpots.Nodup := by
  constructor
  · intro heq
    have hsub : b.coveredSpots ⊆ b.unitSpots.toFinset := Finset.inter_subset_left
    have hle : b.unitSpots.toFinset.card ≤ b.unitSpots.length := List.toFinset_card_le _
    have hle' := Finset.card_le_card hsub
    have hall : b.coveredSpots = b.unitSpots.toFinset :=
      Finset.eq_of_subset_of_card_le hsub (by omega)
    refine ⟨fun spot hspot => ?_, ?_⟩
    · rw [← List.mem_toFinset, ← hall] at hspot
      exact (mem_coveredSpots.1 hspot).2
    · have hcard : b.unitSpots.toFinset.card = b.unitSpots.length := by omega
      exact Multiset.coe_nodup.1 (Multiset.toFinset_card_eq_card_iff_nodup.1 hcard)
  · rintro ⟨hsub, hnodup⟩
    have hall : b.coveredSpots = b.unitSpots.toFinset :=
      Finset.inter_eq_left.2 fun spot hspot =>
        List.mem_toFinset.2 (hsub (List.mem_toFinset.1 hspot))
    rw [hall, List.toFinset_card_of_nodup hnodup]

/-- No spot is listed twice where no two units share one. -/
theorem Numbered.nodup_unitSpots_iff (n : Numbered b) : b.unitSpots.Nodup ↔
    ∀ u ∈ b.entities, ∀ v ∈ b.entities, ∀ spot, u.unitSpot? = some spot →
      v.unitSpot? = some spot → u = v := by
  rw [unitSpots, List.Nodup, List.pairwise_filterMap]
  constructor
  · intro hpair u hu v hv spot huspot hvspot
    by_contra hne
    have : Std.Symm fun u v : Entity => ∀ spot, u.unitSpot? = some spot →
        ∀ spot', v.unitSpot? = some spot' → spot ≠ spot' :=
      ⟨fun _ _ h spot hspot spot' hspot' => (h spot' hspot' spot hspot).symm⟩
    exact hpair.forall hu hv hne spot huspot spot hvspot rfl
  · intro hinj
    refine n.nodup_entities.imp_of_mem fun {u v} hu hv hne spot huspot spot' hvspot heq => ?_
    exact hne (hinj u hu v hv spot huspot (heq ▸ hvspot))

/-- **What the count of the herd means.** Counted are the spots with a unit and a target, so each
placed unit counts and nothing counts that lacks a unit or a target of its own. All units count
where each is with a target of its colour and none shares its spot. -/
theorem Reachable.coverage_counts_spots (h : Reachable b) (trace : Option Trace) :
    (b.solveState trace).herd.total = b.entities.countP (·.unitColor?.isSome) ∧
    (b.solveState trace).herd.current = b.coveredSpots.card ∧
    (∀ spot, spot ∈ b.coveredSpots ↔
      (∃ u ∈ b.entities, u.unitSpot? = some spot) ∧ ∃ t ∈ b.entities, t.targetSpot? = some spot) ∧
    b.entities.countP (·.isPlaced) ≤ (b.solveState trace).herd.current ∧
    (b.solveState trace).herd.current ≤
      min (b.solveState trace).herd.total (b.entities.countP (·.targetColor?.isSome)) ∧
    ((b.solveState trace).herd.solved = true ↔
      (∀ u ∈ b.entities, ∀ spot, u.unitSpot? = some spot →
        ∃ t ∈ b.entities, t.targetSpot? = some spot) ∧
      ∀ u ∈ b.entities, ∀ v ∈ b.entities, ∀ spot, u.unitSpot? = some spot →
        v.unitSpot? = some spot → u = v) := by
  obtain ⟨n, herd, -⟩ := preserved_herd.reachable h
  have htotal : b.coverage.total = b.entities.countP (·.unitColor?.isSome) := by
    rw [coverage, units, List.countP_eq_length_filter]
  have hunits := card_coveredSpots_le_units (b := b)
  have htargets := card_coveredSpots_le_targets (b := b)
  rw [length_unitSpots] at hunits
  rw [length_targetSpots] at htargets
  refine ⟨htotal, n.current_eq, fun spot => ?_, herd.countP_isPlaced_le n, ?_, ?_⟩
  · rw [mem_coveredSpots, mem_unitSpots, mem_targetSpots]
  · rw [solveState, n.current_eq]
    exact le_min hunits htargets
  · have hsub : b.unitSpots ⊆ b.targetSpots ↔ ∀ u ∈ b.entities, ∀ spot,
        u.unitSpot? = some spot → ∃ t ∈ b.entities, t.targetSpot? = some spot := by
      simp only [List.subset_def, mem_unitSpots, mem_targetSpots, forall_exists_index, and_imp]
      exact ⟨fun hall u hu spot => hall u hu, fun hall spot u hu => hall u hu spot⟩
    rw [solveState, HerdCoverage.solved, beq_iff_eq, n.current_eq, ← length_unitSpots,
      card_coveredSpots_eq_iff, hsub, n.nodup_unitSpots_iff]

/-- A unit is placed on one of two targets of its spot, and then another unit is added there. -/
theorem coverage_counts_spots_shared : ∃ b : Board, Reachable b ∧
    b.unitSpots = [(⟨2, 2⟩, .pink), (⟨3, 2⟩, .white), (⟨2, 2⟩, .pink)] ∧
    b.targetSpots = [(⟨2, 2⟩, .pink), (⟨2, 2⟩, .pink)] ∧ b.entities.countP (·.isPlaced) = 1 ∧
    (b.solveState none).herd.total = b.entities.countP (·.unitColor?.isSome) ∧
    (b.solveState none).herd.current = b.coveredSpots.card ∧
    b.entities.countP (·.isPlaced) ≤ (b.solveState none).herd.current ∧
    (b.solveState none).herd.current ≤
      min (b.solveState none).herd.total (b.entities.countP (·.targetColor?.isSome)) := by
  have reachable := (Reachable.ofLayout (l := ⟨5, ⟨⟨1, 3⟩, .north⟩, ⟨3, 3⟩, .none⟩) rfl).perform
    (.add [.sheep ⟨1, 2⟩ .pink, .target ⟨2, 2⟩ .pink, .target ⟨2, 2⟩ .pink, .sheep ⟨3, 2⟩ .white])
    |>.perform (.replay [.forward, .right]) |>.perform (.add [.sheep ⟨2, 2⟩ .pink])
  obtain ⟨total, current, -, placed, bound, -⟩ := reachable.coverage_counts_spots none
  exact ⟨_, reachable, by decide +kernel, by decide +kernel, by decide +kernel, total, current,
    placed, bound⟩

end Board

end Shepherd.Grid
