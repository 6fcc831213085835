import Mathlib.Order.Bounds.Basic
import Shepherd.Proofs.Board.Coverage

/-!
# Units paired with targets

The best that could be counted is a largest pairing, which gives units targets of their own. The
count never passes it: one unit and one target of each covered spot make a pairing. It reaches it
unless some spot has two units and two targets; of these the count takes in one pair only, since all
units on a spot claim the same target.
-/

namespace Shepherd.Grid.Board

variable {b : Board} {pairs : List (Entity × Entity)} {spot : Spot} {spots : List Spot}

/-- Units paired with targets of their own, each pair on one spot. -/
structure Pairing (b : Board) (pairs : List (Entity × Entity)) : Prop where
  together : ∀ p ∈ pairs, p.1 ∈ b.entities ∧ p.2 ∈ b.entities ∧
    ∃ spot, p.1.unitSpot? = some spot ∧ p.2.targetSpot? = some spot
  units : (pairs.map Prod.fst).Nodup
  targets : (pairs.map Prod.snd).Nodup

/-- Two entities, units or targets as `spotOf?` tells, share a spot. -/
def Doubled (b : Board) (spotOf? : Entity → Option Spot) (spot : Spot) : Prop :=
  ∃ d ∈ b.entities, ∃ e ∈ b.entities, d ≠ e ∧ spotOf? d = some spot ∧ spotOf? e = some spot

/-- Some spot has two units and two targets. -/
def Stacked (b : Board) : Prop :=
  ∃ spot ∈ b.coveredSpots, b.Doubled Entity.unitSpot? spot ∧ b.Doubled Entity.targetSpot? spot

instance (spotOf? : Entity → Option Spot) (spot : Spot) : Decidable (b.Doubled spotOf? spot) :=
  inferInstanceAs (Decidable (∃ d ∈ b.entities, ∃ e ∈ b.entities,
    d ≠ e ∧ spotOf? d = some spot ∧ spotOf? e = some spot))

instance : Decidable b.Stacked :=
  inferInstanceAs (Decidable (∃ spot ∈ b.coveredSpots,
    b.Doubled Entity.unitSpot? spot ∧ b.Doubled Entity.targetSpot? spot))

/-! ### One pair for each covered spot -/

/-- A unit and a target that are in no pair yet make one more. -/
theorem Pairing.cons {u t : Entity} (h : Pairing b pairs) (hu : u ∈ b.entities)
    (ht : t ∈ b.entities) (hunit : u.unitSpot? = some spot) (htarget : t.targetSpot? = some spot)
    (hnew : u ∉ pairs.map Prod.fst) (hnew' : t ∉ pairs.map Prod.snd) :
    Pairing b ((u, t) :: pairs) where
  together := List.forall_mem_cons.2 ⟨⟨hu, ht, spot, hunit, htarget⟩, h.together⟩
  units := List.nodup_cons.2 ⟨hnew, h.units⟩
  targets := List.nodup_cons.2 ⟨hnew', h.targets⟩

/-- The spots of a pairing, pair by pair. -/
def spotsOf (pairs : List (Entity × Entity)) : List Spot := pairs.filterMap (·.1.unitSpot?)

theorem mem_spotsOf : spot ∈ spotsOf pairs ↔ ∃ p ∈ pairs, p.1.unitSpot? = some spot :=
  List.mem_filterMap

theorem Pairing.length_spotsOf (h : Pairing b pairs) : (spotsOf pairs).length = pairs.length := by
  rw [spotsOf, List.length_filterMap_eq_countP, List.countP_eq_length]
  intro p hp
  obtain ⟨-, -, spot, hunit, -⟩ := h.together p hp
  rw [hunit]
  rfl

/-- A unit on a spot without a pair is in no pair, and nor is a target there. -/
theorem Pairing.not_mem_of_spot (h : Pairing b pairs) (hspot : spot ∉ spotsOf pairs) :
    (∀ u, u.unitSpot? = some spot → u ∉ pairs.map Prod.fst) ∧
      ∀ t, t.targetSpot? = some spot → t ∉ pairs.map Prod.snd := by
  constructor
  · intro u hunit hu
    obtain ⟨p, hp, rfl⟩ := List.mem_map.1 hu
    exact hspot (mem_spotsOf.2 ⟨p, hp, hunit⟩)
  · intro t htarget ht
    obtain ⟨p, hp, rfl⟩ := List.mem_map.1 ht
    obtain ⟨-, -, spot', hunit', htarget'⟩ := h.together p hp
    obtain rfl := Option.some.inj (htarget.symm.trans htarget')
    exact hspot (mem_spotsOf.2 ⟨p, hp, hunit'⟩)

/-- Different covered spots have pairs of their own. -/
theorem exists_pairing (hspots : spots.Nodup) (hcovered : ∀ spot ∈ spots, spot ∈ b.coveredSpots) :
    ∃ pairs, Pairing b pairs ∧ spotsOf pairs = spots := by
  induction spots with
  | nil => exact ⟨[], ⟨fun _ hp => absurd hp List.not_mem_nil, .nil, .nil⟩, rfl⟩
  | cons spot spots ih =>
    obtain ⟨hnew, hspots⟩ := List.nodup_cons.1 hspots
    rw [List.forall_mem_cons] at hcovered
    obtain ⟨pairs, hpairs, rfl⟩ := ih hspots hcovered.2
    obtain ⟨hunits, htargets⟩ := mem_coveredSpots.1 hcovered.1
    obtain ⟨u, hu, hunit⟩ := mem_unitSpots.1 hunits
    obtain ⟨t, ht, htarget⟩ := mem_targetSpots.1 htargets
    obtain ⟨hnew, hnew'⟩ := hpairs.not_mem_of_spot hnew
    exact ⟨(u, t) :: pairs, hpairs.cons hu ht hunit htarget (hnew u hunit) (hnew' t htarget),
      List.filterMap_cons_some hunit⟩

/-! ### The largest pairing -/

theorem Pairing.spotsOf_covered (h : Pairing b pairs) {spot : Spot} (hspot : spot ∈ spotsOf pairs) :
    spot ∈ b.coveredSpots := by
  obtain ⟨p, hp, hunit⟩ := mem_spotsOf.1 hspot
  obtain ⟨hu, ht, spot', hunit', htarget⟩ := h.together p hp
  obtain rfl := Option.some.inj (hunit.symm.trans hunit')
  exact mem_coveredSpots.2 ⟨mem_unitSpots.2 ⟨p.1, hu, hunit⟩, mem_targetSpots.2 ⟨p.2, ht, htarget⟩⟩

/-- Two pairs on one spot are two units and two targets there. -/
theorem Pairing.nodup_spotsOf (h : Pairing b pairs) (hfew : ¬ Stacked b) :
    (spotsOf pairs).Nodup := by
  have hunits := List.pairwise_map.1 h.units
  have htargets := List.pairwise_map.1 h.targets
  rw [spotsOf, List.Nodup, List.pairwise_filterMap]
  refine (hunits.and htargets).imp_of_mem ?_
  rintro p q hp hq ⟨hunit, htarget⟩ spot hpspot spot' hqspot rfl
  have hcovered := h.spotsOf_covered (mem_spotsOf.2 ⟨p, hp, hpspot⟩)
  obtain ⟨hpu, hpt, spot', hpspot', hptarget⟩ := h.together p hp
  obtain ⟨hqu, hqt, spot'', hqspot', hqtarget⟩ := h.together q hq
  obtain rfl := Option.some.inj (hpspot.symm.trans hpspot')
  obtain rfl := Option.some.inj (hqspot.symm.trans hqspot')
  exact hfew ⟨spot, hcovered, ⟨p.1, hpu, q.1, hqu, hunit, hpspot, hqspot⟩,
    p.2, hpt, q.2, hqt, htarget, hptarget, hqtarget⟩

theorem Pairing.length_le (h : Pairing b pairs) (hfew : ¬ Stacked b) :
    pairs.length ≤ b.coveredSpots.card := by
  rw [← h.length_spotsOf, ← List.toFinset_card_of_nodup (h.nodup_spotsOf hfew)]
  exact Finset.card_le_card fun spot hspot => h.spotsOf_covered (List.mem_toFinset.1 hspot)

/-- Where units and targets are stacked, a pairing has room for one pair more. -/
theorem Stacked.exists_pairing (h : Stacked b) :
    ∃ pairs, Pairing b pairs ∧ pairs.length = b.coveredSpots.card + 1 := by
  obtain ⟨spot, hcovered, ⟨u, hu, v, hv, hne, huspot, hvspot⟩,
    s, hs, t, ht, hne', hsspot, htspot⟩ := h
  obtain ⟨pairs, hpairs, hspots⟩ := Board.exists_pairing (b.coveredSpots.erase spot).nodup_toList
    fun other hother => Finset.mem_of_mem_erase (Finset.mem_toList.1 hother)
  have hnew : spot ∉ spotsOf pairs := by simp [hspots]
  obtain ⟨hunits, htargets⟩ := hpairs.not_mem_of_spot hnew
  have hone := hpairs.cons hu hs huspot hsspot (hunits u huspot) (htargets s hsspot)
  have htwo := hone.cons hv ht hvspot htspot
    (List.not_mem_cons_of_ne_of_not_mem hne.symm (hunits v hvspot))
    (List.not_mem_cons_of_ne_of_not_mem hne'.symm (htargets t htspot))
  refine ⟨_, htwo, ?_⟩
  have hlength := Finset.card_erase_add_one hcovered
  rw [List.length_cons, List.length_cons, ← hpairs.length_spotsOf, hspots, Finset.length_toList,
    hlength]

/-! ### The count and the pairings -/

theorem exists_pairing_covered (b : Board) :
    ∃ pairs, Pairing b pairs ∧ pairs.length = b.coveredSpots.card := by
  obtain ⟨pairs, hpairs, hspots⟩ := exists_pairing b.coveredSpots.nodup_toList
    fun spot hspot => Finset.mem_toList.1 hspot
  exact ⟨pairs, hpairs, by rw [← hpairs.length_spotsOf, hspots, Finset.length_toList]⟩

/-- The covered spots are as many as the largest pairing has pairs, unless one is stacked. -/
theorem isGreatest_covered_iff :
    IsGreatest {k | ∃ pairs, Pairing b pairs ∧ pairs.length = k} b.coveredSpots.card ↔
      ¬ Stacked b := by
  constructor
  · intro hgreatest hstacked
    have hle := hgreatest.2 hstacked.exists_pairing
    omega
  · intro hfew
    refine ⟨exists_pairing_covered b, ?_⟩
    rintro k ⟨pairs, hpairs, rfl⟩
    exact hpairs.length_le hfew

theorem Pairing.units_subset (h : Pairing b pairs) : pairs.map Prod.fst ⊆ b.units := by
  intro u hu
  obtain ⟨p, hp, rfl⟩ := List.mem_map.1 hu
  obtain ⟨hmem, -, spot, hunit, -⟩ := h.together p hp
  exact mem_units.2 ⟨hmem, spot, hunit⟩

/-- Every unit covers a spot of its own if all can be paired off and no spot is stacked. -/
theorem Numbered.card_coveredSpots_eq_iff_pairing (n : Numbered b) :
    b.coveredSpots.card = b.units.length ↔
      (∃ pairs, Pairing b pairs ∧ b.units ⊆ pairs.map Prod.fst) ∧ ¬ Stacked b := by
  have hnodup : b.units.Nodup := n.nodup_entities.filter _
  have hlength : b.unitSpots.length = b.units.length := length_unitSpots
  constructor
  · intro heq
    constructor
    · obtain ⟨pairs, hpairs, hcard⟩ := exists_pairing_covered b
      have hperm := (hpairs.units.subperm hpairs.units_subset).perm_of_length_le
        (by rw [List.length_map, hcard, heq])
      exact ⟨pairs, hpairs, hperm.symm.subset⟩
    · rintro ⟨spot, -, ⟨u, hu, v, hv, hne, huspot, hvspot⟩, -⟩
      have hspots := (card_coveredSpots_eq_iff.1 (heq.trans hlength.symm)).2
      exact hne (n.nodup_unitSpots_iff.1 hspots u hu v hv spot huspot hvspot)
  · rintro ⟨⟨pairs, hpairs, hall⟩, hfew⟩
    have hunits := (hnodup.subperm hall).length_le
    have hpaired := hpairs.length_le hfew
    have hcovered := card_coveredSpots_le_units (b := b)
    rw [List.length_map] at hunits
    omega

/-- **The count of the herd beside the largest pairing.** The count is the number of pairs of some
pairing, and of a largest one unless some spot has two units and two targets. The herd is on its
targets if all units can be paired off and no spot is stacked like that. -/
theorem Reachable.coverage_pairing (h : Reachable b) (trace : Option Trace) :
    (∃ pairs, Pairing b pairs ∧ pairs.length = (b.solveState trace).herd.current) ∧
    (IsGreatest {k | ∃ pairs, Pairing b pairs ∧ pairs.length = k}
      (b.solveState trace).herd.current ↔ ¬ Stacked b) ∧
    ((b.solveState trace).herd.solved = true ↔
      (∃ pairs, Pairing b pairs ∧ b.units ⊆ pairs.map Prod.fst) ∧ ¬ Stacked b) := by
  obtain ⟨n, -, -⟩ := preserved_herd.reachable h
  rw [solveState, HerdCoverage.solved, beq_iff_eq, n.current_eq]
  exact ⟨exists_pairing_covered b, isGreatest_covered_iff, n.card_coveredSpots_eq_iff_pairing⟩

/-- Two units on one target and one unit on two: two pairs can be made, and two units count. -/
theorem coverage_pairing_uneven : ∃ b : Board, Reachable b ∧
    b.unitSpots = [(⟨0, 0⟩, .red), (⟨0, 0⟩, .red), (⟨1, 0⟩, .red)] ∧
    b.targetSpots = [(⟨0, 0⟩, .red), (⟨1, 0⟩, .red), (⟨1, 0⟩, .red)] ∧
    (b.solveState none).herd.current = 2 ∧
    IsGreatest {k | ∃ pairs, Pairing b pairs ∧ pairs.length = k}
      (b.solveState none).herd.current := by
  have reachable := (Reachable.ofLayout (l := ⟨3, ⟨⟨1, 2⟩, .north⟩, ⟨2, 2⟩, .none⟩) rfl).perform
    (.add [.sheep ⟨0, 0⟩ .red, .sheep ⟨0, 0⟩ .red, .target ⟨0, 0⟩ .red,
      .sheep ⟨1, 0⟩ .red, .target ⟨1, 0⟩ .red, .target ⟨1, 0⟩ .red])
  exact ⟨_, reachable, by decide +kernel, by decide +kernel, by decide +kernel,
    (reachable.coverage_pairing none).2.1.2 (by decide +kernel)⟩

/-- Two units on two targets of one cell can all be paired off, and yet only one of them counts. -/
theorem coverage_below_pairing : ∃ b : Board, Reachable b ∧
    b.unitSpots = [(⟨1, 1⟩, .red), (⟨1, 1⟩, .red)] ∧
    b.targetSpots = [(⟨1, 1⟩, .red), (⟨1, 1⟩, .red)] ∧
    (b.solveState none).herd.current = 1 ∧ (b.solveState none).herd.solved = false ∧
    ∃ pairs, Pairing b pairs ∧ pairs.length = 2 ∧ b.units ⊆ pairs.map Prod.fst := by
  have reachable := (Reachable.ofLayout (l := ⟨3, ⟨⟨0, 2⟩, .north⟩, ⟨2, 2⟩, .none⟩) rfl).perform
    (.add [.sheep ⟨1, 1⟩ .red, .sheep ⟨1, 1⟩ .red, .target ⟨1, 1⟩ .red, .target ⟨1, 1⟩ .red])
  let unit (id : EntityId) : Entity := .ofKind id ⟨1, 1⟩ (.herdUnit .red none)
  let target (id : EntityId) : Entity := .ofKind id ⟨1, 1⟩ (.herdTarget .red none)
  refine ⟨_, reachable, by decide +kernel, by decide +kernel, by decide +kernel, by decide +kernel,
    [(unit 2, target 4), (unit 3, target 5)], ⟨?_, ?_, ?_⟩, rfl, ?_⟩
  · have hspot (id : EntityId) : (unit id).unitSpot? = some (⟨1, 1⟩, .red) := rfl
    have hspot' (id : EntityId) : (target id).targetSpot? = some (⟨1, 1⟩, .red) := rfl
    simp only [List.forall_mem_cons]
    refine ⟨⟨?_, ?_, _, hspot 2, hspot' 4⟩, ⟨?_, ?_, _, hspot 3, hspot' 5⟩,
      fun _ hp => absurd hp List.not_mem_nil⟩
    all_goals decide +kernel
  · decide +kernel
  · decide +kernel
  · decide +kernel

end Shepherd.Grid.Board
