import Mathlib.Data.List.Nodup
import Mathlib.Tactic.SplitIfs
import Shepherd.Proofs.Board.Integrity

/-!
# The ring

The ring of a board is its cells on the edge, each of them once and nothing else. So a ring of
obstacles can be put on every board, leaves no cell of the edge without one, and stands where
nothing survives a resize.
-/

namespace Shepherd.Grid

namespace Position
variable {p : Position} {size : Int}

theorem onEdge_iff :
    p.onEdge size = true ↔ p.x = 0 ∨ p.y = 0 ∨ p.x = size - 1 ∨ p.y = size - 1 := by
  simp only [onEdge, Bool.or_eq_true, beq_iff_eq, or_assoc]

/-- The rows at the top and at the bottom. -/
theorem mem_ring_rows :
    p ∈ (List.range size.toNat).flatMap (fun x => [⟨x, 0⟩, ⟨x, size - 1⟩]) ↔
      (0 ≤ p.x ∧ p.x < size) ∧ (p.y = 0 ∨ p.y = size - 1) := by
  simp only [List.mem_flatMap, List.mem_range, List.mem_cons, List.not_mem_nil, or_false,
    Position.ext_iff]
  constructor
  · rintro ⟨x, hx, hp⟩
    omega
  · rintro ⟨hx, hy⟩
    exact ⟨p.x.toNat, by omega, by omega⟩

/-- The columns at the sides, between the two rows. -/
theorem mem_ring_columns :
    p ∈ (List.range' 1 (size.toNat - 2)).flatMap (fun y => [⟨0, y⟩, ⟨size - 1, y⟩]) ↔
      (0 < p.y ∧ p.y < size - 1) ∧ (p.x = 0 ∨ p.x = size - 1) := by
  simp only [List.mem_flatMap, List.mem_range'_1, List.mem_cons, List.not_mem_nil, or_false,
    Position.ext_iff]
  constructor
  · rintro ⟨y, hy, hp⟩
    omega
  · rintro ⟨hy, hx⟩
    exact ⟨p.y.toNat, by omega, by omega⟩

/-- The ring is the cells on the edge. -/
theorem mem_ring_iff : p ∈ ring size ↔ p.inBounds size = true ∧ p.onEdge size = true := by
  rw [inBounds_iff, onEdge_iff, ring]
  split
  · simp only [List.mem_singleton, Position.ext_iff]
    omega
  · rw [List.mem_append, mem_ring_rows, mem_ring_columns]
    omega

/-- Four sides of `size - 1` cells each; the board of one cell is its own ring. -/
theorem length_ring (size : Int) :
    (ring size).length = if size = 1 then 1 else 4 * (size.toNat - 1) := by
  have hpair (p q : Nat → Position) (l : List Nat) :
      (l.flatMap fun n => [p n, q n]).length = l.length * 2 := by
    simp only [List.length_flatMap, List.length_cons, List.length_nil, Nat.zero_add, Nat.reduceAdd,
      List.map_const', List.sum_replicate_nat]
  unfold ring
  split
  · rfl
  · simp only [List.length_append, hpair, List.length_range, List.length_range']
    omega

/-- Pairs of cells on different lines of the board repeat nothing if no pair does. -/
theorem nodup_pairs (line : Position → Int) {p q : Nat → Position} (hp : ∀ n, line (p n) = n)
    (hq : ∀ n, line (q n) = n) (hne : ∀ n, p n ≠ q n) {ns : List Nat} (distinct : ns.Nodup) :
    (ns.flatMap fun n => [p n, q n]).Nodup := by
  have line_eq {n : Nat} {c : Position} (h : c ∈ [p n, q n]) : line c = n := by
    rcases List.mem_cons.1 h with rfl | h
    · exact hp n
    · rw [List.mem_singleton.1 h, hq]
  refine List.nodup_flatMap.2 ⟨fun n _ => by simp [hne n], distinct.imp fun {m n} hmn => ?_⟩
  intro c hm hn
  exact hmn (Int.ofNat_inj.1 ((line_eq hm).symm.trans (line_eq hn)))

/-- No cell is on the ring twice: the corners belong to the rows alone. -/
theorem nodup_ring (size : Int) : (ring size).Nodup := by
  unfold ring
  split
  · exact List.nodup_singleton _
  · next hsize =>
    refine List.nodup_append'.2 ⟨?_, ?_, ?_⟩
    · refine nodup_pairs Position.x (fun _ => rfl) (fun _ => rfl) (fun x h => ?_) List.nodup_range
      have hy : (0 : Int) = size - 1 := congrArg Position.y h
      omega
    · refine nodup_pairs Position.y (fun _ => rfl) (fun _ => rfl) (fun y h => ?_)
        (List.nodup_range' ..)
      have hx : (0 : Int) = size - 1 := congrArg Position.x h
      omega
    · intro p hrow hcolumn
      rw [mem_ring_rows] at hrow
      rw [mem_ring_columns] at hcolumn
      omega

theorem ring_eq_nil_iff : ring size = [] ↔ size ≤ 0 := by
  rw [← List.length_eq_zero_iff, length_ring]
  split <;> omega

/-- **The ring is the edge, cell by cell.** It has every cell of the edge once and no other
position; these are four times `size - 1` cells, or the only one. Where the board has no cells,
there is no ring. -/
theorem ring_exact (size : Int) :
    (∀ p : Position, (ring size).count p =
      if p.inBounds size = true ∧ p.onEdge size = true then 1 else 0) ∧
    ((ring size).length : Int) =
      (if size ≤ 0 then 0 else if size = 1 then 1 else 4 * (size - 1)) ∧
    (ring size = [] ↔ size ≤ 0) := by
  refine ⟨fun p => ?_, ?_, ring_eq_nil_iff⟩
  · rw [(nodup_ring size).count]
    simp only [mem_ring_iff]
  · rw [length_ring]
    split_ifs <;> omega

end Position

namespace Board
variable {b b' : Board} {items : List Item} {ids : List EntityId} {block : Obstacle}

/-- All that is asked for is among the new entities. -/
theorem exists_mem_numbered (id : EntityId) {staged : List (Position × Kind)}
    {s : Position × Kind} (h : s ∈ staged) :
    ∃ e ∈ numbered id staged, e.pos = s.1 ∧ e.kind = s.2 := by
  induction staged generalizing id with
  | nil => cases h
  | cons first rest ih =>
    rcases List.mem_cons.1 h with rfl | h
    · exact ⟨_, List.mem_cons_self, rfl, rfl⟩
    · obtain ⟨e, he, hrest⟩ := ih (id + 1) h
      exact ⟨e, List.mem_cons_of_mem _ he, hrest⟩

/-- Where a ring was added, an obstacle is on every cell of the edge. -/
theorem exists_obstacle_of_surround (hring : .surround block ∈ items)
    (hadd : b.addItems items = .ok (b', ids)) {p : Position} (hin : p.inBounds b.size = true)
    (hedge : p.onEdge b.size = true) : ∃ e ∈ b'.objects, e.pos = p ∧ e.kind = .obstacle block := by
  obtain ⟨-, rfl, -⟩ := addItems_eq_ok hadd
  have hcell : (p, Kind.obstacle block) ∈ items.flatMap (Item.expand b.size) :=
    List.mem_flatMap.2 ⟨_, hring, List.mem_map_of_mem (Position.mem_ring_iff.2 ⟨hin, hedge⟩)⟩
  obtain ⟨e, he, hpos, hkind⟩ := exists_mem_numbered b.nextId hcell
  exact ⟨e, List.mem_append_right _ he, hpos, hkind⟩

/-- A ring alone can be added to every board, and all of it is on the edge. -/
theorem addItems_surround (b : Board) (block : Obstacle) : ∃ added : List Entity,
    b.addItems [.surround block] =
      .ok ({ b with objects := b.objects ++ added, nextId := b.nextId + added.length },
        added.map (·.id)) ∧
      ∀ e ∈ added, e.pos.onEdge b.size = true := by
  have hcells : firstOutside? b.size
      (([Item.surround block].flatMap (Item.expand b.size)).map (·.1)) = none := by
    rw [firstOutside?, List.find?_eq_none]
    simp only [List.flatMap_singleton, Item.expand, List.map_map, Function.comp_def, List.map_id']
    intro p hp
    simp [(Position.mem_ring_iff.1 hp).1]
  refine ⟨_, by rw [addItems, hcells], fun e he => ?_⟩
  obtain ⟨-, -, s, hs, he⟩ := mem_numbered he
  rw [List.flatMap_singleton] at hs
  obtain ⟨p, hp, rfl⟩ := List.mem_map.1 hs
  rw [he]
  exact (Position.mem_ring_iff.1 hp).2

end Board

end Shepherd.Grid
