import Mathlib.Data.Set.Insert
import Mathlib.Logic.Relation
import Shepherd.Proofs.Board.Frame
import Shepherd.Proofs.Board.Ring

/-!
# Confinement

The agent goes from cell to cell, one step at a time, and enters none that is off the board or that
something blocks. Ticks move no obstacle, so a whole run stays in the part of the board that free
cells connect with where it started. A ring of obstacles keeps an agent inside for good, whatever
is put on the board later.
-/

namespace Shepherd.Grid

namespace Position

/-- Whether two positions are one step apart in one coordinate and agree in the other. -/
def Adjacent (p q : Position) : Prop := (q.x - p.x).natAbs + (q.y - p.y).natAbs = 1

/-- Whether steps from cell to cell inside a region lead from one of its cells to another. -/
def Connected (region : Set Position) : Position → Position → Prop :=
  Relation.ReflTransGen fun p q => p ∈ region ∧ q ∈ region ∧ p.Adjacent q

theorem Connected.mono {region region' : Set Position} (hsub : region ⊆ region') {p q : Position}
    (h : Connected region p q) : Connected region' p q :=
  Relation.ReflTransGen.mono (fun _ _ ⟨hp, hq, hstep⟩ => ⟨hsub hp, hsub hq, hstep⟩) _ _ h

theorem Connected.mem {region : Set Position} {p q : Position} (hp : p ∈ region)
    (h : Connected region p q) : q ∈ region := by
  cases h with
  | refl => exact hp
  | tail _ hstep => exact hstep.2.1

/-- A coordinate at most one step away either is in the range or moves back. -/
theorem clampCoordinate_eq_or {size m n : Int} (hin : 0 ≤ m ∧ m < size)
    (hstep : (n - m).natAbs ≤ 1) : clampCoordinate size n = m ∨ clampCoordinate size n = n := by
  unfold clampCoordinate
  omega

/-- On the way to a cell next to it, an agent at the edge stays where it is. -/
theorem clamp_eq_or_adjacent {p goal : Position} {size : Int} (hin : p.inBounds size = true)
    (hgoal : p.Adjacent goal) : goal.clamp size = p ∨ p.Adjacent (goal.clamp size) := by
  obtain ⟨hinx, hiny⟩ := inBounds_iff.1 hin
  unfold Adjacent at *
  have hx := clampCoordinate_eq_or (n := goal.x) hinx (by omega)
  have hy := clampCoordinate_eq_or (n := goal.y) hiny (by omega)
  simp only [clamp, Position.ext_iff]
  rcases hx with hx | hx <;> rcases hy with hy | hy <;> rw [hx, hy] <;> omega

end Position

/-- What is not a turn leads one step away. -/
theorem Action.adjacent_of_goal? {a : Action} {p goal : Position} {d : Direction}
    (h : a.goal? p d = some goal) : p.Adjacent goal := by
  cases a with
  | turnLeft | turnRight => cases h
  | forward | backward | left | right =>
    obtain rfl := Option.some.inj h
    simp only [Position.Adjacent, Position.add_x, Position.add_y, Position.sub_x, Position.sub_y]
    cases d <;> simp only [Direction.vector, Position.rotateLeft, Position.rotateRight] <;> omega

namespace Board
variable {b b' : Board} {a : Action}

/-! ### One tick -/

theorem walkable_of_not_blocked {pos : Position} (h : b.blocked pos = false) {e : Entity}
    (he : e = b.exit ∨ e ∈ b.objects) (hpos : e.pos = pos) : e.walkable = true := by
  have hfree := List.any_eq_false.1 h e (List.mem_cons.2 he)
  simpa [hpos] using hfree

/-- A move that changes the agent's cell is one step, to a cell of the board that nothing blocks. -/
theorem Housed.move_agent (h : Housed b) (hmoved : (b.move a).agent.pos ≠ b.agent.pos) :
    (b.move a).agent.pos.inBounds b.size = true ∧ b.agent.pos.Adjacent (b.move a).agent.pos ∧
      b.blocked (b.move a).agent.pos = false := by
  have hstep := move_eq_step (b := b) a
  cases hgoal : a.goal? b.agent.pos b.facing with
  | none =>
    rw [hstep, hgoal] at hmoved
    exact absurd rfl hmoved
  | some goal =>
    have hagent : (b.move a).agent = (b.step goal).agent := by rw [hstep, hgoal, Option.elim_some]
    rw [hagent] at hmoved ⊢
    rw [Board.step] at hmoved ⊢
    cases hblocked : b.blocked (goal.clamp b.size) with
    | true =>
      rw [hblocked] at hmoved
      exact absurd rfl hmoved
    | false =>
      rw [hblocked] at hmoved
      refine ⟨Position.inBounds_clamp h.size_pos goal, ?_, hblocked⟩
      have hnext := Position.clamp_eq_or_adjacent h.agent.inBounds (Action.adjacent_of_goal? hgoal)
      exact hnext.resolve_left hmoved

/-- Every object after a tick was there before, and what became of it is a change. -/
theorem Reachable.exists_change (h : Reachable b) (a : Action) {e' : Entity}
    (he' : e' ∈ (b.apply a).objects) : ∃ e ∈ b.objects, Change b (b.apply a) e e' := by
  obtain ⟨f, hf, hframe⟩ := apply_frame b a
  have hobjects : (b.apply a).objects = b.objects.map f := by rw [hframe]
  rw [hobjects] at he'
  obtain ⟨e, he, rfl⟩ := List.mem_map.1 he'
  obtain ⟨e', hlookup, hchange⟩ := h.change a (mem_entities.2 (.inr (.inr he)))
  have hfound := (h.apply a).numbered.entity?_object (hobjects ▸ List.mem_map_of_mem he)
  rw [hf.id, hlookup] at hfound
  obtain rfl := Option.some.inj hfound
  exact ⟨e, he, hchange⟩

/-- What it means that a tick took the agent to another cell. -/
structure Entered (b b' : Board) : Prop where
  inBounds : b'.agent.pos.inBounds b.size = true
  adjacent : b.agent.pos.Adjacent b'.agent.pos
  /-- Nothing else on the cell keeps the agent out. -/
  clear : ∀ e ∈ b'.entities, e.pos = b'.agent.pos → e.walkable = false → e = b'.agent

/-- A tick takes the agent nowhere but one step on, to a free cell of the board. -/
theorem Reachable.entered (h : Reachable b) (a : Action)
    (hmoved : (b.apply a).agent.pos ≠ b.agent.pos) : Entered b (b.apply a) := by
  rw [apply_agent] at hmoved
  obtain ⟨hin, hadjacent, hfree⟩ := h.housed.move_agent hmoved
  rw [← apply_agent] at hin hadjacent hfree
  refine ⟨hin, hadjacent, fun e' he' hpos hblocks => ?_⟩
  rcases mem_entities.1 he' with rfl | rfl | he'
  · rfl
  · rw [apply_exit] at hpos hblocks
    rw [walkable_of_not_blocked hfree (.inl rfl) hpos] at hblocks
    cases hblocks
  · obtain ⟨e, he, hchange⟩ := h.exists_change a he'
    -- the unit alone may have come to the cell in this tick, and it does not block
    have hwalkable : e.walkable = true := by
      cases hchange with
      | same | target => exact walkable_of_not_blocked hfree (.inr he) hpos
      | agent id => exact absurd (h.numbered.lower e he) (by rw [id]; decide)
      | unit kind => rw [(h.housed.object he).walkable, kind]; rfl
    cases hchange <;> cases hwalkable.symm.trans hblocks

/-! ### Free cells -/

/-- The cells of the board that hold no obstacle. -/
def freeCells (b : Board) : Set Position :=
  {p | p.inBounds b.size = true ∧ ∀ e ∈ b.entities, e.pos = p → ∀ block, e.kind ≠ .obstacle block}

theorem mem_freeCells {p : Position} : p ∈ b.freeCells ↔ p.inBounds b.size = true ∧
    ∀ e ∈ b.entities, e.pos = p → ∀ block, e.kind ≠ .obstacle block := Iff.rfl

/-- Ticks do nothing to obstacles. -/
theorem Reachable.mem_apply_iff_of_obstacle (h : Reachable b) (a : Action) {e : Entity}
    {block : Obstacle} (hkind : e.kind = .obstacle block) :
    e ∈ (b.apply a).entities ↔ e ∈ b.entities := by
  have hagent : e.kind ≠ .agent := by rw [hkind]; nofun
  have hexit : e.kind ≠ .exitZone := by rw [hkind]; nofun
  constructor
  · intro he
    obtain ⟨d, hd, hchange⟩ := h.exists_change a ((h.apply a).numbered.mem_objects he hagent hexit)
    cases hchange with
    | same => exact mem_entities.2 (.inr (.inr hd))
    | agent id => exact absurd (h.numbered.lower d hd) (by rw [id]; decide)
    | unit | target => cases hkind
  · intro he
    obtain ⟨e', hlookup, hchange⟩ := h.change a he
    cases hchange with
    | same => exact List.mem_of_find?_eq_some hlookup
    | agent id =>
      have hobject := h.numbered.lower e (h.numbered.mem_objects he hagent hexit)
      exact absurd hobject (by rw [id]; decide)
    | unit kind | target kind => cases hkind.symm.trans kind

theorem Reachable.freeCells_apply (h : Reachable b) (a : Action) :
    (b.apply a).freeCells = b.freeCells := by
  ext p
  rw [mem_freeCells, mem_freeCells, apply_size]
  refine and_congr_right fun _ => ⟨?_, ?_⟩ <;> intro hfree e he hpos block hkind
  · exact hfree e ((h.mem_apply_iff_of_obstacle a hkind).2 he) hpos block hkind
  · exact hfree e ((h.mem_apply_iff_of_obstacle a hkind).1 he) hpos block hkind

theorem Reachable.freeCells_replay (h : Reachable b) (actions : List Action) :
    (b.replay actions).freeCells = b.freeCells := by
  induction actions generalizing b with
  | nil => rfl
  | cons a actions ih => rw [replay_cons, ih (h.apply a), h.freeCells_apply]

/-- A cell that the agent enters is free. -/
theorem Reachable.mem_freeCells_of_moved (h : Reachable b) (a : Action)
    (hmoved : (b.apply a).agent.pos ≠ b.agent.pos) : (b.apply a).agent.pos ∈ b.freeCells := by
  obtain ⟨hin, -, hclear⟩ := h.entered a hmoved
  rw [← h.freeCells_apply a, mem_freeCells, apply_size]
  refine ⟨hin, fun e he hpos block hkind => ?_⟩
  have hblocks : e.walkable = false := by
    rw [((h.apply a).housed.standing e he).walkable, hkind]
    rfl
  rw [hclear e he hpos hblocks, (h.apply a).numbered.agent_kind] at hkind
  cases hkind

/-! ### Runs -/

/-- The cells of the board that are free, and the one that the agent is on. -/
def roaming (b : Board) : Set Position := insert b.agent.pos b.freeCells

theorem Reachable.inBounds_of_mem_roaming (h : Reachable b) {p : Position} (hp : p ∈ b.roaming) :
    p.inBounds b.size = true := by
  rcases hp with rfl | hp
  · exact h.housed.agent.inBounds
  · exact hp.1

/-- A run stays where free cells connect with its start. -/
theorem Reachable.connected_replay (h : Reachable b) (actions : List Action) :
    Position.Connected b.roaming b.agent.pos (b.replay actions).agent.pos := by
  induction actions generalizing b with
  | nil => exact .refl
  | cons a actions ih =>
    have hrest := ih (h.apply a)
    rw [roaming, h.freeCells_apply] at hrest
    rw [replay_cons]
    by_cases hmoved : (b.apply a).agent.pos = b.agent.pos
    · rw [hmoved] at hrest
      exact hrest
    · have hentered := h.mem_freeCells_of_moved a hmoved
      -- the cell entered first is a free one, so what it connects is connected from the start too
      refine .head ⟨.inl rfl, .inr hentered, (h.entered a hmoved).adjacent⟩ (hrest.mono ?_)
      exact Set.insert_subset (.inr hentered) (Set.subset_insert _ _)

/-! ### Rings of obstacles -/

/-- Whether no cell of the edge is free. -/
def Enclosed (b : Board) : Prop := ∀ p ∈ b.freeCells, p.onEdge b.size = false

/-- An agent inside never gets to the edge. -/
theorem Enclosed.replay (h : Reachable b) (henclosed : b.Enclosed)
    (hinside : b.agent.pos.onEdge b.size = false) (actions : List Action) :
    (b.replay actions).agent.pos.onEdge b.size = false := by
  have hend : (b.replay actions).agent.pos ∈ b.roaming :=
    (h.connected_replay actions).mem (.inl rfl)
  rcases hend with hstart | hfree
  · rwa [hstart]
  · exact henclosed _ hfree

theorem addItems_size {items : List Item} {ids : List EntityId}
    (hadd : b.addItems items = .ok (b', ids)) : b'.size = b.size := by
  obtain ⟨-, rfl, -⟩ := addItems_eq_ok hadd
  rfl

/-- A ring that was added leaves no cell of the edge free. -/
theorem enclosed_of_surround {items : List Item} {ids : List EntityId} {block : Obstacle}
    (hring : .surround block ∈ items) (hadd : b.addItems items = .ok (b', ids)) : b'.Enclosed := by
  rintro p ⟨hin, hfree⟩
  rw [addItems_size hadd] at hin ⊢
  rw [Bool.eq_false_iff]
  intro hedge
  obtain ⟨e, he, hpos, hkind⟩ := exists_obstacle_of_surround hring hadd hin hedge
  exact hfree e (mem_entities.2 (.inr (.inr he))) hpos block hkind

end Board

/-- Whether an operation takes nothing off a board and leaves its side. -/
def Operation.keepsAll : Operation → Bool
  | .remove _ | .resize _ => false
  | .add _ | .act _ | .word _ | .replay _ => true

namespace Board
variable {b b' : Board}

/-- Without removals and resizes no cell becomes free. -/
theorem Reachable.perform_freeCells (h : Reachable b) {op : Operation} (hop : op.keepsAll = true) :
    (b.perform op).size = b.size ∧ (b.perform op).freeCells ⊆ b.freeCells := by
  cases op with
  | remove | resize => cases hop
  | act a => exact ⟨apply_size a, (h.freeCells_apply a).subset⟩
  | replay actions => exact ⟨replay_size actions, (h.freeCells_replay actions).subset⟩
  | word token =>
    rw [Board.perform, applyToken]
    cases Action.ofName? token with
    | none => exact ⟨rfl, subset_rfl⟩
    | some a => exact ⟨apply_size a, (h.freeCells_apply a).subset⟩
  | add items =>
    rw [Board.perform]
    split
    · next hadd =>
      obtain ⟨-, rfl, -⟩ := addItems_eq_ok hadd
      refine ⟨rfl, fun p hp => ⟨hp.1, fun e he => hp.2 e ?_⟩⟩
      rcases mem_entities.1 he with rfl | rfl | he
      · exact mem_entities.2 (.inl rfl)
      · exact mem_entities.2 (.inr (.inl rfl))
      · exact mem_entities.2 (.inr (.inr (List.mem_append_left _ he)))
    · exact ⟨rfl, subset_rfl⟩

theorem Reachable.performAll_freeCells (h : Reachable b) {ops : List Operation}
    (hops : ∀ op ∈ ops, op.keepsAll = true) :
    (b.performAll ops).size = b.size ∧ (b.performAll ops).freeCells ⊆ b.freeCells := by
  induction ops generalizing b with
  | nil => exact ⟨rfl, subset_rfl⟩
  | cons op ops ih =>
    obtain ⟨hop, hops⟩ := List.forall_mem_cons.1 hops
    obtain ⟨hsize, hfree⟩ := h.perform_freeCells hop
    obtain ⟨hsize', hfree'⟩ := ih (h.perform op) hops
    exact ⟨hsize'.trans hsize, hfree'.trans hfree⟩

/-- **Where a run can take the agent.** Whatever actions are taken, each tick that moves the agent
takes it one step, to a cell of the board where nothing blocks; so the run stays in the part of the
board that free cells connect with its start. On a board with a ring of obstacles, whatever else was
done or added since, an agent inside never gets to the edge. -/
theorem Reachable.replay_confined (h : Reachable b) (actions : List Action) :
    (∀ before a after, actions = before ++ a :: after →
      (b.replay (before ++ [a])).agent.pos ≠ (b.replay before).agent.pos →
        Entered (b.replay before) (b.replay (before ++ [a]))) ∧
    Position.Connected (insert b.agent.pos b.freeCells) b.agent.pos
      (b.replay actions).agent.pos ∧
    (∀ p ∈ insert b.agent.pos b.freeCells, p.inBounds b.size = true) ∧
    ∀ items block b' ids ops, Item.surround block ∈ items → b.addItems items = .ok (b', ids) →
      (∀ op ∈ ops, op.keepsAll = true) →
        (b'.performAll ops).agent.pos.onEdge b.size = false →
          ((b'.performAll ops).replay actions).agent.pos.onEdge b.size = false := by
  refine ⟨?_, h.connected_replay actions, fun p hp => h.inBounds_of_mem_roaming hp, ?_⟩
  · rintro before a after - hmoved
    rw [replay_append] at hmoved ⊢
    exact (h.replay before).entered a hmoved
  · intro items block b' ids ops hring hadd hops hinside
    have reachable := h.of_addItems hadd
    obtain ⟨hsize, hfree⟩ := reachable.performAll_freeCells hops
    rw [← addItems_size hadd, ← hsize] at hinside ⊢
    refine Enclosed.replay (reachable.performAll ops) (fun p hp => ?_) hinside actions
    rw [hsize]
    exact enclosed_of_surround hring hadd p (hfree hp)

/-- Leaves are in the agent's way and it goes around them. Then a ring is added, and it cannot take
its unit to the edge. -/
theorem replay_confined_by_ring : ∃ b b' ids, Reachable b ∧
    b.addItems [.sheep ⟨1, 2⟩ .pink, .surround .water] = .ok (b', ids) ∧
    (b.replay [.right]).agent.pos = ⟨1, 3⟩ ∧
    Entered (b.replay [.right]) (b.replay [.right, .forward]) ∧
    Position.Connected (insert ⟨1, 3⟩ b.freeCells) ⟨1, 3⟩
      (b.replay [.right, .forward, .left, .left]).agent.pos ∧
    (b.replay [.right, .forward, .left, .left]).agent.pos = ⟨0, 2⟩ ∧
    ((b'.performAll [.word "forward"]).replay
      [.right, .forward, .left, .left]).agent.pos.onEdge 5 = false := by
  have reachable := (Reachable.ofLayout (l := ⟨5, ⟨⟨1, 3⟩, .north⟩, ⟨3, 3⟩, .none⟩) rfl).perform
    (.add [.block .leaves ⟨2, 3⟩])
  obtain ⟨entered, connected, -, enclosed⟩ :=
    reachable.replay_confined [.right, .forward, .left, .left]
  refine ⟨_, _, _, reachable, rfl, by decide +kernel,
    entered [.right] .forward _ rfl (by decide +kernel), connected, by decide +kernel, ?_⟩
  exact enclosed [.sheep ⟨1, 2⟩ .pink, .surround .water] .water _ _ [.word "forward"] (by decide)
    rfl (by decide) (by decide +kernel)

end Board

end Shepherd.Grid
