import Shepherd.Grid.Board.Solve
import Shepherd.Proofs.Board.Integrity

/-!
# Symmetry

Nothing on a board depends on which way it is held. A board that was given a quarter turn, with the
agent facing a quarter turn further, goes on like the original one, and so does its mirror image, if
left and right are exchanged in what the agent is told. What both have in common is a `Motion`: it
is lawful if it maps different positions to different ones, commutes with moving to the nearest cell
and agrees with where each action leads.
-/

namespace Shepherd.Grid

/-! ### Where actions lead -/

namespace Action

/-- Where an action takes an agent that nothing is in the way of; nowhere if it is a turn. -/
def goal? (a : Action) (pos : Position) (facing : Direction) : Option Position :=
  match a with
  | .forward => some (pos + facing.vector)
  | .backward => some (pos - facing.vector)
  | .left => some (pos + facing.vector.rotateLeft)
  | .right => some (pos + facing.vector.rotateRight)
  | .turnLeft | .turnRight => none

/-- Where an agent faces after an action. -/
def turn (a : Action) (facing : Direction) : Direction :=
  match a with
  | .turnLeft => facing.left
  | .turnRight => facing.right
  | .forward | .backward | .left | .right => facing

/-- The action with left and right exchanged. -/
def mirrored : Action → Action
  | .left => .right
  | .right => .left
  | .turnLeft => .turnRight
  | .turnRight => .turnLeft
  | .forward => .forward
  | .backward => .backward

end Action

/-- The mirror image of a vector, from east to west. -/
def Position.mirrored (v : Position) : Position := ⟨-v.x, v.y⟩

/-- The direction with east and west exchanged. -/
def Direction.mirrored : Direction → Direction
  | .east => .west
  | .west => .east
  | .north => .north
  | .south => .south

theorem Direction.vector_mirrored (d : Direction) : d.mirrored.vector = d.vector.mirrored := by
  cases d <;> rfl

section Vectors
variable (v : Position)

theorem Position.rotateLeft_rotateRight : v.rotateRight.rotateLeft = v.rotateLeft.rotateRight :=
  Position.ext (Int.neg_neg v.x).symm (Int.neg_neg v.y)

theorem Position.rotateLeft_mirrored : v.mirrored.rotateLeft = v.rotateRight.mirrored :=
  Position.ext (Int.neg_neg v.y).symm (Int.neg_neg v.x)

theorem Position.rotateRight_mirrored : v.mirrored.rotateRight = v.rotateLeft.mirrored := rfl

end Vectors

/-! ### Motions -/

/-- Another place for everything on a board, with the directions and actions that go with it. -/
structure Motion where
  pos : Position → Position
  facing : Direction → Direction
  action : Action → Action

namespace Motion

/-- What makes a motion a symmetry of the boards of a side. -/
structure Lawful (m : Motion) (size : Int) : Prop where
  injective : ∀ p q, m.pos p = m.pos q → p = q
  clamp : ∀ p, (m.pos p).clamp size = m.pos (p.clamp size)
  goal : ∀ a p d, (m.action a).goal? (m.pos p) (m.facing d) = (a.goal? p d).map m.pos
  turn : ∀ a d, (m.action a).turn (m.facing d) = m.facing (a.turn d)

/-- A quarter turn clockwise of the boards of a side. -/
def quarterTurn (size : Int) : Motion where
  pos p := ⟨size - 1 - p.y, p.x⟩
  facing := Direction.right
  action := id

/-- The mirror image from east to west of the boards of a side. -/
def mirror (size : Int) : Motion where
  pos p := ⟨size - 1 - p.x, p.y⟩
  facing := Direction.mirrored
  action := Action.mirrored

/-- Counting from the other end commutes with moving to the nearest coordinate. -/
theorem clampCoordinate_reversed {size : Int} (h : 0 < size) (n : Int) :
    Position.clampCoordinate size (size - 1 - n) = size - 1 - Position.clampCoordinate size n := by
  simp only [Position.clampCoordinate]
  omega

section Laws
variable {size : Int}

theorem quarterTurn_add (p v : Position) :
    (quarterTurn size).pos (p + v) = (quarterTurn size).pos p + v.rotateRight := by
  refine Position.ext ?_ rfl
  change size - 1 - (p.y + v.y) = size - 1 - p.y + -v.y
  omega

theorem quarterTurn_sub (p v : Position) :
    (quarterTurn size).pos (p - v) = (quarterTurn size).pos p - v.rotateRight := by
  refine Position.ext ?_ rfl
  change size - 1 - (p.y - v.y) = size - 1 - p.y - -v.y
  omega

theorem lawful_quarterTurn (h : 0 < size) : (quarterTurn size).Lawful size where
  injective p q heq := by
    obtain ⟨hy, hx⟩ := Position.mk.inj heq
    exact Position.ext hx (Int.sub_right_inj _ |>.1 hy)
  clamp p := Position.ext (clampCoordinate_reversed h p.y) rfl
  goal a p d := by
    have hvector : ((quarterTurn size).facing d).vector = d.vector.rotateRight := d.vector_right
    cases a with
    | forward =>
      refine congrArg some ?_
      rw [quarterTurn_add, hvector]
    | backward =>
      refine congrArg some ?_
      rw [quarterTurn_sub, hvector]
    | left =>
      refine congrArg some ?_
      rw [quarterTurn_add, hvector, Position.rotateLeft_rotateRight]
    | right =>
      refine congrArg some ?_
      rw [quarterTurn_add, hvector]
    | turnLeft | turnRight => rfl
  turn a d := by cases a <;> cases d <;> rfl

theorem mirror_add (p v : Position) :
    (mirror size).pos (p + v) = (mirror size).pos p + v.mirrored := by
  refine Position.ext ?_ rfl
  change size - 1 - (p.x + v.x) = size - 1 - p.x + -v.x
  omega

theorem mirror_sub (p v : Position) :
    (mirror size).pos (p - v) = (mirror size).pos p - v.mirrored := by
  refine Position.ext ?_ rfl
  change size - 1 - (p.x - v.x) = size - 1 - p.x - -v.x
  omega

theorem lawful_mirror (h : 0 < size) : (mirror size).Lawful size where
  injective p q heq := by
    obtain ⟨hx, hy⟩ := Position.mk.inj heq
    exact Position.ext (Int.sub_right_inj _ |>.1 hx) hy
  clamp p := Position.ext (clampCoordinate_reversed h p.x) rfl
  goal a p d := by
    have hvector : ((mirror size).facing d).vector = d.vector.mirrored := d.vector_mirrored
    cases a with
    | forward =>
      refine congrArg some ?_
      rw [mirror_add, hvector]
    | backward =>
      refine congrArg some ?_
      rw [mirror_sub, hvector]
    | left =>
      refine congrArg some ?_
      rw [mirror_add, hvector, Position.rotateRight_mirrored]
    | right =>
      refine congrArg some ?_
      rw [mirror_add, hvector, Position.rotateLeft_mirrored]
    | turnLeft | turnRight => rfl
  turn a d := by cases a <;> cases d <;> rfl

end Laws

/-- An entity at its new place. -/
def entity (m : Motion) (e : Entity) : Entity := { e with pos := m.pos e.pos }

section Entity
variable (m : Motion) (e : Entity)

@[simp] theorem entity_id : (m.entity e).id = e.id := rfl

@[simp] theorem entity_pos : (m.entity e).pos = m.pos e.pos := rfl

@[simp] theorem entity_walkable : (m.entity e).walkable = e.walkable := rfl

@[simp] theorem entity_unitColor? : (m.entity e).unitColor? = e.unitColor? := rfl

@[simp] theorem entity_targetColor? : (m.entity e).targetColor? = e.targetColor? := rfl

@[simp] theorem entity_isFreeUnit : (m.entity e).isFreeUnit = e.isFreeUnit := rfl

@[simp] theorem entity_isFreeTarget : (m.entity e).isFreeTarget = e.isFreeTarget := rfl

end Entity

/-- Positions are told apart after a lawful motion as before. -/
theorem Lawful.beq {m : Motion} {size : Int} (h : m.Lawful size) (p q : Position) :
    (m.pos p == m.pos q) = (p == q) := by
  rw [Bool.eq_iff_iff, beq_iff_eq, beq_iff_eq]
  exact ⟨h.injective p q, congrArg m.pos⟩

end Motion

namespace Board

/-- The board with everything at its new place. -/
def transform (m : Motion) (b : Board) : Board :=
  { b with
    agent := m.entity b.agent
    exit := m.entity b.exit
    objects := b.objects.map m.entity
    facing := m.facing b.facing }

section Transform
variable {m : Motion} {b : Board}

@[simp] theorem transform_size : (b.transform m).size = b.size := rfl

@[simp] theorem transform_agent : (b.transform m).agent = m.entity b.agent := rfl

@[simp] theorem transform_exit : (b.transform m).exit = m.entity b.exit := rfl

@[simp] theorem transform_objects : (b.transform m).objects = b.objects.map m.entity := rfl

@[simp] theorem transform_facing : (b.transform m).facing = m.facing b.facing := rfl

@[simp] theorem transform_carrying : (b.transform m).carrying = b.carrying := rfl

theorem entities_transform : (b.transform m).entities = b.entities.map m.entity := rfl

theorem entity?_transform (id : EntityId) :
    (b.transform m).entity? id = (b.entity? id).map m.entity := by
  rw [entity?, entities_transform, List.find?_map]
  rfl

/-! ### One tick -/

/-- A move is a step or a turn. -/
theorem move_eq_step (a : Action) : b.move a =
    { (a.goal? b.agent.pos b.facing).elim b b.step with facing := a.turn b.facing } := by
  cases a with
  | forward | backward | left | right =>
    simp only [move, Action.goal?, Option.elim_some, Action.turn]
    rw [step_eq]
  | turnLeft | turnRight => rfl

theorem blocked_transform (h : m.Lawful b.size) (pos : Position) :
    (b.transform m).blocked (m.pos pos) = b.blocked pos := by
  rw [blocked, transform_exit, transform_objects, ← List.map_cons, List.any_map]
  simp only [Function.comp_def, Motion.entity_pos, Motion.entity_walkable, h.beq]
  rfl

theorem step_transform (h : m.Lawful b.size) (goal : Position) :
    (b.transform m).step (m.pos goal) = (b.step goal).transform m := by
  simp only [step, transform_size, h.clamp, blocked_transform h]
  split <;> rfl

theorem move_transform (h : m.Lawful b.size) (a : Action) :
    (b.transform m).move (m.action a) = (b.move a).transform m := by
  rw [move_eq_step, move_eq_step, transform_agent, Motion.entity_pos, transform_facing, h.goal,
    h.turn]
  cases a.goal? b.agent.pos b.facing with
  | none => rfl
  | some goal =>
    simp only [Option.map_some, Option.elim_some, step_transform h]
    rfl

theorem unitHere?_transform (h : m.Lawful b.size) :
    (b.transform m).unitHere? = b.unitHere?.map m.entity := by
  rw [unitHere?, transform_objects, List.find?_map]
  simp only [Function.comp_def, transform_agent, Motion.entity_pos, Motion.entity_isFreeUnit, h.beq]
  rfl

theorem crowded_transform (h : m.Lawful b.size) (unit : EntityId) (color : Color) :
    (b.transform m).crowded unit color = b.crowded unit color := by
  rw [crowded, entities_transform, List.any_map]
  simp only [Function.comp_def, transform_agent, Motion.entity_pos, Motion.entity_id,
    Motion.entity_unitColor?, h.beq]
  rfl

theorem colorOf?_transform (unit : EntityId) : (b.transform m).colorOf? unit = b.colorOf? unit := by
  rw [colorOf?, entity?_transform, Option.bind_map]
  rfl

theorem targetHere?_transform (h : m.Lawful b.size) (unit : EntityId) :
    (b.transform m).targetHere? unit = (b.targetHere? unit).map m.entity := by
  rw [targetHere?, colorOf?_transform, targetHere?]
  cases b.colorOf? unit with
  | none => rfl
  | some color =>
    simp only [Option.bind_some, transform_objects, List.find?_map, Function.comp_def,
      transform_agent, Motion.entity_pos, Motion.entity_targetColor?, Motion.entity_isFreeTarget,
      crowded_transform h, h.beq]

/-- A change of an object can be made before or after a motion that it commutes with. -/
theorem updateObject_transform (id : EntityId) {change change' : Entity → Entity}
    (h : ∀ e, change' (m.entity e) = m.entity (change e)) :
    (b.transform m).updateObject id change' = (b.updateObject id change).transform m := by
  have hchange : (fun e => if e.id = id then change' e else e) ∘ m.entity =
      m.entity ∘ fun e => if e.id = id then change e else e := by
    funext e
    simp only [Function.comp_apply, Motion.entity_id, h]
    split <;> rfl
  rw [updateObject, transform_objects, List.map_map, hchange, ← List.map_map]
  rfl

theorem pickUp_transform (unit : EntityId) :
    (b.transform m).pickUp unit = (b.pickUp unit).transform m := by
  let lift := fun e : Entity => { e with priority := Kind.carriedPriority }
  have hlift : (b.transform m).updateObject unit lift = (b.updateObject unit lift).transform m :=
    updateObject_transform unit fun _ => rfl
  exact congrArg (fun b' : Board => { b' with carrying := some unit }) hlift

theorem dropOnto_transform (unit : EntityId) (target : Entity) :
    (b.transform m).dropOnto unit (m.entity target) = (b.dropOnto unit target).transform m := by
  let link := fun e : Entity => { e with kind := e.kind.withLink (some unit) }
  have hlink : (b.transform m).updateObject target.id link =
      (b.updateObject target.id link).transform m := updateObject_transform target.id fun _ => rfl
  have hplace : ((b.updateObject target.id link).transform m).updateObject unit
      (placedOn (m.entity target)) =
        ((b.updateObject target.id link).updateObject unit (placedOn target)).transform m :=
    updateObject_transform unit fun _ => rfl
  rw [← hlink] at hplace
  exact congrArg (fun b' : Board => { b' with carrying := none }) hplace

theorem settle_transform (h : m.Lawful b.size) :
    (b.transform m).settle = b.settle.transform m := by
  rw [settle, transform_carrying, settle]
  cases b.carrying with
  | none =>
    simp only [unitHere?_transform h]
    cases b.unitHere? with
    | none => rfl
    | some unit => exact pickUp_transform unit.id
  | some unit =>
    simp only [targetHere?_transform h]
    cases b.targetHere? unit with
    | none => rfl
    | some target => exact dropOnto_transform unit target

theorem tracked_transform (e : Entity) :
    (b.transform m).tracked (m.entity e) = m.entity (b.tracked e) := by
  by_cases hcarry : b.carrying = some e.id
  · have htracked : b.tracked e = { e with pos := b.agent.pos } := if_pos hcarry
    rw [htracked]
    exact if_pos hcarry
  · have htracked : b.tracked e = e := if_neg hcarry
    rw [htracked]
    exact if_neg hcarry

theorem trackCarried_transform :
    (b.transform m).trackCarried = b.trackCarried.transform m := by
  have htracked : (b.transform m).tracked ∘ m.entity = m.entity ∘ b.tracked :=
    funext tracked_transform
  rw [trackCarried_eq, trackCarried_eq, transform_objects, List.map_map, htracked, ← List.map_map]
  rfl

theorem settle_size : b.settle.size = b.size := by
  obtain ⟨f, -, hsettle⟩ := settle_frame b
  rw [hsettle]

theorem apply_size (a : Action) : (b.apply a).size = b.size := by
  rw [apply, trackCarried_eq]
  exact settle_size.trans (move_size b a)

/-- A tick of the transformed board is the transformed tick. -/
theorem apply_transform (h : m.Lawful b.size) (a : Action) :
    (b.transform m).apply (m.action a) = (b.apply a).transform m := by
  have hmove : m.Lawful (b.move a).size := by rwa [move_size]
  rw [apply, move_transform h, settle_transform hmove, trackCarried_transform]
  rfl

/-! ### Runs and objectives -/

theorem replay_size (actions : List Action) : (b.replay actions).size = b.size :=
  replay_keeps (P := fun b' => b'.size = b.size) (fun a h => (apply_size a).trans h) actions rfl

/-- A replay on the transformed board is the transformed replay. -/
theorem replay_transform (h : m.Lawful b.size) (actions : List Action) :
    (b.transform m).replay (actions.map m.action) = (b.replay actions).transform m := by
  induction actions generalizing b with
  | nil => rfl
  | cons a actions ih =>
    rw [List.map_cons, replay_cons, replay_cons, apply_transform h]
    exact ih (by rwa [apply_size])

theorem matched_transform {size : Int} (h : m.Lawful size) (unit target : Entity) :
    matched (m.entity unit) (m.entity target) = matched unit target := by
  rw [matched, Motion.entity_pos, Motion.entity_pos, h.beq]
  rfl

theorem claim_transform {size : Int} (h : m.Lawful size) (targets : List Entity)
    (claimed : List EntityId) (unit : Entity) :
    claim (targets.map m.entity) claimed (m.entity unit) = claim targets claimed unit := by
  have hmatched : matched (m.entity unit) ∘ m.entity = matched unit :=
    funext (matched_transform h unit)
  rw [claim, List.find?_map, hmatched, claim]
  cases targets.find? (matched unit) <;> rfl

theorem units_transform : (b.transform m).units = b.units.map m.entity := by
  rw [units, entities_transform, List.filter_map]
  rfl

theorem targets_transform : (b.transform m).targets = b.targets.map m.entity := by
  rw [targets, entities_transform, List.filter_map]
  rfl

theorem coverage_transform {size : Int} (h : m.Lawful size) :
    (b.transform m).coverage = b.coverage := by
  rw [coverage, units_transform, targets_transform, List.foldl_map, List.length_map]
  simp only [claim_transform h]
  rfl

/-- What counts as solved does not depend on how the board is held. -/
theorem solveState_transform {size : Int} (h : m.Lawful size) (trace : Option Trace) :
    (b.transform m).solveState trace = b.solveState trace := by
  rw [solveState, coverage_transform h, transform_agent, transform_exit, Motion.entity_pos,
    Motion.entity_pos, h.beq]
  rfl

end Transform

/-- The board after a quarter turn clockwise. -/
def quarterTurned (b : Board) : Board := b.transform (.quarterTurn b.size)

/-- The mirror image of the board, from east to west. -/
def mirrored (b : Board) : Board := b.transform (.mirror b.size)

/-- Holding a board another way changes nothing but the way in which its run is seen: a quarter turn
asks for the same actions, the mirror image for those with left and right exchanged. -/
theorem Reachable.replay_symmetric {b : Board} (h : Reachable b) (actions : List Action) :
    b.quarterTurned.replay actions = (b.replay actions).quarterTurned ∧
      b.mirrored.replay (actions.map Action.mirrored) = (b.replay actions).mirrored ∧
      ∀ trace, (b.replay actions).quarterTurned.solveState trace =
          (b.replay actions).solveState trace ∧
        (b.replay actions).mirrored.solveState trace = (b.replay actions).solveState trace := by
  have hturn := Motion.lawful_quarterTurn h.housed.size_pos
  have hmirror := Motion.lawful_mirror h.housed.size_pos
  rw [quarterTurned, quarterTurned, mirrored, mirrored, replay_size]
  refine ⟨?_, replay_transform hmirror actions, fun trace => ?_⟩
  · have hsame : actions.map (Motion.quarterTurn b.size).action = actions := List.map_id _
    have hreplay := replay_transform hturn actions
    rwa [hsame] at hreplay
  · exact ⟨solveState_transform hturn trace, solveState_transform hmirror trace⟩

/-- The agent runs into the west edge with a unit, and brings it to its target. -/
theorem replay_symmetric_at_edge : ∃ b : Board, Reachable b ∧
    (b.replay [.left, .left, .turnLeft, .backward]).agent.pos = ⟨1, 1⟩ ∧
    (b.replay [.left, .left, .turnLeft, .backward]).coverage = ⟨1, 1⟩ ∧
    b.mirrored.replay [.right, .right, .turnRight, .backward] =
      (b.replay [.left, .left, .turnLeft, .backward]).mirrored := by
  have reachable := (Reachable.ofLayout (l := ⟨4, ⟨⟨1, 1⟩, .north⟩, ⟨3, 3⟩, .none⟩) rfl).perform
    (.add [.sheep ⟨0, 1⟩ .blue, .target ⟨1, 1⟩ .blue])
  exact ⟨_, reachable, by decide +kernel, by decide +kernel,
    (reachable.replay_symmetric [.left, .left, .turnLeft, .backward]).2.1⟩

end Board

end Shepherd.Grid
