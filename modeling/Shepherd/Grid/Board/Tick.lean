import Shepherd.Grid.Board.Edit

/-!
# Ticks

One action moves or turns the agent and then settles what lies on its cell. A step leads to the
nearest cell of the board and is not taken where something blocks that cell. An agent that carries
nothing picks up the first free unit of its cell. One that carries a unit drops it on the first free
target of the same colour, if no other unit of that colour is on the cell. A carried unit is always
on the agent's cell.
-/

namespace Shepherd.Grid.Board

/-- Whether something on a cell keeps the agent out. -/
def blocked (b : Board) (pos : Position) : Bool :=
  (b.exit :: b.objects).any fun e => e.pos == pos && !e.walkable

/-- Moves the agent to the cell of the board nearest to `goal`, unless that is blocked. -/
def step (b : Board) (goal : Position) : Board :=
  let cell := goal.clamp b.size
  if b.blocked cell then b else { b with agent := { b.agent with pos := cell } }

/-- Moves or turns the agent. -/
def move (b : Board) : Action → Board
  | .forward => b.step (b.agent.pos + b.facing.vector)
  | .backward => b.step (b.agent.pos - b.facing.vector)
  | .left => b.step (b.agent.pos + b.facing.vector.rotateLeft)
  | .right => b.step (b.agent.pos + b.facing.vector.rotateRight)
  | .turnLeft => { b with facing := b.facing.left }
  | .turnRight => { b with facing := b.facing.right }

/-- Changes the object with a given identity. -/
def updateObject (b : Board) (id : EntityId) (change : Entity → Entity) : Board :=
  { b with objects := b.objects.map fun e => if e.id = id then change e else e }

/-- The first free unit on the agent's cell. -/
def unitHere? (b : Board) : Option Entity :=
  b.objects.find? fun e => e.pos == b.agent.pos && e.isFreeUnit

/-- Takes a unit into the carry slot. -/
def pickUp (b : Board) (unit : EntityId) : Board :=
  { b.updateObject unit fun e => { e with priority := Kind.carriedPriority } with
    carrying := some unit }

/-- The colour of the unit with a given identity. -/
def colorOf? (b : Board) (unit : EntityId) : Option Color :=
  (b.entity? unit).bind Entity.unitColor?

/-- Whether a unit of a colour, other than the given one, is on the agent's cell. -/
def crowded (b : Board) (unit : EntityId) (color : Color) : Bool :=
  b.entities.any fun e => e.id != unit && e.pos == b.agent.pos && e.unitColor? == some color

/-- The first target on the agent's cell that a carried unit can be dropped on. -/
def targetHere? (b : Board) (unit : EntityId) : Option Entity :=
  (b.colorOf? unit).bind fun color =>
    b.objects.find? fun e =>
      e.pos == b.agent.pos && e.targetColor? == some color && e.isFreeTarget &&
        !b.crowded unit color

/-- A unit as it stands on the target it was dropped on. -/
def placedOn (target : Entity) (unit : Entity) : Entity :=
  { unit with
    pos := target.pos
    priority := unit.kind.defaultPriority
    kind := unit.kind.withLink (some target.id) }

/-- Drops the carried unit on a target; each names the other from now on. -/
def dropOnto (b : Board) (unit : EntityId) (target : Entity) : Board :=
  let linked := b.updateObject target.id fun e => { e with kind := e.kind.withLink (some unit) }
  { linked.updateObject unit (placedOn target) with carrying := none }

/-- Picks up or drops a unit on the agent's cell. -/
def settle (b : Board) : Board :=
  match b.carrying with
  | some unit =>
    match b.targetHere? unit with
    | some target => b.dropOnto unit target
    | none => b
  | none =>
    match b.unitHere? with
    | some unit => b.pickUp unit.id
    | none => b

/-- One tick. -/
def apply (b : Board) (a : Action) : Board := (b.move a).settle.trackCarried

/-- One tick for a word; a word outside the vocabulary changes nothing. -/
def applyToken (b : Board) (token : String) : Except BoardError Board :=
  match Action.ofName? token with
  | some a => .ok (b.apply a)
  | none => .error (.unknownAction token)

/-- All ticks of a list of actions. -/
def replay (b : Board) (actions : List Action) : Board := actions.foldl apply b

@[simp] theorem replay_nil (b : Board) : b.replay [] = b := rfl

@[simp] theorem replay_cons (b : Board) (a : Action) (actions : List Action) :
    b.replay (a :: actions) = (b.apply a).replay actions := rfl

theorem replay_append (b : Board) (first second : List Action) :
    b.replay (first ++ second) = (b.replay first).replay second := by
  simp [replay]

end Shepherd.Grid.Board
