import Shepherd.Grid.Level

/-!
# Boards

A square board with one agent, one exit, and any number of further objects in the order in which
they were put there. Each entity has an identity of its own; the agent has the first one, the exit
the second, and every object the next free one. Where several objects share a cell, the earlier one
comes first.
-/

namespace Shepherd.Grid

structure Board where
  size : Int
  agent : Entity
  exit : Entity
  objects : List Entity
  limits : Limits
  nextId : EntityId
  facing : Direction
  /-- The herd unit that the agent carries. -/
  carrying : Option EntityId
  deriving DecidableEq

/-- Why a board cannot be built or changed. -/
inductive BoardError where
  | unknownAction (token : String)
  | outOfBounds (position : Position) (size : Int)
  | invalidSize (size : Int)
  | unknownEntity (id : EntityId)
  | fixedEntity (id : EntityId)
  deriving DecidableEq

/-- What is wrong. -/
def BoardError.message : BoardError → String
  | .unknownAction token => "unknown action token: " ++ token
  | .outOfBounds position size =>
    "position " ++ position.toText ++ " is outside a " ++ toString size ++ "x" ++ toString size ++
      " board"
  | .invalidSize size => "invalid board size: " ++ toString size
  | .unknownEntity id => "unknown entity: #" ++ toString id
  | .fixedEntity id => "entity #" ++ toString id ++ " is fixed to the board"

namespace Board

/-- The identity of the agent on every board. -/
def agentId : EntityId := 0

/-- The identity of the exit on every board. -/
def exitId : EntityId := 1

/-- All entities: the agent, the exit, and the objects in order. -/
def entities (b : Board) : List Entity := b.agent :: b.exit :: b.objects

/-- The entity with a given identity. -/
def entity? (b : Board) (id : EntityId) : Option Entity := b.entities.find? (·.id == id)

/-- The entities on a cell. -/
def entitiesAt (b : Board) (pos : Position) : List Entity := b.entities.filter (·.pos == pos)

/-- The entities by ascending priority; equal priorities keep their order. -/
def drawOrder (b : Board) : List Entity := b.entities.mergeSort fun d e => d.priority ≤ e.priority

/-- The first of the cells that is not on a board of the given side. -/
def firstOutside? (size : Int) (cells : List Position) : Option Position :=
  cells.find? (!·.inBounds size)

/-- The board of a layout, with nothing on it but the agent and the exit. -/
def ofLayout (l : Layout) : Except BoardError Board :=
  if l.size ≤ 0 then .error (.invalidSize l.size)
  else match firstOutside? l.size [l.player.position, l.exit] with
    | some pos => .error (.outOfBounds pos l.size)
    | none => .ok
      { size := l.size
        agent := .ofKind agentId l.player.position .agent
        exit := .ofKind exitId l.exit .exitZone
        objects := []
        limits := l.limits
        nextId := exitId + 1
        facing := l.player.facing
        carrying := none }

@[simp] theorem entities_def (b : Board) : b.entities = b.agent :: b.exit :: b.objects := rfl

end Board

end Shepherd.Grid
