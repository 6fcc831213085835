import Shepherd.Grid.Direction
import Shepherd.Grid.Entity
import Shepherd.Grid.Objective

/-!
# Levels

The description of a board: its side, where the agent starts and faces, the exit, the limits, and
the items to be put on it afterwards, in order.
-/

namespace Shepherd.Grid

/-- Where the agent starts. -/
structure Start where
  position : Position
  facing : Direction
  deriving DecidableEq

/-- A board before any item is put on it. -/
structure Layout where
  size : Int
  player : Start
  exit : Position
  limits : Limits
  deriving DecidableEq

inductive Item where
  | block (kind : Obstacle) (pos : Position)
  | sheep (pos : Position) (color : Color)
  | target (pos : Position) (color : Color)
  /-- One block on every cell of the ring. -/
  | surround (kind : Obstacle)
  deriving DecidableEq

namespace Item

/-- The cells and kinds that an item puts on a board of a given side. -/
def expand (size : Int) : Item → List (Position × Kind)
  | .block kind pos => [(pos, .obstacle kind)]
  | .sheep pos color => [(pos, .herdUnit color none)]
  | .target pos color => [(pos, .herdTarget color none)]
  | .surround kind => (Position.ring size).map fun pos => (pos, .obstacle kind)

/-- The cell that an item names; a ring names none. -/
def cell? : Item → Option Position
  | .block _ pos => some pos
  | .sheep pos _ => some pos
  | .target pos _ => some pos
  | .surround _ => none

end Item

structure Level where
  layout : Layout
  items : List Item
  deriving DecidableEq

/-- The cells that a level names, in order: the agent's, the exit, and those of the items. -/
def Level.cells (l : Level) : List Position :=
  l.layout.player.position :: l.layout.exit :: l.items.filterMap Item.cell?

end Shepherd.Grid
