import Shepherd.Grid.Position

/-!
# Directions

The four ways that the agent can face, each with its unit vector. Turning and rotating the vector
agree.
-/

namespace Shepherd.Grid

inductive Direction where | north | east | south | west
  deriving DecidableEq, Inhabited

namespace Direction

/-- All directions, clockwise from north. -/
def all : List Direction := [.north, .east, .south, .west]

/-- One step in the direction. -/
def vector : Direction → Position
  | .north => ⟨0, -1⟩
  | .east => ⟨1, 0⟩
  | .south => ⟨0, 1⟩
  | .west => ⟨-1, 0⟩

/-- The direction that a vector is the step of. -/
def ofVector? (v : Position) : Option Direction := all.find? (·.vector = v)

/-- A quarter turn counter-clockwise. -/
def left : Direction → Direction
  | .north => .west
  | .west => .south
  | .south => .east
  | .east => .north

/-- A quarter turn clockwise. -/
def right : Direction → Direction
  | .north => .east
  | .east => .south
  | .south => .west
  | .west => .north

/-- The name that levels use. -/
def name : Direction → String
  | .north => "north"
  | .east => "east"
  | .south => "south"
  | .west => "west"

/-- The direction with a given name. -/
def ofName? (text : String) : Option Direction := all.find? (·.name == text)

/-- A text that names no direction. -/
structure ParseError where
  text : String
  deriving DecidableEq

/-- What is wrong with the text. -/
def ParseError.message (e : ParseError) : String :=
  "unknown direction '" ++ e.text ++ "', expected north, east, south or west"

/-- Reads the name of a direction. -/
def parse (text : String) : Except ParseError Direction :=
  match ofName? text with
  | some d => .ok d
  | none => .error ⟨text⟩

theorem vector_left (d : Direction) : d.left.vector = d.vector.rotateLeft := by cases d <;> rfl

theorem vector_right (d : Direction) : d.right.vector = d.vector.rotateRight := by cases d <;> rfl

theorem left_right (d : Direction) : d.right.left = d := by cases d <;> rfl

theorem right_left (d : Direction) : d.left.right = d := by cases d <;> rfl

theorem ofName?_name (d : Direction) : ofName? d.name = some d := by cases d <;> decide +kernel

end Direction

end Shepherd.Grid
