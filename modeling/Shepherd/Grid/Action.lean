/-!
# Actions

The six verbs that a script drives the agent with: four steps relative to where the agent faces and
two turns on the spot.
-/

namespace Shepherd.Grid

inductive Action where | forward | backward | left | right | turnLeft | turnRight
  deriving DecidableEq, Inhabited

namespace Action

/-- The vocabulary, in the order in which it is documented. -/
def all : List Action := [.forward, .backward, .left, .right, .turnLeft, .turnRight]

/-- The function that scripts call. -/
def name : Action → String
  | .forward => "forward"
  | .backward => "backward"
  | .left => "left"
  | .right => "right"
  | .turnLeft => "turnLeft"
  | .turnRight => "turnRight"

/-- How the function is called. -/
def signature (a : Action) : String := a.name ++ "(n = 1)"

/-- What the function does. -/
def description : Action → String
  | .forward => "move forward n steps"
  | .backward => "move backward n steps"
  | .left => "move left n steps"
  | .right => "move right n steps"
  | .turnLeft => "turn left n times"
  | .turnRight => "turn right n times"

/-- Signature and description of every action. -/
def documentation : List (String × String) := all.map fun a => (a.signature, a.description)

/-- The action with a given name. -/
def ofName? (text : String) : Option Action := all.find? (·.name == text)

/-- A word outside the vocabulary. -/
structure ParseError where
  text : String
  deriving DecidableEq

/-- What is wrong with the word. -/
def ParseError.message (e : ParseError) : String := "unknown action '" ++ e.text ++ "'"

/-- Reads the name of an action. -/
def parse (text : String) : Except ParseError Action :=
  match ofName? text with
  | some a => .ok a
  | none => .error ⟨text⟩

theorem mem_all (a : Action) : a ∈ all := by cases a <;> decide

theorem ofName?_name (a : Action) : ofName? a.name = some a := by cases a <;> decide +kernel

/-- Only an action's own name reads as that action. -/
theorem ofName?_eq_some_iff {text : String} {a : Action} :
    ofName? text = some a ↔ text = a.name := by
  constructor
  · intro h
    have := List.find?_some h
    exact (beq_iff_eq.1 this).symm
  · rintro rfl; exact ofName?_name a

end Action

end Shepherd.Grid
