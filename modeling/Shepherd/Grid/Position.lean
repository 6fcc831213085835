import Shepherd.Text.Decimal
import Shepherd.Text.Blank
import Shepherd.Text.Split

/-!
# Positions

Cells of a square board of side `size`: `x` grows to the east and `y` to the south, and the cells of
the board are those with both coordinates from zero to `size - 1`. The ring is the list of the cells
on the board's edge. A position is written `x,y`; reading allows blanks around either number.
-/

namespace Shepherd.Grid
open Text

structure Position where
  x : Int
  y : Int
  deriving DecidableEq, Inhabited

namespace Position

@[ext] theorem ext {p q : Position} (x : p.x = q.x) (y : p.y = q.y) : p = q := by
  cases p
  cases q
  cases x
  cases y
  rfl

instance : Add Position := ⟨fun p q => ⟨p.x + q.x, p.y + q.y⟩⟩

instance : Sub Position := ⟨fun p q => ⟨p.x - q.x, p.y - q.y⟩⟩

@[simp] theorem add_x (p q : Position) : (p + q).x = p.x + q.x := rfl

@[simp] theorem add_y (p q : Position) : (p + q).y = p.y + q.y := rfl

@[simp] theorem sub_x (p q : Position) : (p - q).x = p.x - q.x := rfl

@[simp] theorem sub_y (p q : Position) : (p - q).y = p.y - q.y := rfl

/-- A quarter turn counter-clockwise about the origin. -/
def rotateLeft (p : Position) : Position := ⟨p.y, -p.x⟩

/-- A quarter turn clockwise about the origin. -/
def rotateRight (p : Position) : Position := ⟨-p.y, p.x⟩

/-- A coordinate moved to the nearest one from zero to `size - 1`; to zero if there is none. -/
def clampCoordinate (size n : Int) : Int := min (max n 0) (max (size - 1) 0)

/-- The nearest cell of the board. -/
def clamp (p : Position) (size : Int) : Position :=
  ⟨clampCoordinate size p.x, clampCoordinate size p.y⟩

/-- Whether a position is a cell of the board. -/
def inBounds (p : Position) (size : Int) : Bool :=
  0 ≤ p.x && p.x < size && 0 ≤ p.y && p.y < size

theorem inBounds_iff {p : Position} {size : Int} :
    p.inBounds size = true ↔ (0 ≤ p.x ∧ p.x < size) ∧ 0 ≤ p.y ∧ p.y < size := by
  simp only [inBounds, Bool.and_eq_true, decide_eq_true_eq, and_assoc]

/-- A board that has cells has a nearest one to every position. -/
theorem inBounds_clamp {size : Int} (h : 0 < size) (p : Position) :
    (p.clamp size).inBounds size = true := by
  rw [inBounds_iff]
  simp only [clamp, clampCoordinate]
  omega

/-- Whether a coordinate is the first or the last one. -/
def onEdge (p : Position) (size : Int) : Bool :=
  p.x == 0 || p.y == 0 || p.x == size - 1 || p.y == size - 1

/-- The cells on the edge of the board: the top and bottom rows column by column, then the first and
last cell of each row between them. -/
def ring (size : Int) : List Position :=
  if size = 1 then [⟨0, 0⟩]
  else
    let n := size.toNat
    (List.range n).flatMap (fun x => [⟨x, 0⟩, ⟨x, size - 1⟩]) ++
      (List.range' 1 (n - 2)).flatMap fun y => [⟨0, y⟩, ⟨size - 1, y⟩]

/-- The position as text. -/
def toText (p : Position) : String := toString p.x ++ "," ++ toString p.y

/-- A text that is not a position. -/
structure ParseError where
  text : String
  deriving DecidableEq

/-- What is wrong with the text. -/
def ParseError.message (e : ParseError) : String :=
  "invalid position '" ++ e.text ++ "', expected \"x,y\""

/-- Reads two numbers parted by the first comma. -/
def ofText? (cs : List Char) : Option Position := do
  let (before, after) ← splitOnce? [','] cs
  return ⟨← readInt32? (trim before), ← readInt32? (trim after)⟩

/-- Reads a position; each coordinate fits a signed word of 32 bits. -/
def parse (text : String) : Except ParseError Position :=
  match ofText? text.toList with
  | some p => .ok p
  | none => .error ⟨text⟩

end Position

end Shepherd.Grid
