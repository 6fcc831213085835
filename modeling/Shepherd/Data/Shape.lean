import Shepherd.Data.Tree
import Shepherd.Text.Decimal

/-!
# Reading values from trees

How numbers, choices and records are found in a tree. A record is a table, in which unknown keys are
skipped and no known key may come twice, or the list of its fields in order. A choice is the name of
an alternative, or a table with that name as its only key. Notations differ in what may stand beside
the name, and in whether a list may run on after the last field.
-/

namespace Shepherd.Data
open Text

namespace Tree

/-- A whole number that fits a signed word of 32 bits. -/
def int32? : Tree → Option Int
  | .integer n => if fitsInt32 n then some n else none
  | _ => none

/-- A whole number that fits an unsigned word of 32 bits. -/
def uint32? : Tree → Option UInt32
  | .integer n => if 0 ≤ n ∧ n < UInt32.size then some (UInt32.ofNat n.toNat) else none
  | _ => none

/-- A whole number from zero to the largest signed word of 64 bits. -/
def natural? : Tree → Option Nat
  | .integer n => if 0 ≤ n ∧ fitsInt64 n then some n.toNat else none
  | _ => none

/-- A number of 32 bits, or nothing. -/
def limit? : Tree → Option (Option UInt32)
  | .null => some none
  | t => (uint32? t).map some

end Tree

/-- What a notation leaves open. -/
structure Shape where
  /-- Whether a list may run on after the last field of a record. -/
  spareItems : Bool
  /-- What may stand beside the name of an alternative. -/
  payload : Tree → Bool
  /-- How many lists and tables may lie in each other, where the notation bounds them only here. -/
  maxDepth : Option Nat

namespace Shape

/-- JSON: lists end with the last field, null stands beside a name, and depth is bounded. -/
def json : Shape where
  spareItems := false
  payload
    | .null => true
    | _ => false
  maxDepth := some 127

/-- TOML: lists may run on, and an empty table or list stands beside a name. -/
def toml : Shape where
  spareItems := true
  payload
    | .table [] | .list [] => true
    | _ => false
  maxDepth := none

/-- Inside an item that carries its own kind, in either notation. -/
def tagged : Shape where
  spareItems := false
  payload
    | .null | .table [] => true
    | _ => false
  maxDepth := none

/-- Whether every part of a tree inside `outer` lists and tables has a value and lies within the
bound. -/
def admits (shape : Shape) (outer : Nat) (t : Tree) : Bool :=
  match shape.maxDepth with
  | some depth => t.fits (depth - outer)
  | none => true

/-- The values of the named fields, none where a field is missing. A moment is read like a table
without any of them. -/
def fields (shape : Shape) (names : List String) : Tree → Option (List (Option Tree))
  | .table entries =>
    if names.all fun name => (entries.filter (·.1 == name)).length ≤ 1 then
      some (names.map (Tree.table entries).get?)
    else none
  | .list items =>
    if items.length ≤ names.length || shape.spareItems then
      some ((List.range names.length).map (items[·]?))
    else none
  | .moment => some (names.map fun _ => none)
  | _ => none

/-- The alternative that a tree names. -/
def choice (shape : Shape) (named : String → Option α) : Tree → Option α
  | .text name => named name
  | .table [(name, beside)] => if shape.payload beside then named name else none
  | _ => none

/-- Reads a field that may be missing. -/
def orDefault (read : Tree → Option α) (default : α) : Option Tree → Option α
  | none => some default
  | some t => read t

end Shape

end Shepherd.Data
