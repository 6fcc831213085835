import Shepherd.Data.Tree
import Shepherd.Text.Quoted

/-!
# Printing JSON

A tree as JSON over several lines: each item and each entry on a line of its own, indented by two
spaces for every list and table around it.
-/

namespace Shepherd.Data.Json
open Text

/-- How a character is written in a string. -/
def escape (c : Char) : List Char :=
  match c with
  | '"' => ['\\', '"']
  | '\\' => ['\\', '\\']
  | '\x08' => ['\\', 'b']
  | '\x0c' => ['\\', 'f']
  | '\n' => ['\\', 'n']
  | '\r' => ['\\', 'r']
  | '\t' => ['\\', 't']
  | c =>
    if c.toNat < 0x20 then
      ['\\', 'u', '0', '0', hexDigit (c.toNat / 16), hexDigit (c.toNat % 16)]
    else [c]

/-- A string with its quotes. -/
def literal (s : String) : String := String.ofList ('"' :: s.toList.flatMap escape ++ ['"'])

/-- A new line inside `level` lists and tables. -/
def newLine (level : Nat) : String := "\n" ++ String.ofList (List.replicate (2 * level) ' ')

mutual

/-- A tree inside `level` lists and tables. What JSON cannot write is written as null. -/
def pretty (level : Nat) : Tree → String
  | .null | .real | .moment | .invalid => "null"
  | .bool b => if b then "true" else "false"
  | .integer n => toString n
  | .text s => literal s
  | .list [] => "[]"
  | .list (item :: rest) =>
    "[" ++ newLine (level + 1) ++ pretty (level + 1) item ++ prettyItems (level + 1) rest ++
      newLine level ++ "]"
  | .table [] => "\x7b\x7d"
  | .table ((key, item) :: rest) =>
    "\x7b" ++ newLine (level + 1) ++ literal key ++ ": " ++ pretty (level + 1) item ++
      prettyEntries (level + 1) rest ++ newLine level ++ "\x7d"

/-- The items after the first. -/
def prettyItems (level : Nat) : List Tree → String
  | [] => ""
  | item :: rest => "," ++ newLine level ++ pretty level item ++ prettyItems level rest

/-- The entries after the first. -/
def prettyEntries (level : Nat) : List (String × Tree) → String
  | [] => ""
  | (key, item) :: rest =>
    "," ++ newLine level ++ literal key ++ ": " ++ pretty level item ++ prettyEntries level rest

end

end Shepherd.Data.Json
