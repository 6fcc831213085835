import Shepherd.Data.Toml.Lexical
import Shepherd.Data.Toml.Scalar
import Shepherd.Data.Toml.Table

/-!
# Reading TOML

Version 1.0. Inline tables stay on one line and take no comma at their end; arrays may run over
lines, hold comments and end in a comma. A text is read line by line into the table that its last
header opened.
-/

namespace Shepherd.Data.Toml
open Text

mutual

/-- A value inside which `depth` more arrays and inline tables may nest; `fuel` bounds the number of
steps. -/
def value : Nat → Nat → Scan Tree
  | 0, _ => failure
  | fuel + 1, depth => do
    match ← Scan.peek with
    | some '"' | some '\'' => return .text (← string)
    | some '[' =>
      guard (0 < depth)
      Scan.char '['
      return .list (← elements fuel (depth - 1) [])
    | some '{' =>
      guard (0 < depth)
      Scan.char '{'
      skipBlank
      if (← Scan.attempt (Scan.char '}')).isSome then return .table []
      return .table (entriesToTrees (← pairs fuel (depth - 1) []))
    | some 't' => Scan.word "true" *> pure (.bool true)
    | some 'f' => Scan.word "false" *> pure (.bool false)
    | _ => numeric

/-- The items of an array behind those already read (last first), up to its closing bracket. -/
def elements : Nat → Nat → List Tree → Scan (List Tree)
  | 0, _, _ => failure
  | fuel + 1, depth, done => do
    skipLines (fuel + 1)
    if (← Scan.attempt (Scan.char ']')).isSome then return done.reverse
    let item ← value fuel depth
    skipLines (fuel + 1)
    if (← Scan.attempt (Scan.char ',')).isSome then elements fuel depth (item :: done)
    else
      Scan.char ']'
      return (item :: done).reverse

/-- The entries of an inline table after those already read, up to its closing brace. -/
def pairs : Nat → Nat → Entries → Scan Entries
  | 0, _, _ => failure
  | fuel + 1, depth, entries => do
    let path ← key
    Scan.char '='
    skipBlank
    let item ← value fuel depth
    skipBlank
    match entries.assign path item with
    | none => failure
    | some entries =>
      if (← Scan.attempt (Scan.char ',')).isSome then pairs fuel depth entries
      else
        Scan.char '}'
        return entries

end

/-- What one line says. -/
inductive Statement where
  | nothing
  | openTable (path : List String)
  | openRow (path : List String)
  | assign (path : List String) (value : Tree)

/-- Reads one line with its ending; an array or a long string may carry it over several. -/
def statement : Scan Statement := fun cs => (do
  skipBlank
  match ← Scan.peek with
  | none | some '#' | some '\n' | some '\r' =>
    lineEnd
    return .nothing
  | some '[' =>
    Scan.char '['
    if (← Scan.attempt (Scan.char '[')).isSome then
      let path ← key
      Scan.word "]]"
      lineEnd
      return .openRow path
    else
      let path ← key
      Scan.char ']'
      lineEnd
      return .openTable path
  | _ =>
    let path ← key
    Scan.char '='
    skipBlank
    let item ← value (2 * cs.length + 2) depthLimit
    lineEnd
    return .assign path item : Scan Statement) cs

/-- A text read in part: all tables, and the path of the one that was opened last. -/
structure Document where
  root : Entries
  current : List String

namespace Document

/-- Before the first line. -/
def empty : Document := ⟨[], []⟩

/-- Takes in what one line says. -/
def step (d : Document) : Statement → Option Document
  | .nothing => some d
  | .openTable path => (d.root.openTable path).map (⟨·, path⟩)
  | .openRow path => (d.root.openRow path).map (⟨·, path⟩)
  | .assign path item =>
    (d.root.descend .passed (fun _ inner => Entries.assign path item inner) d.current .opened).map
      (⟨·, d.current⟩)

end Document

/-- Reads line after line; `fuel` bounds their number. -/
def document : Nat → Document → Scan Document
  | 0, _ => failure
  | fuel + 1, d => do
    if (← Scan.peek).isNone then return d
    match d.step (← statement) with
    | none => failure
    | some d => document fuel d

/-- Reads a TOML text; a byte order mark in front of it is skipped. -/
def read? (text : String) : Option Tree :=
  let cs := match text.toList with
    | '\uFEFF' :: rest => rest
    | cs => cs
  (Scan.readAll? (document (cs.length + 1) .empty) cs).map fun d => .table (entriesToTrees d.root)

end Shepherd.Data.Toml
