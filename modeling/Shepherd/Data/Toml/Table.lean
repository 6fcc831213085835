import Shepherd.Data.Tree

/-!
# Tables under construction

A TOML table may be spread over headers and dotted keys, but each table is opened once. While a text
is read, every table remembers how it came to be: by a header of its own, as a step on the way to
another header, or as a step of a dotted key. Finished values are closed for good.
-/

namespace Shepherd.Data.Toml

/-- How a table came to be. -/
inductive Origin where
  /-- By a header of its own, as the whole text, or as an inline table. -/
  | opened
  /-- On the way to the header of a table inside it. -/
  | passed
  /-- On the way of a dotted key. -/
  | dotted
  deriving DecidableEq

inductive Node where
  | value (t : Tree)
  | table (origin : Origin) (entries : List (String × Node))
  /-- Tables opened by double-bracket headers, the latest last. -/
  | rows (rows : List (List (String × Node)))

/-- The entries of a table. -/
abbrev Entries := List (String × Node)

namespace Entries

/-- The value of a key. -/
def get? (entries : Entries) (key : String) : Option Node :=
  (entries.find? (·.1 == key)).map (·.2)

/-- Gives a key a value, in its old place if it has one. -/
def put (entries : Entries) (key : String) (node : Node) : Entries :=
  if entries.any (·.1 == key) then
    entries.map fun e => if e.1 == key then (key, node) else e
  else entries ++ [(key, node)]

/-- Changes the table at the end of a path, by a function of its origin and entries. Tables that are
missing on the way are made with origin `made`; of rows, the last one is entered. A dotted key
enters no table that was opened. -/
def descend (made : Origin) (change : Origin → Entries → Option Entries) :
    List String → Origin → Entries → Option Entries
  | [], origin, entries => change origin entries
  | key :: path, _, entries =>
    match entries.get? key with
    | none =>
      (descend made change path made []).map fun inner => entries.put key (.table made inner)
    | some (.value _) => none
    | some (.table origin inner) =>
      if made = .dotted ∧ origin = .opened then none
      else
        (descend made change path origin inner).map fun inner =>
          entries.put key (.table origin inner)
    | some (.rows rows) =>
      match rows.getLast? with
      | none => none
      | some last =>
        (descend made change path .opened last).map fun inner =>
          entries.put key (.rows (rows.dropLast ++ [inner]))

/-- Gives a new key a value. -/
def insertNew (key : String) (node : Node) (entries : Entries) : Option Entries :=
  if (entries.get? key).isSome then none else some (entries.put key node)

/-- Gives a dotted key a value. The table it ends in was made by dotted keys, or is the one that the
key was written in. -/
def assign (path : List String) (value : Tree) (entries : Entries) : Option Entries :=
  descend .dotted
    (fun origin inner =>
      if path.length > 1 ∧ origin ≠ .dotted then none
      else insertNew (path.getLastD "") (.value value) inner)
    path.dropLast .opened entries

/-- Opens a table by its header; only a table that was merely passed may exist already. -/
def openTable (path : List String) (entries : Entries) : Option Entries :=
  let key := path.getLastD ""
  descend .passed
    (fun _ inner =>
      match get? inner key with
      | none => some (put inner key (.table .opened []))
      | some (.table .passed rows) => some (put inner key (.table .opened rows))
      | _ => none)
    path.dropLast .opened entries

/-- Opens a further table of a row of tables. -/
def openRow (path : List String) (entries : Entries) : Option Entries :=
  let key := path.getLastD ""
  descend .passed
    (fun _ inner =>
      match get? inner key with
      | none => some (put inner key (.rows [[]]))
      | some (.rows rows) => some (put inner key (.rows (rows ++ [[]])))
      | _ => none)
    path.dropLast .opened entries

end Entries

mutual

/-- The tree that a node stands for. -/
def Node.toTree : Node → Tree
  | .value t => t
  | .table _ entries => .table (entriesToTrees entries)
  | .rows rows => .list (rowsToTrees rows)

/-- The trees of the entries of a table. -/
def entriesToTrees : List (String × Node) → List (String × Tree)
  | [] => []
  | (key, node) :: rest => (key, node.toTree) :: entriesToTrees rest

/-- The trees of rows of tables. -/
def rowsToTrees : List (List (String × Node)) → List Tree
  | [] => []
  | row :: rest => .table (entriesToTrees row) :: rowsToTrees rest

end

end Shepherd.Data.Toml
