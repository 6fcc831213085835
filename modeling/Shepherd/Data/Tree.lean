/-!
# Data trees

What a JSON or a TOML text says once its notation is gone: nothing, truth values, numbers, texts,
lists and tables. A part can be written correctly and still stand for nothing (half of a surrogate
pair, a number beyond every double); it is kept as `invalid`, because a reader that skips it must
not fail on it.
-/

namespace Shepherd.Data

inductive Tree where
  | null
  | bool (b : Bool)
  | integer (n : Int)
  /-- A number with a fraction or an exponent, or one that is not finite. -/
  | real
  /-- A date, a time or both. -/
  | moment
  | text (s : String)
  | list (items : List Tree)
  | table (entries : List (String × Tree))
  /-- Written correctly, but without a value. -/
  | invalid

namespace Tree

mutual

/-- Whether every part has a value and no part lies deeper than `levels` lists and tables. -/
def fits : Nat → Tree → Bool
  | _, .invalid => false
  | 0, .list _ => false
  | 0, .table _ => false
  | levels + 1, .list items => itemsFit levels items
  | levels + 1, .table entries => entriesFit levels entries
  | _, _ => true

/-- `fits` for every item of a list. -/
def itemsFit : Nat → List Tree → Bool
  | _, [] => true
  | levels, item :: rest => fits levels item && itemsFit levels rest

/-- `fits` for every value of a table. -/
def entriesFit : Nat → List (String × Tree) → Bool
  | _, [] => true
  | levels, (_, value) :: rest => fits levels value && entriesFit levels rest

end

/-- The value of the first entry with a given key. -/
def get? (t : Tree) (key : String) : Option Tree :=
  match t with
  | .table entries => (entries.find? (·.1 == key)).map (·.2)
  | _ => none

end Tree

end Shepherd.Data
