import Shepherd.Grid.Board.Edit
import Shepherd.Grid.Level.Reader
import Shepherd.Text.Utf8

/-!
# Level files

A board from the octets of a TOML file. The file may be missing, its octets may not be UTF-8, its
text may not be a level, and the level may not fit its board.
-/

namespace Shepherd.Grid
open Text

/-- Why there is no board. -/
inductive LoadError where
  | missing
  | notText
  | notLevel
  | badBoard (e : BoardError)
  deriving DecidableEq

/-- The reason in words. -/
def LoadError.message : LoadError → String
  | .missing => "IO error: No such file or directory (os error 2)"
  | .notText => "IO error: stream did not contain valid UTF-8"
  | .notLevel => "board config error"
  | .badBoard e => e.message

/-- The text of a file's octets. -/
def fileText (file : Option (List UInt8)) : Except LoadError String :=
  match file with
  | none => .error .missing
  | some bytes =>
    match decodeUtf8? bytes with
    | none => .error .notText
    | some cs => .ok (String.ofList cs)

/-- The board of a level file. -/
def Board.load (file : Option (List UInt8)) : Except LoadError Board := do
  match Level.ofToml? (← fileText file) with
  | none => throw .notLevel
  | some level => (Board.ofLevel level).mapError .badBoard

end Shepherd.Grid
