import Shepherd.Data.Json.Reader
import Shepherd.Data.Shape
import Shepherd.Sandbox.Memory

/-!
# Outcomes of scripts

What executing a script gives: an exit code and three texts. A guest answers with the text of a JSON
record that holds the exit code and where the texts lie. An answer is taken as a whole, with all
texts read, or else is handed back as it is, as output with exit code -1.
-/

namespace Shepherd.Host
open Data Sandbox

structure Outcome where
  exitCode : Int
  stdout : List Char
  stderr : List Char
  trace : List Char
  deriving DecidableEq

namespace Outcome

/-- Whether the script ended well: exit code zero, and nothing on the error stream. -/
def succeeded (o : Outcome) : Bool := o.exitCode == 0 && o.stderr.isEmpty

/-- An answer that is no record. -/
def raw (text : List Char) : Outcome := ⟨-1, text, [], []⟩

/-- No answer, for the given reason. -/
def failure (reason : List Char) : Outcome := ⟨-1, [], reason, []⟩

end Outcome

/-- What a guest says about an execution. -/
structure Record where
  exitCode : Int
  stdout : Extent
  stderr : Extent
  trace : Extent
  deriving DecidableEq

namespace Record

/-- An extent: a list of pointer and length. -/
def extent? : Tree → Option Extent
  | .list [ptr, len] => return ⟨← ptr.uint32?, ← len.uint32?⟩
  | _ => none

/-- A record from its tree. -/
def ofTree? (t : Tree) : Option Record := do
  match ← Shape.json.fields ["exitCode", "stdout", "stderr", "trace"] t with
  | [some exitCode, some stdout, some stderr, some trace] =>
    return ⟨← exitCode.int32?, ← extent? stdout, ← extent? stderr, ← extent? trace⟩
  | _ => none

/-- Reads the text of a record, which begins with a brace. -/
def ofText? (text : List Char) : Option Record :=
  if text.head? = some '{' then (Json.read? (String.ofList text)).bind ofTree? else none

/-- The outcome of a record, if all its texts can be read. -/
def outcome? (r : Record) (m : Memory) : Option Outcome :=
  match m.readText r.stdout, m.readText r.stderr, m.readText r.trace with
  | .ok stdout, .ok stderr, .ok trace => some ⟨r.exitCode, stdout, stderr, trace⟩
  | _, _, _ => none

end Record

/-- The outcome that an answer stands for. -/
def Outcome.ofAnswer (m : Memory) (text : List Char) : Outcome :=
  ((Record.ofText? text).bind (·.outcome? m)).getD (raw text)

end Shepherd.Host
