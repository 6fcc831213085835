import Shepherd.Grid.Trace
import Shepherd.Script.Marker
import Shepherd.Text.Lines
import Shepherd.Text.Quoted

/-!
# Decoding output

The marker lines of a run, taken in order, make up its trace; a run that stopped early has a shorter
one. The first malformed line, or second call count of one action, ends decoding with an error. The
lines without the session's marks are what the script printed itself.
-/

namespace Shepherd.Script
open Grid Text

/-- A line that breaks the rules of the markers. -/
structure ProtocolError where
  line : String
  fault : Fault
  deriving DecidableEq

/-- The fault in words. -/
def Fault.reason : Fault → String
  | .unterminated => "unterminated action marker"
  | .unknownAction verb => "unknown action " ++ quoted verb
  | .malformedCount => "malformed call count"
  | .duplicateCount => "duplicate call-count trailer"
  | .malformedCodeSize => "malformed code-size marker"

/-- The fault and the line in words. -/
def ProtocolError.message (e : ProtocolError) : String :=
  "protocol error: " ++ e.fault.reason ++ ": " ++ quoted e.line

/-- What is wrong with the name of a session. -/
def InvalidSession.message (e : InvalidSession) : String := "invalid session id: " ++ quoted e.text

/-- Takes a marker into a trace. -/
def record (t : Trace) : Marker → Except Fault Trace
  | .action verb => .ok (t.pushAction verb)
  | .calls verb count =>
    match t.recordCalls? verb count with
    | some t => .ok t
    | none => .error .duplicateCount
  | .codeSize chars => .ok (t.setSize chars)

namespace Session

/-- Takes a line into a trace. -/
def absorb (s : Session) (t : Trace) (line : List Char) : Except ProtocolError Trace :=
  match s.read line with
  | .printed => .ok t
  | .malformed fault => .error ⟨String.ofList line, fault⟩
  | .marker m => (record t m).mapError fun fault => ⟨String.ofList line, fault⟩

/-- Takes lines into a trace, in order. -/
def absorbAll (s : Session) (t : Trace) (ls : List (List Char)) : Except ProtocolError Trace :=
  ls.foldlM s.absorb t

/-- The trace that an output reports. -/
def decode (s : Session) (output : List Char) : Except ProtocolError Trace :=
  s.absorbAll .empty (lines output)

/-- The lines that the script printed itself. -/
def programOutput (s : Session) (output : List Char) : List (List Char) :=
  (lines output).filter (!s.tags ·)

theorem absorbAll_nil (s : Session) (t : Trace) : s.absorbAll t [] = .ok t := rfl

theorem absorbAll_cons (s : Session) (t : Trace) (line : List Char) (ls : List (List Char)) :
    s.absorbAll t (line :: ls) = (s.absorb t line).bind (s.absorbAll · ls) := rfl

end Session

end Shepherd.Script
