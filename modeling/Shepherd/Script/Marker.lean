import Shepherd.Grid.Action
import Shepherd.Script.Session
import Shepherd.Text.Decimal
import Shepherd.Text.Split

/-!
# Marker lines

The lines by which an instrumented script reports on itself: one for each executed action, one call
count for each action function, and the size of the script. Markers are written in one way only.
A line that begins like a marker of the session and goes on differently is malformed; every other
line is the script's own.
-/

namespace Shepherd.Script
open Grid Text

inductive Marker where
  | action (verb : Action)
  | calls (verb : Action) (count : UInt32)
  | codeSize (chars : UInt32)
  deriving DecidableEq

/-- What closes every marker. -/
def markerEnd : List Char := ['_', '_']

/-- What parts the action from its call count. -/
def callsMark : List Char := "__calls__".toList

/-- The digits of a word. -/
def decimalDigits (n : UInt32) : List Char := (Nat.repr n.toNat).toList

/-- The line of a marker. -/
def Marker.line (s : Session) : Marker → List Char
  | .action verb => s.actionStart ++ verb.name.toList ++ markerEnd
  | .calls verb count =>
    s.actionStart ++ verb.name.toList ++ callsMark ++ decimalDigits count ++ markerEnd
  | .codeSize chars => s.codeSizeStart ++ decimalDigits chars ++ markerEnd

/-- What is wrong with a line that begins like a marker. -/
inductive Fault where
  | unterminated
  | unknownAction (verb : String)
  | malformedCount
  | duplicateCount
  | malformedCodeSize
  deriving DecidableEq

/-- What a line of output is to a session. -/
inductive Reading where
  | printed
  | marker (m : Marker)
  | malformed (fault : Fault)
  deriving DecidableEq

/-- Reads a call count behind its action. -/
def readCalls (verb count : List Char) : Reading :=
  match Action.ofName? (String.ofList verb) with
  | none => .malformed (.unknownAction (String.ofList verb))
  | some a =>
    match readUInt32? count with
    | none => .malformed .malformedCount
    | some n => .marker (.calls a n)

/-- Reads what stands behind the start of an action marker. -/
def readAction (body : List Char) : Reading :=
  match markerEnd.isSuffixOf? body with
  | none => .malformed .unterminated
  | some body =>
    match splitOnce? callsMark body with
    | some (verb, count) => readCalls verb count
    | none =>
      match Action.ofName? (String.ofList body) with
      | none => .malformed (.unknownAction (String.ofList body))
      | some a => .marker (.action a)

/-- Reads what stands behind the start of a code size. -/
def readCodeSize (body : List Char) : Reading :=
  match (markerEnd.isSuffixOf? body).bind readUInt32? with
  | none => .malformed .malformedCodeSize
  | some n => .marker (.codeSize n)

/-- Reads a line. -/
def Session.read (s : Session) (line : List Char) : Reading :=
  match s.actionStart.isPrefixOf? line with
  | some body => readAction body
  | none =>
    match s.codeSizeStart.isPrefixOf? line with
    | some body => readCodeSize body
    | none => .printed

/-- Whether a line begins like a marker. -/
def Session.tags (s : Session) (line : List Char) : Bool :=
  s.actionStart.isPrefixOf line || s.codeSizeStart.isPrefixOf line

end Shepherd.Script
