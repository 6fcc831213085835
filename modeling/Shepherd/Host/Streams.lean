import Shepherd.Sandbox.Guest
import Shepherd.Host.Config
import Shepherd.Text.Lines
import Shepherd.Text.Utf8

/-!
# What guests say

The host keeps the last lines that a guest sent to its console, at least one, and the first octets
of each of its two output streams. A call of the host may look into the guest's memory only where
the guest shows it: otherwise a line is dropped, and any other call fails.
-/

namespace Shepherd.Host
open Sandbox Text

/-- An output stream with room for `capacity` octets. -/
structure Stream where
  capacity : Nat
  bytes : List UInt8

namespace Stream

/-- Takes octets as far as there is room. -/
def push (s : Stream) (bytes : List UInt8) : Stream :=
  { s with bytes := s.bytes ++ bytes.take (s.capacity - s.bytes.length) }

/-- Whether there is room for all of some octets. -/
def hasRoom (s : Stream) (bytes : List UInt8) : Bool :=
  bytes.isEmpty || s.bytes.length + bytes.length ≤ s.capacity

/-- What was written, as text. -/
def text (s : Stream) : List Char := decodeUtf8 s.bytes

end Stream

/-- The host's side of one instance of a guest. -/
structure Listener where
  consoleLimit : Nat
  /-- The console lines that are kept, oldest first. -/
  console : List (List Char)
  stdout : Stream
  stderr : Stream

namespace Listener

/-- Before the guest said anything. -/
def fresh (c : Config) : Listener where
  consoleLimit := max c.consoleLines 1
  console := []
  stdout := ⟨c.outputCapacity, []⟩
  stderr := ⟨c.outputCapacity, []⟩

/-- Keeps one more console line; a full console loses its oldest. -/
def addLine (l : Listener) (line : List Char) : Listener :=
  { l with
    console :=
      (if l.console.length = l.consoleLimit then l.console.drop 1 else l.console) ++ [line] }

/-- Forgets all console lines. -/
def clearConsole (l : Listener) : Listener := { l with console := [] }

/-- The last visible line that the guest said: on its error stream behind the first `mark` octets,
or else on its console. -/
def lastWords? (l : Listener) (mark : Nat) : Option (List Char) :=
  (lastVisibleLine? (decodeUtf8 (l.stderr.bytes.drop mark))).or
    (l.console.reverse.findSome? lastVisibleLine?)

/-- Takes a console line from memory, unless it is out of reach. -/
def hear (l : Listener) (m : Memory) (line : Extent) : Listener :=
  match m.readText line with
  | .ok text => l.addLine text
  | .error _ => l

/-- Takes octets that were written to a file, and tells whether all of them were taken. There are
two files: 1 is the output stream and 2 the error stream. -/
def take (l : Listener) (file : UInt32) (bytes : List UInt8) : Listener × Bool :=
  if file = 1 then ({ l with stdout := l.stdout.push bytes }, l.stdout.hasRoom bytes)
  else if file = 2 then ({ l with stderr := l.stderr.push bytes }, l.stderr.hasRoom bytes)
  else (l, false)

/-- Whether a file is one of the two streams. -/
def isOpen (file : UInt32) : Bool := file = 1 || file = 2

end Listener

/-- Answers the calls of a run to its end: its result, what the guest remembers, what it said. -/
def answer (shown : Bool) : Run γ → Listener → Except Failure UInt32 × Image γ × Listener
  | .done result after, l => (result.mapError Failure.trap, after, l)
  | .exit code after, l => (.error (if shown then .exit code else .hiddenMemory), after, l)
  | .log line now next, l => answer shown next (if shown then l.hear now.memory line else l)
  | .write file text now next, l =>
    if !shown then (.error .hiddenMemory, now, l)
    else if !Listener.isOpen file then answer shown (next false) l
    else if text.len = 0 then answer shown (next true) l
    else match now.memory.read text.ptr.toNat text.len.toNat with
      | .error _ => (.error (.badBuffer text), now, l)
      | .ok bytes => answer shown (next (l.take file bytes).2) (l.take file bytes).1

end Shepherd.Host
