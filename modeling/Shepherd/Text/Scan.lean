/-!
# Scanning

A scan reads the front of a text: it fails, or gives a value and the text that is left. An
alternative starts again where the first attempt started.
-/

namespace Shepherd.Text

/-- A reader of the front of a text. -/
abbrev Scan := StateT (List Char) Option

namespace Scan

/-- The next character, left in place. -/
def peek : Scan (Option Char) := fun cs => some (cs.head?, cs)

/-- Takes the next character if it passes a test. -/
def satisfy (p : Char → Bool) : Scan Char
  | c :: cs => if p c then some (c, cs) else none
  | [] => none

/-- Takes one given character. -/
def char (c : Char) : Scan Unit := discard (satisfy (· == c))

/-- Takes a given text. -/
def word (w : String) : Scan Unit := fun cs => (w.toList.isPrefixOf? cs).map fun rest => ((), rest)

/-- Takes the longest run of characters that pass a test. -/
def span (p : Char → Bool) : Scan (List Char) := fun cs => some (cs.takeWhile p, cs.dropWhile p)

/-- Takes the longest run of characters that pass a test, at least one. -/
def span1 (p : Char → Bool) : Scan (List Char) := do
  let run ← span p
  guard (run ≠ [])
  return run

/-- Takes exactly `n` characters that pass a test. -/
def exactly (n : Nat) (p : Char → Bool) : Scan (List Char) := fun cs =>
  let run := cs.take n
  if run.length = n ∧ run.all p then some (run, cs.drop n) else none

/-- Tries a scan; where it fails, nothing is taken. -/
def attempt (s : Scan α) : Scan (Option α) := fun cs =>
  match s cs with
  | some (a, rest) => some (some a, rest)
  | none => some (none, cs)

/-- Succeeds where no text is left. -/
def finish : Scan Unit := fun cs => if cs.isEmpty then some ((), []) else none

/-- Reads a whole text. -/
def readAll? (s : Scan α) (text : List Char) : Option α :=
  ((s <* finish) text).map (·.1)

end Scan

/-- Whether a character is a hexadecimal digit. -/
def isHexDigit (c : Char) : Bool :=
  c.isDigit || ('a' ≤ c && c ≤ 'f') || ('A' ≤ c && c ≤ 'F')

/-- The value of a hexadecimal digit. -/
def hexDigitValue (c : Char) : Nat :=
  if c.isDigit then c.toNat - '0'.toNat
  else if 'a' ≤ c then c.toNat - 'a'.toNat + 10
  else c.toNat - 'A'.toNat + 10

/-- The number that a run of hexadecimal digits writes. -/
def hexValue (cs : List Char) : Nat := cs.foldl (fun n c => 16 * n + hexDigitValue c) 0

end Shepherd.Text
