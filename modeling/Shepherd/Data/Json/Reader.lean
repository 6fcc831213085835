import Shepherd.Data.Tree
import Shepherd.Data.Magnitude
import Shepherd.Text.Decimal
import Shepherd.Text.Scan

/-!
# Reading JSON

RFC 8259, strictly: one value with nothing but white space around it. A string with half of a
surrogate pair, a table with such a key and a number beyond every double are well formed and have no
value. `-0` and all numbers with a fraction or an exponent are reals.
-/

namespace Shepherd.Data.Json
open Text

/-- A part of a string: a character, or a UTF-16 unit that was written as `\uXXXX`. -/
inductive Piece where
  | char (c : Char)
  | unit (u : Nat)

/-- The character that one letter after a backslash stands for. -/
def shortEscape? : Char → Option Char
  | '"' => some '"'
  | '\\' => some '\\'
  | '/' => some '/'
  | 'b' => some '\x08'
  | 'f' => some '\x0c'
  | 'n' => some '\n'
  | 'r' => some '\r'
  | 't' => some '\t'
  | _ => none

/-- The pieces up to the closing quote, behind those already read (last first), and the text after
the quote. -/
def pieces (done : List Piece) : List Char → Option (List Piece × List Char)
  | '"' :: rest => some (done.reverse, rest)
  | '\\' :: 'u' :: a :: b :: c :: d :: rest =>
    if [a, b, c, d].all isHexDigit then pieces (.unit (hexValue [a, b, c, d]) :: done) rest
    else none
  | '\\' :: e :: rest =>
    match shortEscape? e with
    | some c => pieces (.char c :: done) rest
    | none => none
  | c :: rest => if c == '\\' || c.toNat < 0x20 then none else pieces (.char c :: done) rest
  | [] => none

/-- The text of a string; none where a surrogate has no partner right beside it. -/
def joinPieces (done : List Char) : List Piece → Option (List Char)
  | [] => some done.reverse
  | .char c :: rest => joinPieces (c :: done) rest
  | .unit high :: .unit low :: rest =>
    if 0xD800 ≤ high ∧ high < 0xDC00 then
      if 0xDC00 ≤ low ∧ low < 0xE000 then
        joinPieces (Char.ofNat (0x10000 + 0x400 * (high - 0xD800) + (low - 0xDC00)) :: done) rest
      else none
    else if 0xDC00 ≤ high ∧ high < 0xE000 then none
    else joinPieces (Char.ofNat high :: done) (.unit low :: rest)
  | .unit u :: rest =>
    if 0xD800 ≤ u ∧ u < 0xE000 then none else joinPieces (Char.ofNat u :: done) rest

/-- A string behind its opening quote; none inside where it stands for no text. -/
def string : Scan (Option String) := fun cs =>
  (pieces [] cs).map fun (ps, rest) => ((joinPieces [] ps).map String.ofList, rest)

/-- Skips white space. -/
def skipBlank : Scan Unit :=
  discard (Scan.span fun c => c == ' ' || c == '\t' || c == '\n' || c == '\r')

/-- An unsigned whole number without leading zeros. -/
def wholeDigits : Scan (List Char) := do
  let run ← Scan.span1 Char.isDigit
  guard (run.length = 1 ∨ run.head? ≠ some '0')
  return run

/-- The digits behind a decimal point. -/
def fraction : Scan (List Char) := Scan.char '.' *> Scan.span1 Char.isDigit

/-- The power of ten behind an `e`. -/
def exponent : Scan Int := do
  discard (Scan.satisfy fun c => c == 'e' || c == 'E')
  let sign ← Scan.attempt (Scan.satisfy fun c => c == '+' || c == '-')
  let run ← Scan.span1 Char.isDigit
  let n : Int := digitsValue run
  return if sign = some '-' then -n else n

/-- A number. -/
def number : Scan Tree := do
  let minus ← Scan.attempt (Scan.char '-')
  let whole ← wholeDigits
  let frac ← Scan.attempt fraction
  let power ← Scan.attempt exponent
  let n := digitsValue whole
  if frac.isNone && power.isNone && !(minus.isSome && n == 0) && n < UInt64.size then
    return .integer (if minus.isSome then -n else n)
  let digits := frac.getD []
  if exceedsDouble (digitsValue (whole ++ digits)) (power.getD 0 - digits.length) then
    return .invalid
  return .real

/-- The table with the given entries; a key without a value spoils it. -/
def tableOf (entries : List (Option String × Tree)) : Tree :=
  if entries.all (·.1.isSome) then .table (entries.map fun (k, v) => (k.getD "", v)) else .invalid

mutual

/-- A value; `fuel` bounds the number of steps. -/
def value : Nat → Scan Tree
  | 0 => failure
  | fuel + 1 => do
    match ← Scan.peek with
    | some '{' =>
      Scan.char '{'
      skipBlank
      if (← Scan.peek) = some '}' then
        Scan.char '}'
        return .table []
      return tableOf (← members fuel [])
    | some '[' =>
      Scan.char '['
      skipBlank
      if (← Scan.peek) = some ']' then
        Scan.char ']'
        return .list []
      return .list (← elements fuel [])
    | some '"' =>
      Scan.char '"'
      return match ← string with
        | some s => .text s
        | none => .invalid
    | some 't' => Scan.word "true" *> pure (.bool true)
    | some 'f' => Scan.word "false" *> pure (.bool false)
    | some 'n' => Scan.word "null" *> pure .null
    | _ => number

/-- The items of a list behind those already read, up to its closing bracket. -/
def elements : Nat → List Tree → Scan (List Tree)
  | 0, _ => failure
  | fuel + 1, done => do
    let item ← value fuel
    skipBlank
    if (← Scan.attempt (Scan.char ',')).isSome then
      skipBlank
      elements fuel (item :: done)
    else
      Scan.char ']'
      return (item :: done).reverse

/-- The entries of a table behind those already read, up to its closing brace. -/
def members : Nat → List (Option String × Tree) → Scan (List (Option String × Tree))
  | 0, _ => failure
  | fuel + 1, done => do
    Scan.char '"'
    let key ← string
    skipBlank
    Scan.char ':'
    skipBlank
    let item ← value fuel
    skipBlank
    if (← Scan.attempt (Scan.char ',')).isSome then
      skipBlank
      members fuel ((key, item) :: done)
    else
      Scan.char '}'
      return ((key, item) :: done).reverse

end

/-- Reads a JSON text. A step takes at least every second time a character, hence the fuel. -/
def read? (text : String) : Option Tree :=
  let cs := text.toList
  Scan.readAll? (skipBlank *> value (2 * cs.length + 2) <* skipBlank) cs

end Shepherd.Data.Json
