import Shepherd.Data.Tree
import Shepherd.Data.Magnitude
import Shepherd.Text.Decimal
import Shepherd.Text.Scan

/-!
# Numbers and moments of TOML

What begins with a digit or a sign: a date, a time or both, a real number, or an integer. Moments
are checked against the calendar and the clock. Underscores may stand between two digits, and no
number has leading zeros. Integers fit 64 bits; a real beyond every double is refused if it is
positive.
-/

namespace Shepherd.Data.Toml
open Text

/-! ### Moments -/

/-- Two digits that write a number within a range. -/
def twoDigits (low high : Nat) : Scan Nat := do
  let n := digitsValue (← Scan.exactly 2 Char.isDigit)
  guard (low ≤ n ∧ n ≤ high)
  return n

/-- The number of days of a month. -/
def daysOfMonth (year month : Nat) : Nat :=
  if month = 2 then
    if year % 4 = 0 ∧ (year % 100 ≠ 0 ∨ year % 400 = 0) then 29 else 28
  else if month = 4 ∨ month = 6 ∨ month = 9 ∨ month = 11 then 30
  else 31

/-- A day of the calendar. -/
def date : Scan Unit := do
  let year := digitsValue (← Scan.exactly 4 Char.isDigit)
  Scan.char '-'
  let month ← twoDigits 1 12
  Scan.char '-'
  discard (twoDigits 1 (daysOfMonth year month))

/-- A time of day; the last minute may have a leap second. -/
def time : Scan Unit := do
  discard (twoDigits 0 23)
  Scan.char ':'
  discard (twoDigits 0 59)
  Scan.char ':'
  discard (twoDigits 0 60)
  discard (Scan.attempt (Scan.char '.' *> Scan.span1 Char.isDigit))

/-- The distance from universal time. -/
def offset : Scan Unit :=
  discard (Scan.satisfy fun c => c == 'Z' || c == 'z') <|> do
    discard (Scan.satisfy fun c => c == '+' || c == '-')
    discard (twoDigits 0 23)
    Scan.char ':'
    discard (twoDigits 0 59)

/-- A date, a time, or a date with a time and perhaps an offset. -/
def moment : Scan Tree :=
  (date *> discard (Scan.attempt do
    discard (Scan.satisfy fun c => c == 'T' || c == 't' || c == ' ')
    time
    discard (Scan.attempt offset)) <|> time) *> pure .moment

/-! ### Numbers -/

/-- Groups of digits behind the digits already read, parted by single underscores. -/
def digitGroups (isDigit : Char → Bool) : Nat → List Char → Scan (List Char)
  | 0, _ => failure
  | fuel + 1, done => do
    let run ← Scan.span1 isDigit
    if (← Scan.attempt (Scan.char '_')).isSome then digitGroups isDigit fuel (done ++ run)
    else return done ++ run

/-- Digits that may be parted by single underscores. -/
def parted (isDigit : Char → Bool) : Scan (List Char) := fun cs =>
  digitGroups isDigit (cs.length + 1) [] cs

/-- A sign, if there is one; whether it is a minus. -/
def sign : Scan Bool := do
  let s ← Scan.attempt (Scan.satisfy fun c => c == '+' || c == '-')
  return s == some '-'

/-- The digits of a decimal integer: a zero alone, or digits that do not begin with zero. -/
def wholeDigits : Scan (List Char) := do
  if (← Scan.peek) = some '0' then Scan.char '0' *> pure ['0'] else parted Char.isDigit

/-- The digits behind a decimal point. -/
def fraction : Scan (List Char) := Scan.char '.' *> parted Char.isDigit

/-- The power of ten behind an `e`. -/
def exponent : Scan Int := do
  discard (Scan.satisfy fun c => c == 'e' || c == 'E')
  let minus ← sign
  let n : Int := digitsValue (← parted Char.isDigit)
  return if minus then -n else n

/-- A real number written with a fraction, an exponent or both. -/
def real : Scan Tree := do
  let minus ← sign
  let whole ← wholeDigits
  let frac ← Scan.attempt fraction
  let power ← Scan.attempt exponent
  guard (frac.isSome || power.isSome)
  let digits := frac.getD []
  guard (minus || !exceedsDouble (digitsValue (whole ++ digits)) (power.getD 0 - digits.length))
  return .real

/-- Infinity or the number that is none. -/
def special : Scan Tree := do
  discard sign
  Scan.word "inf" <|> Scan.word "nan"
  return .real

/-- The digits of an integer to the base 16, 8 or 2 behind its mark. -/
def based (mark : String) (base : Nat) (isDigit : Char → Bool) : Scan Tree := do
  Scan.word mark
  let digits ← parted isDigit
  let n := digits.foldl (fun n c => base * n + hexDigitValue c) 0
  guard (fitsInt64 n)
  return .integer n

/-- An integer. -/
def integer : Scan Tree :=
  based "0x" 16 isHexDigit <|> based "0o" 8 (fun c => '0' ≤ c && c ≤ '7') <|>
    based "0b" 2 (fun c => c == '0' || c == '1') <|> do
      let minus ← sign
      let magnitude : Int := digitsValue (← wholeDigits)
      let n := if minus then -magnitude else magnitude
      guard (fitsInt64 n)
      return .integer n

/-- What begins with a digit or a sign. -/
def numeric : Scan Tree := moment <|> real <|> special <|> integer

end Shepherd.Data.Toml
