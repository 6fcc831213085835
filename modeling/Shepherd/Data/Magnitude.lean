/-!
# The range of doubles

A decimal number rounds to a finite double exactly when its absolute value stays below
`2 ^ 1024 - 2 ^ 970`, the middle between the largest double and the next power of two.
-/

namespace Shepherd.Data

/-- The least absolute value that rounds to infinity. -/
def doubleLimit : Nat := Nat.pow 2 1024 - Nat.pow 2 970

/-- Whether `digits * 10 ^ exponent` rounds to infinity. Powers are only computed where the number
of digits leaves the answer open. -/
def exceedsDouble (digits : Nat) (exponent : Int) : Bool :=
  let reach : Int := (Nat.toDigits 10 digits).length + exponent
  if digits = 0 ∨ reach < 309 then false
  else if 309 < reach then true
  else if 0 ≤ exponent then doubleLimit ≤ digits * Nat.pow 10 exponent.toNat
  else doubleLimit * Nat.pow 10 (-exponent).toNat ≤ digits

end Shepherd.Data
