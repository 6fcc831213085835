/-!
# Decimal numbers

Reading runs of ASCII digits, alone or behind a single sign, within a range. No blank, separator or
other digit is accepted.
-/

namespace Shepherd.Text

/-- The value of one ASCII digit. -/
def digitValue (c : Char) : Nat := c.toNat - '0'.toNat

/-- The number that a run of digits writes, leading zeros included. -/
def digitsValue (cs : List Char) : Nat := cs.foldl (fun n c => 10 * n + digitValue c) 0

/-- Reads a non-empty run of ASCII digits. -/
def readNat? (cs : List Char) : Option Nat :=
  if cs ≠ [] ∧ cs.all Char.isDigit then some (digitsValue cs) else none

/-- Reads a run of ASCII digits whose value fits an unsigned word of 32 bits. -/
def readUInt32? (cs : List Char) : Option UInt32 :=
  (readNat? cs).bind fun n => if n < UInt32.size then some (UInt32.ofNat n) else none

/-- Reads a run of ASCII digits behind at most one sign. -/
def readInt? : List Char → Option Int
  | '-' :: cs => (readNat? cs).map fun n => -(n : Int)
  | '+' :: cs => (readNat? cs).map Int.ofNat
  | cs => (readNat? cs).map Int.ofNat

/-- Whether a number fits a signed word of 32 bits. -/
def fitsInt32 (n : Int) : Bool := Int32.minValue.toInt ≤ n && n ≤ Int32.maxValue.toInt

/-- Whether a number fits a signed word of 64 bits. -/
def fitsInt64 (n : Int) : Bool := Int64.minValue.toInt ≤ n && n ≤ Int64.maxValue.toInt

/-- Reads a signed number that fits a word of 32 bits. -/
def readInt32? (cs : List Char) : Option Int :=
  (readInt? cs).filter fitsInt32

/-- Reads an unsigned number of at most 64 bits; a plus sign may stand before it. -/
def readUInt64? : List Char → Option Nat
  | '+' :: cs => (readNat? cs).filter (· < UInt64.size)
  | cs => (readNat? cs).filter (· < UInt64.size)

theorem fitsInt32_iff {n : Int} : fitsInt32 n = true ↔ -0x80000000 ≤ n ∧ n < 0x80000000 := by
  have hmin : Int32.minValue.toInt = -0x80000000 := rfl
  have hmax : Int32.maxValue.toInt = 0x80000000 - 1 := rfl
  rw [fitsInt32, Bool.and_eq_true, decide_eq_true_iff, decide_eq_true_iff, hmin, hmax,
    Int.le_sub_one_iff]

/-- What reads as a number is a non-empty run of digits. -/
theorem readNat?_eq_some_iff {cs : List Char} {n : Nat} :
    readNat? cs = some n ↔ cs ≠ [] ∧ cs.all Char.isDigit ∧ digitsValue cs = n := by
  unfold readNat?
  split
  · simp_all
  · next h => simp only [reduceCtorEq, false_iff, not_and]; exact fun h₁ h₂ => absurd ⟨h₁, h₂⟩ h

/-- The digits of a number read as that number. -/
theorem readNat?_repr (n : Nat) : readNat? (Nat.repr n).toList = some n := by
  rw [Nat.toList_repr, readNat?_eq_some_iff]
  refine ⟨Nat.toDigits_ne_nil, ?_, Nat.ofDigitChars_ten_toDigits⟩
  exact List.all_eq_true.2 fun c hc => Nat.isDigit_of_mem_toDigits (by decide) (by decide) hc

/-- The digits of a number that fits read as the word. -/
theorem readUInt32?_repr {n : Nat} (h : n < UInt32.size) :
    readUInt32? (Nat.repr n).toList = some (UInt32.ofNat n) := by
  rw [readUInt32?, readNat?_repr, Option.bind_some, if_pos h]

end Shepherd.Text
