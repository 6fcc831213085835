import Mathlib.Data.List.Basic
import Shepherd.Text.Blank
import Shepherd.Text.Decimal

/-!
# Whole numbers as text

A whole number is read off a run of ASCII digits behind at most one sign, leading zeros included,
and off nothing else. It is written without a plus sign and without leading zeros, which is one of
the forms that are read.
-/

namespace Shepherd.Text

/-- A non-empty run of ASCII digits. -/
structure Digits (cs : List Char) : Prop where
  nonempty : cs ≠ []
  allDigits : ∀ c ∈ cs, c.isDigit = true

/-- A run of digits behind at most one sign, and the number that it writes. -/
inductive SignedNumeral : List Char → Int → Prop
  | plain {digits : List Char} (h : Digits digits) : SignedNumeral digits (digitsValue digits)
  | plus {digits : List Char} (h : Digits digits) : SignedNumeral ('+' :: digits) (digitsValue digits)
  | minus {digits : List Char} (h : Digits digits) :
    SignedNumeral ('-' :: digits) (-(digitsValue digits : Int))

variable {cs digits : List Char} {n : Int}

theorem Digits.exists_eq_cons (h : Digits cs) : ∃ c rest, cs = c :: rest ∧ c.isDigit = true := by
  obtain ⟨c, rest, rfl⟩ := List.exists_cons_of_ne_nil h.nonempty
  exact ⟨c, rest, rfl, h.allDigits c List.mem_cons_self⟩

/-! ### Reading -/

theorem readNat?_eq_some_iff_digits {m : Nat} :
    readNat? cs = some m ↔ Digits cs ∧ digitsValue cs = m := by
  rw [readNat?_eq_some_iff, List.all_eq_true]
  exact ⟨fun ⟨hne, hall, hvalue⟩ => ⟨⟨hne, hall⟩, hvalue⟩,
    fun ⟨⟨hne, hall⟩, hvalue⟩ => ⟨hne, hall, hvalue⟩⟩

theorem map_readNat?_eq_some_iff {f : Nat → Int} :
    (readNat? cs).map f = some n ↔ Digits cs ∧ f (digitsValue cs) = n := by
  simp only [Option.map_eq_some_iff, readNat?_eq_some_iff_digits]
  exact ⟨fun ⟨_, ⟨hdigits, hvalue⟩, hn⟩ => ⟨hdigits, hvalue ▸ hn⟩,
    fun ⟨hdigits, hn⟩ => ⟨_, ⟨hdigits, rfl⟩, hn⟩⟩

theorem readInt?_minus (cs : List Char) :
    readInt? ('-' :: cs) = (readNat? cs).map fun m : Nat => -(m : Int) := by
  rw [readInt?]
  cases readNat? cs <;> rfl

theorem readInt?_unsigned {c : Char} (hminus : c ≠ '-') (hplus : c ≠ '+') (cs : List Char) :
    readInt? (c :: cs) = (readNat? (c :: cs)).map Int.ofNat :=
  readInt?.eq_3 _ (fun _ hcons => hminus (List.cons.inj hcons).1)
    fun _ hcons => hplus (List.cons.inj hcons).1

theorem readInt?_eq_some_iff : readInt? cs = some n ↔ SignedNumeral cs n := by
  constructor
  · intro h
    cases cs with
    | nil => cases h
    | cons c digits =>
      by_cases hminus : c = '-'
      · rw [hminus, readInt?_minus] at h
        obtain ⟨hdigits, rfl⟩ := map_readNat?_eq_some_iff.1 h
        exact hminus ▸ .minus hdigits
      · by_cases hplus : c = '+'
        · rw [hplus, readInt?] at h
          obtain ⟨hdigits, rfl⟩ := map_readNat?_eq_some_iff.1 h
          exact hplus ▸ .plus hdigits
        · rw [readInt?_unsigned hminus hplus] at h
          obtain ⟨hdigits, rfl⟩ := map_readNat?_eq_some_iff.1 h
          exact .plain hdigits
  · rintro (h | h | h)
    · obtain ⟨c, rest, rfl, hdigit⟩ := h.exists_eq_cons
      -- a digit is no sign
      have hminus : c ≠ '-' := fun heq => by rw [heq] at hdigit; cases hdigit
      have hplus : c ≠ '+' := fun heq => by rw [heq] at hdigit; cases hdigit
      rw [readInt?_unsigned hminus hplus]
      exact map_readNat?_eq_some_iff.2 ⟨h, rfl⟩
    · rw [readInt?]
      exact map_readNat?_eq_some_iff.2 ⟨h, rfl⟩
    · rw [readInt?_minus]
      exact map_readNat?_eq_some_iff.2 ⟨h, rfl⟩

theorem readInt32?_eq_some_iff : readInt32? cs = some n ↔
    SignedNumeral cs n ∧ -0x80000000 ≤ n ∧ n < 0x80000000 := by
  rw [readInt32?, Option.filter_eq_some_iff, readInt?_eq_some_iff, fitsInt32_iff]

/-! ### Writing -/

theorem digits_repr (n : Nat) : Digits (Nat.repr n).toList ∧ digitsValue (Nat.repr n).toList = n :=
  readNat?_eq_some_iff_digits.1 (readNat?_repr n)

/-- A number is written as the digits of its absolute value, behind a minus sign if it is below
zero. -/
theorem toList_toString_int (n : Int) :
    (toString n).toList =
      if n < 0 then '-' :: (Nat.repr n.natAbs).toList else (Nat.repr n.natAbs).toList := by
  cases n with
  | ofNat m => rfl
  | negSucc m =>
    rw [if_pos (Int.negSucc_lt_zero m), Int.natAbs_negSucc, ← List.singleton_append]
    exact String.toList_append

/-- What a number is written with reads as that number. -/
theorem signedNumeral_toString (n : Int) : SignedNumeral (toString n).toList n := by
  obtain ⟨hdigits, hvalue⟩ := digits_repr n.natAbs
  rw [toList_toString_int]
  split
  · have hnumeral := SignedNumeral.minus hdigits
    rwa [hvalue, Int.ofNat_natAbs_of_nonpos (by omega), Int.neg_neg] at hnumeral
  · have hnumeral := SignedNumeral.plain hdigits
    rwa [hvalue, Int.natAbs_of_nonneg (by omega)] at hnumeral

/-! ### The characters of a number -/

theorem exists_toString_eq_cons (n : Int) :
    ∃ c rest, (toString n).toList = c :: rest ∧ (c = '-' ∨ c.isDigit = true) := by
  rw [toList_toString_int]
  split
  · exact ⟨_, _, rfl, .inl rfl⟩
  · obtain ⟨c, rest, hcons, hdigit⟩ := (digits_repr n.natAbs).1.exists_eq_cons
    exact ⟨c, rest, hcons, .inr hdigit⟩

theorem isBlank_of_isDigit {c : Char} (h : c.isDigit = true) : isBlank c = false := by
  rw [Char.isDigit, Bool.and_eq_true, decide_eq_true_iff, decide_eq_true_iff] at h
  have hlow : 48 ≤ c.toNat := h.1
  have hhigh : c.toNat ≤ 57 := h.2
  simp only [isBlank, Bool.or_eq_false_iff, Bool.and_eq_false_iff, decide_eq_false_iff_not,
    beq_eq_false_iff_ne]
  omega

/-- A number is written without blanks and commas. -/
theorem SignedNumeral.visible (h : SignedNumeral cs n) : ∀ c ∈ cs, isBlank c = false ∧ c ≠ ',' := by
  have hdigits {digits : List Char} (h : Digits digits) :
      ∀ c ∈ digits, isBlank c = false ∧ c ≠ ',' := by
    intro c hc
    have hdigit := h.allDigits c hc
    refine ⟨isBlank_of_isDigit hdigit, ?_⟩
    rintro rfl
    cases hdigit
  cases h with
  | plain h => exact hdigits h
  | plus h => exact List.forall_mem_cons.2 ⟨by decide, hdigits h⟩
  | minus h => exact List.forall_mem_cons.2 ⟨by decide, hdigits h⟩

end Shepherd.Text
