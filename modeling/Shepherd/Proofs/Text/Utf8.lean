import Mathlib.Tactic.IntervalCases
import Shepherd.Text.Utf8

/-!
# Decoding what was encoded

The decoder that never fails gives back every text from its octets. At a character boundary it reads
the octets of one character as that character and is at a boundary again, so it does so for all
characters of a text, one after the other.
-/

namespace Shepherd.Text

namespace Utf8Decoder

/-- The octet that carries the lowest six bits of `n`. -/
def tailOctet (n : Nat) : UInt8 := UInt8.ofNat (n % 64 + 0x80)

theorem toNat_tailOctet (n : Nat) : (tailOctet n).toNat = n % 64 + 0x80 :=
  UInt8.toNat_ofNat_of_lt' (show n % 64 + 0x80 < 256 by omega)

/-! ### First octets -/

theorem lead_ascii (done : List Char) {n : Nat} (h : n < 0x80) :
    lead done (UInt8.ofNat n) = ⟨Char.ofNat n :: done, none⟩ := by
  have hn : (UInt8.ofNat n).toNat = n :=
    UInt8.toNat_ofNat_of_lt' (show n < 256 by omega)
  rw [lead, if_pos (UInt8.lt_iff_toNat_lt.2 (by rw [hn]; exact h)), hn]

theorem lead_two (done : List Char) {n : Nat} (hlow : 2 ≤ n) (hhigh : n < 0x20) :
    lead done (UInt8.ofNat (n + 0xC0)) = ⟨done, some ⟨n, 1, 0x80, 0xBF⟩⟩ := by
  interval_cases n <;> rfl

/-- After `E0` overlong forms are kept out, after `ED` surrogates. -/
theorem lead_three (done : List Char) {n : Nat} (h : n < 0x10) :
    lead done (UInt8.ofNat (n + 0xE0)) =
      ⟨done, some ⟨n, 2, if n = 0 then 0xA0 else 0x80, if n = 0xD then 0x9F else 0xBF⟩⟩ := by
  interval_cases n <;> rfl

/-- After `F0` overlong forms are kept out, after `F4` what lies beyond the last character. -/
theorem lead_four (done : List Char) {n : Nat} (h : n < 5) :
    lead done (UInt8.ofNat (n + 0xF0)) =
      ⟨done, some ⟨n, 3, if n = 0 then 0x90 else 0x80, if n = 4 then 0x8F else 0xBF⟩⟩ := by
  interval_cases n <;> rfl

/-! ### Further octets -/

section
variable (done : List Char)

/-- An octet in its range, before the last one, adds its bits; any further octet may come next. -/
theorem feed_more {u : Unfinished} {n : Nat} (hmissing : 1 < u.missing)
    (hlow : u.low.toNat ≤ n % 64 + 0x80) (hhigh : n % 64 + 0x80 ≤ u.high.toNat) :
    feed ⟨done, some u⟩ (tailOctet n) =
      ⟨done, some ⟨64 * u.bits + n % 64, u.missing - 1, 0x80, 0xBF⟩⟩ := by
  have hrange : u.low ≤ tailOctet n ∧ tailOctet n ≤ u.high := by
    rw [UInt8.le_iff_toNat_le, UInt8.le_iff_toNat_le, toNat_tailOctet]
    exact ⟨hlow, hhigh⟩
  simp only [feed, if_pos hrange, if_neg (Nat.not_le.2 hmissing), toNat_tailOctet,
    Nat.add_sub_cancel]

/-- The last octet of a character completes it. -/
theorem feed_last (bits n : Nat) :
    feed ⟨done, some ⟨bits, 1, 0x80, 0xBF⟩⟩ (tailOctet n) =
      ⟨Char.ofNat (64 * bits + n % 64) :: done, none⟩ := by
  have hrange : 0x80 ≤ tailOctet n ∧ tailOctet n ≤ 0xBF := by
    rw [UInt8.le_iff_toNat_le, UInt8.le_iff_toNat_le, toNat_tailOctet]
    exact ⟨Nat.le_add_left 0x80 _, show n % 64 + 0x80 ≤ 0xBF by omega⟩
  simp only [feed, if_pos hrange, if_pos (Nat.le_refl 1), toNat_tailOctet, Nat.add_sub_cancel]

/-- The first two of three octets. -/
theorem feed_lead_three {n m : Nat} (hn : n < 0x10) (hzero : n = 0 → 0x20 ≤ m % 64)
    (hsurrogate : n = 0xD → m % 64 < 0x20) :
    feed (lead done (UInt8.ofNat (n + 0xE0))) (tailOctet m) =
      ⟨done, some ⟨64 * n + m % 64, 1, 0x80, 0xBF⟩⟩ := by
  rw [lead_three done hn]
  refine feed_more done (Nat.lt_succ_self 1) ?_ ?_
  · show (if n = 0 then 0xA0 else 0x80 : UInt8).toNat ≤ _
    split
    next h => exact Nat.add_le_add_right (hzero h) 0x80
    next => exact Nat.le_add_left 0x80 _
  · show _ ≤ (if n = 0xD then 0x9F else 0xBF : UInt8).toNat
    split
    next h => exact Nat.add_le_add_right (Nat.le_of_lt_succ (hsurrogate h)) 0x80
    next => exact show m % 64 + 0x80 ≤ 0xBF by omega

/-- The first two of four octets. -/
theorem feed_lead_four {n m : Nat} (hn : n < 5) (hzero : n = 0 → 0x10 ≤ m % 64)
    (hbeyond : n = 4 → m % 64 < 0x10) :
    feed (lead done (UInt8.ofNat (n + 0xF0))) (tailOctet m) =
      ⟨done, some ⟨64 * n + m % 64, 2, 0x80, 0xBF⟩⟩ := by
  rw [lead_four done hn]
  refine feed_more done (show 1 < 3 by decide) ?_ ?_
  · show (if n = 0 then 0x90 else 0x80 : UInt8).toNat ≤ _
    split
    next h => exact Nat.add_le_add_right (hzero h) 0x80
    next => exact Nat.le_add_left 0x80 _
  · show _ ≤ (if n = 4 then 0x8F else 0xBF : UInt8).toNat
    split
    next h => exact Nat.add_le_add_right (Nat.le_of_lt_succ (hbeyond h)) 0x80
    next => exact show m % 64 + 0x80 ≤ 0xBF by omega

/-- The third of four octets. -/
theorem feed_third (bits n : Nat) :
    feed ⟨done, some ⟨bits, 2, 0x80, 0xBF⟩⟩ (tailOctet n) =
      ⟨done, some ⟨64 * bits + n % 64, 1, 0x80, 0xBF⟩⟩ :=
  feed_more done (Nat.lt_succ_self 1) (Nat.le_add_left 0x80 _)
    (show n % 64 + 0x80 ≤ 0xBF by omega)

end

/-! ### Whole characters -/

/-- The octets of a character, by how many there are. -/
theorem utf8EncodeChar_eq (c : Char) :
    String.utf8EncodeChar c =
      if c.toNat ≤ 0x7F then [UInt8.ofNat c.toNat]
      else if c.toNat ≤ 0x7FF then
        [UInt8.ofNat (c.toNat / 64 % 0x20 + 0xC0), tailOctet c.toNat]
      else if c.toNat ≤ 0xFFFF then
        [UInt8.ofNat (c.toNat / 4096 % 0x10 + 0xE0), tailOctet (c.toNat / 64), tailOctet c.toNat]
      else
        [UInt8.ofNat (c.toNat / 262144 % 8 + 0xF0), tailOctet (c.toNat / 4096),
          tailOctet (c.toNat / 64), tailOctet c.toNat] := rfl

theorem feed_boundary (done : List Char) (b : UInt8) : feed ⟨done, none⟩ b = lead done b := rfl

/-- At a boundary the octets of a character are read as that character. -/
theorem foldl_feed_char (done : List Char) (c : Char) :
    (String.utf8EncodeChar c).foldl feed ⟨done, none⟩ = ⟨c :: done, none⟩ := by
  have hvalid : c.toNat < 0xD800 ∨ 0xDFFF < c.toNat ∧ c.toNat < 0x110000 := c.valid
  have hchar := Char.ofNat_toNat c
  rw [utf8EncodeChar_eq]
  generalize c.toNat = n at *
  split
  next hone =>
    rw [List.foldl_cons, List.foldl_nil, feed_boundary, lead_ascii done (by omega), hchar]
  next hone =>
  split
  next htwo =>
    have hbits : 64 * (n / 64 % 0x20) + n % 64 = n := by omega
    rw [List.foldl_cons, List.foldl_cons, List.foldl_nil, feed_boundary,
      lead_two done (by omega) (by omega), feed_last, hbits, hchar]
  next htwo =>
  split
  next hthree =>
    have hbits : 64 * (64 * (n / 4096 % 0x10) + n / 64 % 64) + n % 64 = n := by omega
    rw [List.foldl_cons, List.foldl_cons, List.foldl_cons, List.foldl_nil, feed_boundary,
      feed_lead_three done (by omega) (by omega) (by omega), feed_last, hbits, hchar]
  next hthree =>
    have hbits :
        64 * (64 * (64 * (n / 262144 % 8) + n / 4096 % 64) + n / 64 % 64) + n % 64 = n := by omega
    rw [List.foldl_cons, List.foldl_cons, List.foldl_cons, List.foldl_cons, List.foldl_nil,
      feed_boundary, feed_lead_four done (by omega) (by omega) (by omega), feed_third, feed_last,
      hbits, hchar]

/-- The octets of a text are read as that text. -/
theorem foldl_feed_encode (done : List Char) (cs : List Char) :
    (encodeUtf8 cs).foldl feed ⟨done, none⟩ = ⟨cs.reverse ++ done, none⟩ := by
  induction cs generalizing done with
  | nil => rfl
  | cons c cs ih =>
    have hcons : encodeUtf8 (c :: cs) = String.utf8EncodeChar c ++ encodeUtf8 cs :=
      List.flatMap_cons
    rw [hcons, List.foldl_append, foldl_feed_char, ih, List.reverse_cons, List.append_assoc,
      List.singleton_append]

end Utf8Decoder

/-- Every text is decoded from its octets. -/
theorem decodeUtf8_encodeUtf8 (cs : List Char) : decodeUtf8 (encodeUtf8 cs) = cs := by
  rw [decodeUtf8, Utf8Decoder.start, Utf8Decoder.foldl_feed_encode, List.append_nil]
  exact List.reverse_reverse cs

/-- Texts with the same octets are the same. -/
theorem encodeUtf8_injective : Function.Injective encodeUtf8 :=
  Function.LeftInverse.injective decodeUtf8_encodeUtf8

/-- Only the empty text has no octets. -/
theorem encodeUtf8_eq_nil_iff {cs : List Char} : encodeUtf8 cs = [] ↔ cs = [] :=
  encodeUtf8_injective.eq_iff' encodeUtf8_nil

end Shepherd.Text
