import Mathlib.Data.Nat.Digits.Defs
import Mathlib.Tactic.SplitIfs
import Shepherd.Proofs.Sandbox.Memory

/-!
# Packed texts

What a host gets for any address that a guest hands out. At the address there should be a pointer
and a length, and at the pointer as many octets of text. All three numbers are the guest's own, so
that nothing about them can be relied on. Reading fails where one of the two ranges ends behind the
memory, never looks outside of it, and depends on no octet apart from those of the two ranges.
-/

namespace Shepherd.Sandbox
open Text

/-! ### Words as numbers -/

/-- The number that octets spell, the lowest first. -/
def spelled (bytes : List UInt8) : Nat := Nat.ofDigits 256 (bytes.map (·.toNat))

/-- An octet that is put above the used bits of a word adds to it. -/
theorem toNat_or_octet {w k : UInt32} (hk : k.toNat ≤ 24) (hw : w.toNat < 2 ^ k.toNat)
    (b : UInt8) : (w ||| b.toUInt32 <<< k).toNat = w.toNat + 2 ^ k.toNat * b.toNat := by
  have hb : b.toNat < 2 ^ 8 := b.toNat_lt
  have hfits : 2 ^ k.toNat * b.toNat < 2 ^ 32 := calc
    2 ^ k.toNat * b.toNat ≤ 2 ^ 24 * b.toNat :=
      Nat.mul_le_mul_right _ (Nat.pow_le_pow_right (by decide) hk)
    _ < 2 ^ 32 := by omega
  have hshift : (b.toUInt32 <<< k).toNat = 2 ^ k.toNat * b.toNat := by
    have hbits : k.toNat % 32 = k.toNat := Nat.mod_eq_of_lt (by omega)
    rw [UInt32.toNat_shiftLeft, UInt8.toNat_toUInt32, hbits, Nat.shiftLeft_eq, Nat.mul_comm,
      Nat.mod_eq_of_lt hfits]
  rw [UInt32.toNat_or, hshift, Nat.or_comm, ← Nat.two_pow_add_eq_or_of_lt hw, Nat.add_comm]

theorem toNat_wordOfBytes (a b c d : UInt8) :
    (wordOfBytes a b c d).toNat = spelled [a, b, c, d] := by
  have ha := a.toNat_lt
  have hb := b.toNat_lt
  have hc := c.toNat_lt
  have htwo : (a.toUInt32 ||| b.toUInt32 <<< 8).toNat = a.toNat + 256 * b.toNat :=
    toNat_or_octet (w := a.toUInt32) (k := 8) (by decide) ha b
  have hthree : (a.toUInt32 ||| b.toUInt32 <<< 8 ||| c.toUInt32 <<< 16).toNat =
      a.toNat + 256 * b.toNat + 65536 * c.toNat := by
    rw [← htwo]
    refine toNat_or_octet (by decide) ?_ c
    show _ < 65536
    omega
  have hfour : (wordOfBytes a b c d).toNat =
      a.toNat + 256 * b.toNat + 65536 * c.toNat + 16777216 * d.toNat := by
    rw [← hthree]
    refine toNat_or_octet (by decide) ?_ d
    show _ < 16777216
    omega
  rw [hfour]
  simp only [spelled, List.map_cons, List.map_nil, Nat.ofDigits_cons, Nat.ofDigits_nil]
  omega

/-- Where a signed word points: below zero lies the upper half of all addresses. -/
def addressOf (w : Int32) : Nat := (w.toInt % 4294967296).toNat

theorem toNat_toUInt32 (w : Int32) : w.toUInt32.toNat = addressOf w := by
  have hsigned : w.toInt = (w.toUInt32.toNat : Int).bmod 4294967296 :=
    BitVec.toInt_eq_toNat_bmod w.toBitVec
  have hmod : (w.toUInt32.toNat : Int).bmod 4294967296 % (4294967296 : Nat) =
    w.toUInt32.toNat % (4294967296 : Nat) := Int.bmod_emod
  have hlt := w.toUInt32.toNat_lt
  unfold addressOf
  omega

namespace Memory
variable {m m' : Memory} {r start len : Nat}

/-! ### Octets and extents -/

/-- The octets from an address on, as many as asked for. -/
def octets (m : Memory) (start len : Nat) : List UInt8 :=
  (List.range len).map fun i => m.byte (start + i)

/-- The pointer that lies at an address. -/
def pointerAt (m : Memory) (r : Nat) : Nat := spelled (m.octets r 4)

/-- The length that lies behind the pointer at an address. -/
def lengthAt (m : Memory) (r : Nat) : Nat := spelled (m.octets (r + 4) 4)

/-- The extent that lies at an address. -/
def extentAt (m : Memory) (r : Nat) : Extent where
  ptr := wordOfBytes (m.byte r) (m.byte (r + 1)) (m.byte (r + 2)) (m.byte (r + 3))
  len := wordOfBytes (m.byte (r + 4)) (m.byte (r + 5)) (m.byte (r + 6)) (m.byte (r + 7))

theorem toNat_ptr_extentAt : (m.extentAt r).ptr.toNat = m.pointerAt r := toNat_wordOfBytes ..

theorem toNat_len_extentAt : (m.extentAt r).len.toNat = m.lengthAt r := toNat_wordOfBytes ..

theorem read_of_fits (h : start + len ≤ m.size) : m.read start len = .ok (m.octets start len) :=
  if_pos h

theorem read_of_overrun (h : m.size < start + len) :
    m.read start len = .error (.outOfRange start (start + len)) :=
  if_neg (Nat.not_le.2 h)

/-- Memories that have the same octets in a range. -/
theorem octets_congr (h : ∀ a, start ≤ a → a < start + len → m'.byte a = m.byte a) :
    m'.octets start len = m.octets start len := by
  refine List.map_congr_left fun i hi => h _ (Nat.le_add_right ..) ?_
  exact Nat.add_lt_add_left (List.mem_range.1 hi) start

/-! ### Reading -/

/-- A range that is needed to read a packed text ends behind the memory. -/
def Overrun (m : Memory) (r : Nat) : Prop :=
  r ≠ 0 ∧ (m.size < r + 8 ∨
    m.pointerAt r ≠ 0 ∧ m.lengthAt r ≠ 0 ∧ m.size < m.pointerAt r + m.lengthAt r)

instance : Decidable (m.Overrun r) := inferInstanceAs (Decidable (_ ∧ _))

/-- The first range that ends behind the memory, if one does: the extent or the text. -/
def overrunError (m : Memory) (r : Nat) : MemoryError :=
  if m.size < r + 8 then .outOfRange r (r + 8)
  else .outOfRange (m.pointerAt r) (m.pointerAt r + m.lengthAt r)

/-- The packed text at an address, if it can be read. -/
def textAt (m : Memory) (r : Nat) : List Char :=
  if r = 0 ∨ m.pointerAt r = 0 ∨ m.lengthAt r = 0 then []
  else decodeUtf8 (m.octets (m.pointerAt r) (m.lengthAt r))

/-- The addresses of an extent and of the octets that it names. -/
def Involved (m : Memory) (r a : Nat) : Prop :=
  (r ≤ a ∧ a < r + 8) ∨ m.pointerAt r ≤ a ∧ a < m.pointerAt r + m.lengthAt r

/-- The text of an extent, by the numbers that are its pointer and its length. -/
theorem readText_eq (m : Memory) (e : Extent) :
    m.readText e =
      if e.ptr.toNat = 0 ∨ e.len.toNat = 0 then .ok []
      else if m.size < e.ptr.toNat + e.len.toNat then
        .error (.outOfRange e.ptr.toNat (e.ptr.toNat + e.len.toNat))
      else .ok (decodeUtf8 (m.octets e.ptr.toNat e.len.toNat)) := by
  have hzero (w : UInt32) : w = 0 ↔ w.toNat = 0 := UInt32.toNat_inj.symm
  simp only [readText, hzero]
  split_ifs with hnone hover
  · rfl
  · rw [read_of_overrun hover, Except.map]
  · rw [read_of_fits (Nat.not_lt.1 hover), Except.map]

/-- The extent at an address is read first, then what it names. -/
theorem readPacked_eq_readText (m : Memory) (address : UInt32) :
    m.readPacked address =
      if address.toNat = 0 then .ok []
      else if m.size < address.toNat + 8 then
        .error (.outOfRange address.toNat (address.toNat + 8))
      else m.readText (m.extentAt address.toNat) := by
  have hzero : address = 0 ↔ address.toNat = 0 := UInt32.toNat_inj.symm
  simp only [readPacked, hzero]
  split_ifs with hnull hover
  · rfl
  · rw [read_of_overrun hover]
  · rw [read_of_fits (Nat.not_lt.1 hover)]
    rfl

/-- Reading fails where a range ends behind the memory, and gives the text everywhere else. -/
theorem readPacked_eq (m : Memory) (address : UInt32) :
    m.readPacked address =
      if m.Overrun address.toNat then .error (m.overrunError address.toNat)
      else .ok (m.textAt address.toNat) := by
  rw [readPacked_eq_readText, readText_eq, toNat_ptr_extentAt, toNat_len_extentAt]
  unfold Overrun overrunError textAt
  by_cases hnull : address.toNat = 0
  · simp [hnull]
  by_cases hextent : m.size < address.toNat + 8
  · simp [hnull, hextent]
  by_cases hnone : m.pointerAt address.toNat = 0 ∨ m.lengthAt address.toNat = 0
  · have hnamed : ¬ (m.pointerAt address.toNat ≠ 0 ∧ m.lengthAt address.toNat ≠ 0 ∧
        m.size < m.pointerAt address.toNat + m.lengthAt address.toNat) := by omega
    simp [hnull, hextent, hnone, hnamed]
  · rw [not_or] at hnone
    simp [hnull, hextent, hnone]

/-- Octets that are not involved do not matter, and neither do those behind the memory. -/
theorem readPacked_congr {address : UInt32} (hsize : m'.size = m.size)
    (hsame : ∀ a < m.size, m.Involved address.toNat a → m'.byte a = m.byte a) :
    m'.readPacked address = m.readPacked address := by
  rw [readPacked_eq_readText, readPacked_eq_readText, hsize]
  split_ifs with hnull hextent
  · rfl
  · rfl
  · have hptr : m'.pointerAt address.toNat = m.pointerAt address.toNat :=
      congrArg spelled <| octets_congr fun a _ _ => hsame a (by omega) (.inl (by omega))
    have hlen : m'.lengthAt address.toNat = m.lengthAt address.toNat :=
      congrArg spelled <| octets_congr fun a _ _ => hsame a (by omega) (.inl (by omega))
    simp only [readText_eq, toNat_ptr_extentAt, toNat_len_extentAt, hptr, hlen, hsize]
    split_ifs with hnone hover
    · rfl
    · rfl
    · have htext : m'.octets (m.pointerAt address.toNat) (m.lengthAt address.toNat) =
          m.octets (m.pointerAt address.toNat) (m.lengthAt address.toNat) :=
        octets_congr fun a hstart hstop => hsame a (by omega) (.inr ⟨hstart, hstop⟩)
      rw [htext]

/-- **Packed texts are read exactly, and inside the memory.** Whatever signed word a guest returns,
reading at the address that it stands for fails exactly if one of the two ranges ends behind the
memory, and gives the text otherwise. It depends on no octet outside of these ranges, and on none
outside of the memory. -/
theorem readPacked_exact (m : Memory) (packed : Int32) :
    (∀ e, m.readPacked packed.toUInt32 = .error e ↔
      m.Overrun (addressOf packed) ∧ e = m.overrunError (addressOf packed)) ∧
    (∀ text, m.readPacked packed.toUInt32 = .ok text ↔
      ¬ m.Overrun (addressOf packed) ∧ text = m.textAt (addressOf packed)) ∧
    ∀ m' : Memory, m'.size = m.size →
      (∀ a < m.size, m.Involved (addressOf packed) a → m'.byte a = m.byte a) →
      m'.readPacked packed.toUInt32 = m.readPacked packed.toUInt32 := by
  rw [← toNat_toUInt32]
  refine ⟨fun e => ?_, fun text => ?_, fun m' => readPacked_congr⟩
  · rw [readPacked_eq]
    split_ifs with hover <;> simp [hover, eq_comm]
  · rw [readPacked_eq]
    split_ifs with hover <;> simp [hover, eq_comm]

/-- A memory of all four gigabytes. Its last extent names three octets at address 40, and the one at
address 16 two octets at the last address. -/
def fourGigabytes : Memory where
  pages := 65536
  maxPages := 65536
  byte a := ([(4294967288, 40), (4294967292, 3), (16, 255), (17, 255), (18, 255), (19, 255), (20, 2),
    (40, 0xC3), (41, 0xA9), (42, 0xFF)].lookup a).getD 0

/-- The last extent is read at `-8`, whatever is at address zero. At `-4` an extent does not fit,
and the two octets at the last address do not fit either, although `4294967295 + 2` wraps to one. -/
theorem readPacked_exact_last_extent :
    fourGigabytes.readPacked (-8 : Int32).toUInt32 = .ok "é\uFFFD".toList ∧
    readPacked ⟨65536, 65536, fun a => if a = 0 then 1 else fourGigabytes.byte a⟩
      (-8 : Int32).toUInt32 = .ok "é\uFFFD".toList ∧
    fourGigabytes.readPacked (-4 : Int32).toUInt32 =
      .error (.outOfRange 4294967292 4294967300) ∧
    fourGigabytes.readPacked (16 : Int32).toUInt32 =
      .error (.outOfRange 4294967295 4294967297) := by
  obtain ⟨-, reads, others⟩ := fourGigabytes.readPacked_exact (-8)
  have htext : fourGigabytes.readPacked (-8 : Int32).toUInt32 = .ok "é\uFFFD".toList :=
    (reads _).2 ⟨by decide +kernel, by decide +kernel⟩
  have haddress : addressOf (-8) = 4294967288 := by decide +kernel
  have hptr : fourGigabytes.pointerAt (addressOf (-8)) = 40 := by decide +kernel
  have hsame : ∀ a < fourGigabytes.size, fourGigabytes.Involved (addressOf (-8)) a →
      (if a = 0 then 1 else fourGigabytes.byte a) = fourGigabytes.byte a := by
    intro a _ hinvolved
    rw [Involved, hptr, haddress] at hinvolved
    exact if_neg (by omega)
  have hother := others ⟨65536, 65536, fun a => if a = 0 then 1 else fourGigabytes.byte a⟩ rfl hsame
  refine ⟨htext, hother.trans htext, ?_, ?_⟩
  · exact ((fourGigabytes.readPacked_exact (-4)).1 _).2 ⟨by decide +kernel, by decide +kernel⟩
  · exact ((fourGigabytes.readPacked_exact 16).1 _).2 ⟨by decide +kernel, by decide +kernel⟩

end Memory

end Shepherd.Sandbox
