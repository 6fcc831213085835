import Mathlib.Tactic.IntervalCases
import Shepherd.Proofs.Text.Utf8
import Shepherd.Sandbox.Memory

/-!
# Laws of the memory

What is written can be read back, and what lies apart from it is as it was. A memory holds octets at
an address if they all lie inside it; a text that it holds in UTF-8 is read through an extent, and
through the address of an extent that it holds too.
-/

namespace Shepherd.Sandbox
open Text

/-! ### Words -/

/-- A word is put together from its octets. -/
theorem wordOfBytes_octets (w : UInt32) :
    wordOfBytes w.toUInt8 (w >>> 8).toUInt8 (w >>> 16).toUInt8 (w >>> 24).toUInt8 = w := by
  apply UInt32.eq_of_toBitVec_eq
  ext i hi
  have hbits : (wordOfBytes w.toUInt8 (w >>> 8).toUInt8 (w >>> 16).toUInt8
      (w >>> 24).toUInt8).toBitVec[i] =
        (decide (i < 8) && w.toBitVec.getLsbD i ||
          !decide (i < 8) && (decide (i - 8 < 8) && w.toBitVec.getLsbD (8 + (i - 8))) ||
          !decide (i < 16) && (decide (i - 16 < 8) && w.toBitVec.getLsbD (16 + (i - 16))) ||
          !decide (i < 24) && (decide (i - 24 < 8) && w.toBitVec.getLsbD (24 + (i - 24)))) := by
    simp [wordOfBytes, -UInt32.toUInt32_toUInt8]
  -- every bit comes from one of the four octets
  rw [hbits]
  interval_cases i <;> simp

/-- The octets of an extent: pointer and length, each a word. -/
def Extent.bytes (e : Extent) : List UInt8 := wordBytes e.ptr ++ wordBytes e.len

/-- Ranges of addresses without a common one, or one of them empty. -/
def Apart (start len start' len' : Nat) : Prop :=
  len = 0 ∨ len' = 0 ∨ start + len ≤ start' ∨ start' + len' ≤ start

theorem Apart.symm {start len start' len' : Nat} (h : Apart start len start' len') :
    Apart start' len' start len := by
  unfold Apart at *
  omega

namespace Memory

/-! ### Holding octets -/

/-- Octets lie in the memory at an address. -/
def Holds (m : Memory) (start : Nat) (bytes : List UInt8) : Prop :=
  m.read start bytes.length = .ok bytes

variable {m m' : Memory} {start : Nat} {bytes : List UInt8}

theorem read_eq_ok_iff {len : Nat} :
    m.read start len = .ok bytes ↔
      start + len ≤ m.size ∧ bytes = (List.range len).map fun i => m.byte (start + i) := by
  unfold read
  split
  next h => simp [h, eq_comm]
  next h => simp [h]

/-- Octet by octet. -/
theorem holds_iff :
    m.Holds start bytes ↔
      start + bytes.length ≤ m.size ∧
        ∀ i (h : i < bytes.length), m.byte (start + i) = bytes[i] := by
  rw [Holds, read_eq_ok_iff]
  refine and_congr_right fun _ =>
    ⟨fun h i hi => ?_, fun h => List.ext_getElem ?_ fun i hi hi' => ?_⟩
  · have hget : bytes[i]? = some (m.byte (start + i)) := by
      rw [h, List.getElem?_map, List.getElem?_range hi, Option.map_some]
    exact (List.getElem_eq_iff hi).2 hget |>.symm
  · rw [List.length_map, List.length_range]
  · rw [List.getElem_map, List.getElem_range, h i hi]

/-! ### Writing -/

/-- A write succeeds exactly if it stays inside the memory. -/
theorem exists_write?_iff :
    (∃ m', m.write? start bytes = some m') ↔ start + bytes.length ≤ m.size := by
  unfold write?
  split
  next h => simp [h]
  next h => simp [h]

/-- A write changes octets and nothing else. -/
theorem write?_rest (h : m.write? start bytes = some m') : m' = { m with byte := m'.byte } := by
  unfold write? at h
  split at h
  · cases h; rfl
  · cases h

theorem byte_write? (h : m.write? start bytes = some m') (a : Nat) :
    m'.byte a = if start ≤ a then (bytes[a - start]?).getD (m.byte a) else m.byte a := by
  unfold write? at h
  split at h
  next =>
    cases h
    simp only [List.getElem?_toArray]
  next => cases h

/-- Only octets in the range of a write change. -/
theorem byte_write?_of_outside (h : m.write? start bytes = some m') {a : Nat}
    (ha : a < start ∨ start + bytes.length ≤ a) : m'.byte a = m.byte a := by
  rw [byte_write? h]
  split
  next hstart =>
    have hlen : bytes.length ≤ a - start := by omega
    rw [List.getElem?_eq_none hlen, Option.getD_none]
  next => rfl

/-- What was written is there. -/
theorem holds_of_write? (h : m.write? start bytes = some m') : m'.Holds start bytes := by
  refine holds_iff.2 ⟨?_, fun i hi => ?_⟩
  · rw [size_write? h]
    exact exists_write?_iff.1 ⟨m', h⟩
  · rw [byte_write? h, if_pos (Nat.le_add_right start i), Nat.add_sub_cancel_left,
      List.getElem?_eq_getElem hi, Option.getD_some]

/-- What lies apart from a write stays. -/
theorem Holds.write? {start' : Nat} {bytes' : List UInt8} (held : m.Holds start' bytes')
    (apart : Apart start' bytes'.length start bytes.length) (h : m.write? start bytes = some m') :
    m'.Holds start' bytes' := by
  obtain ⟨hsize, hbytes⟩ := holds_iff.1 held
  refine holds_iff.2 ⟨(size_write? h).symm ▸ hsize, fun i hi => ?_⟩
  rw [← hbytes i hi]
  refine byte_write?_of_outside h ?_
  unfold Apart at apart
  omega

/-! ### Reading texts -/

/-- A text that lies in the memory is read, but at a null pointer lies the empty text. -/
theorem readText_of_holds {e : Extent} {text : List Char}
    (held : m.Holds e.ptr.toNat (encodeUtf8 text))
    (hlen : e.len.toNat = (encodeUtf8 text).length) :
    m.readText e = .ok (if e.ptr = 0 then [] else text) := by
  unfold readText
  by_cases hptr : e.ptr = 0
  · rw [if_pos (.inl hptr), if_pos hptr]
  by_cases hempty : e.len = 0
  · have hzero : e.len.toNat = 0 := congrArg UInt32.toNat hempty
    have htext : text = [] :=
      encodeUtf8_eq_nil_iff.1 (List.length_eq_zero_iff.1 (hlen.symm.trans hzero))
    rw [if_pos (.inr hempty), if_neg hptr, htext]
  · rw [if_neg (not_or.2 ⟨hptr, hempty⟩), if_neg hptr, hlen, held, Except.map,
      decodeUtf8_encodeUtf8]

/-- An extent names a text: the empty one, or octets inside the memory. -/
def Readable (m : Memory) (e : Extent) : Prop :=
  e.ptr = 0 ∨ e.len = 0 ∨ e.ptr.toNat + e.len.toNat ≤ m.size

theorem exists_readText_iff {e : Extent} : (∃ text, m.readText e = .ok text) ↔ m.Readable e := by
  unfold readText Readable
  rw [← or_assoc]
  by_cases hnone : e.ptr = 0 ∨ e.len = 0
  · simp [hnone]
  · by_cases hrange : e.ptr.toNat + e.len.toNat ≤ m.size
    · simp [hnone, hrange, read, Except.map]
    · simp [hnone, hrange, read, Except.map]

/-- Through an address at which an extent lies, the extent is read. -/
theorem readPacked_of_holds {r : UInt32} (hr : r ≠ 0) {e : Extent}
    (held : m.Holds r.toNat e.bytes) : m.readPacked r = m.readText e := by
  have hread : m.read r.toNat 8 = .ok e.bytes := held
  rw [readPacked, if_neg hr, hread]
  simp only [Extent.bytes, wordBytes, List.cons_append, List.nil_append, wordOfBytes_octets]

end Memory

end Shepherd.Sandbox
