import Shepherd.Host.Instance
import Shepherd.Proofs.Sandbox.Memory

/-!
# Handing texts to a guest

A text is copied to where the guest's allocator says, if it fits there, and nothing else of the
guest changes. From there the host reads exactly the same text, whichever characters it has, and so
it does through the address of an extent that names the place. Only the null pointer is never a
place: it stands for the empty text, whatever was copied there.
-/

namespace Shepherd.Host
open Sandbox Text

variable {γ : Type}

/-- A text was copied to `ptr` by an instance whose allocator had given this pointer. -/
structure Copied (before after : Instance γ) (ptr : UInt32) (text : List Char) (e : Extent) :
    Prop where
  pointer : e.ptr = ptr
  length : e.len.toNat = (encodeUtf8 text).length
  /-- Nothing but octets of the memory changed. -/
  rest : ∃ byte, after = { before with
    image := { before.image with memory := { before.image.memory with byte := byte } } }
  /-- Among them only those that the text takes up. -/
  outside : ∀ a, a < ptr.toNat ∨ ptr.toNat + (encodeUtf8 text).length ≤ a →
    after.image.memory.byte a = before.image.memory.byte a
  /-- The text is read from there, unless something was copied to nowhere. -/
  readText : after.image.memory.readText e = .ok text ↔ ptr ≠ 0 ∨ text = []
  /-- It is read through any address at which its extent lies. -/
  packed : ptr ≠ 0 ∨ text = [] → ∀ r : UInt32, r ≠ 0 →
    after.image.memory.Holds r.toNat e.bytes → after.image.memory.readPacked r = .ok text
  /-- The extent may have been there before, where the text does not go. -/
  packedBefore : ptr ≠ 0 ∨ text = [] → ∀ r : UInt32, r ≠ 0 →
    Apart r.toNat 8 ptr.toNat (encodeUtf8 text).length →
    before.image.memory.Holds r.toNat e.bytes → after.image.memory.readPacked r = .ok text
  /-- It may also be put there later. -/
  packedLater : ptr ≠ 0 ∨ text = [] → ∀ r : UInt32, r ≠ 0 →
    Apart r.toNat 8 ptr.toNat (encodeUtf8 text).length →
    ∀ m, after.image.memory.write? r.toNat e.bytes = some m → m.readPacked r = .ok text

namespace Instance
variable {i before : Instance γ} {text : List Char} {ptr : UInt32}

/-- Where the allocator gave a pointer, the octets of the text are written there. -/
theorem writeText_of_allocated (short : (encodeUtf8 text).length < 0x80000000)
    (allocated : i.enter (i.exports.malloc (UInt32.ofNat (encodeUtf8 text).length)) =
      (.ok ptr, before)) :
    i.writeText text = match before.image.memory.write? ptr.toNat (encodeUtf8 text) with
      | none => (.error .badPointer, before)
      | some m => (.ok ⟨ptr, UInt32.ofNat (encodeUtf8 text).length⟩,
          { before with image := { before.image with memory := m } }) := by
  have fits : fitsInt32 (encodeUtf8 text).length = true := fitsInt32_iff.2 (by omega)
  cases hwrite : before.image.memory.write? ptr.toNat (encodeUtf8 text) <;>
    simp only [writeText, fits, Bool.not_true, Bool.false_eq_true, if_false, allocated, hwrite]

/-- A text that was written in the memory is copied, whatever characters it has. -/
theorem copied_of_write? (short : (encodeUtf8 text).length < 0x80000000) {m : Memory}
    (hwrite : before.image.memory.write? ptr.toNat (encodeUtf8 text) = some m) :
    Copied before { before with image := { before.image with memory := m } } ptr text
      ⟨ptr, UInt32.ofNat (encodeUtf8 text).length⟩ := by
  have hlen : (UInt32.ofNat (encodeUtf8 text).length).toNat = (encodeUtf8 text).length :=
    UInt32.toNat_ofNat_of_lt' (Nat.lt_trans short (by decide))
  have hheld : m.Holds ptr.toNat (encodeUtf8 text) := Memory.holds_of_write? hwrite
  -- a memory that holds both the text and its extent is read through the extent
  have hread : ptr ≠ 0 ∨ text = [] → ∀ r : UInt32, r ≠ 0 → ∀ m : Memory,
      m.Holds ptr.toNat (encodeUtf8 text) →
      m.Holds r.toNat (Extent.bytes ⟨ptr, UInt32.ofNat (encodeUtf8 text).length⟩) →
      m.readPacked r = .ok text := by
    intro hptr r hr m htext hextent
    rw [Memory.readPacked_of_holds hr hextent, Memory.readText_of_holds htext hlen]
    obtain hptr | rfl := hptr
    · rw [if_neg hptr]
    · rw [ite_self]
  exact {
    pointer := rfl
    length := hlen
    rest := ⟨m.byte, by rw [← Memory.write?_rest hwrite]⟩
    outside := fun a ha => Memory.byte_write?_of_outside hwrite ha
    readText := by
      show m.readText _ = .ok text ↔ _
      rw [Memory.readText_of_holds hheld hlen, Except.ok.injEq]
      by_cases hptr : ptr = 0
      · simp [hptr, eq_comm]
      · simp [hptr]
    packed := fun hptr r hr hextent => hread hptr r hr m hheld hextent
    packedBefore := fun hptr r hr hapart hextent =>
      hread hptr r hr m hheld (hextent.write? hapart hwrite)
    packedLater := fun hptr r hr hapart m' hlater =>
      hread hptr r hr m' (hheld.write? hapart.symm hlater) (Memory.holds_of_write? hlater) }

/-- **Texts come back as they are.** A text of fewer than `2 ^ 31` octets, for which the allocator
gave a pointer, is copied exactly if it fits there, and what is read back is the text. Where it does
not fit, nothing is written. -/
theorem writeText_round_trip (short : (encodeUtf8 text).length < 0x80000000)
    (allocated : i.enter (i.exports.malloc (UInt32.ofNat (encodeUtf8 text).length)) =
      (.ok ptr, before)) :
    ((∃ e after, i.writeText text = (.ok e, after)) ↔
      ptr.toNat + (encodeUtf8 text).length ≤ before.image.memory.size) ∧
    (∀ e after, i.writeText text = (.ok e, after) → Copied before after ptr text e) ∧
    (before.image.memory.size < ptr.toNat + (encodeUtf8 text).length →
      i.writeText text = (.error .badPointer, before)) := by
  have hwrites : (∃ m, before.image.memory.write? ptr.toNat (encodeUtf8 text) = some m) ↔
      ptr.toNat + (encodeUtf8 text).length ≤ before.image.memory.size := Memory.exists_write?_iff
  rw [writeText_of_allocated short allocated, ← Nat.not_le, ← hwrites]
  cases hwrite : before.image.memory.write? ptr.toNat (encodeUtf8 text) with
  | none => exact ⟨by simp, by simp, fun _ => rfl⟩
  | some m =>
    refine ⟨by simp, fun e after h => ?_, fun hnone => absurd ⟨m, rfl⟩ hnone⟩
    cases h
    exact copied_of_write? short hwrite

/-- Characters of one, two and four octets fill a memory to its last octet. -/
theorem writeText_round_trip_last_octet : ∃ i after : Instance Unit, ∃ e,
    (encodeUtf8 "né🐑".toList).length < 0x80000000 ∧ i.image.memory.size = 65529 + 7 ∧
      i.writeText "né🐑".toList = (.ok e, after) ∧ Copied i after 65529 "né🐑".toList e := by
  let nothing (image : Image Unit) : Run Unit := .done (.ok 0) image
  let i : Instance Unit := ⟨⟨fun _ image => .done (.ok 65529) image, fun _ => nothing,
    fun _ => nothing, fun _ => nothing⟩, ⟨.zeros 1 64, ()⟩, .fresh .default⟩
  have short : (encodeUtf8 "né🐑".toList).length < 0x80000000 := by decide +kernel
  obtain ⟨fits, copied, -⟩ := i.writeText_round_trip short rfl
  obtain ⟨e, after, hwrite⟩ := fits.2 (by decide +kernel)
  exact ⟨i, after, e, short, rfl, hwrite, copied e after hwrite⟩

end Instance

end Shepherd.Host
