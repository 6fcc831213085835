/-!
# UTF-8

Encoding of characters as octets, and a decoder that never fails: each longest start of a character
that is not completed, and each octet that can start none, becomes one replacement character.
The decoder is one left fold over the octets. It holds the characters read so far and, inside a
character, the range that the next octet must fall into (the narrow ranges after `E0`, `ED`, `F0`
and `F4` keep out overlong forms, surrogates and values beyond `10FFFF`).
-/

namespace Shepherd.Text

/-- The octets of a text. -/
def encodeUtf8 (cs : List Char) : List UInt8 := cs.flatMap String.utf8EncodeChar

/-- Stands for octets that encode nothing. -/
def replacement : Char := '\uFFFD'

/-- A character of which some octets are still to come: the bits so far, how many octets are
missing, and the range of the next one. -/
structure Unfinished where
  bits : Nat
  missing : Nat
  low : UInt8
  high : UInt8
  deriving DecidableEq

/-- A decoder in the middle of its input; `done` holds the last character first. -/
structure Utf8Decoder where
  done : List Char
  unfinished : Option Unfinished
  deriving DecidableEq

namespace Utf8Decoder

/-- Before the first octet. -/
def start : Utf8Decoder := ⟨[], none⟩

/-- Reads an octet at a character boundary. -/
def lead (done : List Char) (b : UInt8) : Utf8Decoder :=
  if b < 0x80 then ⟨Char.ofNat b.toNat :: done, none⟩
  else if 0xC2 ≤ b ∧ b ≤ 0xDF then ⟨done, some ⟨b.toNat - 0xC0, 1, 0x80, 0xBF⟩⟩
  else if b = 0xE0 then ⟨done, some ⟨0, 2, 0xA0, 0xBF⟩⟩
  else if b = 0xED then ⟨done, some ⟨0xD, 2, 0x80, 0x9F⟩⟩
  else if 0xE1 ≤ b ∧ b ≤ 0xEF then ⟨done, some ⟨b.toNat - 0xE0, 2, 0x80, 0xBF⟩⟩
  else if b = 0xF0 then ⟨done, some ⟨0, 3, 0x90, 0xBF⟩⟩
  else if b = 0xF4 then ⟨done, some ⟨4, 3, 0x80, 0x8F⟩⟩
  else if 0xF1 ≤ b ∧ b ≤ 0xF3 then ⟨done, some ⟨b.toNat - 0xF0, 3, 0x80, 0xBF⟩⟩
  else ⟨replacement :: done, none⟩

/-- Reads one octet. -/
def feed (d : Utf8Decoder) (b : UInt8) : Utf8Decoder :=
  match d.unfinished with
  | none => lead d.done b
  | some u =>
    if u.low ≤ b ∧ b ≤ u.high then
      let bits := 64 * u.bits + (b.toNat - 0x80)
      if u.missing ≤ 1 then ⟨Char.ofNat bits :: d.done, none⟩
      else ⟨d.done, some ⟨bits, u.missing - 1, 0x80, 0xBF⟩⟩
    else lead (replacement :: d.done) b

/-- The text read, when the octets have ended. -/
def finish (d : Utf8Decoder) : List Char :=
  match d.unfinished with
  | none => d.done.reverse
  | some _ => (replacement :: d.done).reverse

end Utf8Decoder

/-- Decodes octets, with a replacement character for every part that is not UTF-8. -/
def decodeUtf8 (bytes : List UInt8) : List Char :=
  (bytes.foldl Utf8Decoder.feed Utf8Decoder.start).finish

/-- Decodes octets if all of them are UTF-8, that is, if encoding the text gives them back. -/
def decodeUtf8? (bytes : List UInt8) : Option (List Char) :=
  let cs := decodeUtf8 bytes
  if encodeUtf8 cs = bytes then some cs else none

theorem encodeUtf8_nil : encodeUtf8 [] = [] := rfl

end Shepherd.Text
