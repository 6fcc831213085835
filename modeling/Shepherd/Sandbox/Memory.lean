import Shepherd.Text.Utf8

/-!
# Guest memory

Linear memory that grows by pages of 65536 octets and starts out all zero. Reading and writing stay
inside the memory or fail; addresses are natural numbers, so the end of a range never wraps. Words
are little-endian. A text lies in memory as a pointer and a length; a packed text is the address of
such a pair. A null pointer, and a length of zero, is the empty text.
-/

namespace Shepherd.Sandbox
open Text

/-- The octets of a page. -/
def pageSize : Nat := 65536

structure Memory where
  pages : Nat
  maxPages : Nat
  byte : Nat → UInt8

/-- What cannot be done with a memory. -/
inductive MemoryError where
  | outOfRange (start stop : Nat)
  | cannotGrow (pages : Nat)
  deriving DecidableEq

/-- What is wrong. -/
def MemoryError.message : MemoryError → String
  | .outOfRange start stop =>
    "range " ++ toString start ++ ".." ++ toString stop ++ " exceeds guest memory"
  | .cannotGrow pages => "failed to grow memory by `" ++ toString pages ++ "`"

/-- Where a text lies. -/
structure Extent where
  ptr : UInt32
  len : UInt32
  deriving DecidableEq, Inhabited

/-- The octets of a word. -/
def wordBytes (w : UInt32) : List UInt8 :=
  [w.toUInt8, (w >>> 8).toUInt8, (w >>> 16).toUInt8, (w >>> 24).toUInt8]

/-- The word of four octets. -/
def wordOfBytes (a b c d : UInt8) : UInt32 :=
  a.toUInt32 ||| (b.toUInt32 <<< 8) ||| (c.toUInt32 <<< 16) ||| (d.toUInt32 <<< 24)

namespace Memory

/-- A memory of zeros. -/
def zeros (pages maxPages : Nat) : Memory := ⟨pages, maxPages, fun _ => 0⟩

/-- The number of octets. -/
def size (m : Memory) : Nat := pageSize * m.pages

/-- Adds pages. -/
def grow (m : Memory) (pages : Nat) : Except MemoryError Memory :=
  if m.pages + pages ≤ m.maxPages then .ok { m with pages := m.pages + pages }
  else .error (.cannotGrow pages)

/-- The octets of a range. -/
def read (m : Memory) (start len : Nat) : Except MemoryError (List UInt8) :=
  if start + len ≤ m.size then .ok ((List.range len).map fun i => m.byte (start + i))
  else .error (.outOfRange start (start + len))

/-- Puts octets at an address. -/
def write? (m : Memory) (start : Nat) (bytes : List UInt8) : Option Memory :=
  if start + bytes.length ≤ m.size then
    let block := bytes.toArray
    some { m with
      byte := fun i => if start ≤ i then (block[i - start]?).getD (m.byte i) else m.byte i }
  else none

/-- The word at an address. -/
def readWord? (m : Memory) (start : Nat) : Option UInt32 :=
  match m.read start 4 with
  | .ok [a, b, c, d] => some (wordOfBytes a b c d)
  | _ => none

/-- Puts a word at an address. -/
def writeWord? (m : Memory) (start : Nat) (w : UInt32) : Option Memory :=
  m.write? start (wordBytes w)

/-- The text of an extent; octets that are not UTF-8 are replaced. -/
def readText (m : Memory) (e : Extent) : Except MemoryError (List Char) :=
  if e.ptr = 0 ∨ e.len = 0 then .ok []
  else (m.read e.ptr.toNat e.len.toNat).map decodeUtf8

/-- The text of the extent that lies at an address; at address zero lies the empty text. -/
def readPacked (m : Memory) (address : UInt32) : Except MemoryError (List Char) :=
  if address = 0 then .ok []
  else
    match m.read address.toNat 8 with
    | .error e => .error e
    | .ok [a, b, c, d, e, f, g, h] => m.readText ⟨wordOfBytes a b c d, wordOfBytes e f g h⟩
    | .ok _ => .ok []

@[simp] theorem size_write? {m m' : Memory} {start : Nat} {bytes : List UInt8}
    (h : m.write? start bytes = some m') : m'.size = m.size := by
  unfold write? at h
  split at h
  · cases h; rfl
  · cases h

end Memory

end Shepherd.Sandbox
