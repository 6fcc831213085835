import Shepherd.Sandbox.Memory

/-!
# Guests

A guest is a deterministic program in a memory of its own. It is known by what its functions do: a
run of a function is a tree of the calls that it makes to its host, and ends with a result, a trap
or an exit. A run depends on nothing but the guest's memory and globals, its arguments, and the
answers of the host.
-/

namespace Shepherd.Sandbox

/-- A fault that stops a guest function for good, as the engine tells it: by a text, and so that the
one of the `unreachable` instruction is known from all others. -/
structure Trap where
  isUnreachable : Bool
  message : String
  deriving DecidableEq

/-- Why a call into the guest gave no result. -/
inductive Failure where
  | trap (t : Trap)
  | exit (code : Int)
  /-- The allocator gave a pointer at which the argument does not fit. -/
  | badPointer
  /-- The argument is too long for the guest's lengths. -/
  | tooLong
  /-- The guest wrote to a stream from outside its memory. -/
  | badBuffer (e : Extent)
  /-- The guest called the host without showing its memory. -/
  | hiddenMemory
  deriving DecidableEq

namespace Failure

/-- The text of a failure. -/
def message : Failure → String
  | .trap t => t.message
  | .exit code =>
    if 0 ≤ code ∧ code < 126 then "Exited with i32 exit status " ++ toString code
    else "exit with invalid exit status outside of [0..126)"
  | .badPointer => "out of bounds memory access"
  | .tooLong => "out of range integral type conversion attempted"
  | .badBuffer e =>
    "Pointer out of bounds: Region \x7b start: " ++ toString e.ptr.toNat ++ ", len: " ++
      toString e.len.toNat ++ " \x7d"
  | .hiddenMemory => "missing required memory export"

/-- The trap behind a failure. -/
def trap? : Failure → Option Trap
  | .trap t => some t
  | _ => none

/-- Only a trap leaves the guest unusable. -/
def isTrap (f : Failure) : Bool := f.trap?.isSome

/-- Whether the guest gave up by itself. -/
def isUnreachable (f : Failure) : Bool := f.trap?.any Trap.isUnreachable

end Failure

/-- What a guest remembers between calls. -/
structure Image (γ : Type) where
  memory : Memory
  globals : γ

/-- A run of a guest function. -/
inductive Run (γ : Type) where
  | done (result : Except Trap UInt32) (after : Image γ)
  | exit (code : Int) (after : Image γ)
  /-- Sends a line to the console. -/
  | log (line : Extent) (now : Image γ) (next : Run γ)
  /-- Writes to an open file; the guest learns whether all octets were taken. -/
  | write (file : UInt32) (text : Extent) (now : Image γ) (next : Bool → Run γ)

/-- The arguments of the functions that take a script. -/
structure Arguments where
  name : Extent
  source : Extent
  deriving Inhabited

/-- The functions that a ready guest offers. -/
structure Exports (γ : Type) where
  malloc : UInt32 → Image γ → Run γ
  tokenize : Arguments → Image γ → Run γ
  parse : Arguments → Image γ → Run γ
  execute : Arguments → Image γ → Run γ

/-- A compiled guest. A function is none where it is missing or has another signature. -/
structure Guest (γ : Type) where
  /-- A fresh instance; none where the guest cannot be linked. -/
  instantiate : Option (Image γ)
  showsMemory : Bool
  onLoad : Option (Image γ → Run γ)
  onStart : Option (Image γ → Run γ)
  malloc : Option (UInt32 → Image γ → Run γ)
  tokenize : Option (Arguments → Image γ → Run γ)
  parse : Option (Arguments → Image γ → Run γ)
  execute : Option (Arguments → Image γ → Run γ)

/-- The two functions that a guest can start up with. -/
inductive StartUp where | onLoad | onStart
  deriving DecidableEq

/-- The name under which a guest offers the function. -/
def StartUp.name : StartUp → String
  | .onLoad => "_initialize"
  | .onStart => "_start"

namespace Guest

/-- The functions of a guest, if it offers all that are needed and shows its memory. -/
def exports? (g : Guest γ) : Option (Exports γ) := do
  guard g.showsMemory
  return ⟨← g.malloc, ← g.tokenize, ← g.parse, ← g.execute⟩

/-- The function that a guest starts up with. -/
def startUp? (g : Guest γ) : Option (StartUp × (Image γ → Run γ)) :=
  match g.onLoad, g.onStart with
  | some routine, _ => some (.onLoad, routine)
  | none, some routine => some (.onStart, routine)
  | none, none => none

end Guest

end Shepherd.Sandbox
