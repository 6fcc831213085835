import Shepherd.Sandbox.Guest

/-!
# Scenarios

Guests that are given by what their functions do step by step. The functions that take a script can
choose their steps by the first character of the script that has a case of its own. The only global
is the next free address of the allocator.
-/

namespace Shepherd.Sandbox

namespace Trap

/-- The trap that a guest raises by itself. -/
def unreachable : Trap := ⟨true, "wasm trap: wasm `unreachable` instruction executed"⟩

/-- A trap that the engine raises for a reason. -/
def because (reason : String) : Trap := ⟨false, "wasm trap: " ++ reason⟩

/-- The trap of an access outside the memory. -/
def outOfBounds : Trap := because "out of bounds memory access"

end Trap

/-- Where a step takes its octets from. -/
inductive Place where
  | fixed (e : Extent)
  /-- A part of the script, by its distance from the script's start. -/
  | inSource (part : Extent)

inductive Step where
  | store (address value : UInt32)
  /-- Adds one to an octet. -/
  | bump (address : UInt32)
  /-- Stores the number of pages. -/
  | pages (address : UInt32)
  | log (line : Place)
  | out (file : UInt32) (text : Place)
  | copy (target : UInt32) (part : Place)
  | exit (code : Int)
  | trap (t : Trap)
  | give (value : UInt32)
  /-- Gives back the script, packed. -/
  | echoSource
  /-- Gives back the script's name, packed. -/
  | echoName

/-- What a function that takes a script does. -/
structure Behaviour where
  cases : List (UInt8 × List Step)
  otherwise : List Step

inductive Allocator where
  /-- Hands out memory from an address upwards. -/
  | bump (base : UInt32)
  /-- Always gives the same address. -/
  | fixed (address : UInt32)
  | trapping

structure Scenario where
  linkable : Bool
  pages : Nat
  maxPages : Nat
  showsMemory : Bool
  data : List (Nat × List UInt8)
  allocator : Option Allocator
  onLoad : Option (List Step)
  onStart : Option (List Step)
  tokenize : Option Behaviour
  parse : Option Behaviour
  execute : Option Behaviour

/-- The most pages that any memory can have. -/
def pageLimit : Nat := 65536

/-- The extent of a place. -/
def Place.extent (args : Arguments) : Place → Extent
  | .fixed e => e
  | .inSource part => ⟨args.source.ptr + part.ptr, part.len⟩

namespace Step

/-- The address at which an echo puts its extent. -/
def echoAddress : UInt32 := 512

/-- Stores an extent. -/
def storeExtent? (m : Memory) (address : Nat) (e : Extent) : Option Memory :=
  (m.writeWord? address e.ptr).bind (·.writeWord? (address + 4) e.len)

/-- Adds one to an octet. -/
def bump? (m : Memory) (address : Nat) : Option Memory :=
  if address < m.size then m.write? address [m.byte address + 1] else none

/-- Copies a range of the memory. -/
def copy? (m : Memory) (target : Nat) (e : Extent) : Option Memory :=
  match m.read e.ptr.toNat e.len.toNat with
  | .ok bytes => m.write? target bytes
  | .error _ => none

/-- The run of a list of steps. A change of the memory that reaches outside traps. To write to a
file, the extent is first stored at address 0; the number of octets that were taken follows it. -/
def runAll (args : Arguments) : List Step → Image UInt32 → Run UInt32
  | [], now => .done (.ok 0) now
  | .store address value :: rest, now =>
    match now.memory.writeWord? address.toNat value with
    | some m => runAll args rest { now with memory := m }
    | none => .done (.error .outOfBounds) now
  | .bump address :: rest, now =>
    match bump? now.memory address.toNat with
    | some m => runAll args rest { now with memory := m }
    | none => .done (.error .outOfBounds) now
  | .pages address :: rest, now =>
    match now.memory.writeWord? address.toNat (UInt32.ofNat now.memory.pages) with
    | some m => runAll args rest { now with memory := m }
    | none => .done (.error .outOfBounds) now
  | .log line :: rest, now => .log (line.extent args) now (runAll args rest now)
  | .out file text :: rest, now =>
    let e := text.extent args
    match storeExtent? now.memory 0 e with
    | some m => .write file e { now with memory := m } fun taken =>
      runAll args rest { now with memory := if taken then (m.writeWord? 8 e.len).getD m else m }
    | none => .done (.error .outOfBounds) now
  | .copy target part :: rest, now =>
    match copy? now.memory target.toNat (part.extent args) with
    | some m => runAll args rest { now with memory := m }
    | none => .done (.error .outOfBounds) now
  | .exit code :: _, now => .exit code now
  | .trap t :: _, now => .done (.error t) now
  | .give value :: _, now => .done (.ok value) now
  | .echoSource :: _, now => echo args.source now
  | .echoName :: _, now => echo args.name now
where
  /-- Stores an extent and gives its address. -/
  echo (e : Extent) (now : Image UInt32) : Run UInt32 :=
    match storeExtent? now.memory echoAddress.toNat e with
    | some m => .done (.ok echoAddress) { now with memory := m }
    | none => .done (.error .outOfBounds) now

end Step

namespace Behaviour

/-- The steps for a script: those of the first of its octets that has a case. -/
def stepsFor (b : Behaviour) (source : List UInt8) : List Step :=
  (source.findSome? fun c => b.cases.lookup c).getD b.otherwise

/-- The run of the function. -/
def run (b : Behaviour) (args : Arguments) (now : Image UInt32) : Run UInt32 :=
  match now.memory.read args.source.ptr.toNat args.source.len.toNat with
  | .ok source => Step.runAll args (b.stepsFor source) now
  | .error _ => .done (.error .outOfBounds) now

end Behaviour

namespace Allocator

/-- The address of the next allocation at the start. -/
def base : Option Allocator → UInt32
  | some (.bump base) => base
  | _ => 0

/-- The run of the allocator; allocations start at multiples of eight once one was made. -/
def run (a : Allocator) (len : UInt32) (now : Image UInt32) : Run UInt32 :=
  match a with
  | .bump _ =>
    .done (.ok now.globals) { now with globals := (now.globals + len + 7) &&& 0xFFFFFFF8 }
  | .fixed address => .done (.ok address) now
  | .trapping => .done (.error .unreachable) now

end Allocator

namespace Scenario

/-- A fresh instance with its data in place. -/
def instantiate (s : Scenario) : Option (Image UInt32) := do
  guard s.linkable
  let memory ← s.data.foldlM (fun m (address, bytes) => m.write? address bytes)
    (Memory.zeros s.pages s.maxPages)
  return ⟨memory, Allocator.base s.allocator⟩

/-- The guest of a scenario. -/
def toGuest (s : Scenario) : Guest UInt32 where
  instantiate := s.instantiate
  showsMemory := s.showsMemory
  onLoad := s.onLoad.map (Step.runAll default)
  onStart := s.onStart.map (Step.runAll default)
  malloc := s.allocator.map Allocator.run
  tokenize := s.tokenize.map Behaviour.run
  parse := s.parse.map Behaviour.run
  execute := s.execute.map Behaviour.run

end Scenario

end Shepherd.Sandbox
