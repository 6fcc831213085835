import Shepherd.Host.Outcome
import Shepherd.Host.Streams

/-!
# Instances

A started guest together with what the host heard from it. To start one, its memory is grown, its
start-up function is run if it has one, and all functions that are needed must be there. To call
one, the script's name and then the script are copied into memory that the guest's own allocator
gives.
-/

namespace Shepherd.Host
open Sandbox Text

/-- Why the host cannot do what it is asked for. -/
inductive HostError where
  /-- The guest cannot be compiled or linked. -/
  | badGuest
  | notReady
  | faulted
  | startUpFailed (entry : StartUp) (f : Failure)
  | callFailed (f : Failure)
  | timeout (attempts : Nat)
  | memory (e : MemoryError)
  deriving DecidableEq

/-- The reason in words. -/
def HostError.message : HostError → String
  | .badGuest => "WASM error"
  | .notReady => "guest is not ready"
  | .faulted => "guest faulted; restart required"
  | .startUpFailed entry f => "guest trap: " ++ entry.name ++ ": " ++ f.message
  | .callFailed f => "guest trap: " ++ f.message
  | .timeout attempts => "guest not ready after " ++ toString attempts ++ " attempts"
  | .memory e => "guest memory error: " ++ e.message

structure Instance (γ : Type) where
  exports : Exports γ
  image : Image γ
  listener : Listener

namespace Instance

/-! ### Starting -/

/-- Adds the configured pages to the memory of a guest that shows it. -/
def grown (c : Config) (g : Guest γ) (image : Image γ) : Except HostError (Image γ) :=
  if g.showsMemory then
    match image.memory.grow c.memoryPages with
    | .ok m => .ok { image with memory := m }
    | .error e => .error (.memory e)
  else .ok image

/-- Runs the start-up function; it may also end by an exit with code zero. -/
def startedUp (c : Config) (g : Guest γ) (image : Image γ) :
    Except HostError (Image γ × Listener) :=
  match g.startUp? with
  | none => .ok (image, .fresh c)
  | some (entry, routine) =>
    match answer g.showsMemory (routine image) (.fresh c) with
    | (.ok _, after) => .ok after
    | (.error (.exit 0), after) => .ok after
    | (.error f, _) => .error (.startUpFailed entry f)

/-- A fresh instance. -/
def boot (c : Config) (g : Guest γ) : Except HostError (Instance γ) :=
  match g.instantiate with
  | none => .error .badGuest
  | some image => do
    let (image, listener) ← startedUp c g (← grown c g image)
    match g.exports? with
    | some exports => return ⟨exports, image, listener⟩
    | none => throw (.timeout (max c.pollAttempts 1))

/-! ### Calling -/

/-- Runs a function of the guest. -/
def enter (i : Instance γ) (routine : Image γ → Run γ) : Except Failure UInt32 × Instance γ :=
  match answer true (routine i.image) i.listener with
  | (result, image, listener) => (result, { i with image := image, listener := listener })

/-- Copies a text into memory that the guest's allocator gives. -/
def writeText (i : Instance γ) (text : List Char) : Except Failure Extent × Instance γ :=
  let bytes := encodeUtf8 text
  let len := UInt32.ofNat bytes.length
  if !fitsInt32 bytes.length then (.error .tooLong, i)
  else match i.enter (i.exports.malloc len) with
    | (.error f, i) => (.error f, i)
    | (.ok ptr, i) =>
      match i.image.memory.write? ptr.toNat bytes with
      | none => (.error .badPointer, i)
      | some m => (.ok ⟨ptr, len⟩, { i with image := { i.image with memory := m } })

/-- Calls a function that takes a script. -/
def call (i : Instance γ) (function : Arguments → Image γ → Run γ) (name source : List Char) :
    Except Failure UInt32 × Instance γ :=
  match i.writeText name with
  | (.error f, i) => (.error f, i)
  | (.ok nameAt, i) =>
    match i.writeText source with
    | (.error f, i) => (.error f, i)
    | (.ok sourceAt, i) => i.enter (function ⟨nameAt, sourceAt⟩)

/-- The outcome of an execution that returned a packed answer. -/
def outcome (i : Instance γ) (packed : UInt32) : Outcome :=
  match i.image.memory.readPacked packed with
  | .ok text => .ofAnswer i.image.memory text
  | .error e => .failure (HostError.memory e).message.toList

/-- What a failed execution is reported with, where `mark` octets were on the error stream before
it. A guest that ran into the unreachable is asked for its last words first. -/
def report (i : Instance γ) (mark : Nat) (f : Failure) : List Char :=
  if f.isUnreachable then (i.listener.lastWords? mark).getD f.message.toList
  else f.message.toList

end Instance

end Shepherd.Host
