import Shepherd.Host.Instance

/-!
# Runners

A runner owns one guest and at most one instance of it. There is none until the guest is started; an
instance that trapped stays visible, but takes no more calls until it is started anew. An instance
is tainted once a call was made into it.
-/

namespace Shepherd.Host
open Sandbox

inductive RunnerState (γ : Type) where
  | uninitialized
  | ready (i : Instance γ) (tainted : Bool)
  | faulted (i : Instance γ)

structure Runner (γ : Type) where
  guest : Guest γ
  config : Config
  state : RunnerState γ

/-- The phases of a runner. -/
inductive Phase where | uninitialized | ready | faulted
  deriving DecidableEq

namespace Runner

/-- A runner whose guest is not started yet. -/
def new (g : Guest γ) (c : Config) : Runner γ := ⟨g, c, .uninitialized⟩

/-- The phase of a runner. -/
def phase (r : Runner γ) : Phase :=
  match r.state with
  | .uninitialized => .uninitialized
  | .ready .. => .ready
  | .faulted _ => .faulted

/-- Whether calls are taken. -/
def isReady (r : Runner γ) : Bool := r.phase = .ready

/-- The instance, if there is one. -/
def instance? (r : Runner γ) : Option (Instance γ) :=
  match r.state with
  | .uninitialized => none
  | .ready i _ => some i
  | .faulted i => some i

/-- Whether a call was made into the instance. -/
def tainted (r : Runner γ) : Bool :=
  match r.state with
  | .uninitialized => false
  | .ready _ tainted => tainted
  | .faulted _ => true

/-- Drops the instance and starts a fresh one. -/
def restart (r : Runner γ) : Except HostError Unit × Runner γ :=
  match Instance.boot r.config r.guest with
  | .ok i => (.ok (), { r with state := .ready i false })
  | .error e => (.error e, { r with state := .uninitialized })

/-- Starts the guest, unless it is ready. -/
def init (r : Runner γ) : Except HostError Unit × Runner γ :=
  if r.isReady then (.ok (), r) else r.restart

/-- The state after a call: only a trap makes the instance unusable. -/
def stateAfter (i : Instance γ) : Except Failure α → RunnerState γ
  | .ok _ => .ready i true
  | .error f => if f.isTrap then .faulted i else .ready i true

/-- Calls a function that answers with a text. -/
def callText (r : Runner γ) (function : Exports γ → Arguments → Image γ → Run γ)
    (name source : List Char) : Except HostError (List Char) × Runner γ :=
  match r.state with
  | .uninitialized => (.error .notReady, r)
  | .faulted _ => (.error .faulted, r)
  | .ready i _ =>
    match i.call (function i.exports) name source with
    | (result, i) =>
      let text := match result with
        | .ok packed => (i.image.memory.readPacked packed).mapError .memory
        | .error f => .error (.callFailed f)
      (text, { r with state := stateAfter i result })

/-- The guest's tokens of a script. -/
def tokenize (r : Runner γ) (name source : List Char) : Except HostError (List Char) × Runner γ :=
  r.callText Exports.tokenize name source

/-- The guest's diagnostics of a script. -/
def parse (r : Runner γ) (name source : List Char) : Except HostError (List Char) × Runner γ :=
  r.callText Exports.parse name source

/-- Executes a script on the instance as it is. Only the console is cleared before. -/
def executeHere (r : Runner γ) (name source : List Char) : Except HostError Outcome × Runner γ :=
  match r.state with
  | .uninitialized => (.error .notReady, r)
  | .faulted _ => (.error .faulted, r)
  | .ready i _ =>
    let i := { i with listener := i.listener.clearConsole }
    let mark := i.listener.stderr.bytes.length
    match i.call i.exports.execute name source with
    | (result, i) =>
      let outcome := match result with
        | .ok packed => i.outcome packed
        | .error f => .failure (i.report mark f)
      (.ok outcome, { r with state := stateAfter i result })

/-- Whether the guest has to be started anew before it executes a script. -/
def needsRestart (r : Runner γ) : Bool :=
  match r.config.restartPolicy with
  | .always => true
  | .whenTainted => !r.isReady || r.tainted

/-- Executes a script. Everything that goes wrong inside the guest is part of the outcome; an error
means that no instance could be started. -/
def execute (r : Runner γ) (name source : List Char) : Except HostError Outcome × Runner γ :=
  if r.needsRestart then
    match r.restart with
    | (.error e, r) => (.error e, r)
    | (.ok (), r) => r.executeHere name source
  else r.executeHere name source

end Runner

/-! ### Requests -/

/-- What a runner can be asked for. -/
inductive Request where
  | init
  | restart
  | tokenize (name source : List Char)
  | parse (name source : List Char)
  | execute (name source : List Char)
  deriving DecidableEq

/-- What a runner answers. -/
inductive Reply where
  | done
  | text (text : List Char)
  | outcome (o : Outcome)
  deriving DecidableEq

/-- The result of a request. -/
abbrev Response := Except HostError Reply

namespace Runner

/-- Serves a request. -/
def serve (r : Runner γ) : Request → Response × Runner γ
  | .init => r.init.map (·.map fun () => .done) id
  | .restart => r.restart.map (·.map fun () => .done) id
  | .tokenize name source => (r.tokenize name source).map (·.map .text) id
  | .parse name source => (r.parse name source).map (·.map .text) id
  | .execute name source => (r.execute name source).map (·.map .outcome) id

/-- Serves requests in order. -/
def serveAll (r : Runner γ) : List Request → List Response × Runner γ
  | [] => ([], r)
  | request :: rest =>
    match r.serve request with
    | (response, r) =>
      match serveAll r rest with
      | (responses, r) => (response :: responses, r)

end Runner

end Shepherd.Host
