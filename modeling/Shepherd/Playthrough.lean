import Shepherd.Grid.Board.Solve
import Shepherd.Grid.Board.Tick
import Shepherd.Host.Runner
import Shepherd.Script.Decoding
import Shepherd.Script.Program

/-!
# Playthroughs

A script is instrumented, executed by the guest, decoded into a trace and replayed on a board. The
board takes all of the trace or nothing: where the guest could not be started or its output cannot
be decoded, the board stays as it was. A guest that failed still has its actions replayed, as far as
it got. Replaying goes tick by tick, with a pause before each tick but the first.
-/

namespace Shepherd
open Grid Script Host

/-- The name under which the guest gets every script. -/
def entryName : List Char := "main.goose".toList

/-- Why a run did not end well. -/
inductive RunFailure where
  | guest (exitCode : Int) (stderr : List Char)
  /-- The output cannot be decoded; the guest's own words are kept beside the reason. -/
  | protocol (error : ProtocolError) (exitCode : Int) (stderr : List Char)
  deriving DecidableEq

/-- The failure in words. -/
def RunFailure.message : RunFailure → String
  | .guest exitCode stderr =>
    "guest exited with code " ++ toString exitCode ++ ": " ++ String.ofList stderr
  | .protocol error _ _ => error.message

/-- What became of a run. -/
inductive RunStatus where
  | completed (trace : Trace)
  | failed (failure : RunFailure) (trace : Option Trace)

/-- The report of a run: what became of it, how the board meets the objectives afterwards, the lines
that the script printed itself, empty ones left out, and for how many milliseconds replaying
paused. -/
structure RunReport where
  status : RunStatus
  solve : SolveState
  output : List (List Char)
  pause : Nat

namespace RunReport

/-- The decoded trace. -/
def trace? (r : RunReport) : Option Trace :=
  match r.status with
  | .completed trace => some trace
  | .failed _ trace => trace

/-- Why the run failed, if it did. -/
def failure? (r : RunReport) : Option RunFailure :=
  match r.status with
  | .completed _ => none
  | .failed failure _ => some failure

/-- Whether the run completed and solved the level. -/
def solved (r : RunReport) : Bool := r.failure?.isNone && r.solve.solved

end RunReport

namespace Playthrough

/-- A replay in progress: the board, and the milliseconds paused so far. -/
structure Replayed where
  board : Board
  pause : Nat

/-- Replays the action of one tick. Every tick but the first waits for the delay, if there is
one. -/
def tick (delay : Nat) (done : Replayed) : Action × Nat → Replayed
  | (action, index) =>
    ⟨done.board.apply action, done.pause + if 0 < index ∧ delay ≠ 0 then delay else 0⟩

/-- Replays actions on a board, tick by tick. -/
def replay (delay : Nat) (b : Board) (actions : List Action) : Replayed :=
  actions.zipIdx.foldl (tick delay) ⟨b, 0⟩

/-- The report of an execution, and the board after it. -/
def finish (s : Session) (delay : Nat) (b : Board) (o : Outcome) : RunReport × Board :=
  let output := (s.programOutput o.stdout).filter (· ≠ [])
  match s.decode o.stdout with
  | .error e =>
    (⟨.failed (.protocol e o.exitCode o.stderr) none, b.solveState none, output, 0⟩, b)
  | .ok trace =>
    let replayed := replay delay b trace.actions
    let b := replayed.board
    let status :=
      if o.succeeded then .completed trace
      else .failed (.guest o.exitCode o.stderr) (some trace)
    (⟨status, b.solveState (some trace), output, replayed.pause⟩, b)

/-- The report of what was answered for the guest, and the board after it. -/
def conclude {ε : Type} (s : Session) (delay : Nat) (b : Board) :
    Except ε Outcome → Except ε RunReport × Board
  | .error e => (.error e, b)
  | .ok o => (finish s delay b o).map .ok id

/-- Runs a script on a board, with a delay between its actions. -/
def runPaced (delay : Nat) (s : Session) (r : Runner γ) (b : Board) (source : String) :
    Except HostError RunReport × Runner γ × Board :=
  match r.execute entryName (s.instrument source).toList with
  | (answer, r) =>
    match conclude s delay b answer with
    | (report, b) => (report, r, b)

/-- The delay between two actions in milliseconds, unless another one is asked for. -/
def defaultDelay : Nat := 400

/-- Runs a script on a board. -/
def run (s : Session) (r : Runner γ) (b : Board) (source : String) :
    Except HostError RunReport × Runner γ × Board :=
  runPaced defaultDelay s r b source

end Playthrough

end Shepherd
