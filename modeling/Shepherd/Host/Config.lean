import Shepherd.Data.Shape
import Shepherd.Data.Toml.Reader

/-!
# Configuration

How guests are run: how much memory they get, how long to wait for them, when they are started anew,
and how much of what they say is kept. It is read from TOML; missing keys keep their defaults.
-/

namespace Shepherd.Host
open Data

/-- When a guest is started anew before it executes a script. -/
inductive RestartPolicy where
  | always
  /-- Only where the guest has run before, or is not ready. -/
  | whenTainted
  deriving DecidableEq

namespace RestartPolicy

/-- The name that configurations use. -/
def name : RestartPolicy → String
  | .always => "always"
  | .whenTainted => "when-tainted"

/-- The policy with a given name. -/
def ofName? (text : String) : Option RestartPolicy := [always, whenTainted].find? (·.name == text)

end RestartPolicy

structure Config where
  /-- Pages that are added to a fresh guest's memory. -/
  memoryPages : Nat
  /-- Milliseconds between two looks at whether a guest is ready. -/
  pollInterval : Nat
  /-- Looks before a guest is given up. -/
  pollAttempts : Nat
  restartPolicy : RestartPolicy
  /-- Console lines that are kept. -/
  consoleLines : Nat
  /-- Octets of each output stream that are kept. -/
  outputCapacity : Nat
  deriving DecidableEq

namespace Config

/-- The configuration without any key. -/
def default : Config where
  memoryPages := 40
  pollInterval := 100
  pollAttempts := 50
  restartPolicy := .always
  consoleLines := 256
  outputCapacity := 1024 * 1024

/-- The keys of a configuration, in order. -/
def keys : List String :=
  ["memory_pages", "ready_poll_interval_ms", "ready_poll_attempts", "restart_policy",
    "console_lines", "output_capacity"]

/-- A configuration from its tree. -/
def ofTree? (t : Tree) : Option Config := do
  match ← Shape.toml.fields keys t with
  | [memoryPages, pollInterval, pollAttempts, restartPolicy, consoleLines, outputCapacity] =>
    return {
      memoryPages := ← Shape.orDefault Tree.natural? default.memoryPages memoryPages
      pollInterval := ← Shape.orDefault Tree.natural? default.pollInterval pollInterval
      pollAttempts := ← Shape.orDefault (fun t => t.uint32?.map UInt32.toNat) default.pollAttempts
        pollAttempts
      restartPolicy := ← Shape.orDefault (Shape.toml.choice RestartPolicy.ofName?)
        default.restartPolicy restartPolicy
      consoleLines := ← Shape.orDefault Tree.natural? default.consoleLines consoleLines
      outputCapacity := ← Shape.orDefault Tree.natural? default.outputCapacity outputCapacity }
  | _ => none

/-- Reads a configuration from TOML text. -/
def ofToml? (text : String) : Option Config := (Toml.read? text).bind ofTree?

end Config

end Shepherd.Host
