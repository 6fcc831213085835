import Shepherd.Grid.Trace

/-!
# Objectives

What a level asks for and how far a board and a trace meet it. A level is solved when the agent is
on the exit, the whole herd is on its targets, and neither the number of actions nor the number of
calls passes its limit. The size of the script is checked too, but never decides.
-/

namespace Shepherd.Grid

/-- What a solution has to stay within; none, like a limit of zero, means no limit. -/
structure Limits where
  maxActions : Option UInt32
  maxCalls : Option UInt32
  maxChars : Option UInt32
  deriving DecidableEq

namespace Limits

/-- No limits. -/
def none : Limits := ⟨.none, .none, .none⟩

/-- A limit that counts: zero means that there is none. -/
def effective (limit : Option UInt32) : Option UInt32 := limit.filter (0 < ·)

/-- The limit on executed actions. -/
def actions (l : Limits) : Option UInt32 := effective l.maxActions

/-- The limit on calls of action functions. -/
def calls (l : Limits) : Option UInt32 := effective l.maxCalls

/-- The limit on the characters of the script. -/
def chars (l : Limits) : Option UInt32 := effective l.maxChars

end Limits

/-- A measured value beside its limit. -/
structure Threshold where
  current : UInt32
  max : Option UInt32
  deriving DecidableEq

/-- Whether the value is within the limit; it is where there is none. -/
def Threshold.solved (t : Threshold) : Bool :=
  match t.max with
  | none => true
  | some max => t.current ≤ max

/-- How much of the herd is on its targets; each target counts once. -/
structure HerdCoverage where
  current : Nat
  total : Nat
  deriving DecidableEq

/-- Whether all units count. -/
def HerdCoverage.solved (h : HerdCoverage) : Bool := h.current == h.total

/-- How a trace compares with the limits. -/
structure Economy where
  actions : Threshold
  calls : Threshold
  size : Threshold
  deriving DecidableEq

namespace Economy

/-- The comparison of a trace with limits. -/
def ofTrace (limits : Limits) (t : Trace) : Economy where
  actions := ⟨capped t.actions.length, limits.actions⟩
  calls := ⟨t.callCount, limits.calls⟩
  size := ⟨t.size, limits.chars⟩

/-- Whether actions and calls stay within their limits; the size is left out. -/
def solved (e : Economy) : Bool := e.actions.solved && e.calls.solved

end Economy

/-- The state of all objectives; the economy is known only with a trace. -/
structure SolveState where
  playerOnExit : Bool
  herd : HerdCoverage
  economy : Option Economy
  deriving DecidableEq

/-- Whether the level is solved. -/
def SolveState.solved (s : SolveState) : Bool :=
  s.playerOnExit && s.herd.solved && s.economy.all Economy.solved

end Shepherd.Grid
