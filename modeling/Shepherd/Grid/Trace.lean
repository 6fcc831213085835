import Shepherd.Grid.Action

/-!
# Traces

What a run of a script reported: the actions in order, how often each action function was called,
and how long the script is. Counts are words of 32 bits, and their sum stops at the largest word.
-/

namespace Shepherd.Grid

/-- The sum of two counts, or the largest word where that is smaller. -/
def addCapped (m n : UInt32) : UInt32 :=
  if m.toNat + n.toNat < UInt32.size then m + n else UInt32.ofNat (UInt32.size - 1)

/-- A number as a word, or the largest word where that is smaller. -/
def capped (n : Nat) : UInt32 := UInt32.ofNat (min n (UInt32.size - 1))

structure Trace where
  actions : List Action
  /-- The reported call counts; none where an action's count was not reported. -/
  calls : Action → Option UInt32
  callCount : UInt32
  size : UInt32

namespace Trace

/-- Before anything was reported. -/
def empty : Trace := ⟨[], fun _ => none, 0, 0⟩

/-- The call count of one action; zero where it was not reported. -/
def callsOf (t : Trace) (a : Action) : UInt32 := (t.calls a).getD 0

/-- The reported call counts, in the order of the vocabulary. -/
def callList (t : Trace) : List (Action × UInt32) :=
  Action.all.filterMap fun a => (t.calls a).map (a, ·)

/-- Adds one executed action. -/
def pushAction (t : Trace) (a : Action) : Trace := { t with actions := t.actions ++ [a] }

/-- Adds the call count of an action, unless one was reported before. -/
def recordCalls? (t : Trace) (a : Action) (count : UInt32) : Option Trace :=
  match t.calls a with
  | some _ => none
  | none =>
    some { t with
      calls := fun b => if b = a then some count else t.calls b
      callCount := addCapped t.callCount count }

/-- Sets the size of the script. -/
def setSize (t : Trace) (size : UInt32) : Trace := { t with size := size }

@[simp] theorem pushAction_actions (t : Trace) (a : Action) :
    (t.pushAction a).actions = t.actions ++ [a] := rfl

end Trace

end Shepherd.Grid
