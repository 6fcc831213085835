import Shepherd.Data.Tree
import Shepherd.Grid.Objective

/-!
# Reports

The state of the objectives as a tree, for players to read.
-/

namespace Shepherd.Grid
open Data

/-- A value beside its limit. -/
def Threshold.toTree (t : Threshold) : Tree :=
  .table [("current", .integer t.current.toNat),
    ("max", match t.max with
      | some max => .integer max.toNat
      | none => .null),
    ("solved", .bool t.solved)]

/-- The coverage of the herd. -/
def HerdCoverage.toTree (h : HerdCoverage) : Tree :=
  .table [("current", .integer h.current), ("total", .integer h.total), ("solved", .bool h.solved)]

/-- One of the comparisons with the limits, or null where there was no trace. -/
def SolveState.thresholdToTree (s : SolveState) (pick : Economy → Threshold) : Tree :=
  match s.economy with
  | some e => (pick e).toTree
  | none => .null

/-- The state of all objectives. -/
def SolveState.toTree (s : SolveState) : Tree :=
  .table [("solved", .bool s.solved), ("player_on_exit", .bool s.playerOnExit),
    ("herd", s.herd.toTree), ("actions", s.thresholdToTree (·.actions)),
    ("calls", s.thresholdToTree (·.calls)), ("size", s.thresholdToTree (·.size))]

end Shepherd.Grid
