import Shepherd.Grid.Board.Basic

/-!
# Evaluating boards

How far a board meets the objectives, and the economy of a trace if there is one. A unit counts when
it stands with a target of its colour; of the targets on its cell it claims the first, and each
target can be claimed once.
-/

namespace Shepherd.Grid.Board

/-- The herd units, in order. -/
def units (b : Board) : List Entity := b.entities.filter (·.unitColor?.isSome)

/-- The herd targets, in order. -/
def targets (b : Board) : List Entity := b.entities.filter (·.targetColor?.isSome)

/-- Whether a target has the colour and the cell of a unit. -/
def matched (unit target : Entity) : Bool :=
  target.targetColor? == unit.unitColor? && target.pos == unit.pos

/-- Lets one unit claim its target. -/
def claim (targets : List Entity) (claimed : List EntityId) (unit : Entity) : List EntityId :=
  match targets.find? (matched unit) with
  | some target => if claimed.contains target.id then claimed else target.id :: claimed
  | none => claimed

/-- How much of the herd is on its targets. -/
def coverage (b : Board) : HerdCoverage where
  current := (b.units.foldl (claim b.targets) []).length
  total := b.units.length

/-- The state of all objectives. -/
def solveState (b : Board) (trace : Option Trace) : SolveState where
  playerOnExit := b.agent.pos == b.exit.pos
  herd := b.coverage
  economy := trace.map (Economy.ofTrace b.limits)

end Shepherd.Grid.Board
