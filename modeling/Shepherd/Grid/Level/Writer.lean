import Shepherd.Data.Tree
import Shepherd.Grid.Action
import Shepherd.Grid.Level

/-!
# Writing levels

The normal form of a level as a tree: tables with all fields present, missing limits as null, and
every item with its kind first.
-/

namespace Shepherd.Grid
open Data

/-- A position as a table. -/
def Position.toTree (p : Position) : Tree := .table [("x", .integer p.x), ("y", .integer p.y)]

/-- A limit as a number or null. -/
def Limits.limitToTree : Option UInt32 → Tree
  | .none => .null
  | some n => .integer n.toNat

/-- Limits as a table. -/
def Limits.toTree (l : Limits) : Tree :=
  .table [("max_actions", limitToTree l.maxActions), ("max_calls", limitToTree l.maxCalls),
    ("max_chars", limitToTree l.maxChars)]

/-- The start of the agent as a table. -/
def Start.toTree (s : Start) : Tree :=
  .table [("position", s.position.toTree), ("facing", .text s.facing.name)]

/-- A board without items as a table. -/
def Layout.toTree (l : Layout) : Tree :=
  .table [("size", .integer l.size), ("player", l.player.toTree), ("exit", l.exit.toTree),
    ("limits", l.limits.toTree)]

/-- An item as a table. -/
def Item.toTree : Item → Tree
  | .block kind pos => .table [("kind", .text kind.name), ("pos", pos.toTree)]
  | .sheep pos color =>
    .table [("kind", .text "sheep"), ("pos", pos.toTree), ("color", .text color.name)]
  | .target pos color =>
    .table [("kind", .text "target"), ("pos", pos.toTree), ("color", .text color.name)]
  | .surround kind => .table [("kind", .text "surround"), ("block", .text kind.name)]

/-- A level as a table. -/
def Level.toTree (l : Level) : Tree :=
  .table [("board", l.layout.toTree), ("objects", .list (l.items.map Item.toTree))]

end Shepherd.Grid
