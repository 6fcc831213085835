import Shepherd.Data.Json.Reader
import Shepherd.Data.Shape
import Shepherd.Data.Toml.Reader
import Shepherd.Grid.Action
import Shepherd.Grid.Level

/-!
# Reading levels

Levels are read from JSON and from TOML by the same rules. An item carries its own kind, as the
entry `kind` of a table or as the first item of a list. It is taken in as a whole before it is
understood, so even its unknown parts must have a value and stay within the notation's depth.
-/

namespace Shepherd.Grid
open Data

/-- A position: `x` and `y`. -/
def Position.ofTree? (shape : Shape) (t : Tree) : Option Position := do
  match ← shape.fields ["x", "y"] t with
  | [some x, some y] => return ⟨← x.int32?, ← y.int32?⟩
  | _ => none

/-- A direction by its name. -/
def Direction.ofTree? (shape : Shape) : Tree → Option Direction := shape.choice Direction.ofName?

/-- An action by its name. -/
def Action.ofTree? (shape : Shape) : Tree → Option Action := shape.choice Action.ofName?

/-- A colour by its name. -/
def Color.ofTree? (shape : Shape) : Tree → Option Color := shape.choice Color.ofName?

/-- An obstacle by its name. -/
def Obstacle.ofTree? (shape : Shape) : Tree → Option Obstacle := shape.choice Obstacle.ofName?

/-- Limits, each of which may be missing. -/
def Limits.ofTree? (shape : Shape) (t : Tree) : Option Limits := do
  match ← shape.fields ["max_actions", "max_calls", "max_chars"] t with
  | [actions, calls, chars] =>
    return ⟨← Shape.orDefault Tree.limit? .none actions, ← Shape.orDefault Tree.limit? .none calls,
      ← Shape.orDefault Tree.limit? .none chars⟩
  | _ => .none

/-- The start of the agent, which faces north unless told otherwise. -/
def Start.ofTree? (shape : Shape) (t : Tree) : Option Start := do
  match ← shape.fields ["position", "facing"] t with
  | [some position, facing] =>
    return ⟨← Position.ofTree? shape position,
      ← Shape.orDefault (Direction.ofTree? shape) .north facing⟩
  | _ => none

/-- A board without items. -/
def Layout.ofTree? (shape : Shape) (t : Tree) : Option Layout := do
  match ← shape.fields ["size", "player", "exit", "limits"] t with
  | [some size, some player, some exit, limits] =>
    return ⟨← size.int32?, ← Start.ofTree? shape player, ← Position.ofTree? shape exit,
      ← Shape.orDefault (Limits.ofTree? shape) .none limits⟩
  | _ => none

namespace Item

/-- An item of a known kind from the rest of its table or list. -/
def ofKind? (kind : String) (rest : Tree) : Option Item :=
  match kind with
  | "wall" => block .wall
  | "leaves" => block .leaves
  | "water" => block .water
  | "sheep" => colored .sheep
  | "target" => colored .target
  | "surround" => do
    match ← Shape.tagged.fields ["block"] rest with
    | [some kind] => return .surround (← Obstacle.ofTree? .tagged kind)
    | _ => none
  | _ => none
where
  /-- A block needs a cell. -/
  block (kind : Obstacle) : Option Item := do
    match ← Shape.tagged.fields ["pos"] rest with
    | [some pos] => return .block kind (← Position.ofTree? .tagged pos)
    | _ => none
  /-- Units and targets need a cell and may have a colour; without one they are white. -/
  colored (make : Position → Color → Item) : Option Item := do
    match ← Shape.tagged.fields ["pos", "color"] rest with
    | [some pos, color] =>
      return make (← Position.ofTree? .tagged pos)
        (← Shape.orDefault (Color.ofTree? .tagged) .white color)
    | _ => none

/-- An item by its kind, inside `outer` lists and tables. -/
def ofTree? (shape : Shape) (outer : Nat) (t : Tree) : Option Item :=
  if shape.admits outer t then
    match t with
    | .table entries =>
      match entries.filter (·.1 == "kind") with
      | [(_, .text kind)] => ofKind? kind (.table (entries.filter (·.1 != "kind")))
      | _ => none
    | .list (.text kind :: rest) => ofKind? kind (.list rest)
    | _ => none
  else none

end Item

namespace Level

/-- The items of a level; the list of them lies in the level's own table or list. -/
def itemsOfTree? (shape : Shape) : Tree → Option (List Item)
  | .list items => items.mapM (Item.ofTree? shape 2)
  | _ => none

/-- A level. -/
def ofTree? (shape : Shape) (t : Tree) : Option Level := do
  match ← shape.fields ["board", "objects"] t with
  | [some board, objects] =>
    return ⟨← Layout.ofTree? shape board, ← Shape.orDefault (itemsOfTree? shape) [] objects⟩
  | _ => none

/-- Reads a level from JSON text. -/
def ofJson? (text : String) : Option Level := (Json.read? text).bind (ofTree? .json)

/-- Reads a level from TOML text. -/
def ofToml? (text : String) : Option Level := (Toml.read? text).bind (ofTree? .toml)

end Level

end Shepherd.Grid
