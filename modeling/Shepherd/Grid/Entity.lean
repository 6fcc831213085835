import Shepherd.Grid.Position

/-!
# Entities

What stands on the cells of a board. Obstacles block the agent; the exit, herd units and herd
targets do not. A unit and the target that it was dropped on name each other. The priority orders
drawing only: the agent is drawn last, and right before it the unit that is being carried.
-/

namespace Shepherd.Grid

/-- The identity of an entity on its board. Fewer than 2^32 identities are issued on one board, so
that the counter behind them fits a word of 32 bits. -/
abbrev EntityId := Nat

/-- The colour that a unit shares with its targets. -/
inductive Color where
  | black | blue | brown | cyan | gray | green | lightblue | lightgray
  | lime | magenta | orange | pink | purple | red | white | yellow
  deriving DecidableEq, Inhabited

namespace Color

/-- All colours, in alphabetical order. -/
def all : List Color :=
  [.black, .blue, .brown, .cyan, .gray, .green, .lightblue, .lightgray,
    .lime, .magenta, .orange, .pink, .purple, .red, .white, .yellow]

/-- The name that levels use. -/
def name : Color → String
  | .black => "black"
  | .blue => "blue"
  | .brown => "brown"
  | .cyan => "cyan"
  | .gray => "gray"
  | .green => "green"
  | .lightblue => "lightblue"
  | .lightgray => "lightgray"
  | .lime => "lime"
  | .magenta => "magenta"
  | .orange => "orange"
  | .pink => "pink"
  | .purple => "purple"
  | .red => "red"
  | .white => "white"
  | .yellow => "yellow"

/-- The colour with a given name. -/
def ofName? (text : String) : Option Color := all.find? (·.name == text)

theorem ofName?_name (c : Color) : ofName? c.name = some c := by cases c <;> decide +kernel

end Color

/-- The blocks that can fill a cell or a whole ring. -/
inductive Obstacle where | wall | leaves | water
  deriving DecidableEq, Inhabited

namespace Obstacle

/-- All obstacles. -/
def all : List Obstacle := [.wall, .leaves, .water]

/-- The name that levels use. -/
def name : Obstacle → String
  | .wall => "wall"
  | .leaves => "leaves"
  | .water => "water"

/-- The obstacle with a given name. -/
def ofName? (text : String) : Option Obstacle := all.find? (·.name == text)

theorem ofName?_name (o : Obstacle) : ofName? o.name = some o := by cases o <;> decide +kernel

end Obstacle

inductive Kind where
  | agent
  | exitZone
  | obstacle (block : Obstacle)
  /-- A unit, and the target that it was dropped on. -/
  | herdUnit (color : Color) (target : Option EntityId)
  /-- A target, and the unit that was dropped on it. -/
  | herdTarget (color : Color) (unit : Option EntityId)
  deriving DecidableEq

namespace Kind

/-- Whether the agent may step onto a cell that holds the kind. -/
def defaultWalkable : Kind → Bool
  | .exitZone | .herdUnit .. | .herdTarget .. => true
  | .agent | .obstacle _ => false

/-- The priority of the agent. -/
def agentPriority : Int := 9999

/-- The priority of a unit while it is carried. -/
def carriedPriority : Int := 9998

/-- The priority of an entity of the kind that is not carried. -/
def defaultPriority : Kind → Int
  | .agent => agentPriority
  | .exitZone => 2
  | .herdUnit .. => 1
  | .obstacle _ | .herdTarget .. => 0

/-- The name of the kind. -/
def name : Kind → String
  | .agent => "Agent"
  | .exitZone => "ExitZone"
  | .obstacle .wall => "Wall"
  | .obstacle .leaves => "Leaves"
  | .obstacle .water => "Water"
  | .herdUnit .. => "HerdUnit"
  | .herdTarget .. => "HerdTarget"

/-- The unit or target at the other end, if the kind has one. -/
def link? : Kind → Option EntityId
  | .herdUnit _ target => target
  | .herdTarget _ unit => unit
  | _ => none

/-- The kind with another link; kinds that have none stay as they are. -/
def withLink (link : Option EntityId) : Kind → Kind
  | .herdUnit color _ => .herdUnit color link
  | .herdTarget color _ => .herdTarget color link
  | kind => kind

section Links
variable (k : Kind) (link : Option EntityId)

@[simp] theorem withLink_link? : k.withLink k.link? = k := by cases k <;> rfl

@[simp] theorem withLink_withLink (link' : Option EntityId) :
    (k.withLink link).withLink link' = k.withLink link' := by cases k <;> rfl

@[simp] theorem withLink_eq_agent : k.withLink link = .agent ↔ k = .agent := by
  cases k <;> simp [withLink]

@[simp] theorem withLink_eq_exitZone : k.withLink link = .exitZone ↔ k = .exitZone := by
  cases k <;> simp [withLink]

@[simp] theorem defaultPriority_withLink :
    (k.withLink link).defaultPriority = k.defaultPriority := by cases k <;> rfl

@[simp] theorem defaultWalkable_withLink :
    (k.withLink link).defaultWalkable = k.defaultWalkable := by cases k <;> rfl

end Links

end Kind

structure Entity where
  id : EntityId
  pos : Position
  walkable : Bool
  priority : Int
  kind : Kind
  deriving DecidableEq

namespace Entity

/-- An entity as it is put on the board. -/
def ofKind (id : EntityId) (pos : Position) (kind : Kind) : Entity :=
  ⟨id, pos, kind.defaultWalkable, kind.defaultPriority, kind⟩

/-- The colour of a herd unit. -/
def unitColor? (e : Entity) : Option Color :=
  match e.kind with
  | .herdUnit color _ => some color
  | _ => none

/-- The colour of a herd target. -/
def targetColor? (e : Entity) : Option Color :=
  match e.kind with
  | .herdTarget color _ => some color
  | _ => none

/-- A unit that was dropped on no target. -/
def isFreeUnit (e : Entity) : Bool := e.unitColor?.isSome && e.kind.link?.isNone

/-- A target that no unit was dropped on. -/
def isFreeTarget (e : Entity) : Bool := e.targetColor?.isSome && e.kind.link?.isNone

section Colors
variable {e : Entity} {c : Color}

theorem unitColor?_eq_some_iff : e.unitColor? = some c ↔ ∃ t, e.kind = .herdUnit c t := by
  unfold unitColor?
  cases e.kind <;> simp

theorem targetColor?_eq_some_iff : e.targetColor? = some c ↔ ∃ u, e.kind = .herdTarget c u := by
  unfold targetColor?
  cases e.kind <;> simp

theorem isFreeUnit_iff : e.isFreeUnit = true ↔ ∃ c, e.kind = .herdUnit c none := by
  unfold isFreeUnit unitColor?
  cases e.kind <;> simp [Kind.link?]

theorem isFreeTarget_iff : e.isFreeTarget = true ↔ ∃ c, e.kind = .herdTarget c none := by
  unfold isFreeTarget targetColor?
  cases e.kind <;> simp [Kind.link?]

end Colors

end Entity

end Shepherd.Grid
