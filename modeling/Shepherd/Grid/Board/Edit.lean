import Shepherd.Grid.Board.Basic

/-!
# Editing boards

Objects can be added and removed, and a board can be given another side. An edit that fails names
its cause and gives no board, so nothing of it remains. Removing an entity, by itself or because it
does not survive a resize, also clears every link and the carry slot that named it.
-/

namespace Shepherd.Grid.Board

/-- New entities with consecutive identities from `id` on. -/
def numbered (id : EntityId) : List (Position × Kind) → List Entity
  | [] => []
  | (pos, kind) :: rest => .ofKind id pos kind :: numbered (id + 1) rest

/-- Adds the objects of the items; gives the new board and the new identities. Either all cells are
on the board, or nothing is added. -/
def addItems (b : Board) (items : List Item) : Except BoardError (Board × List EntityId) :=
  let staged := items.flatMap (Item.expand b.size)
  match firstOutside? b.size (staged.map (·.1)) with
  | some pos => .error (.outOfBounds pos b.size)
  | none =>
    let added := numbered b.nextId staged
    .ok ({ b with objects := b.objects ++ added, nextId := b.nextId + added.length },
      added.map (·.id))

/-- The board of a level, with all its items. -/
def ofLevel (l : Level) : Except BoardError Board := do
  let b ← ofLayout l.layout
  let (b, _) ← b.addItems l.items
  return b

/-- Whether an entity with a given identity is on the board. -/
def contains (b : Board) (id : EntityId) : Bool := b.entities.any (·.id == id)

/-- An entity without a link to what is no longer on the board. -/
def pruned (b : Board) (e : Entity) : Entity :=
  { e with kind := e.kind.withLink (e.kind.link?.filter b.contains) }

/-- Clears the links and the carry slot that name what is no longer on the board. -/
def pruneLinks (b : Board) : Board :=
  { b with
    objects := b.objects.map b.pruned
    carrying := b.carrying.filter b.contains }

/-- Removes an object; gives the new board and the object as it was. -/
def remove (b : Board) (id : EntityId) : Except BoardError (Board × Entity) :=
  match b.entity? id with
  | none => .error (.unknownEntity id)
  | some e =>
    if id = b.agent.id ∨ id = b.exit.id then .error (.fixedEntity id)
    else .ok (pruneLinks { b with objects := b.objects.filter (·.id != id) }, e)

/-- Puts the carried unit on the agent's cell. -/
def trackCarried (b : Board) : Board :=
  match b.carrying with
  | none => b
  | some id =>
    { b with
      objects := b.objects.map fun e => if e.id = id then { e with pos := b.agent.pos } else e }

/-- Whether an object stays on a board that gets the side `size`: it is off the old edge, and its
cell is still there. -/
def survives (b : Board) (size : Int) (e : Entity) : Bool :=
  !e.pos.onEdge b.size && e.pos.inBounds size

/-- The board with another side. Agent and exit move to their nearest cells. -/
def resized (b : Board) (size : Int) : Except BoardError Board :=
  if size ≤ 0 then .error (.invalidSize size)
  else
    .ok <| trackCarried <| pruneLinks
      { b with
        size := size
        agent := { b.agent with pos := b.agent.pos.clamp size }
        exit := { b.exit with pos := b.exit.pos.clamp size }
        objects := b.objects.filter (b.survives size) }

end Shepherd.Grid.Board
