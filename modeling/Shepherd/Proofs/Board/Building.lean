import Shepherd.Proofs.Board.Integrity
import Shepherd.Proofs.Board.Ring

/-!
# Building boards

A level is built if it has cells and all the cells that it names are among them; a ring names none
and always fits. The first cell that does not fit is the one that is reported. It makes no
difference whether the items are added at once, one by one, or in any other parts: the entities come
out in the order of the items and get consecutive identities, and the first part that does not fit
fails as all of them at once would.
-/

namespace Shepherd.Grid

/-- How many entities an item puts on a board of a given side. -/
def Item.count (size : Int) : Item → Nat
  | .surround _ => if size = 1 then 1 else 4 * (size.toNat - 1)
  | .block .. | .sheep .. | .target .. => 1

theorem Item.length_expand (size : Int) (item : Item) :
    (item.expand size).length = item.count size := by
  cases item with
  | block | sheep | target => rfl
  | surround => rw [expand, List.length_map, Position.length_ring, count]

namespace Board

/-! ### The first cell that does not fit -/

/-- The cell is not on a board of the given side, and the cells before it are. -/
def FirstOutside (size : Int) (cells : List Position) (p : Position) : Prop :=
  p.inBounds size = false ∧
    ∃ before after, cells = before ++ p :: after ∧ ∀ q ∈ before, q.inBounds size = true

section Outside
variable {size : Int} {cells : List Position}

theorem firstOutside?_eq_some_iff {p : Position} :
    firstOutside? size cells = some p ↔ FirstOutside size cells p := by
  simp only [firstOutside?, List.find?_eq_some_iff_append, Bool.not_eq_true', Bool.not_not,
    FirstOutside]

theorem firstOutside?_eq_none_iff :
    firstOutside? size cells = none ↔ ∀ p ∈ cells, p.inBounds size = true := by
  simp only [firstOutside?, List.find?_eq_none, Bool.not_eq_true', Bool.not_eq_false]

theorem firstOutside?_append (size : Int) (first second : List Position) :
    firstOutside? size (first ++ second) =
      (firstOutside? size first).or (firstOutside? size second) :=
  List.find?_append

/-- A ring fits on every board, so the items fit if the cells do that they name. -/
theorem firstOutside?_expand (size : Int) (items : List Item) :
    firstOutside? size ((items.flatMap (Item.expand size)).map (·.1)) =
      firstOutside? size (items.filterMap Item.cell?) := by
  induction items with
  | nil => rfl
  | cons item items ih =>
    rw [List.flatMap_cons, List.map_append, firstOutside?_append, ih]
    cases item with
    | block _ pos | sheep pos _ | target pos _ => exact (firstOutside?_append size [pos] _).symm
    | surround block =>
      have hring : firstOutside? size (((Item.surround block).expand size).map (·.1)) = none := by
        rw [firstOutside?_eq_none_iff]
        simp only [Item.expand, List.map_map, Function.comp_def, List.map_id']
        exact fun p hp => (Position.mem_ring_iff.1 hp).1
      rw [hring, Option.none_or]
      rfl

end Outside

/-! ### Adding, written out -/

section Numbering
variable (id : EntityId) (staged : List (Position × Kind))

theorem numbered_append (more : List (Position × Kind)) :
    numbered id (staged ++ more) = numbered id staged ++ numbered (id + staged.length) more := by
  induction staged generalizing id with
  | nil => rfl
  | cons s rest ih =>
    rw [List.cons_append, numbered, numbered, ih, List.cons_append, List.length_cons,
      Nat.add_right_comm, Nat.add_assoc]

theorem map_id_numbered : (numbered id staged).map (·.id) = List.range' id staged.length := by
  induction staged generalizing id with
  | nil => rfl
  | cons s rest ih => rw [numbered, List.map_cons, ih, List.length_cons, List.range'_succ]; rfl

theorem map_kind_numbered : (numbered id staged).map (fun e => (e.pos, e.kind)) = staged := by
  induction staged generalizing id with
  | nil => rfl
  | cons s rest ih => rw [numbered, List.map_cons, ih]; rfl

end Numbering

/-- The board with new entities behind the others, whether they fit or not. -/
def extended (b : Board) (staged : List (Position × Kind)) : Board :=
  { b with
    objects := b.objects ++ numbered b.nextId staged
    nextId := b.nextId + staged.length }

@[simp] theorem extended_size (b : Board) (staged : List (Position × Kind)) :
    (b.extended staged).size = b.size := rfl

@[simp] theorem extended_nextId (b : Board) (staged : List (Position × Kind)) :
    (b.extended staged).nextId = b.nextId + staged.length := rfl

theorem extended_append (b : Board) (first second : List (Position × Kind)) :
    b.extended (first ++ second) = (b.extended first).extended second := by
  simp only [extended, numbered_append, List.append_assoc, List.length_append, Nat.add_assoc]

/-- The number of entities that items put on a board. -/
def countOf (size : Int) : List Item → Nat
  | [] => 0
  | item :: items => item.count size + countOf size items

theorem length_flatMap_expand (size : Int) (items : List Item) :
    (items.flatMap (Item.expand size)).length = countOf size items := by
  induction items with
  | nil => rfl
  | cons item items ih =>
    rw [List.flatMap_cons, List.length_append, Item.length_expand, ih, countOf]

theorem countOf_append (size : Int) (first second : List Item) :
    countOf size (first ++ second) = countOf size first + countOf size second := by
  simp only [← length_flatMap_expand, List.flatMap_append, List.length_append]

/-- What adding comes to: the error names the first cell that does not fit; otherwise the entities
of the items are put behind the others, with the next identities. -/
theorem addItems_eq (b : Board) (items : List Item) :
    b.addItems items =
      match firstOutside? b.size (items.filterMap Item.cell?) with
      | some pos => .error (.outOfBounds pos b.size)
      | none => .ok (b.extended (items.flatMap (Item.expand b.size)),
          List.range' b.nextId (countOf b.size items)) := by
  unfold addItems
  dsimp only
  rw [firstOutside?_expand]
  cases firstOutside? b.size (items.filterMap Item.cell?) with
  | some pos => rfl
  | none => simp only [length_numbered, map_id_numbered, length_flatMap_expand, extended]

/-! ### Adding in parts -/

/-- Adds items part by part; gives the new board and the new identities of each part. -/
def addEach (b : Board) : List (List Item) → Except BoardError (Board × List (List EntityId))
  | [] => .ok (b, [])
  | items :: rest => do
    let (b, ids) ← b.addItems items
    let (b, later) ← b.addEach rest
    return (b, ids :: later)

/-- Consecutive numbers in portions. -/
def portions (start : Nat) : List Nat → List (List Nat)
  | [] => []
  | n :: rest => List.range' start n :: portions (start + n) rest

/-- The portions of parts are the consecutive numbers of the whole. -/
theorem flatten_portions (start : Nat) (size : Int) (parts : List (List Item)) :
    (portions start (parts.map (countOf size))).flatten =
      List.range' start (countOf size parts.flatten) := by
  induction parts generalizing start with
  | nil => rfl
  | cons items rest ih =>
    rw [List.map_cons, portions, List.flatten_cons, ih, List.flatten_cons, countOf_append,
      ← List.range'_append_1]

/-- Adding in parts fails as adding at once does, or gives the same board; each part then gets as
many of the consecutive identities as it has entities. -/
theorem addEach_eq (b : Board) (parts : List (List Item)) :
    b.addEach parts = (b.addItems parts.flatten).map fun added =>
      (added.1, portions b.nextId (parts.map (countOf b.size))) := by
  induction parts generalizing b with
  | nil => simp [addEach, addItems_eq, firstOutside?, extended, numbered, portions, Except.map]
  | cons items rest ih =>
    rw [List.flatten_cons, addItems_eq, List.filterMap_append, firstOutside?_append, addEach,
      addItems_eq]
    cases firstOutside? b.size (items.filterMap Item.cell?) with
    | some pos => rfl
    | none =>
      simp only [Option.none_or, bind, Except.bind, ih, addItems_eq, extended_size, extended_nextId]
      cases firstOutside? b.size (rest.flatten.filterMap Item.cell?) with
      | some pos => rfl
      | none =>
        simp only [Except.map, pure, Except.pure, List.flatMap_append, extended_append,
          length_flatMap_expand, List.map_cons, portions]

theorem map_length_portions (start : Nat) (ns : List Nat) :
    (portions start ns).map List.length = ns := by
  induction ns generalizing start with
  | nil => rfl
  | cons n rest ih => rw [portions, List.map_cons, ih, List.length_range']

/-! ### Levels -/

/-- The board of a layout, whether it has cells for its agent and its exit or not. -/
def bare (l : Layout) : Board where
  size := l.size
  agent := .ofKind agentId l.player.position .agent
  exit := .ofKind exitId l.exit .exitZone
  objects := []
  limits := l.limits
  nextId := exitId + 1
  facing := l.player.facing
  carrying := none

theorem ofLayout_eq (l : Layout) :
    ofLayout l =
      if l.size ≤ 0 then .error (.invalidSize l.size)
      else match firstOutside? l.size [l.player.position, l.exit] with
        | some pos => .error (.outOfBounds pos l.size)
        | none => .ok (bare l) := rfl

/-- What building comes to: the side is checked first, then the cells in order. -/
theorem ofLevel_eq (l : Level) :
    ofLevel l =
      if l.layout.size ≤ 0 then .error (.invalidSize l.layout.size)
      else match firstOutside? l.layout.size l.cells with
        | some pos => .error (.outOfBounds pos l.layout.size)
        | none => .ok ((bare l.layout).extended (l.items.flatMap (Item.expand l.layout.size))) := by
  have hcells : l.cells =
      [l.layout.player.position, l.layout.exit] ++ l.items.filterMap Item.cell? := rfl
  have hsize : (bare l.layout).size = l.layout.size := rfl
  rw [ofLevel, ofLayout_eq, hcells, firstOutside?_append]
  split
  · rfl
  · cases firstOutside? l.layout.size [l.layout.player.position, l.layout.exit] with
    | some pos => rfl
    | none =>
      simp only [bind, Except.bind, addItems_eq, hsize, Option.none_or]
      cases firstOutside? l.layout.size (l.items.filterMap Item.cell?) with
      | some pos => rfl
      | none => rfl

theorem ofLevel_eq_ok_iff {l : Level} {b : Board} :
    ofLevel l = .ok b ↔
      0 < l.layout.size ∧ (∀ p ∈ l.cells, p.inBounds l.layout.size = true) ∧
        b = (bare l.layout).extended (l.items.flatMap (Item.expand l.layout.size)) := by
  rw [ofLevel_eq, ← firstOutside?_eq_none_iff]
  by_cases hsize : l.layout.size ≤ 0
  · rw [if_pos hsize]
    exact ⟨nofun, fun h => absurd h.1 (Int.not_lt.2 hsize)⟩
  · rw [if_neg hsize]
    cases firstOutside? l.layout.size l.cells with
    | some pos => exact ⟨nofun, fun h => nomatch h.2.1⟩
    | none =>
      exact ⟨fun h => ⟨Int.not_le.1 hsize, rfl, (Except.ok.inj h).symm⟩, fun h => by rw [h.2.2]⟩

theorem ofLevel_eq_error_iff {l : Level} {e : BoardError} :
    ofLevel l = .error e ↔
      l.layout.size ≤ 0 ∧ e = .invalidSize l.layout.size ∨
      0 < l.layout.size ∧
        ∃ p, FirstOutside l.layout.size l.cells p ∧ e = .outOfBounds p l.layout.size := by
  simp only [← firstOutside?_eq_some_iff]
  rw [ofLevel_eq]
  by_cases hsize : l.layout.size ≤ 0
  · rw [if_pos hsize]
    constructor
    · intro h
      exact .inl ⟨hsize, (Except.error.inj h).symm⟩
    · rintro (⟨-, rfl⟩ | ⟨hpos, -⟩)
      · rfl
      · exact absurd hpos (Int.not_lt.2 hsize)
  · rw [if_neg hsize]
    cases firstOutside? l.layout.size l.cells with
    | some pos =>
      constructor
      · intro h
        exact .inr ⟨Int.not_le.1 hsize, pos, rfl, (Except.error.inj h).symm⟩
      · rintro (⟨hsize', -⟩ | ⟨-, p, hp, rfl⟩)
        · exact absurd hsize' hsize
        · rw [Option.some.inj hp]
    | none =>
      constructor
      · nofun
      · rintro (⟨hsize', -⟩ | ⟨-, p, hp, -⟩)
        · exact absurd hsize' hsize
        · cases hp

/-- What stands on the board of a level, and that its items could have been added in any parts. -/
structure Built (l : Level) (b : Board) : Prop where
  /-- Agent and exit come first, then the entities of the items in order. -/
  entities : b.entities.map (fun e => (e.pos, e.kind)) =
    (l.layout.player.position, .agent) :: (l.layout.exit, .exitZone) ::
      l.items.flatMap (Item.expand l.layout.size)
  ids : b.entities.map (·.id) = List.range (2 + countOf l.layout.size l.items)
  /-- However the items are parted, each part gets as many identities as it has entities. -/
  parts : ∃ b₀, ofLayout l.layout = .ok b₀ ∧ ∀ parts, parts.flatten = l.items →
    ∃ ids, b₀.addEach parts = .ok (b, ids) ∧
      ids.flatten = List.range' 2 (countOf l.layout.size l.items) ∧
      ids.map List.length = parts.map (countOf l.layout.size)

theorem built_extended {l : Level} (hsize : 0 < l.layout.size)
    (hcells : ∀ p ∈ l.cells, p.inBounds l.layout.size = true) :
    Built l ((bare l.layout).extended (l.items.flatMap (Item.expand l.layout.size))) where
  entities := by
    simp only [entities_def, extended, bare, List.nil_append, List.map_cons, map_kind_numbered]
    rfl
  ids := by
    simp only [entities_def, extended, bare, List.nil_append, List.map_cons, map_id_numbered,
      length_flatMap_expand, List.range_eq_range', Nat.add_comm 2, List.range'_succ]
    rfl
  parts := by
    have hplayer := hcells _ List.mem_cons_self
    have hexit := hcells _ (List.mem_cons_of_mem _ List.mem_cons_self)
    have hlayout : firstOutside? l.layout.size [l.layout.player.position, l.layout.exit] = none := by
      simp [firstOutside?_eq_none_iff, hplayer, hexit]
    have hitems : firstOutside? l.layout.size (l.items.filterMap Item.cell?) = none :=
      firstOutside?_eq_none_iff.2 fun p hp =>
        hcells p (List.mem_cons_of_mem _ (List.mem_cons_of_mem _ hp))
    refine ⟨bare l.layout, ?_, fun parts hparts =>
      ⟨portions 2 (parts.map (countOf l.layout.size)), ?_, ?_, ?_⟩⟩
    · rw [ofLayout_eq, if_neg (Int.not_le.2 hsize), hlayout]
    · have hbare : (bare l.layout).size = l.layout.size := rfl
      rw [addEach_eq, hparts, addItems_eq, hbare, hitems]
      rfl
    · rw [flatten_portions, hparts]
    · exact map_length_portions 2 _

/-- **Building a level is adding its items one by one.** It succeeds if there are cells and every
cell that the level names is one of them. Otherwise its error is the side, or else the first cell
that does not fit. The board has the agent, the exit and the entities of the items in order,
numbered from zero on, and is the one that the items lead to when they are added in any parts; a
ring is as many entities as it has cells. -/
theorem ofLevel_exact (l : Level) :
    ((∃ b, ofLevel l = .ok b) ↔
      0 < l.layout.size ∧ ∀ p ∈ l.cells, p.inBounds l.layout.size = true) ∧
    (∀ e, ofLevel l = .error e ↔
      l.layout.size ≤ 0 ∧ e = .invalidSize l.layout.size ∨
      0 < l.layout.size ∧
        ∃ p, FirstOutside l.layout.size l.cells p ∧ e = .outOfBounds p l.layout.size) ∧
    (∀ b, ofLevel l = .ok b → Built l b) ∧
    ∀ block, 0 < l.layout.size → (((Item.surround block).expand l.layout.size).length : Int) =
      if l.layout.size = 1 then 1 else 4 * (l.layout.size - 1) := by
  refine ⟨?_, fun e => ofLevel_eq_error_iff, fun b hb => ?_, fun block hsize => ?_⟩
  · constructor
    · rintro ⟨b, hb⟩
      obtain ⟨hsize, hcells, -⟩ := ofLevel_eq_ok_iff.1 hb
      exact ⟨hsize, hcells⟩
    · rintro ⟨hsize, hcells⟩
      exact ⟨_, ofLevel_eq_ok_iff.2 ⟨hsize, hcells, rfl⟩⟩
  · obtain ⟨hsize, hcells, rfl⟩ := ofLevel_eq_ok_iff.1 hb
    exact built_extended hsize hcells
  · rw [Item.length_expand, Item.count]
    split
    · rfl
    · omega

/-- A ring between a unit and a target, and then a wall off the board. -/
theorem ofLevel_exact_ring_between : ∃ l b b₀ ids, l.layout.size = 3 ∧
    l.items = [.sheep ⟨1, 1⟩ .red, .surround .wall, .target ⟨2, 0⟩ .red] ∧ ofLevel l = .ok b ∧
    b.entities.map (·.id) = List.range 12 ∧ ofLayout l.layout = .ok b₀ ∧
    b₀.addEach (l.items.map ([·])) = .ok (b, ids) ∧ ids.map List.length = [1, 8, 1] ∧
    ofLevel { l with items := l.items ++ [.block .wall ⟨3, 0⟩] } = .error (.outOfBounds ⟨3, 0⟩ 3) := by
  let items : List Item := [.sheep ⟨1, 1⟩ .red, .surround .wall, .target ⟨2, 0⟩ .red]
  let l : Level := ⟨⟨3, ⟨⟨0, 1⟩, .north⟩, ⟨1, 2⟩, .none⟩, items⟩
  obtain ⟨hbuilds, -, hbuilt, -⟩ := ofLevel_exact l
  obtain ⟨b, hb⟩ := hbuilds.2 ⟨by decide, by decide⟩
  obtain ⟨-, hids, b₀, hlayout, hparts⟩ := hbuilt b hb
  obtain ⟨ids, hadd, -, hlengths⟩ := hparts (l.items.map ([·])) rfl
  obtain ⟨-, hfails, -⟩ := ofLevel_exact { l with items := items ++ [.block .wall ⟨3, 0⟩] }
  refine ⟨l, b, b₀, ids, rfl, rfl, hb, hids, hlayout, hadd, hlengths, (hfails _).2 (.inr ?_)⟩
  have hbefore : ∀ q ∈ [⟨0, 1⟩, ⟨1, 2⟩, ⟨1, 1⟩, ⟨2, 0⟩], Position.inBounds q 3 = true := by decide
  exact ⟨by decide, ⟨3, 0⟩, ⟨by decide, _, [], rfl, hbefore⟩, rfl⟩

end Board

end Shepherd.Grid
