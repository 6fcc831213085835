import Mathlib.Data.List.Forall2
import Shepherd.Grid.Level.Reader
import Shepherd.Grid.Level.Writer
import Shepherd.Proofs.Data.Fields
import Shepherd.Proofs.Data.Json.Printed
import Shepherd.Proofs.Grid.Position

/-!
# Levels written and read

The normal form of a level reads as that level, as a tree in either notation and as a text in JSON,
provided that its numbers fit the words that a level file has for them. The levels that are read
are of this kind, so whatever text a level came from, its normal form stands for it.
-/

namespace Shepherd.Grid
open Data

variable {shape : Shape} {outer : Nat} {t : Tree} {p : Position} {item : Item} {l : Level}

/-- The side of a level and the coordinates of its cells fit signed words of 32 bits. -/
structure Level.FitsWords (l : Level) : Prop where
  size : -0x80000000 ≤ l.layout.size ∧ l.layout.size < 0x80000000
  cells : ∀ pos ∈ l.cells, pos.FitsWords

instance (l : Level) : Decidable l.FitsWords :=
  decidable_of_iff
    ((-0x80000000 ≤ l.layout.size ∧ l.layout.size < 0x80000000) ∧ ∀ pos ∈ l.cells, pos.FitsWords)
    ⟨fun ⟨hsize, hcells⟩ => ⟨hsize, hcells⟩, fun h => ⟨h.size, h.cells⟩⟩

namespace Level

/-- The cells of a level are those that its parts name. -/
theorem forall_mem_cells {P : Position → Prop} :
    (∀ pos ∈ l.cells, P pos) ↔ P l.layout.player.position ∧ P l.layout.exit ∧
      ∀ item ∈ l.items, ∀ pos ∈ item.cell?, P pos := by
  rw [cells, List.forall_mem_cons, List.forall_mem_cons]
  refine and_congr_right fun _ => and_congr_right fun _ => ⟨?_, ?_⟩
  · intro h item hitem pos hpos
    exact h pos (List.mem_filterMap.2 ⟨item, hitem, hpos⟩)
  · intro h pos hpos
    obtain ⟨item, hitem, hcell⟩ := List.mem_filterMap.1 hpos
    exact h item hitem pos hcell

theorem FitsWords.start (h : l.FitsWords) : l.layout.player.position.FitsWords :=
  (forall_mem_cells.1 h.cells).1

theorem FitsWords.exit (h : l.FitsWords) : l.layout.exit.FitsWords :=
  (forall_mem_cells.1 h.cells).2.1

theorem FitsWords.items (h : l.FitsWords) : ∀ item ∈ l.items, ∀ pos ∈ item.cell?, pos.FitsWords :=
  (forall_mem_cells.1 h.cells).2.2

end Level

/-! ### Reading what was written -/

theorem Position.ofTree?_toTree (shape : Shape) (h : p.FitsWords) :
    ofTree? shape p.toTree = some p := by
  have hfields : shape.fields ["x", "y"] p.toTree = some [some (.integer p.x), some (.integer p.y)] :=
    shape.fields_zip ["x", "y"] [.integer p.x, .integer p.y] (by decide) rfl
  have hx : (Tree.integer p.x).int32? = some p.x := Tree.int32?_eq_some_iff.2 ⟨rfl, h.x⟩
  have hy : (Tree.integer p.y).int32? = some p.y := Tree.int32?_eq_some_iff.2 ⟨rfl, h.y⟩
  simp only [ofTree?, hfields, hx, hy, Option.bind_eq_bind, Option.bind_some]
  rfl

theorem Limits.limit?_limitToTree (limit : Option UInt32) :
    (limitToTree limit).limit? = some limit := by
  cases limit with
  | none => rfl
  | some n =>
    have hword : (Tree.integer n.toNat).uint32? = some n := Tree.uint32?_eq_some_iff.2 rfl
    show ((Tree.integer n.toNat).uint32?).map some = _
    rw [hword]
    rfl

theorem Limits.ofTree?_toTree (shape : Shape) (limits : Limits) :
    ofTree? shape limits.toTree = some limits := by
  have hfields : shape.fields ["max_actions", "max_calls", "max_chars"] limits.toTree =
      some [some (limitToTree limits.maxActions), some (limitToTree limits.maxCalls),
        some (limitToTree limits.maxChars)] :=
    shape.fields_zip ["max_actions", "max_calls", "max_chars"] [limitToTree limits.maxActions,
      limitToTree limits.maxCalls, limitToTree limits.maxChars] (by decide) rfl
  simp only [ofTree?, hfields, Shape.orDefault, limit?_limitToTree, Option.bind_eq_bind,
    Option.bind_some]
  rfl

theorem Start.ofTree?_toTree (shape : Shape) {start : Start} (h : start.position.FitsWords) :
    ofTree? shape start.toTree = some start := by
  have hfields : shape.fields ["position", "facing"] start.toTree =
      some [some start.position.toTree, some (.text start.facing.name)] :=
    shape.fields_zip ["position", "facing"] [start.position.toTree, .text start.facing.name]
      (by decide) rfl
  simp only [ofTree?, hfields, Position.ofTree?_toTree shape h, Shape.orDefault,
    Direction.ofTree?, Shape.choice, Direction.ofName?_name, Option.bind_eq_bind, Option.bind_some]
  rfl

theorem Layout.ofTree?_toTree (shape : Shape) (h : l.FitsWords) :
    ofTree? shape l.layout.toTree = some l.layout := by
  have hfields : shape.fields ["size", "player", "exit", "limits"] l.layout.toTree =
      some [some (.integer l.layout.size), some l.layout.player.toTree,
        some l.layout.exit.toTree, some l.layout.limits.toTree] :=
    shape.fields_zip ["size", "player", "exit", "limits"] [.integer l.layout.size,
      l.layout.player.toTree, l.layout.exit.toTree, l.layout.limits.toTree] (by decide) rfl
  have hsize : (Tree.integer l.layout.size).int32? = some l.layout.size :=
    Tree.int32?_eq_some_iff.2 ⟨rfl, h.size⟩
  simp only [ofTree?, hfields, hsize, Start.ofTree?_toTree shape h.start,
    Position.ofTree?_toTree shape h.exit, Shape.orDefault, Limits.ofTree?_toTree,
    Option.bind_eq_bind, Option.bind_some]
  rfl

namespace Item

/-- An item lies within every depth that has room for its table and the one of its cell. -/
theorem fits_toTree (item : Item) (levels : Nat) : item.toTree.fits (levels + 2) = true := by
  cases item <;> rfl

theorem ofKind?_block (kind : Obstacle) {pos : Position} (h : pos.FitsWords) :
    ofKind? kind.name (.table [("pos", pos.toTree)]) = some (.block kind pos) := by
  have hfields : Shape.tagged.fields ["pos"] (.table [("pos", pos.toTree)]) =
      some [some pos.toTree] :=
    Shape.tagged.fields_zip ["pos"] [pos.toTree] (by decide) rfl
  have hblock : ofKind?.block (.table [("pos", pos.toTree)]) kind = some (.block kind pos) := by
    simp only [ofKind?.block, hfields, Position.ofTree?_toTree _ h, Option.bind_eq_bind,
      Option.bind_some]
    rfl
  cases kind <;> exact hblock

theorem colored_toTree (make : Position → Color → Item) {pos : Position} (h : pos.FitsWords)
    (color : Color) :
    ofKind?.colored (.table [("pos", pos.toTree), ("color", .text color.name)]) make =
      some (make pos color) := by
  have hfields : Shape.tagged.fields ["pos", "color"]
      (.table [("pos", pos.toTree), ("color", .text color.name)]) =
      some [some pos.toTree, some (.text color.name)] :=
    Shape.tagged.fields_zip ["pos", "color"] [pos.toTree, .text color.name] (by decide) rfl
  simp only [ofKind?.colored, hfields, Position.ofTree?_toTree _ h, Shape.orDefault,
    Color.ofTree?, Shape.choice, Color.ofName?_name, Option.bind_eq_bind, Option.bind_some]
  rfl

theorem ofKind?_surround (kind : Obstacle) :
    ofKind? "surround" (.table [("block", .text kind.name)]) = some (.surround kind) := by
  have hfields : Shape.tagged.fields ["block"] (.table [("block", .text kind.name)]) =
      some [some (.text kind.name)] :=
    Shape.tagged.fields_zip ["block"] [.text kind.name] (by decide) rfl
  simp only [ofKind?, hfields, Obstacle.ofTree?, Shape.choice, Obstacle.ofName?_name,
    Option.bind_eq_bind, Option.bind_some]
  rfl

theorem ofTree?_toTree (hadmits : shape.admits outer item.toTree = true)
    (h : ∀ pos ∈ item.cell?, pos.FitsWords) : ofTree? shape outer item.toTree = some item := by
  unfold ofTree?
  rw [if_pos hadmits]
  cases item with
  | block kind pos => exact ofKind?_block kind (h pos rfl)
  | sheep pos color => exact colored_toTree .sheep (h pos rfl) color
  | target pos color => exact colored_toTree .target (h pos rfl) color
  | surround kind => exact ofKind?_surround kind

end Item

theorem mapM_eq_some_iff {α β : Type} {f : α → Option β} {as : List α} {bs : List β} :
    as.mapM f = some bs ↔ List.Forall₂ (fun a b => f a = some b) as bs := by
  induction as generalizing bs with
  | nil => cases bs <;> simp
  | cons a as ih =>
    simp only [List.mapM_cons, Option.bind_eq_bind, Option.bind_eq_some_iff, Option.pure_def,
      Option.some.injEq, ih]
    constructor
    · rintro ⟨b, hb, bs, hbs, rfl⟩
      exact .cons hb hbs
    · rintro (_ | ⟨hb, hbs⟩)
      exact ⟨_, hb, _, hbs, rfl⟩

/-- Whatever the notation, the normal form of a level reads as that level. -/
theorem Level.ofTree?_toTree (hdepth : ∀ depth ∈ shape.maxDepth, 4 ≤ depth) (h : l.FitsWords) :
    ofTree? shape l.toTree = some l := by
  have hfields : shape.fields ["board", "objects"] l.toTree =
      some [some l.layout.toTree, some (.list (l.items.map Item.toTree))] :=
    shape.fields_zip ["board", "objects"] [l.layout.toTree, .list (l.items.map Item.toTree)]
      (by decide) rfl
  have hadmits (item : Item) : shape.admits 2 item.toTree = true := by
    rw [Shape.admits]
    split
    · next depth hmax =>
      have hroom := hdepth depth hmax
      obtain ⟨levels, rfl⟩ : ∃ levels, depth = levels + 4 := ⟨depth - 4, by omega⟩
      exact item.fits_toTree levels
    · rfl
  have hitems : (l.items.map Item.toTree).mapM (Item.ofTree? shape 2) = some l.items := by
    rw [mapM_eq_some_iff, List.forall₂_map_left_iff, List.forall₂_same]
    exact fun item hitem => Item.ofTree?_toTree (hadmits item) (h.items item hitem)
  simp only [ofTree?, hfields, Layout.ofTree?_toTree shape h, Shape.orDefault, itemsOfTree?, hitems,
    Option.bind_eq_bind, Option.bind_some]
  rfl

/-! ### What was read -/

theorem Position.fitsWords_of_ofTree? (h : ofTree? shape t = some p) : p.FitsWords := by
  obtain ⟨values, -, h⟩ := Option.bind_eq_some_iff.1 h
  split at h
  · obtain ⟨x, hx, h⟩ := Option.bind_eq_some_iff.1 h
    obtain ⟨y, hy, h⟩ := Option.bind_eq_some_iff.1 h
    cases h
    exact ⟨(Tree.int32?_eq_some_iff.1 hx).2, (Tree.int32?_eq_some_iff.1 hy).2⟩
  · cases h

theorem Start.fitsWords_of_ofTree? {start : Start} (h : ofTree? shape t = some start) :
    start.position.FitsWords := by
  obtain ⟨values, -, h⟩ := Option.bind_eq_some_iff.1 h
  split at h
  · obtain ⟨position, hposition, h⟩ := Option.bind_eq_some_iff.1 h
    obtain ⟨facing, -, h⟩ := Option.bind_eq_some_iff.1 h
    cases h
    exact Position.fitsWords_of_ofTree? hposition
  · cases h

theorem Layout.fitsWords_of_ofTree? {layout : Layout} (h : ofTree? shape t = some layout) :
    (-0x80000000 ≤ layout.size ∧ layout.size < 0x80000000) ∧
      layout.player.position.FitsWords ∧ layout.exit.FitsWords := by
  obtain ⟨values, -, h⟩ := Option.bind_eq_some_iff.1 h
  split at h
  · obtain ⟨size, hsize, h⟩ := Option.bind_eq_some_iff.1 h
    obtain ⟨player, hplayer, h⟩ := Option.bind_eq_some_iff.1 h
    obtain ⟨exit, hexit, h⟩ := Option.bind_eq_some_iff.1 h
    obtain ⟨limits, -, h⟩ := Option.bind_eq_some_iff.1 h
    cases h
    exact ⟨(Tree.int32?_eq_some_iff.1 hsize).2, Start.fitsWords_of_ofTree? hplayer,
      Position.fitsWords_of_ofTree? hexit⟩
  · cases h

namespace Item

theorem cell?_of_block {kind : Obstacle} (h : ofKind?.block t kind = some item) :
    ∀ pos ∈ item.cell?, pos.FitsWords := by
  obtain ⟨values, -, h⟩ := Option.bind_eq_some_iff.1 h
  split at h
  · obtain ⟨pos, hpos, h⟩ := Option.bind_eq_some_iff.1 h
    cases h
    rintro _ ⟨⟩
    exact Position.fitsWords_of_ofTree? hpos
  · cases h

theorem cell?_of_colored {make : Position → Color → Item}
    (hmake : ∀ pos color, (make pos color).cell? = some pos)
    (h : ofKind?.colored t make = some item) : ∀ pos ∈ item.cell?, pos.FitsWords := by
  obtain ⟨values, -, h⟩ := Option.bind_eq_some_iff.1 h
  split at h
  · obtain ⟨pos, hpos, h⟩ := Option.bind_eq_some_iff.1 h
    obtain ⟨color, -, h⟩ := Option.bind_eq_some_iff.1 h
    cases h
    rw [hmake]
    rintro _ ⟨⟩
    exact Position.fitsWords_of_ofTree? hpos
  · cases h

theorem cell?_of_ofKind? {kind : String} (h : ofKind? kind t = some item) :
    ∀ pos ∈ item.cell?, pos.FitsWords := by
  unfold ofKind? at h
  split at h
  · exact cell?_of_block h
  · exact cell?_of_block h
  · exact cell?_of_block h
  · exact cell?_of_colored (fun _ _ => rfl) h
  · exact cell?_of_colored (fun _ _ => rfl) h
  · obtain ⟨values, -, h⟩ := Option.bind_eq_some_iff.1 h
    split at h
    · obtain ⟨kind, -, h⟩ := Option.bind_eq_some_iff.1 h
      cases h
      nofun
    · cases h
  · cases h

theorem cell?_of_ofTree? (h : ofTree? shape outer t = some item) :
    ∀ pos ∈ item.cell?, pos.FitsWords := by
  unfold ofTree? at h
  split at h
  · split at h
    · split at h
      · exact cell?_of_ofKind? h
      · cases h
    · exact cell?_of_ofKind? h
    · cases h
  · cases h

theorem cell?_of_forall₂ {ts : List Tree} {items : List Item}
    (h : List.Forall₂ (fun t item => ofTree? shape outer t = some item) ts items) :
    ∀ item ∈ items, ∀ pos ∈ item.cell?, pos.FitsWords := by
  induction h with
  | nil => nofun
  | cons hitem _ ih => exact List.forall_mem_cons.2 ⟨cell?_of_ofTree? hitem, ih⟩

end Item

theorem Level.cell?_of_itemsOfTree? {items : List Item} (h : itemsOfTree? shape t = some items) :
    ∀ item ∈ items, ∀ pos ∈ item.cell?, pos.FitsWords := by
  cases t with
  | list ts => exact Item.cell?_of_forall₂ (mapM_eq_some_iff.1 h)
  | _ => cases h

/-- Every level that is read fits. -/
theorem Level.fitsWords_of_ofTree? (h : ofTree? shape t = some l) : l.FitsWords := by
  obtain ⟨values, -, h⟩ := Option.bind_eq_some_iff.1 h
  split at h
  · obtain ⟨layout, hlayout, h⟩ := Option.bind_eq_some_iff.1 h
    obtain ⟨items, hitems, h⟩ := Option.bind_eq_some_iff.1 h
    cases h
    obtain ⟨hsize, hstart, hexit⟩ := Layout.fitsWords_of_ofTree? hlayout
    refine ⟨hsize, forall_mem_cells.2 ⟨hstart, hexit, ?_⟩⟩
    unfold Shape.orDefault at hitems
    split at hitems
    · cases hitems
      nofun
    · exact cell?_of_itemsOfTree? hitems
  · cases h

/-! ### Texts -/

theorem plain_integer {n : Int} (h : -0x80000000 ≤ n ∧ n < 0x80000000) :
    Json.Plain (.integer n) := by
  have hsize : UInt64.size = 0x10000000000000000 := rfl
  exact .integer (by omega)

theorem Position.plain_toTree (h : p.FitsWords) : Json.Plain p.toTree := by
  refine .table ?_
  rw [List.forall_mem_cons, List.forall_mem_singleton]
  exact ⟨plain_integer h.x, plain_integer h.y⟩

theorem Limits.plain_limitToTree (limit : Option UInt32) : Json.Plain (limitToTree limit) := by
  cases limit with
  | none => exact .null
  | some n =>
    have hword := n.toNat_lt
    have hsize : UInt64.size = 0x10000000000000000 := rfl
    exact .integer (by rw [Int.natAbs_natCast]; omega)

theorem Limits.plain_toTree (limits : Limits) : Json.Plain limits.toTree := by
  refine .table ?_
  rw [List.forall_mem_cons, List.forall_mem_cons, List.forall_mem_singleton]
  exact ⟨plain_limitToTree _, plain_limitToTree _, plain_limitToTree _⟩

theorem Start.plain_toTree {start : Start} (h : start.position.FitsWords) :
    Json.Plain start.toTree := by
  refine .table ?_
  rw [List.forall_mem_cons, List.forall_mem_singleton]
  exact ⟨Position.plain_toTree h, .text _⟩

theorem Layout.plain_toTree (h : l.FitsWords) : Json.Plain l.layout.toTree := by
  refine .table ?_
  rw [List.forall_mem_cons, List.forall_mem_cons, List.forall_mem_cons, List.forall_mem_singleton]
  exact ⟨plain_integer h.size, Start.plain_toTree h.start, Position.plain_toTree h.exit,
    l.layout.limits.plain_toTree⟩

theorem Item.plain_toTree (h : ∀ pos ∈ item.cell?, pos.FitsWords) : Json.Plain item.toTree := by
  cases item with
  | block kind pos =>
    refine .table ?_
    rw [List.forall_mem_cons, List.forall_mem_singleton]
    exact ⟨.text _, Position.plain_toTree (h pos rfl)⟩
  | sheep pos color | target pos color =>
    refine .table ?_
    rw [List.forall_mem_cons, List.forall_mem_cons, List.forall_mem_singleton]
    exact ⟨.text _, Position.plain_toTree (h pos rfl), .text _⟩
  | surround kind =>
    refine .table ?_
    rw [List.forall_mem_cons, List.forall_mem_singleton]
    exact ⟨.text _, .text _⟩

theorem Level.FitsWords.plain_toTree (h : l.FitsWords) : Json.Plain l.toTree := by
  have hitems : Json.Plain (.list (l.items.map Item.toTree)) := by
    refine .list ?_
    rw [List.forall_mem_map]
    exact fun item hitem => Item.plain_toTree (h.items item hitem)
  refine .table ?_
  rw [List.forall_mem_cons, List.forall_mem_singleton]
  exact ⟨Layout.plain_toTree h, hitems⟩

/-- The normal form of a level is a JSON text of it. -/
theorem Level.ofJson?_pretty (h : l.FitsWords) : ofJson? (Json.pretty 0 l.toTree) = some l := by
  rw [ofJson?, Json.read?_pretty h.plain_toTree, Option.bind_some]
  exact ofTree?_toTree (by decide) h

/-- **Levels round-trip through JSON.** The normal form of a level whose numbers fit their words
reads as that level, as a tree and as a text. A level that was read from any JSON text is of this
kind, so reading its normal form gives the same level again. -/
theorem Level.json_roundtrip :
    (∀ l : Level, l.FitsWords →
      ofTree? .json l.toTree = some l ∧ ofJson? (Json.pretty 0 l.toTree) = some l) ∧
    ∀ text l, ofJson? text = some l →
      l.FitsWords ∧ ofTree? .json l.toTree = some l ∧ ofJson? (Json.pretty 0 l.toTree) = some l := by
  have hnormal {l : Level} (h : l.FitsWords) :
      ofTree? .json l.toTree = some l ∧ ofJson? (Json.pretty 0 l.toTree) = some l :=
    ⟨ofTree?_toTree (by decide) h, ofJson?_pretty h⟩
  refine ⟨fun l h => hnormal h, fun text l hread => ?_⟩
  obtain ⟨t, -, htree⟩ := Option.bind_eq_some_iff.1 hread
  have hfits := fitsWords_of_ofTree? htree
  exact ⟨hfits, hnormal hfits⟩

/-- A level with items of every kind, the least and the largest numbers and all three sorts of
limits, and a text with keys in another order, lists for tables and fields left out. -/
theorem Level.json_roundtrip_extremes :
    let l : Level :=
      ⟨⟨-0x80000000, ⟨⟨0x7fffffff, -1⟩, .west⟩, ⟨0, -0x80000000⟩, ⟨some 0, none, some 0xffffffff⟩⟩,
        [.block .wall ⟨1, 0⟩, .block .leaves ⟨2, 0⟩, .block .water ⟨3, 0⟩,
          .sheep ⟨-0x80000000, 0x7fffffff⟩ .lightblue, .target ⟨5, 0⟩ .white, .surround .leaves]⟩
    let short : Level := ⟨⟨3, ⟨⟨0, 2⟩, .north⟩, ⟨2, 2⟩, .none⟩, [.sheep ⟨1, 1⟩ .white]⟩
    let text := "\x7b\"objects\":[[\"sheep\",[1,1]]]," ++
      "\"board\":\x7b\"exit\":[2,2],\"size\":3,\"player\":[[0,2]]\x7d\x7d"
    (l.FitsWords ∧ ofTree? .json l.toTree = some l ∧ ofJson? (Json.pretty 0 l.toTree) = some l) ∧
      ofJson? text = some short ∧ ofJson? (Json.pretty 0 short.toTree) = some short := by
  intro l short text
  have hfits : l.FitsWords := by decide
  have hread : ofJson? text = some short := by decide +kernel
  exact ⟨⟨hfits, json_roundtrip.1 l hfits⟩, hread, (json_roundtrip.2 text short hread).2.2⟩

end Shepherd.Grid
