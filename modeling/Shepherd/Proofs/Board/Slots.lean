import Shepherd.Proofs.Board.Building
import Shepherd.Proofs.Board.Frame

/-!
# Boards slot by slot

A board that is changed in place and finds entities by an index: the agent is in slot 0, the exit in
slot 1, and the objects have the slots behind. Each operation writes field after field and leaves
early where it fails, so whatever it wrote before would stay. It gives the same answers as the board
without an index, and its index always is the one of the entities at hand.
-/

namespace Shepherd.Grid

/-- What an operation that succeeds answers. -/
inductive Answer where
  | done
  | added (ids : List EntityId)
  | removed (e : Entity)
  deriving DecidableEq

namespace Board

/-- The answer to an operation with a given result, and the board after it. -/
def answering {α : Type} (b : Board) (next : α → Board) (answer : α → Answer) :
    Except BoardError α → Except BoardError Answer × Board
  | .ok result => (.ok (answer result), next result)
  | .error e => (.error e, b)

/-- The answer to an operation, and the board after it; one that fails leaves the board as it
was. -/
def respond (b : Board) : Operation → Except BoardError Answer × Board
  | .add items => b.answering (·.1) (.added ·.2) (b.addItems items)
  | .remove id => b.answering (·.1) (.removed ·.2) (b.remove id)
  | .resize size => b.answering (fun b' => b') (fun _ => .done) (b.resized size)
  | .act a => (.ok .done, b.apply a)
  | .word token => b.answering (fun b' => b') (fun _ => .done) (b.applyToken token)
  | .replay actions => (.ok .done, b.replay actions)

/-- The answers to operations in order, and the board after them. -/
def run (b : Board) : List Operation → List (Except BoardError Answer) × Board
  | [] => ([], b)
  | op :: rest =>
    match b.respond op with
    | (answer, b) =>
      match b.run rest with
      | (answers, b) => (answer :: answers, b)

/-- The slot of an identity. -/
def slotOf (b : Board) (id : EntityId) : Option Nat := b.entities.findIdx? (·.id == id)

end Board

/-- A board with an index from identities to slots. -/
structure Slots extends Board where
  index : EntityId → Option Nat

namespace Slots

/-! ### Slots -/

/-- The slot of the agent. -/
def agentSlot : Nat := 0

/-- The slot of the exit. -/
def exitSlot : Nat := 1

/-- The entity that the index leads to. -/
def lookUp? (s : Slots) (id : EntityId) : Option Entity :=
  (s.index id).bind fun slot => s.entities[slot]?

/-- Changes the entity in a slot. -/
def changeAt (s : Slots) (slot : Nat) (change : Entity → Entity) : Slots :=
  match slot with
  | 0 => { s with agent := change s.agent }
  | 1 => { s with exit := change s.exit }
  | slot + 2 => { s with objects := s.objects.modify slot change }

/-- Makes the index anew; of two entities with one identity the later one counts. -/
def reindex (s : Slots) : Slots :=
  { s with
    index := s.entities.zipIdx.foldl
      (fun index (e, slot) id => if id = e.id then some slot else index id) fun _ => none }

/-! ### Edits -/

/-- The board of a layout: the agent goes into the first slot, then the exit into the second. -/
def ofLayout (l : Layout) : Except BoardError Slots :=
  (Board.ofLayout l).map fun b =>
    let s : Slots := ⟨b, fun _ => none⟩
    let s := { s with index := fun d => if d = Board.agentId then some agentSlot else s.index d }
    { s with index := fun d => if d = Board.exitId then some exitSlot else s.index d }

/-- Gives the next identity to a new entity in a slot of its own. -/
def push (s : Slots) (pos : Position) (kind : Kind) : EntityId × Slots :=
  let id := s.nextId
  let s := { s with nextId := id + 1 }
  let s := { s with index := fun d => if d = id then some s.entities.length else s.index d }
  (id, { s with objects := s.objects ++ [.ofKind id pos kind] })

/-- Puts entities in slots, one after the other. -/
def pushAll (s : Slots) : List (Position × Kind) → List EntityId × Slots
  | [] => ([], s)
  | (pos, kind) :: rest =>
    match s.push pos kind with
    | (id, s) =>
      match s.pushAll rest with
      | (ids, s) => (id :: ids, s)

/-- Adds the objects of the items. -/
def addItems (s : Slots) (items : List Item) : Except BoardError (List EntityId) × Slots :=
  let staged := items.flatMap (Item.expand s.size)
  match Board.firstOutside? s.size (staged.map (·.1)) with
  | some pos => (.error (.outOfBounds pos s.size), s)
  | none => (s.pushAll staged).map .ok id

/-- Clears the carry slot and then the links where they name what is not in the index. -/
def pruneLinks (s : Slots) : Slots :=
  let live id := (s.index id).isSome
  let s := { s with carrying := s.carrying.filter live }
  let prune (e : Entity) := { e with kind := e.kind.withLink (e.kind.link?.filter live) }
  { s with agent := prune s.agent, exit := prune s.exit, objects := s.objects.map prune }

/-- Removes an object. Agent and exit are known by their slots. -/
def remove (s : Slots) (id : EntityId) : Except BoardError Entity × Slots :=
  match s.index id with
  | none => (.error (.unknownEntity id), s)
  | some slot =>
    if slot = agentSlot ∨ slot = exitSlot then (.error (.fixedEntity id), s)
    else
      match s.entities[slot]? with
      -- the index leads to slots that are taken, so there always is such an entity
      | none => (.error (.unknownEntity id), s)
      | some e =>
        let s := { s with objects := s.objects.eraseIdx (slot - 2) }
        (.ok e, s.reindex.pruneLinks)

/-- Puts the carried unit on the agent's cell. -/
def trackCarried (s : Slots) : Slots :=
  match s.carrying.bind s.index with
  | some slot => s.changeAt slot fun e => { e with pos := s.agent.pos }
  | none => s

/-- The board with another side. -/
def resized (s : Slots) (size : Int) : Except BoardError Slots :=
  if size ≤ 0 then .error (.invalidSize size)
  else .ok { s with toBoard := s.cropped size }.reindex.pruneLinks.trackCarried

/-! ### Ticks -/

/-- Moves or turns the agent. -/
def move (s : Slots) (a : Action) : Slots := { s with toBoard := s.toBoard.move a }

/-- Takes a unit into the carry slot, and then raises it. -/
def pickUp (s : Slots) (unit : EntityId) : Slots :=
  let s := { s with carrying := some unit }
  match s.index unit with
  | some slot => s.changeAt slot fun e => { e with priority := Kind.carriedPriority }
  | none => s

/-- The slot of the first target on the agent's cell that a carried unit can be dropped on. -/
def targetSlot? (s : Slots) (unit : EntityId) : Option Nat :=
  ((s.lookUp? unit).bind Entity.unitColor?).bind fun color =>
    s.entities.findIdx? fun e =>
      e.pos == s.agent.pos && e.targetColor? == some color && e.isFreeTarget &&
        !s.crowded unit color

/-- Drops the carried unit on the target in a slot: links the target, then the unit. -/
def dropOnto (s : Slots) (unit : EntityId) (targetSlot : Nat) : Slots :=
  match s.index unit, s.entities[targetSlot]? with
  | some unitSlot, some target =>
    let s := s.changeAt targetSlot fun e => { e with kind := e.kind.withLink (some unit) }
    let s := s.changeAt unitSlot (Board.placedOn target)
    { s with carrying := none }
  | _, _ => s

/-- Picks up or drops a unit on the agent's cell. -/
def settle (s : Slots) : Slots :=
  match s.carrying with
  | some unit =>
    match s.targetSlot? unit with
    | some slot => s.dropOnto unit slot
    | none => s
  | none =>
    match s.entities.find? fun e => e.pos == s.agent.pos && e.isFreeUnit with
    | some unit => s.pickUp unit.id
    | none => s

/-- One tick. -/
def apply (s : Slots) (a : Action) : Slots := (s.move a).settle.trackCarried

/-- One tick for a word. -/
def applyToken (s : Slots) (token : String) : Except BoardError Unit × Slots :=
  match Action.ofName? token with
  | none => (.error (.unknownAction token), s)
  | some a => (.ok (), s.apply a)

/-! ### Runs -/

/-- Performs an operation. A resize gives a board of its own, so one that fails has not touched the
board at hand. -/
def perform (s : Slots) : Operation → Except BoardError Answer × Slots
  | .add items => (s.addItems items).map (·.map .added) id
  | .remove gone => (s.remove gone).map (·.map .removed) id
  | .resize size =>
    match s.resized size with
    | .ok s' => (.ok .done, s')
    | .error e => (.error e, s)
  | .act a => (.ok .done, s.apply a)
  | .word token => (s.applyToken token).map (·.map fun () => .done) id
  | .replay actions => (.ok .done, actions.foldl apply s)

/-- Performs operations in order, whether they succeed or fail. -/
def run (s : Slots) : List Operation → List (Except BoardError Answer) × Slots
  | [] => ([], s)
  | op :: rest =>
    match s.perform op with
    | (answer, s) =>
      match s.run rest with
      | (answers, s) => (answer :: answers, s)

end Slots

/-! ### The index of a board -/

section Sorted
variable {l : List Entity} {k : Nat} {e : Entity}

/-- Where identities ascend, changing a place changes what has the identity found there. -/
theorem modify_eq_map (sorted : l.Pairwise fun d e => d.id < e.id) (h : l[k]? = some e)
    (f : Entity → Entity) : l.modify k f = l.map fun d => if d.id = e.id then f d else d := by
  induction l generalizing k with
  | nil => cases h
  | cons d l ih =>
    obtain ⟨hfirst, hrest⟩ := List.pairwise_cons.1 sorted
    cases k with
    | zero =>
      obtain rfl : d = e := Option.some.inj h
      have hothers : l.map (fun e => if e.id = d.id then f e else e) = l.map id :=
        List.map_congr_left fun e he => if_neg (Nat.ne_of_gt (hfirst e he))
      rw [List.modify_zero_cons, List.map_cons, if_pos rfl, hothers, List.map_id]
    | succ k =>
      have hne : d.id ≠ e.id := Nat.ne_of_lt (hfirst e (List.mem_of_getElem? h))
      rw [List.modify_succ_cons, List.map_cons, if_neg hne, ih hrest h]

/-- Where identities ascend, erasing a place erases what has the identity found there. -/
theorem eraseIdx_eq_filter (sorted : l.Pairwise fun d e => d.id < e.id) (h : l[k]? = some e) :
    l.eraseIdx k = l.filter (·.id != e.id) := by
  induction l generalizing k with
  | nil => cases h
  | cons d l ih =>
    obtain ⟨hfirst, hrest⟩ := List.pairwise_cons.1 sorted
    cases k with
    | zero =>
      obtain rfl : d = e := Option.some.inj h
      have hothers : l.filter (·.id != d.id) = l :=
        List.filter_eq_self.2 fun e he => bne_iff_ne.2 (Nat.ne_of_gt (hfirst e he))
      rw [List.eraseIdx_zero, List.tail_cons, List.filter_cons_of_neg (by simp), hothers]
    | succ k =>
      have hne : d.id ≠ e.id := Nat.ne_of_lt (hfirst e (List.mem_of_getElem? h))
      rw [List.eraseIdx_cons_succ, List.filter_cons_of_pos (by simpa using hne), ih hrest h]

/-- Going through entities with their places, the index finds each identity in its place, and what
is behind them as before. -/
theorem foldl_index_eq (sorted : l.Pairwise fun d e => d.id < e.id) (start : Nat)
    (index : EntityId → Option Nat) (id : EntityId) :
    (l.zipIdx start).foldl
        (fun index (p : Entity × Nat) id => if id = p.1.id then some p.2 else index id) index id =
      ((l.findIdx? (·.id == id)).map (· + start)).or (index id) := by
  induction l generalizing start index with
  | nil => rfl
  | cons e l ih =>
    obtain ⟨hfirst, hrest⟩ := List.pairwise_cons.1 sorted
    rw [List.zipIdx_cons, List.foldl_cons, ih hrest, List.findIdx?_cons]
    by_cases hid : id = e.id
    · subst hid
      have hnone : l.findIdx? (·.id == e.id) = none :=
        List.findIdx?_eq_none_iff.2 fun d hd => beq_false_of_ne (Nat.ne_of_gt (hfirst d hd))
      simp [hnone]
    · have hne : (e.id == id) = false := beq_false_of_ne (Ne.symm hid)
      simp [hid, hne, Option.map_map, Function.comp_def, Nat.add_assoc, Nat.add_comm 1]

end Sorted

namespace Board
variable {b b' : Board} {id : EntityId} {e : Entity} {slot : Nat}

/-- The board with the index of its entities. -/
def slots (b : Board) : Slots := ⟨b, b.slotOf⟩

/-- Boards whose entities have the same identities have the same index. -/
theorem slotOf_congr (h : b'.entities.map (·.id) = b.entities.map (·.id)) :
    b'.slotOf = b.slotOf := by
  have hids (b : Board) (id : EntityId) :
      b.slotOf id = (b.entities.map (·.id)).findIdx? (· == id) := by
    rw [List.findIdx?_map]
    rfl
  funext id
  rw [hids, hids, h]

theorem slots_eq (h : b'.entities.map (·.id) = b.entities.map (·.id)) :
    b'.slots = ⟨b', b.slotOf⟩ :=
  congrArg (Slots.mk b') (slotOf_congr h)

theorem slotOf_eq_none_iff : b.slotOf id = none ↔ ∀ e ∈ b.entities, e.id ≠ id := by
  rw [slotOf, List.findIdx?_eq_none_iff]
  simp only [beq_eq_false_iff_ne]

theorem isSome_slotOf : (b.slotOf id).isSome = b.contains id := List.findIdx?_isSome

/-- The index leads to the entity that a search finds. -/
theorem lookUp?_slots (id : EntityId) : b.slots.lookUp? id = b.entity? id :=
  List.find?_eq_bind_findIdx?_getElem?.symm

namespace Numbered
variable (n : Numbered b)
include n

theorem slotOf_eq_some_iff :
    b.slotOf id = some slot ↔ ∃ e, b.entities[slot]? = some e ∧ e.id = id := by
  constructor
  · intro h
    obtain ⟨hlt, hid, -⟩ := List.findIdx?_eq_some_iff_getElem.1 h
    exact ⟨_, List.getElem?_eq_getElem hlt, beq_iff_eq.1 hid⟩
  · rintro ⟨e, he, rfl⟩
    obtain ⟨hlt, rfl⟩ := List.getElem?_eq_some_iff.1 he
    refine List.findIdx?_eq_some_iff_getElem.2 ⟨hlt, beq_self_eq_true _, fun j hj => ?_⟩
    have hless := List.pairwise_iff_getElem.1 n.entities_sorted j slot (Nat.lt_trans hj hlt) hlt hj
    simpa using Nat.ne_of_lt hless

theorem slotOf_agent : b.slotOf b.agent.id = some Slots.agentSlot :=
  n.slotOf_eq_some_iff.2 ⟨b.agent, rfl, rfl⟩

theorem slotOf_exit : b.slotOf b.exit.id = some Slots.exitSlot :=
  n.slotOf_eq_some_iff.2 ⟨b.exit, rfl, rfl⟩

/-- The slots of objects are behind those of agent and exit. -/
theorem slotOf_object (he : e ∈ b.objects) :
    ∃ k, b.slotOf e.id = some (k + 2) ∧ b.objects[k]? = some e := by
  obtain ⟨k, hk⟩ := List.mem_iff_getElem?.1 he
  exact ⟨k, n.slotOf_eq_some_iff.2 ⟨e, hk, rfl⟩, hk⟩

/-- Making the index anew gives the index of the entities. -/
theorem reindex_eq (index : EntityId → Option Nat) :
    ({ b.slots with index := index } : Slots).reindex = b.slots := by
  have hindex : b.entities.zipIdx.foldl
      (fun index (p : Entity × Nat) id => if id = p.1.id then some p.2 else index id)
      (fun _ => none) = b.slotOf := by
    funext id
    rw [foldl_index_eq n.entities_sorted]
    simp [slotOf]
  exact congrArg (Slots.mk b) hindex

/-- Changing what is in the slot of an object is changing the object. -/
theorem changeAt_eq {k : Nat} (hk : b.objects[k]? = some e) {f : Entity → Entity}
    (hf : ∀ d, (f d).id = d.id) :
    b.slots.changeAt (k + 2) f = (b.updateObject e.id f).slots := by
  have hkeep : ∀ d : Entity, (if d.id = e.id then f d else d).id = d.id := fun d => by
    split
    · exact hf d
    · rfl
  have hids : (b.updateObject e.id f).entities.map (·.id) = b.entities.map (·.id) := by
    simp only [entities_def, updateObject, List.map_cons, List.map_map, Function.comp_def, hkeep]
  rw [slots_eq hids, updateObject, ← modify_eq_map n.sorted hk]
  rfl

end Numbered

/-! ### Edits agree -/

theorem ofLayout_slots (l : Layout) : Slots.ofLayout l = (ofLayout l).map slots := by
  rw [Slots.ofLayout]
  cases hb : ofLayout l with
  | error e => rfl
  | ok b =>
    obtain ⟨-, -, -, rfl⟩ := ofLayout_eq_ok hb
    refine congrArg (fun index => Except.ok (Slots.mk _ index)) (funext fun id => ?_)
    simp only [slotOf, entities_def, List.findIdx?_cons, List.findIdx?_nil, Entity.ofKind,
      beq_iff_eq, eq_comm (b := id)]
    have hne : exitId ≠ agentId := by decide
    by_cases hagent : id = agentId
    · rw [if_pos hagent, hagent, if_neg hne.symm]
      rfl
    · by_cases hexit : id = exitId <;> simp [hagent, hexit, hne, Slots.exitSlot]

theorem push_slots (fresh : ∀ e ∈ b.entities, e.id < b.nextId) (pos : Position) (kind : Kind) :
    b.slots.push pos kind = (b.nextId, (b.extended [(pos, kind)]).slots) := by
  have hindex : (b.extended [(pos, kind)]).slotOf =
      fun d => if d = b.nextId then some b.entities.length else b.slotOf d := by
    funext d
    have happend : (b.extended [(pos, kind)]).entities =
        b.entities ++ [.ofKind b.nextId pos kind] := rfl
    rw [slotOf, happend, List.findIdx?_append, List.findIdx?_singleton, ← slotOf]
    by_cases hd : d = b.nextId
    · -- the new identity had no slot before, so the search goes on to the last entity
      subst hd
      have hnone : b.slotOf b.nextId = none :=
        slotOf_eq_none_iff.2 fun e he => Nat.ne_of_lt (fresh e he)
      simp [hnone, Entity.ofKind]
    · have hne : (b.nextId == d) = false := beq_false_of_ne (Ne.symm hd)
      simp [hd, hne, Entity.ofKind]
  have hslots : (b.extended [(pos, kind)]).slots = ⟨b.extended [(pos, kind)],
      fun d => if d = b.nextId then some b.entities.length else b.slotOf d⟩ :=
    congrArg (Slots.mk _) hindex
  rw [hslots]
  rfl

theorem pushAll_slots (fresh : ∀ e ∈ b.entities, e.id < b.nextId)
    (staged : List (Position × Kind)) :
    b.slots.pushAll staged = (List.range' b.nextId staged.length, (b.extended staged).slots) := by
  induction staged generalizing b with
  | nil => simp [Slots.pushAll, extended, numbered]
  | cons s rest ih =>
    -- what was put in a slot has an identity below the next one again
    have fresh' : ∀ e ∈ (b.extended [s]).entities, e.id < (b.extended [s]).nextId := by
      intro e he
      rw [extended_nextId]
      have happend : (b.extended [s]).entities = b.entities ++ [.ofKind b.nextId s.1 s.2] := rfl
      rw [happend, List.mem_append, List.mem_singleton] at he
      rcases he with he | rfl
      · exact Nat.lt_succ_of_lt (fresh e he)
      · exact Nat.lt_succ_self _
    rw [Slots.pushAll, push_slots fresh]
    simp only [ih fresh', ← extended_append, extended_nextId, List.length_cons, List.length_nil,
      List.range'_succ, List.singleton_append]

theorem addItems_slots (n : Numbered b) (items : List Item) :
    b.slots.addItems items =
      match b.addItems items with
      | .ok (b', ids) => (.ok ids, b'.slots)
      | .error e => (.error e, b.slots) := by
  have hsize : b.slots.size = b.size := rfl
  rw [addItems_eq, Slots.addItems, hsize]
  simp only [firstOutside?_expand, pushAll_slots fun e he => n.issued he, length_flatMap_expand]
  cases firstOutside? b.size (items.filterMap Item.cell?) with
  | some pos => rfl
  | none => rfl

/-- What has no link is not changed by pruning. -/
theorem pruned_of_unlinked (b : Board) (h : e.kind.link? = none) : b.pruned e = e := by
  have hkind : e.kind.withLink (e.kind.link?.filter b.contains) = e.kind := by
    rw [h, Option.filter_none, ← h, Kind.withLink_link?]
  rw [pruned, hkind]

/-- Pruning by the index is pruning by what is on the board. -/
theorem pruneLinks_slots (n : Numbered b) : b.slots.pruneLinks = b.pruneLinks.slots := by
  have hlive : (fun id => (b.slots.index id).isSome) = b.contains := funext fun id => isSome_slotOf
  have hids : b.pruneLinks.entities.map (·.id) = b.entities.map (·.id) := by
    simp only [entities_def, pruneLinks, List.map_cons, List.map_map, Function.comp_def,
      (keepsIdentity_pruned b).id]
  have hagent : b.pruned b.agent = b.agent := pruned_of_unlinked b (by rw [n.agent_kind]; rfl)
  have hexit : b.pruned b.exit = b.exit := pruned_of_unlinked b (by rw [n.exit_kind]; rfl)
  have hall : b.slots.pruneLinks =
      ⟨{ b.pruneLinks with agent := b.pruned b.agent, exit := b.pruned b.exit }, b.slotOf⟩ := by
    simp only [Slots.pruneLinks, hlive]
    rfl
  rw [slots_eq hids, hall, hagent, hexit]
  rfl

theorem Numbered.without (n : Numbered b) (id : EntityId) : Numbered (b.without id) :=
  n.of_objects rfl rfl rfl rfl rfl List.filter_sublist .refl (List.map_id' _).symm

theorem Numbered.cropped (n : Numbered b) (size : Int) : Numbered (b.cropped size) :=
  n.of_objects rfl rfl rfl rfl rfl List.filter_sublist .refl (List.map_id' _).symm

theorem remove_slots (n : Numbered b) (id : EntityId) :
    b.slots.remove id =
      match b.remove id with
      | .ok (b', e) => (.ok e, b'.slots)
      | .error e => (.error e, b.slots) := by
  have hindex : b.slots.index id = b.slotOf id := rfl
  rw [Slots.remove, hindex, remove]
  cases hfound : b.entity? id with
  | none => rw [slotOf_eq_none_iff.2 (entity?_eq_none_iff.1 hfound)]
  | some e =>
    obtain ⟨he, rfl⟩ := n.entity?_eq_some_iff.1 hfound
    rcases mem_entities.1 he with rfl | rfl | he
    · simp [n.slotOf_agent]
    · simp [n.slotOf_exit]
    · obtain ⟨k, hslot, hk⟩ := n.slotOf_object he
      have hfree : ¬ (k + 2 = Slots.agentSlot ∨ k + 2 = Slots.exitSlot) := by
        simp [Slots.agentSlot, Slots.exitSlot]
      have hentity : b.slots.entities[k + 2]? = some e := hk
      have herase : ({ b.slots with objects := b.objects.eraseIdx (k + 2 - 2) } : Slots) =
          { (b.without e.id).slots with index := b.slotOf } := by
        rw [Nat.add_sub_cancel, eraseIdx_eq_filter n.sorted hk]
        rfl
      simp only [hslot, if_neg hfree, hentity, if_neg (n.not_fixed he)]
      have hobjects : b.slots.objects = b.objects := rfl
      rw [hobjects, herase, (n.without e.id).reindex_eq, pruneLinks_slots (n.without e.id)]
      rfl

/-- The carried unit is found by its slot. -/
theorem trackCarried_slots (n : Numbered b) (h : Herd b) :
    b.slots.trackCarried = b.trackCarried.slots := by
  have hcarrying : b.slots.carrying = b.carrying := rfl
  have hindex : b.slots.index = b.slotOf := rfl
  rw [Slots.trackCarried, hcarrying, hindex]
  cases hcarry : b.carrying with
  | none =>
    have hsame : b.trackCarried = b := by simp only [trackCarried, hcarry]
    rw [hsame]
    rfl
  | some u =>
    obtain ⟨e, he, rfl, -⟩ := h.carried u hcarry
    obtain ⟨k, hslot, hk⟩ := n.slotOf_object he
    have hmoved : b.trackCarried = b.updateObject e.id fun d => { d with pos := b.agent.pos } := by
      simp only [trackCarried, updateObject, hcarry]
    simp only [Option.bind_some, hslot]
    rw [hmoved]
    exact n.changeAt_eq hk (f := fun d => { d with pos := b.agent.pos }) fun _ => rfl

theorem resized_slots (n : Numbered b) (h : Herd b) (size : Int) :
    b.slots.resized size = (b.resized size).map slots := by
  rw [Slots.resized, resized]
  split
  · rfl
  · have hherd : Herd (b.cropped size).pruneLinks := h.prune n rfl rfl rfl rfl
    have hnumbered : Numbered (b.cropped size).pruneLinks := n.prune rfl rfl rfl rfl rfl rfl
    have hcropped : ({ b.slots with toBoard := b.slots.cropped size } : Slots) =
        { (b.cropped size).slots with index := b.slotOf } := rfl
    rw [hcropped, (n.cropped size).reindex_eq, pruneLinks_slots (n.cropped size),
      trackCarried_slots hnumbered hherd]
    rfl

/-! ### Ticks agree -/

theorem move_slots (a : Action) : b.slots.move a = (b.move a).slots := by
  have hids : (b.move a).entities.map (·.id) = b.entities.map (·.id) := by
    rw [move_eq]
    rfl
  rw [slots_eq hids]
  rfl

theorem Numbered.updateObject (n : Numbered b) {f : Entity → Entity} (hf : KeepsIdentity f)
    (id : EntityId) : Numbered (b.updateObject id f) :=
  n.of_objects rfl rfl rfl rfl rfl (.refl _) (hf.ite _) rfl

/-- What neither agent nor exit is can be searched for among the objects. -/
theorem findIdx?_entities {p : Entity → Bool} (hagent : p b.agent = false)
    (hexit : p b.exit = false) :
    b.entities.findIdx? p = (b.objects.findIdx? p).map (· + 2) := by
  simp [entities_def, List.findIdx?_cons, hagent, hexit, Function.comp_def]

theorem pickUp_slots (n : Numbered b) (he : e ∈ b.objects) :
    b.slots.pickUp e.id = (b.pickUp e.id).slots := by
  obtain ⟨k, hslot, hk⟩ := n.slotOf_object he
  have hindex : b.slots.index e.id = some (k + 2) := hslot
  have carrying : Numbered { b with carrying := some e.id } :=
    n.of_objects rfl rfl rfl rfl rfl (.refl _) .refl (List.map_id' _).symm
  simp only [Slots.pickUp, hindex]
  exact carrying.changeAt_eq hk fun _ => rfl

/-- The first target is found in the slot where it is. -/
theorem targetSlot?_slots (n : Numbered b) (unit : EntityId) :
    (b.slots.targetSlot? unit = none ∧ b.targetHere? unit = none) ∨
    ∃ k target, b.slots.targetSlot? unit = some (k + 2) ∧ b.targetHere? unit = some target ∧
      b.objects[k]? = some target := by
  have hcolor : (b.slots.lookUp? unit).bind Entity.unitColor? = b.colorOf? unit := by
    rw [lookUp?_slots, colorOf?]
  rw [Slots.targetSlot?, hcolor, targetHere?]
  cases b.colorOf? unit with
  | none => exact .inl ⟨rfl, rfl⟩
  | some color =>
    rw [Option.bind_some, Option.bind_some]
    generalize hp : (fun e : Entity => e.pos == b.agent.pos && e.targetColor? == some color &&
      e.isFreeTarget && !b.crowded unit color) = p
    have hagent : p b.agent = false := by
      simp [← hp, Entity.isFreeTarget, Entity.targetColor?, n.agent_kind]
    have hexit : p b.exit = false := by
      simp [← hp, Entity.isFreeTarget, Entity.targetColor?, n.exit_kind]
    have hslot : b.slots.entities.findIdx? (fun e => e.pos == b.slots.agent.pos &&
        e.targetColor? == some color && e.isFreeTarget && !b.slots.crowded unit color) =
        (b.objects.findIdx? p).map (· + 2) := by
      rw [← findIdx?_entities hagent hexit, ← hp]
      rfl
    rw [hslot, List.find?_eq_bind_findIdx?_getElem?]
    cases hk : b.objects.findIdx? p with
    | none => exact .inl ⟨rfl, rfl⟩
    | some k =>
      obtain ⟨hlt, -⟩ := List.findIdx?_eq_some_iff_getElem.1 hk
      exact .inr ⟨k, b.objects[k], rfl, List.getElem?_eq_getElem hlt, List.getElem?_eq_getElem hlt⟩

/-- Dropping writes the target and then the unit, each in its slot. -/
theorem dropOnto_slots (n : Numbered b) (he : e ∈ b.objects) {k : Nat} {target : Entity}
    (hk : b.objects[k]? = some target) :
    b.slots.dropOnto e.id (k + 2) = (b.dropOnto e.id target).slots := by
  obtain ⟨j, hslot, hj⟩ := n.slotOf_object he
  have hindex : b.slots.index e.id = some (j + 2) := hslot
  have htarget : b.slots.entities[k + 2]? = some target := hk
  let claim (d : Entity) : Entity := { d with kind := d.kind.withLink (some e.id) }
  have hclaim : KeepsIdentity claim := ⟨fun _ => rfl, fun _ => rfl, fun _ => ⟨_, rfl⟩⟩
  have linked := n.updateObject hclaim target.id
  -- the second write meets the unit as the first one left it, should they go to one slot
  have hunit : (b.updateObject target.id claim).objects[j]? =
      some (if e.id = target.id then claim e else e) := by
    simp only [updateObject, List.getElem?_map, hj, Option.map_some]
  have hid : (if e.id = target.id then claim e else e).id = e.id := by split <;> rfl
  simp only [Slots.dropOnto, hindex, htarget]
  rw [n.changeAt_eq hk hclaim.id, linked.changeAt_eq hunit (f := placedOn target) fun _ => rfl,
    hid]
  rfl

theorem settle_slots (n : Numbered b) (h : Herd b) : b.slots.settle = b.settle.slots := by
  have hcarrying : b.slots.carrying = b.carrying := rfl
  rw [Slots.settle, settle, hcarrying]
  cases hcarry : b.carrying with
  | none =>
    have hfind : b.slots.entities.find? (fun e => e.pos == b.slots.agent.pos && e.isFreeUnit) =
        b.unitHere? := by
      rw [← n.head?_freeUnitsHere, freeUnitsHere, List.head?_filter]
      rfl
    simp only [hfind]
    cases hunit : b.unitHere? with
    | none => rfl
    | some unit =>
      obtain ⟨he, -⟩ := unitHere?_eq_some hunit
      exact pickUp_slots n he
  | some u =>
    obtain ⟨e, he, rfl, -⟩ := h.carried u hcarry
    obtain ⟨hslot, htarget⟩ | ⟨k, target, hslot, htarget, hk⟩ := targetSlot?_slots n e.id
    · simp only [hslot, htarget]
    · simp only [hslot, htarget]
      exact dropOnto_slots n he hk

theorem apply_slots (n : Numbered b) (h : Herd b) (a : Action) :
    b.slots.apply a = (b.apply a).slots := by
  have hmoved : Herd (b.move a) := h.move a
  rw [Slots.apply, apply, move_slots, settle_slots (n.move a) hmoved,
    trackCarried_slots (n.move a).settle (hmoved.settle (n.move a))]

/-! ### Runs agree -/

/-- A response leads to the board that the operation leads to. -/
theorem respond_snd (b : Board) (op : Operation) : (b.respond op).2 = b.perform op := by
  cases op with
  | add items => rw [respond, perform]; cases b.addItems items <;> rfl
  | remove id => rw [respond, perform]; cases b.remove id <;> rfl
  | resize size => rw [respond, perform]; cases b.resized size <;> rfl
  | word token => rw [respond, perform]; cases b.applyToken token <;> rfl
  | act | replay => rfl

theorem run_snd (b : Board) (ops : List Operation) : (b.run ops).2 = b.performAll ops := by
  induction ops generalizing b with
  | nil => rfl
  | cons op ops ih => exact (ih _).trans (congrArg (performAll · ops) (respond_snd b op))

section Runs
variable (h : Reachable b)
include h

theorem Reachable.replay_slots (actions : List Action) :
    actions.foldl Slots.apply b.slots = (b.replay actions).slots := by
  induction actions generalizing b with
  | nil => rfl
  | cons a actions ih =>
    rw [List.foldl_cons, apply_slots h.numbered h.herd, ih (h.apply a), replay_cons]

/-- An operation in place answers as one on a board without an index, and keeps the index right. -/
theorem Reachable.perform_slots (op : Operation) :
    b.slots.perform op = ((b.respond op).1, (b.respond op).2.slots) := by
  have n := h.numbered
  cases op with
  | add items =>
    rw [Slots.perform, respond, addItems_slots n]
    cases b.addItems items <;> rfl
  | remove gone =>
    rw [Slots.perform, respond, remove_slots n]
    cases b.remove gone <;> rfl
  | resize size =>
    rw [Slots.perform, respond, resized_slots n h.herd]
    cases b.resized size <;> rfl
  | act a =>
    rw [Slots.perform, apply_slots n h.herd]
    rfl
  | word token =>
    rw [Slots.perform, respond, Slots.applyToken, applyToken]
    cases Action.ofName? token with
    | none => rfl
    | some a =>
      simp only [apply_slots n h.herd]
      rfl
  | replay actions =>
    rw [Slots.perform, h.replay_slots]
    rfl

/-- So do operations in order. -/
theorem Reachable.run_slots (ops : List Operation) :
    b.slots.run ops = ((b.run ops).1, (b.run ops).2.slots) := by
  induction ops generalizing b with
  | nil => rfl
  | cons op ops ih =>
    have hnext : Reachable (b.respond op).2 := respond_snd b op ▸ h.perform op
    rw [Slots.run, h.perform_slots]
    simp only [ih hnext]
    rfl

end Runs

/-- Every reachable board comes about in place. -/
theorem Reachable.exists_run (h : Reachable b) :
    ∃ l s ops, Slots.ofLayout l = .ok s ∧ (s.run ops).2 = b.slots := by
  have hlayout : ∃ l b₀ ops, Board.ofLayout l = .ok b₀ ∧ b₀.performAll ops = b := by
    induction h with
    | ofLayout hl => exact ⟨_, _, [], hl, rfl⟩
    | perform _ op ih =>
      obtain ⟨l, b₀, ops, hl, rfl⟩ := ih
      exact ⟨l, b₀, ops ++ [op], hl, by rw [Board.performAll, List.foldl_append]; rfl⟩
  obtain ⟨l, b₀, ops, hl, rfl⟩ := hlayout
  refine ⟨l, b₀.slots, ops, ?_, ?_⟩
  · rw [ofLayout_slots, hl]
    rfl
  · rw [(Reachable.ofLayout hl).run_slots, run_snd]

end Board

end Shepherd.Grid
