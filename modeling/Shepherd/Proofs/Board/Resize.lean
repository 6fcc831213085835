import Shepherd.Proofs.Board.Herd
import Shepherd.Proofs.Board.Ring

/-!
# Resizing

A board that gets another side keeps the objects that were off its edge and still fit, each of them
as it was. Nothing has to be pruned: what is linked stands on one cell, so both ends of a link go or
both stay, and the carried unit goes or stays with the agent's cell. A ring of obstacles never
survives.
-/

namespace Shepherd.Grid

section Filter
variable {α : Type} {o : Option α} {p q : α → Bool}

theorem filter_eq_self_of_some (h : ∀ x, o = some x → p x = true) : o.filter p = o := by
  cases o with
  | none => rfl
  | some x => rw [Option.filter_some, if_pos (h x rfl)]

theorem filter_congr_of_some (h : ∀ x, o = some x → p x = q x) : o.filter p = o.filter q := by
  cases o with
  | none => rfl
  | some x => rw [Option.filter_some, Option.filter_some, h x rfl]

end Filter

namespace Position
variable {p : Position} {size : Int}

theorem clamp_of_inBounds (h : p.inBounds size = true) : p.clamp size = p := by
  rw [inBounds_iff] at h
  simp only [clamp, clampCoordinate, Position.ext_iff]
  omega

/-- On a board with cells the nearest one has each coordinate moved into the range. -/
theorem clamp_eq (h : 0 < size) (p : Position) :
    p.clamp size = ⟨max 0 (min p.x (size - 1)), max 0 (min p.y (size - 1))⟩ := by
  simp only [clamp, clampCoordinate, Position.ext_iff]
  omega

end Position

namespace Board
variable {b b' : Board} {size : Int}

/-! ### What is linked is together -/

/-- What a link names is an object on the same cell. -/
theorem Linked.exists_partner (linked : Linked b.objects) (n : Numbered b) {e : Entity}
    (he : e ∈ b.objects) {id : EntityId} (hlink : e.kind.link? = some id) :
    ∃ f ∈ b.objects, f.id = id ∧ f.pos = e.pos := by
  cases hkind : e.kind with
  | agent | exitZone | obstacle =>
    rw [hkind] at hlink
    cases hlink
  | herdUnit c target =>
    obtain rfl : target = some id := by rwa [hkind] at hlink
    obtain ⟨f, hf, hid, -, hpos⟩ := linked.placed e he c id hkind
    exact ⟨f, hf, hid, hpos⟩
  | herdTarget c unit =>
    obtain rfl : unit = some id := by rwa [hkind] at hlink
    obtain ⟨f, hf, hid, hfkind⟩ := linked.claimed e he c id hkind
    obtain ⟨e', he', hid', -, hpos⟩ := linked.placed f hf c e.id hfkind
    obtain rfl := eq_of_id_eq n.sorted he' he hid'
    exact ⟨f, hf, hid, hpos.symm⟩

theorem survives_congr {d e : Entity} (h : d.pos = e.pos) :
    b.survives size d = b.survives size e := by
  rw [survives, survives, h]

/-- After cropping, the board contains the objects that survive. -/
theorem Numbered.contains_cropped (n : Numbered b) {e : Entity} (he : e ∈ b.objects) :
    (b.cropped size).contains e.id = b.survives size e := by
  have hagent : (b.cropped size).agent.id = b.agent.id := rfl
  have hexit : (b.cropped size).exit.id = b.exit.id := rfl
  have hobjects : (b.cropped size).objects = b.objects.filter (b.survives size) := rfl
  exact contains_of_filter n hagent hexit hobjects he

/-- A survivor keeps its link: the other end survives too. -/
theorem Linked.pruned_cropped (linked : Linked b.objects) (n : Numbered b) {e : Entity}
    (he : e ∈ b.objects) (hsurvives : b.survives size e = true) :
    (b.cropped size).pruned e = e := by
  have hlink : e.kind.link?.filter (b.cropped size).contains = e.kind.link? := by
    refine filter_eq_self_of_some fun id hlink => ?_
    obtain ⟨f, hf, rfl, hpos⟩ := linked.exists_partner n he hlink
    rw [n.contains_cropped hf, survives_congr hpos, hsurvives]
  rw [pruned, hlink, Kind.withLink_link?]

/-- The carried unit survives where the agent's cell does. -/
theorem Herd.carrying_cropped (herd : Herd b) (n : Numbered b) (tow : InTow b) (size : Int) :
    b.carrying.filter (b.cropped size).contains =
      b.carrying.filter fun _ => b.survives size b.agent := by
  refine filter_congr_of_some fun u hcarry => ?_
  obtain ⟨e, he, rfl, -⟩ := herd.carried u hcarry
  rw [n.contains_cropped he, survives_congr (tow e he hcarry)]

/-! ### The board afterwards -/

/-- The board with another side: what does not survive is gone, all else is as it was. -/
def recut (b : Board) (size : Int) : Board :=
  { b.cropped size with carrying := b.carrying.filter fun _ => b.survives size b.agent }

/-- Pruning finds no link to clear. -/
theorem Herd.pruneLinks_cropped (herd : Herd b) (n : Numbered b) (tow : InTow b) (size : Int) :
    (b.cropped size).pruneLinks = b.recut size := by
  have hpruned : (b.cropped size).objects.map (b.cropped size).pruned =
      (b.cropped size).objects.map id := by
    refine List.map_congr_left fun e he => ?_
    obtain ⟨he, hsurvives⟩ := List.mem_filter.1 he
    exact herd.linked.pruned_cropped n he hsurvives
  have hcarrying := herd.carrying_cropped n tow size
  rw [List.map_id] at hpruned
  rw [pruneLinks, hpruned]
  exact congrArg (fun carrying => { b.cropped size with carrying := carrying }) hcarrying

/-- The carried unit survives only where the agent stays, so it is with the agent already. -/
theorem trackCarried_recut (tow : InTow b) (size : Int) :
    (b.recut size).trackCarried = b.recut size := by
  have htracked : (b.recut size).objects.map (b.recut size).tracked =
      (b.recut size).objects.map id := by
    refine List.map_congr_left fun e he => ?_
    rw [tracked]
    split
    · next hcarry =>
      obtain ⟨hcarry, hsurvives⟩ := Option.filter_eq_some_iff.1 hcarry
      obtain ⟨-, hin⟩ := Bool.and_eq_true_iff.1 hsurvives
      have hagent : (b.recut size).agent.pos = e.pos := by
        rw [tow e (List.mem_filter.1 he).1 hcarry]
        exact Position.clamp_of_inBounds hin
      rw [hagent, id]
    · rfl
  rw [List.map_id] at htracked
  rw [trackCarried_eq, htracked]

theorem Reachable.resized_eq (h : Reachable b) (hsize : 0 < size) :
    b.resized size = .ok (b.recut size) := by
  obtain ⟨n, herd, tow⟩ := preserved_herd.reachable h
  have hprune := herd.pruneLinks_cropped n tow size
  rw [resized, if_neg (by omega)]
  refine congrArg Except.ok ?_
  calc (b.cropped size).pruneLinks.trackCarried
    _ = (b.recut size).trackCarried := by rw [hprune]
    _ = b.recut size := trackCarried_recut tow size

/-- What a board and the board with another side have in common. -/
structure Resized (b b' : Board) (side : Int) : Prop where
  size : b'.size = side
  agent : b'.agent = { b.agent with
    pos := ⟨max 0 (min b.agent.pos.x (side - 1)), max 0 (min b.agent.pos.y (side - 1))⟩ }
  exit : b'.exit = { b.exit with
    pos := ⟨max 0 (min b.exit.pos.x (side - 1)), max 0 (min b.exit.pos.y (side - 1))⟩ }
  /-- The survivors are the very same objects, in the same order: nothing about them has changed,
  their links included. -/
  objects : b'.objects = b.objects.filter fun e => !e.pos.onEdge b.size && e.pos.inBounds side
  /-- Of two that are linked both survive or none. -/
  together : ∀ e ∈ b.objects, ∀ id, e.kind.link? = some id →
    ∃ f ∈ b.objects, f.id = id ∧ (e ∈ b'.objects ↔ f ∈ b'.objects)
  /-- The unit stays in the carry slot exactly where the agent's cell was off the edge and fits. -/
  carrying : ∀ u, b'.carrying = some u ↔ b.carrying = some u ∧
    b.agent.pos.onEdge b.size = false ∧ b.agent.pos.inBounds side = true
  inTow : ∀ u, b'.carrying = some u → ∃ e, b'.entity? u = some e ∧ e.pos = b'.agent.pos
  facing : b'.facing = b.facing
  limits : b'.limits = b.limits
  nextId : b'.nextId = b.nextId

theorem Reachable.resized_recut (h : Reachable b) (hsize : 0 < size) :
    Resized b (b.recut size) size := by
  obtain ⟨n, herd, tow⟩ := preserved_herd.reachable h
  have h' := h.of_resized (h.resized_eq hsize)
  refine ⟨rfl, ?_, ?_, rfl, ?_, ?_, ?_, rfl, rfl, rfl⟩
  · rw [← Position.clamp_eq hsize]
    rfl
  · rw [← Position.clamp_eq hsize]
    rfl
  · intro e he id hlink
    obtain ⟨f, hf, hid, hpos⟩ := herd.linked.exists_partner n he hlink
    have hsurvives : b.survives size f = b.survives size e := survives_congr hpos
    exact ⟨f, hf, hid, by simp only [recut, cropped, List.mem_filter, he, hf, hsurvives]⟩
  · intro u
    simp only [recut, Option.filter_eq_some_iff, survives, Bool.and_eq_true, Bool.not_eq_true']
  · intro u hu
    obtain ⟨-, herd', tow'⟩ := preserved_herd.reachable h'
    obtain ⟨e, he, rfl, -⟩ := herd'.carried u hu
    exact ⟨e, h'.numbered.entity?_object he, tow' e he hu⟩

/-! ### Rings -/

/-- What was added on the edge does not survive a resize. -/
theorem cropped_append {added : List Entity} (hedge : ∀ e ∈ added, e.pos.onEdge b.size = true)
    (next : EntityId) (size : Int) :
    { b with objects := b.objects ++ added, nextId := next }.cropped size =
      { b.cropped size with nextId := next } := by
  have hnone : added.filter (b.survives size) = [] := by
    rw [List.filter_eq_nil_iff]
    intro e he
    simp [survives, hedge e he]
  have hobjects : (b.objects ++ added).filter (b.survives size) =
      b.objects.filter (b.survives size) := by
    rw [List.filter_append, hnone, List.append_nil]
  exact congrArg (fun objects => { b.cropped size with objects, nextId := next }) hobjects

/-- **What a resize keeps.** It succeeds for every side that has cells. What was off the edge and
still fits is kept as it was, both ends of a link or none of them, and the carried unit with the
agent's cell. A ring that was added before makes no difference but for the identities it took. -/
theorem Reachable.resized_exact (h : Reachable b) (hsize : 0 < size) :
    ∃ b', b.resized size = .ok b' ∧ Resized b b' size ∧
      ∀ block, ∃ ringed ids, b.addItems [.surround block] = .ok (ringed, ids) ∧
        ringed.resized size = .ok { b' with nextId := ringed.nextId } := by
  refine ⟨b.recut size, h.resized_eq hsize, h.resized_recut hsize, fun block => ?_⟩
  obtain ⟨added, hadd, hedge⟩ := b.addItems_surround block
  refine ⟨_, _, hadd, ?_⟩
  rw [(h.of_addItems hadd).resized_eq hsize, recut, cropped_append hedge]
  rfl

/-- A unit is in tow, next to a unit in its target. The smaller board keeps the three of them; the
obstacle and the ring are gone, and the exit comes in. -/
theorem resized_exact_in_tow : ∃ b b', Reachable b ∧ b.entities.length = 26 ∧
    b.carrying = some 4 ∧ b.resized 4 = .ok b' ∧ Resized b b' 4 ∧ b'.carrying = some 4 ∧
    b'.objects.map (fun e => (e.id, e.kind)) =
      [(2, .herdUnit .pink (some 3)), (3, .herdTarget .pink (some 2)),
        (4, .herdUnit .white none)] ∧ b'.exit.pos = ⟨3, 3⟩ := by
  have reachable := (Reachable.ofLayout (l := ⟨6, ⟨⟨1, 3⟩, .north⟩, ⟨4, 4⟩, .none⟩) rfl).perform
    (.add [.sheep ⟨1, 2⟩ .pink, .target ⟨2, 2⟩ .pink, .sheep ⟨3, 2⟩ .white, .block .wall ⟨4, 1⟩])
    |>.perform (.replay [.forward, .right, .right]) |>.perform (.add [.surround .leaves])
  have hsize : (0 : Int) < 4 := by decide
  obtain ⟨b', hresized, resized, -⟩ := reachable.resized_exact hsize
  obtain rfl := Except.ok.inj (hresized.symm.trans rfl)
  exact ⟨_, _, reachable, by decide +kernel, by decide +kernel, rfl, resized, by decide +kernel,
    by decide +kernel, by decide +kernel⟩

end Board

end Shepherd.Grid
