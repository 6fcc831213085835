import Shepherd.Proofs.Board.Resize

/-!
# Removals and resizes in either order

On a board that operations lead to every link names an object, so what a removal clears are the
links and the carry slot that name the removed object, and no others. Written in this way, with no
look at what else is on the board, two removals commute, and so do a removal and a resize.
-/

namespace Shepherd.Grid

namespace Kind
variable (k : Kind)

/-- The kind without a link to a given entity. -/
def unlinked (id : EntityId) : Kind := k.withLink (k.link?.filter (· != id))

theorem unlinked_of_ne {id : EntityId} (h : k.link? ≠ some id) : k.unlinked id = k := by
  have hlink : k.link?.filter (· != id) = k.link? :=
    filter_eq_self_of_some fun l hl => bne_iff_ne.2 fun hid => h (hid ▸ hl)
  rw [unlinked, hlink, withLink_link?]

theorem unlinked_comm (a c : EntityId) : (k.unlinked a).unlinked c = (k.unlinked c).unlinked a := by
  cases k with
  | agent | exitZone | obstacle => rfl
  | herdUnit color link | herdTarget color link =>
    simp only [unlinked, withLink, link?, Option.filter_filter, Bool.and_comm]

end Kind

/-- An entity after its link to a given one was cleared. -/
def Entity.unlinked (id : EntityId) (e : Entity) : Entity := { e with kind := e.kind.unlinked id }

namespace Board

/-! ### Forgetting an entity -/

/-- The board without an object, and without the links and the carry slot that name it. -/
def forget (b : Board) (id : EntityId) : Board :=
  { b with
    objects := (b.objects.filter (·.id != id)).map (.unlinked id)
    carrying := b.carrying.filter (· != id) }

theorem forget_objects (b : Board) (id : EntityId) :
    (b.forget id).objects = (b.objects.filter (·.id != id)).map (.unlinked id) := rfl

theorem forget_comm (b : Board) (a c : EntityId) :
    (b.forget a).forget c = (b.forget c).forget a := by
  have hunlinked : Entity.unlinked c ∘ Entity.unlinked a = Entity.unlinked a ∘ .unlinked c :=
    funext fun e => congrArg (fun kind => { e with kind := kind }) (e.kind.unlinked_comm a c)
  have hid (id other : EntityId) :
      (fun e : Entity => e.id != id) ∘ Entity.unlinked other = (·.id != id) := rfl
  simp only [forget, List.filter_map, hid, List.map_map, hunlinked, List.filter_filter,
    Option.filter_filter, Bool.and_comm]

theorem recut_forget (b : Board) (a : EntityId) (size : Int) :
    (b.forget a).recut size = (b.recut size).forget a := by
  have hsurvives : (b.forget a).survives size ∘ Entity.unlinked a = b.survives size := rfl
  have hobjects : (b.forget a).objects.filter ((b.forget a).survives size) =
      ((b.objects.filter (b.survives size)).filter (·.id != a)).map (.unlinked a) := by
    rw [forget_objects, List.filter_map, hsurvives, List.filter_filter, List.filter_filter]
    simp only [Bool.and_comm]
  have hcarrying : (b.forget a).carrying.filter (fun _ => b.survives size b.agent) =
      (b.carrying.filter fun _ => b.survives size b.agent).filter (· != a) := by
    simp only [forget, Option.filter_filter, Bool.and_comm]
  exact congr (congrArg (fun objects carrying =>
    { b.recut size with objects := objects, carrying := carrying }) hobjects) hcarrying

variable {b b' : Board} {a c : EntityId} {e : Entity}

/-- Where no object has the identity, nothing is there to forget. -/
theorem Herd.forget_of_absent (herd : Herd b) (n : Numbered b)
    (habsent : ∀ e ∈ b.objects, e.id ≠ a) : b.forget a = b := by
  have hobjects : b.objects.filter (·.id != a) = b.objects :=
    List.filter_eq_self.2 fun e he => bne_iff_ne.2 (habsent e he)
  have hunlinked : b.objects.map (.unlinked a) = b.objects.map id := by
    refine List.map_congr_left fun e he => ?_
    have hlink : e.kind.link? ≠ some a := fun hlink => by
      obtain ⟨f, hf, hid, -⟩ := herd.linked.exists_partner n he hlink
      exact habsent f hf hid
    rw [Entity.unlinked, e.kind.unlinked_of_ne hlink, id]
  have hcarrying : b.carrying.filter (· != a) = b.carrying := by
    refine filter_eq_self_of_some fun u hu => bne_iff_ne.2 ?_
    obtain ⟨e, he, rfl, -⟩ := herd.carried u hu
    exact habsent e he
  rw [forget, hobjects, hunlinked, hcarrying, List.map_id]

/-- Without an object the board contains the others. -/
theorem Numbered.contains_without (n : Numbered b) (he : e ∈ b.objects) :
    (b.without a).contains e.id = (e.id != a) := by
  have hagent : (b.without a).agent.id = b.agent.id := rfl
  have hexit : (b.without a).exit.id = b.exit.id := rfl
  have hobjects : (b.without a).objects = b.objects.filter (·.id != a) := rfl
  exact contains_of_filter n hagent hexit hobjects he

/-- Pruning clears what names the removed object and nothing else. -/
theorem Herd.pruneLinks_without (herd : Herd b) (n : Numbered b) :
    (b.without a).pruneLinks = b.forget a := by
  have hpruned : (b.without a).objects.map (b.without a).pruned =
      (b.without a).objects.map (.unlinked a) := by
    refine List.map_congr_left fun e he => ?_
    have hlink : e.kind.link?.filter (b.without a).contains = e.kind.link?.filter (· != a) := by
      refine filter_congr_of_some fun id hlink => ?_
      obtain ⟨f, hf, rfl, -⟩ := herd.linked.exists_partner n (List.mem_filter.1 he).1 hlink
      exact n.contains_without hf
    rw [pruned, hlink, Entity.unlinked, Kind.unlinked]
  have hcarrying : b.carrying.filter (b.without a).contains = b.carrying.filter (· != a) := by
    refine filter_congr_of_some fun u hu => ?_
    obtain ⟨e, he, rfl, -⟩ := herd.carried u hu
    exact n.contains_without he
  rw [pruneLinks, hpruned]
  exact congrArg (fun carrying => { b.forget a with carrying := carrying }) hcarrying

/-! ### What a removal does -/

/-- What has the identity of neither agent nor exit is an object. -/
theorem mem_objects_of_ne (he : e ∈ b.entities) (hagent : e.id ≠ b.agent.id)
    (hexit : e.id ≠ b.exit.id) : e ∈ b.objects := by
  rcases mem_entities.1 he with rfl | rfl | he
  · exact absurd rfl hagent
  · exact absurd rfl hexit
  · exact he

/-- A removal takes out an object, and forgets it. -/
theorem Reachable.remove_eq_ok_iff (h : Reachable b) :
    b.remove a = .ok (b', e) ↔ e ∈ b.objects ∧ e.id = a ∧ b' = b.forget a := by
  obtain ⟨n, herd, -⟩ := preserved_herd.reachable h
  constructor
  · intro hremove
    obtain ⟨hfound, hagent, hexit, rfl⟩ := remove_eq_ok hremove
    obtain ⟨he, rfl⟩ := n.entity?_eq_some_iff.1 hfound
    exact ⟨mem_objects_of_ne he hagent hexit, rfl, herd.pruneLinks_without n⟩
  · rintro ⟨he, rfl, rfl⟩
    rw [remove, n.entity?_object he]
    simp only [if_neg (n.not_fixed he)]
    exact congrArg (fun b' => Except.ok (b', e)) (herd.pruneLinks_without n)

/-- What is left can be removed as before; it may have lost its link. -/
theorem Reachable.remove_forget (h : Reachable b) (hne : a ≠ c) {d : Entity}
    (ha : b.remove a = .ok (b', d)) (he : e ∈ b.objects) (hid : e.id = c) :
    b'.remove c = .ok ((b.forget a).forget c, e.unlinked a) := by
  obtain ⟨-, -, rfl⟩ := h.remove_eq_ok_iff.1 ha
  refine (h.of_remove ha).remove_eq_ok_iff.2 ⟨?_, hid, rfl⟩
  refine List.mem_map_of_mem (List.mem_filter.2 ⟨he, bne_iff_ne.2 ?_⟩)
  rw [hid]
  exact hne.symm

/-- **Removals come in any order.** Two objects can be removed one after the other in either order,
and the board is the same; it does not matter either whether an object is removed before a resize or
after it, if it is there then. -/
theorem Reachable.remove_commutes (h : Reachable b) (hne : a ≠ c) {ba bc : Board} {ea ec : Entity}
    (ha : b.remove a = .ok (ba, ea)) (hc : b.remove c = .ok (bc, ec)) :
    (∃ b', ba.remove c = .ok (b', ec.unlinked a) ∧ bc.remove a = .ok (b', ea.unlinked c)) ∧
    ∀ size, 0 < size → ∃ r ra, b.resized size = .ok r ∧ ba.resized size = .ok ra ∧
      (∀ e, r.entity? a = some e → r.remove a = .ok (ra, e)) ∧ (r.entity? a = none → ra = r) := by
  obtain ⟨-, hagent, hexit, -⟩ := remove_eq_ok ha
  obtain ⟨hea, hida, rfl⟩ := h.remove_eq_ok_iff.1 ha
  obtain ⟨hec, hidc, rfl⟩ := h.remove_eq_ok_iff.1 hc
  constructor
  · refine ⟨(b.forget a).forget c, h.remove_forget hne ha hec hidc, ?_⟩
    rw [forget_comm]
    exact h.remove_forget hne.symm hc hea hida
  · intro size hsize
    have hr := h.of_resized (h.resized_eq hsize)
    obtain ⟨n, herd, -⟩ := preserved_herd.reachable hr
    refine ⟨b.recut size, (b.recut size).forget a, h.resized_eq hsize, ?_, ?_, ?_⟩
    · rw [(h.of_remove ha).resized_eq hsize, recut_forget]
    · intro e hfound
      obtain ⟨he, rfl⟩ := n.entity?_eq_some_iff.1 hfound
      exact hr.remove_eq_ok_iff.2 ⟨mem_objects_of_ne he hagent hexit, rfl, rfl⟩
    · intro hnone
      refine herd.forget_of_absent n fun e he hid => ?_
      rw [← hid, n.entity?_object he] at hnone
      cases hnone

/-- A target and the unit on it. The larger board keeps both, the smaller one neither. -/
theorem remove_commutes_linked : ∃ b ba bc ea ec, Reachable b ∧
    b.remove 3 = .ok (ba, ea) ∧ ea.kind = .herdTarget .pink (some 2) ∧
    b.remove 2 = .ok (bc, ec) ∧ ec.kind = .herdUnit .pink (some 3) ∧
    (∃ b', ba.remove 2 = .ok (b', ec.unlinked 3) ∧ bc.remove 3 = .ok (b', ea.unlinked 2)) ∧
    (∃ r ra, b.resized 4 = .ok r ∧ ba.resized 4 = .ok ra ∧ r.remove 3 = .ok (ra, ea)) ∧
    ∃ r, b.resized 2 = .ok r ∧ ba.resized 2 = .ok r := by
  have reachable := (Reachable.ofLayout (l := ⟨6, ⟨⟨1, 3⟩, .north⟩, ⟨4, 4⟩, .none⟩) rfl).perform
    (.add [.sheep ⟨1, 2⟩ .pink, .target ⟨2, 2⟩ .pink]) |>.perform (.replay [.forward, .right])
  obtain ⟨both, resizes⟩ := reachable.remove_commutes (a := 3) (c := 2) (by decide) rfl rfl
  obtain ⟨r, ra, hr, hra, hpresent, -⟩ := resizes 4 (by decide)
  obtain ⟨r', ra', hr', hra', -, habsent⟩ := resizes 2 (by decide)
  obtain rfl := Except.ok.inj (hr.symm.trans rfl)
  obtain rfl := Except.ok.inj (hr'.symm.trans rfl)
  have hgone := habsent (by decide +kernel)
  exact ⟨_, _, _, _, _, reachable, rfl, by decide +kernel, rfl, by decide +kernel, both,
    ⟨_, ra, rfl, hra, hpresent _ (by decide +kernel)⟩, _, rfl, hgone ▸ hra'⟩

end Board

end Shepherd.Grid
