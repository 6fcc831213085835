import Shepherd.Proofs.Board.Slots

/-!
# Looking up

Whoever looks up an entity goes by the index from identities to slots, and each operation that moves
entities writes that index in its own way. Whatever was done in place, it leads to the slot of the
entity that carries an identity, and nowhere for all other identities. So what was shown of
identities by searching goes for the index as well.
-/

namespace Shepherd.Grid

/-- The index leads to the slot of the entity that carries an identity; an identity that no entity
carries is not in it. -/
structure Slots.Indexed (s : Slots) : Prop where
  slot : ∀ id slot, s.index id = some slot ↔ ∃ e, s.entities[slot]? = some e ∧ e.id = id
  lookup : ∀ id e, s.lookUp? id = some e ↔ e ∈ s.entities ∧ e.id = id
  unknown : ∀ id, s.lookUp? id = none ↔ ∀ e ∈ s.entities, e.id ≠ id

namespace Board
variable {b : Board}

theorem Numbered.indexed (n : Numbered b) : b.slots.Indexed where
  slot _ _ := n.slotOf_eq_some_iff
  lookup id e := by
    rw [lookUp?_slots]
    exact n.entity?_eq_some_iff
  unknown id := by
    rw [lookUp?_slots]
    exact entity?_eq_none_iff

/-- Working in place leads to the board that the operations lead to, with its index. -/
theorem Reachable.run_in_place (h : Reachable b) (ops : List Operation) :
    (b.slots.run ops).2 = (b.performAll ops).slots := by
  rw [h.run_slots, run_snd]

/-- Every board that operations lead to is in order, and whatever is done next, the identities that
were given away keep their meaning; those of removed objects are never found again. The board comes
about in place, and whatever is done to it in place, its index finds each entity by its identity and
nothing else, as a search does. -/
theorem Reachable.integrity_lasting (h : Reachable b) :
    Integrity b ∧ (∀ ops, Lasting b (b.performAll ops)) ∧
      (∀ id b' e, b.remove id = .ok (b', e) → ∀ ops, (b'.performAll ops).entity? id = none) ∧
      (∀ size b', b.resized size = .ok b' → ∀ e ∈ b.objects, b.survives size e = false →
        ∀ ops, (b'.performAll ops).entity? e.id = none) ∧
      (∃ l s ops, Slots.ofLayout l = .ok s ∧ (s.run ops).2 = b.slots) ∧
      ∀ ops, (b.slots.run ops).2.toBoard = b.performAll ops ∧ (b.slots.run ops).2.Indexed ∧
        ∀ id, (b.slots.run ops).2.lookUp? id = (b.performAll ops).entity? id := by
  refine ⟨h.numbered.integrity h.housed, h.lasting, ?_, ?_, h.exists_run, fun ops => ?_⟩
  · intro id b' e hremove ops
    exact h.entity?_removed ops hremove
  · intro size b' hresize e he hsurvives ops
    exact h.entity?_cropped ops hresize he hsurvives
  · rw [h.run_in_place ops]
    exact ⟨rfl, (h.performAll ops).numbered.indexed, lookUp?_slots⟩

/-- A board shrinks under the agent, which keeps its unit; what is put there next gets a new
identity, and the index does not lead to the one that was removed. -/
theorem integrity_lasting_shrunk : ∃ b : Board, Reachable b ∧ b.size = 3 ∧ b.carrying = some 2 ∧
    b.entities.map (·.id) = [0, 1, 2] ∧ Integrity b ∧
    (b.performAll [.remove 2, .add [.sheep ⟨0, 0⟩ .red]]).entities.map (·.id) = [0, 1, 5] ∧
    Lasting b (b.performAll [.remove 2, .add [.sheep ⟨0, 0⟩ .red]]) ∧
    (b.slots.run [.remove 2, .add [.sheep ⟨0, 0⟩ .red]]).2.Indexed ∧
    (b.slots.run [.remove 2, .add [.sheep ⟨0, 0⟩ .red]]).2.lookUp? 2 = none := by
  have reachable := (Reachable.ofLayout (l := ⟨6, ⟨⟨1, 3⟩, .north⟩, ⟨5, 5⟩, .none⟩) rfl).performAll
    [.add [.sheep ⟨1, 2⟩ .pink, .target ⟨4, 4⟩ .pink, .block .wall ⟨3, 3⟩], .act .forward,
      .resize 3]
  obtain ⟨integrity, lasting, -, -, -, inPlace⟩ := reachable.integrity_lasting
  obtain ⟨-, indexed, hlookup⟩ := inPlace [.remove 2, .add [.sheep ⟨0, 0⟩ .red]]
  exact ⟨_, reachable, by decide +kernel, by decide +kernel, by decide +kernel, integrity,
    by decide +kernel, lasting _, indexed, (hlookup 2).trans (by decide +kernel)⟩

end Board

end Shepherd.Grid
