import Mathlib.Data.List.Basic
import Shepherd.Text.Split

/-!
# Where a text is split

A text is split at the first place where the separator stands. For a separator that is told by its
first character this is the first place where that character stands.
-/

namespace Shepherd.Text

variable {c : Char} {sep cs before after : List Char}

/-- A separator does not start a text that begins with another character. -/
theorem isPrefixOf?_cons_of_ne {d : Char} (h : c ≠ d) (cs : List Char) :
    (c :: sep).isPrefixOf? (d :: cs) = none :=
  if_neg (mt beq_iff_eq.1 h)

/-- Without the first character of the separator there is nothing to split at. -/
theorem splitOnce?_eq_none (h : c ∉ before) : splitOnce? (c :: sep) before = none := by
  induction before with
  | nil => rfl
  | cons d before ih =>
    rw [List.mem_cons, not_or] at h
    rw [splitOnce?, isPrefixOf?_cons_of_ne h.1, ih h.2, Option.map_none]

/-- A separator whose first character does not stand before it is the place to split. -/
theorem splitOnce?_append (h : c ∉ before) (rest : List Char) :
    splitOnce? (c :: sep) (before ++ (c :: sep) ++ rest) = some (before, rest) := by
  induction before with
  | nil =>
    have hstart : (c :: sep).isPrefixOf? (c :: (sep ++ rest)) = some rest :=
      List.isPrefixOf?_eq_some_iff_append_eq.2 rfl
    rw [List.nil_append, List.cons_append, splitOnce?, hstart]
  | cons d before ih =>
    rw [List.mem_cons, not_or] at h
    rw [List.cons_append, List.cons_append, splitOnce?, isPrefixOf?_cons_of_ne h.1, ih h.2,
      Option.map_some]

/-- The separator stands where a text was split. -/
theorem eq_append_of_splitOnce?
    (h : splitOnce? sep cs = some (before, after)) : cs = before ++ sep ++ after := by
  induction cs generalizing before with
  | nil =>
    rw [splitOnce?] at h
    split at h
    · next hsep => cases h; rw [hsep]; rfl
    · cases h
  | cons c cs ih =>
    rw [splitOnce?] at h
    split at h
    · next rest hstart =>
      cases h
      exact (List.isPrefixOf?_eq_some_iff_append_eq.1 hstart).symm
    · obtain ⟨⟨front, back⟩, hsplit, heq⟩ := Option.map_eq_some_iff.1 h
      cases heq
      rw [ih hsplit]
      rfl

/-- In front of the place where a text is split at a character, that character does not stand. -/
theorem not_mem_of_splitOnce? (h : splitOnce? [c] cs = some (before, after)) : c ∉ before := by
  induction cs generalizing before with
  | nil => cases h
  | cons d cs ih =>
    by_cases hd : c = d
    · have hstart : [c].isPrefixOf? (d :: cs) = some cs :=
        List.isPrefixOf?_eq_some_iff_append_eq.2 (by rw [hd]; rfl)
      rw [splitOnce?, hstart] at h
      cases h
      exact List.not_mem_nil
    · rw [splitOnce?, isPrefixOf?_cons_of_ne hd] at h
      obtain ⟨⟨front, back⟩, hsplit, heq⟩ := Option.map_eq_some_iff.1 h
      cases heq
      rw [List.mem_cons, not_or]
      exact ⟨hd, ih hsplit⟩

theorem splitOnce?_eq_some_iff :
    splitOnce? [c] cs = some (before, after) ↔ cs = before ++ c :: after ∧ c ∉ before := by
  constructor
  · intro h
    refine ⟨?_, not_mem_of_splitOnce? h⟩
    rw [eq_append_of_splitOnce? h, List.append_assoc, List.singleton_append]
  · rintro ⟨rfl, h⟩
    rw [← splitOnce?_append h after, List.append_assoc, List.singleton_append]

end Shepherd.Text
