import Mathlib.Data.List.DropRight
import Shepherd.Text.Blank

/-!
# Blanks around a text

Trimming cuts a text in three: blanks, what is left, and blanks again. What is left has no blank at
either end, and there is only one way to cut like this.
-/

namespace Shepherd.Text

/-- A text that shows nothing. -/
def Silent (text : List Char) : Prop := ∀ c ∈ text, isBlank c = true

/-- A text is another one with blanks around it, and that one begins and ends with visible
characters or is empty. -/
structure Stripped (text bare : List Char) : Prop where
  around : ∃ before after, text = before ++ bare ++ after ∧ Silent before ∧ Silent after
  visible : ∀ h : bare ≠ [], isBlank (bare.head h) = false ∧ isBlank (bare.getLast h) = false

variable {text bare before after : List Char}

theorem trimEnd_eq_nil_iff : trimEnd text = [] ↔ Silent text := List.rdropWhile_eq_nil_iff

theorem trimStart_append (h : Silent before) (text : List Char) :
    trimStart (before ++ text) = trimStart text :=
  List.dropWhile_append_of_pos h

theorem trimEnd_append (text : List Char) (h : Silent after) :
    trimEnd (text ++ after) = trimEnd text := by
  induction after using List.reverseRecOn with
  | nil => rw [List.append_nil]
  | append_singleton after c ih =>
    have hafter : Silent after := fun d hd => h d (List.mem_append_left _ hd)
    have hlast : isBlank c = true := h c (List.mem_append_right _ List.mem_cons_self)
    rw [← List.append_assoc, trimEnd_concat_blank _ hlast, ih hafter]

theorem trimEnd_of_visible (h : text ≠ []) (hlast : isBlank (text.getLast h) = false) :
    trimEnd text = text :=
  List.rdropWhile_eq_self_iff.2 fun _ => Bool.eq_false_iff.1 hlast

/-- What stands in front of a text that begins visibly is blank. -/
theorem exists_eq_append_trimStart (text : List Char) :
    ∃ before, text = before ++ trimStart text ∧ Silent before :=
  ⟨text.takeWhile isBlank, List.takeWhile_append_dropWhile.symm,
    fun _ hc => List.mem_takeWhile_imp hc⟩

theorem exists_eq_trimEnd_append (text : List Char) :
    ∃ after, text = trimEnd text ++ after ∧ Silent after :=
  ⟨text.rtakeWhile isBlank, List.rdropWhile_append_rtakeWhile.symm,
    fun _ hc => List.mem_rtakeWhile_imp hc⟩

theorem isBlank_getLast_trimEnd (h : trimEnd text ≠ []) :
    isBlank ((trimEnd text).getLast h) = false :=
  Bool.eq_false_iff.2 (List.rdropWhile_last_not isBlank text h)

/-- Trimming at the end leaves the first character where it is. -/
theorem isBlank_head_trim (h : trim text ≠ []) : isBlank ((trim text).head h) = false := by
  obtain ⟨after, hafter, -⟩ := exists_eq_trimEnd_append (trimStart text)
  have hstart : trimStart text ≠ [] := fun hnil => h (by rw [trim, hnil, trimEnd_nil])
  have hfirst : isBlank ((trimStart text).head hstart) = false := List.head_dropWhile_not isBlank _
  have hhead : (trimStart text).head? = (trim text).head? := by
    rw [hafter, ← trim, List.head?_append_of_ne_nil _ h]
  rw [List.head?_eq_some_head hstart, List.head?_eq_some_head h] at hhead
  rw [← Option.some.inj hhead]
  exact hfirst

/-- Trimming leaves what the blanks stand around. -/
theorem trim_eq_iff : trim text = bare ↔ Stripped text bare := by
  constructor
  · rintro rfl
    obtain ⟨before, hbefore, hfront⟩ := exists_eq_append_trimStart text
    obtain ⟨after, hafter, hback⟩ := exists_eq_trimEnd_append (trimStart text)
    refine ⟨⟨before, after, ?_, hfront, hback⟩, fun h =>
      ⟨isBlank_head_trim h, isBlank_getLast_trimEnd h⟩⟩
    rw [List.append_assoc, trim, ← hafter, ← hbefore]
  · rintro ⟨⟨before, after, rfl, hfront, hback⟩, visible⟩
    rw [trim, List.append_assoc, trimStart_append hfront]
    cases bare with
    | nil =>
      have hnil : trimStart after = [] := List.dropWhile_eq_nil_iff.2 hback
      rw [List.nil_append, hnil, trimEnd_nil]
    | cons c bare =>
      obtain ⟨hfirst, hlast⟩ := visible (List.cons_ne_nil _ _)
      have hstart : trimStart (c :: bare ++ after) = c :: bare ++ after :=
        List.dropWhile_cons_of_neg (Bool.eq_false_iff.1 hfirst)
      rw [hstart, trimEnd_append _ hback, trimEnd_of_visible _ hlast]

end Shepherd.Text
