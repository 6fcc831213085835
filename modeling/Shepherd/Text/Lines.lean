import Shepherd.Text.Blank

/-!
# Lines

A text is cut at every line feed, so it has one line more than line feeds; a single carriage return
at the end of a line belongs to its ending.
-/

namespace Shepherd.Text

/-- Puts one more character in front of lines that are already cut. -/
def cutStep (c : Char) : List (List Char) → List (List Char)
  | [] => [[c]]
  | line :: rest => if c = '\n' then [] :: line :: rest else (c :: line) :: rest

/-- The pieces between line feeds. -/
def cutLines (cs : List Char) : List (List Char) := cs.foldr cutStep [[]]

/-- Drops one carriage return at the end. -/
def dropReturn (line : List Char) : List Char :=
  if line.getLast? = some '\r' then line.dropLast else line

/-- The lines of a text, without their endings. -/
def lines (cs : List Char) : List (List Char) := (cutLines cs).map dropReturn

/-- The last line with a visible character, right-trimmed. -/
def lastVisibleLine? (cs : List Char) : Option (List Char) :=
  ((cutLines cs).reverse.map trimEnd).find? (· ≠ [])

theorem cutLines_nil : cutLines [] = [[]] := rfl

theorem cutLines_ne_nil (cs : List Char) : cutLines cs ≠ [] := by
  induction cs with
  | nil => simp [cutLines]
  | cons c cs ih =>
    simp only [cutLines, List.foldr_cons]
    cases h : List.foldr cutStep [[]] cs with
    | nil => simp [cutStep]
    | cons line rest => simp only [cutStep]; split <;> simp

/-- A line feed opens a new, empty first line. -/
theorem cutLines_newline (cs : List Char) : cutLines ('\n' :: cs) = [] :: cutLines cs := by
  have h := cutLines_ne_nil cs
  simp only [cutLines, List.foldr_cons] at h ⊢
  cases hc : List.foldr cutStep [[]] cs with
  | nil => exact absurd hc h
  | cons line rest => simp [cutStep]

/-- A line feed ends the first line. -/
theorem cutLines_append_newline {line : List Char} (h : '\n' ∉ line) (rest : List Char) :
    cutLines (line ++ '\n' :: rest) = line :: cutLines rest := by
  induction line with
  | nil => exact cutLines_newline rest
  | cons c line ih =>
    rw [List.mem_cons, not_or] at h
    have hcut : cutLines (c :: line ++ '\n' :: rest) =
        cutStep c (cutLines (line ++ '\n' :: rest)) := rfl
    rw [hcut, ih h.2, cutStep, if_neg (Ne.symm h.1)]

/-- Lines that were each ended by a line feed are the lines of the text, with an empty one behind
them. -/
theorem lines_terminated {ls : List (List Char)} (h : ∀ line ∈ ls, '\n' ∉ line) :
    lines (ls.flatMap (· ++ ['\n'])) = ls.map dropReturn ++ [[]] := by
  induction ls with
  | nil => rfl
  | cons line ls ih =>
    rw [List.forall_mem_cons] at h
    have hcut := cutLines_append_newline h.1 (ls.flatMap (· ++ ['\n']))
    rw [List.flatMap_cons, List.append_assoc, List.singleton_append, lines, hcut, List.map_cons,
      List.map_cons, List.cons_append, ← ih h.2, lines]

end Shepherd.Text
