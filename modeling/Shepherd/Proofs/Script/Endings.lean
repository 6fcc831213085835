import Mathlib.Data.List.Basic
import Shepherd.Script.Decoding

/-!
# Line endings

A line may be ended by a line feed alone or by a carriage return and a line feed, and every line of
an output by either. What the lines say does not depend on it: behind each ending the reader is left
with the same content, so it takes the same lines into its trace, stops at the same one, and hands
on the same lines as the script's own.
-/

namespace Shepherd.Text

/-- The two endings of a line. -/
inductive Ending
  | lineFeed
  | returnLineFeed

/-- An ending as text. -/
def Ending.text : Ending → List Char
  | .lineFeed => ['\n']
  | .returnLineFeed => ['\r', '\n']

/-- Lines one behind the other, each with its own ending. -/
def terminated (ls : List (List Char × Ending)) : List Char :=
  ls.flatMap fun l => l.1 ++ l.2.text

/-- The content of one line: nothing of it could be taken for an ending. -/
structure Bare (line : List Char) : Prop where
  single : '\n' ∉ line
  unreturned : line.getLast? ≠ some '\r'

variable {line : List Char}

theorem dropReturn_concat (line : List Char) : dropReturn (line ++ ['\r']) = line := by
  rw [dropReturn, if_pos List.getLast?_concat, List.dropLast_concat]

theorem Bare.dropReturn_eq (h : Bare line) : dropReturn line = line := if_neg h.unreturned

/-- Either ending leaves the content of its line, and the lines behind. -/
theorem Bare.lines_append (h : Bare line) (ending : Ending) (rest : List Char) :
    lines (line ++ ending.text ++ rest) = line :: lines rest := by
  cases ending with
  | lineFeed =>
    have hcut := cutLines_append_newline h.single rest
    rw [Ending.text, List.append_assoc, List.singleton_append, lines, hcut, List.map_cons,
      h.dropReturn_eq, lines]
  | returnLineFeed =>
    have hsingle : '\n' ∉ line ++ ['\r'] := by
      rw [List.mem_append, not_or]
      exact ⟨h.single, by decide⟩
    have hcut := cutLines_append_newline hsingle rest
    rw [List.append_assoc, List.singleton_append] at hcut
    rw [Ending.text, List.append_assoc, List.cons_append, List.singleton_append, lines, hcut,
      List.map_cons, dropReturn_concat, lines]

/-- The lines of terminated lines are their contents, and what is behind them. -/
theorem lines_terminated_append {ls : List (List Char × Ending)} (bare : ∀ l ∈ ls, Bare l.1)
    (rest : List Char) : lines (terminated ls ++ rest) = ls.map (·.1) ++ lines rest := by
  induction ls with
  | nil => rfl
  | cons l ls ih =>
    rw [List.forall_mem_cons] at bare
    rw [terminated, List.flatMap_cons, List.append_assoc, bare.1.lines_append, ← terminated,
      ih bare.2, List.map_cons, List.cons_append]

end Shepherd.Text

namespace Shepherd.Script
open Grid Text

variable {s : Session} {ls : List (List Char × Ending)}

/-- The decoder takes the contents of the lines. -/
theorem decode_terminated (bare : ∀ l ∈ ls, Bare l.1) (rest : List Char) :
    s.decode (terminated ls ++ rest) = s.absorbAll .empty (ls.map (·.1) ++ lines rest) := by
  rw [Session.decode, lines_terminated_append bare]

theorem programOutput_terminated (bare : ∀ l ∈ ls, Bare l.1) (rest : List Char) :
    s.programOutput (terminated ls ++ rest) =
      (ls.map (·.1) ++ lines rest).filter (!s.tags ·) := by
  rw [Session.programOutput, lines_terminated_append bare]

/-- **The endings of the lines do not matter.** However lines with bare contents are ended, their
trace, or the error and the line that it names, is the one that they have with line feeds alone, and
so are the lines that the script printed itself. Any text may follow them. -/
theorem endings_immaterial (s : Session) (ls : List (List Char × Ending))
    (bare : ∀ l ∈ ls, Bare l.1) (rest : List Char) :
    s.decode (terminated ls ++ rest) =
        s.decode ((ls.map (·.1)).flatMap (· ++ ['\n']) ++ rest) ∧
      s.programOutput (terminated ls ++ rest) =
        s.programOutput ((ls.map (·.1)).flatMap (· ++ ['\n']) ++ rest) := by
  have hfeeds : (ls.map (·.1)).flatMap (· ++ ['\n']) =
      terminated (ls.map fun l => (l.1, .lineFeed)) := by
    rw [terminated, List.flatMap_map, List.flatMap_map]
    rfl
  have hcontents : (ls.map fun l => (l.1, Ending.lineFeed)).map (·.1) = ls.map (·.1) := by
    rw [List.map_map]
    rfl
  have hbare : ∀ l ∈ ls.map fun l => (l.1, Ending.lineFeed), Bare l.1 := by
    rw [List.forall_mem_map]
    exact bare
  rw [hfeeds, decode_terminated bare, programOutput_terminated bare, decode_terminated hbare,
    programOutput_terminated hbare, hcontents]
  exact ⟨rfl, rfl⟩

/-- A marker and a line of the script, then a verb that there is not: the error names its line
without the carriage return. -/
theorem endings_immaterial_mixed :
    let ls : List (List Char × Ending) :=
      [("__s1__left__".toList, .returnLineFeed), ("a\rb".toList, .lineFeed),
        ("__s1__jump__".toList, .returnLineFeed)]
    (∀ l ∈ ls, Bare l.1) ∧
      (Session.mk ['s', '1'] rfl).decode (terminated ls) =
        .error ⟨"__s1__jump__", .unknownAction "jump"⟩ ∧
      (Session.mk ['s', '1'] rfl).programOutput (terminated ls) = ["a\rb".toList, []] := by
  intro ls
  have bare : ∀ l ∈ ls, Bare l.1 := by
    rw [List.forall_mem_cons, List.forall_mem_cons, List.forall_mem_singleton]
    exact ⟨⟨by decide +kernel, by decide +kernel⟩, ⟨by decide +kernel, by decide +kernel⟩,
      ⟨by decide +kernel, by decide +kernel⟩⟩
  obtain ⟨hdecode, houtput⟩ := endings_immaterial ⟨['s', '1'], rfl⟩ ls bare []
  rw [List.append_nil] at hdecode houtput
  refine ⟨bare, hdecode.trans ?_, houtput.trans ?_⟩
  · rfl
  · decide +kernel

/-- Of two carriage returns one is content: such a line is not bare. -/
example : lines "a\r\r\n".toList = ["a\r".toList, []] ∧ lines "a\r\n".toList = ["a".toList, []] := by
  decide

end Shepherd.Script
