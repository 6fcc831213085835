import Mathlib.Data.List.Basic
import Shepherd.Proofs.Script.Transcript

/-!
# Sessions side by side

A line can begin like a marker of one session at most, because no name has an underscore in it and
one follows each name. So the output of a run may hold anything between its markers, the output of
other runs included: decoding reads the lines of its own session and hands out all others, each in
order, and what it reads does not depend on the others.
-/

namespace Shepherd.Text
variable {α : Type} {xs ys zs : List α}

/-- The last list is made of the other two, the order of both kept. -/
inductive Interleaved : List α → List α → List α → Prop
  | nil : Interleaved [] [] []
  | left {x : α} {xs ys zs : List α} (h : Interleaved xs ys zs) :
    Interleaved (x :: xs) ys (x :: zs)
  | right {y : α} {xs ys zs : List α} (h : Interleaved xs ys zs) :
    Interleaved xs (y :: ys) (y :: zs)

namespace Interleaved

/-- What a test accepts and what it rejects make up the list. -/
theorem filter_filter_not (p : α → Bool) (xs : List α) :
    Interleaved (xs.filter p) (xs.filter (!p ·)) xs := by
  induction xs with
  | nil => exact .nil
  | cons x xs ih =>
    cases hx : p x with
    | true =>
      rw [List.filter_cons_of_pos hx, List.filter_cons_of_neg (by rw [hx]; decide)]
      exact .left ih
    | false =>
      rw [List.filter_cons_of_neg (by rw [hx]; decide), List.filter_cons_of_pos (by rw [hx]; rfl)]
      exact .right ih

/-- Where a test rejects one of the lists, it leaves of the whole what it leaves of the other. -/
theorem filter_eq (h : Interleaved xs ys zs) {p : α → Bool} (hys : ∀ y ∈ ys, p y = false) :
    zs.filter p = xs.filter p := by
  induction h with
  | nil => rfl
  | @left x xs ys zs _ ih => rw [List.filter_cons, List.filter_cons, ih hys]
  | @right y xs ys zs _ ih =>
    rw [List.forall_mem_cons] at hys
    rw [List.filter_cons_of_neg (by rw [hys.1]; decide), ih hys.2]

end Interleaved

end Shepherd.Text

namespace Shepherd.Script
open Grid Text

variable {s s' : Session} {line : List Char}

/-! ### Names and markers -/

theorem underscore_not_mem_name (s : Session) : '_' ∉ s.name := by
  have hname := s.isName
  rw [isSessionName, Bool.and_eq_true, List.all_eq_true] at hname
  intro h
  cases hname.2 '_' h

theorem Session.eq_of_name_eq (h : s.name = s'.name) : s = s' := by
  cases s
  cases s'
  cases h
  rfl

/-- Behind two underscores a line that begins like a marker has the session's name, and then an
underscore. -/
theorem eq_name_append_of_start (h : s.actionStart <+: line ∨ s.codeSizeStart <+: line) :
    ∃ rest, line = ['_', '_'] ++ (s.name ++ ['_'] ++ rest) := by
  rcases h with ⟨rest, rfl⟩ | ⟨rest, rfl⟩
  · exact ⟨'_' :: rest, by simp [Session.actionStart]⟩
  · exact ⟨"codesize__".toList ++ rest, by simp [Session.codeSizeStart]⟩

/-- A line begins like a marker of one session at most. -/
theorem Session.eq_of_tags (h : s.tags line = true) (h' : s'.tags line = true) : s = s' := by
  obtain ⟨rest, rfl⟩ := eq_name_append_of_start (tags_eq_true_iff.1 h)
  obtain ⟨rest', heq⟩ := eq_name_append_of_start (tags_eq_true_iff.1 h')
  have hsplit : splitOnce? ['_'] (s.name ++ ['_'] ++ rest) = some (s.name, rest) :=
    splitOnce?_append (underscore_not_mem_name s) rest
  rw [List.append_cancel_left_eq] at heq
  -- the text in front of the first underscore is the name, of one session and of the other
  rw [heq, splitOnce?_append (underscore_not_mem_name s')] at hsplit
  exact (eq_of_name_eq (Prod.mk.inj (Option.some.inj hsplit)).1).symm

/-- The marks of another session are none. -/
theorem Session.tags_of_ne (hne : s ≠ s') (h' : s'.tags line = true) : s.tags line = false :=
  Bool.eq_false_iff.2 fun h => hne (eq_of_tags h h')

/-! ### Lines that are read and lines that are handed out -/

/-- The lines that are no output of the script: markers and malformed lines. -/
def Session.interpreted (s : Session) (output : List Char) : List (List Char) :=
  (lines output).filter fun line => s.read line ≠ .printed

/-- Lines are read if they begin like markers, and only then. -/
theorem read_ne_printed_iff {s : Session} {line : List Char} :
    s.read line ≠ .printed ↔ s.tags line = true := by
  refine ⟨fun h => ?_, fun h => read_ne_printed (tags_eq_true_iff.1 h)⟩
  rw [← Bool.not_eq_false]
  exact mt read_eq_printed h

theorem Session.interpreted_eq (s : Session) (output : List Char) :
    s.interpreted output = (lines output).filter s.tags :=
  List.filter_congr fun line _ => by rw [Bool.eq_iff_iff, decide_eq_true_iff, read_ne_printed_iff]

/-- The lines that are read and those that are handed out make up the output. -/
theorem Session.interleaved_programOutput (s : Session) (output : List Char) :
    Interleaved (s.interpreted output) (s.programOutput output) (lines output) := by
  rw [interpreted_eq, programOutput]
  exact .filter_filter_not s.tags (lines output)

/-- The lines that are handed out leave the trace as it is. -/
theorem Session.absorbAll_filter_tags (s : Session) (t : Trace) (ls : List (List Char)) :
    s.absorbAll t (ls.filter s.tags) = s.absorbAll t ls := by
  induction ls generalizing t with
  | nil => rfl
  | cons line ls ih =>
    cases htags : s.tags line with
    | true =>
      rw [List.filter_cons_of_pos htags, absorbAll_cons, absorbAll_cons]
      exact congrArg _ (funext ih)
    | false =>
      have hsame : s.absorb t line = .ok t := by rw [absorb, read_eq_printed htags]
      rw [List.filter_cons_of_neg (by rw [htags]; decide), ih, absorbAll_cons, hsame]
      rfl

/-- The trace is made of the lines that are read. -/
theorem Session.decode_eq_absorbAll (s : Session) (output : List Char) :
    s.decode output = s.absorbAll .empty (s.interpreted output) := by
  rw [decode, interpreted_eq, absorbAll_filter_tags]

/-! ### The output of another session -/

namespace Program

variable {source : List Char} {events : List Event}

/-- What a program prints is marked by its session and written like a marker, or it is a line of the
script's own. -/
theorem outputLine_cases (h : line ∈ (ofSource s source).outputLines events) :
    s.tags line = true ∧ line.all isTagChar = true ∨ .say line ∈ events := by
  have hend : markerEnd.all isTagChar = true := by decide
  rw [outputLines, List.mem_append, List.mem_cons, List.mem_flatMap, List.mem_map] at h
  rcases h with (rfl | ⟨e, he, h⟩) | ⟨w, hw, rfl⟩
  · left
    constructor
    · exact tags_eq_true_iff.2 (.inr ⟨_, (List.append_assoc _ _ _).symm⟩)
    · simp only [ofSource, List.all_append, s.all_isTagChar_codeSizeStart, all_isTagChar_repr,
        hend, Bool.and_self]
  · rw [eventLines_ofSource] at h
    cases e with
    | call verb times =>
      obtain rfl := List.eq_of_mem_replicate h
      exact .inl ⟨tags_line s _, all_isTagChar_line s _⟩
    | say said =>
      obtain rfl := List.mem_singleton.1 h
      exact .inr he
  · obtain ⟨a, -, rfl⟩ := List.mem_map.1 hw
    left
    rw [interpolate_report_eq]
    constructor
    · simp only [counter, List.append_assoc]
      exact tags_eq_true_iff.2 (.inl (List.prefix_append _ _))
    · simp only [List.all_append, all_isTagChar_counter, all_isTagChar_repr, hend, Bool.and_self]

/-- The output of a program holds no marks of another session, unless its script prints them. -/
theorem tags_output_of_ne (hne : s ≠ s') (plain : ∀ e ∈ events, e.Plain s)
    (h : line ∈ lines ((ofSource s' source).output events)) : s.tags line = false := by
  have hsingle : ∀ l ∈ (ofSource s' source).outputLines events, '\n' ∉ l := by
    intro l hl
    rcases outputLine_cases hl with ⟨-, htag⟩ | hsaid
    · exact not_mem_of_all_isTagChar htag (by decide)
    · exact (plain _ hsaid).1
  rw [output, lines_terminated hsingle, List.mem_append, List.mem_map, List.mem_singleton] at h
  rcases h with ⟨l, hl, rfl⟩ | rfl
  · refine tags_dropReturn ?_
    rcases outputLine_cases hl with ⟨hmark, -⟩ | hsaid
    · exact Session.tags_of_ne hne hmark
    · exact (plain _ hsaid).2
  · exact tags_nil s

end Program

/-! ### Isolation -/

/-- **A session is not disturbed by others.** No line begins like a marker of two sessions. What an
output decodes to, trace or error, is settled by its lines with marks of the session: lines without
them may be merged into the output in any way, and a program of another session prints none with
them. Every line is either read or handed out, in order, as it begins like a marker or does not. -/
theorem Session.decode_isolated (s : Session) :
    (∀ s' line, s ≠ s' →
      ¬ ((s.actionStart <+: line ∨ s.codeSizeStart <+: line) ∧
        (s'.actionStart <+: line ∨ s'.codeSizeStart <+: line))) ∧
    (∀ o o', (lines o).filter s.tags = (lines o').filter s.tags → s.decode o = s.decode o') ∧
    (∀ o others merged, Interleaved (lines o) others (lines merged) →
      (∀ line ∈ others, s.tags line = false) → s.decode merged = s.decode o) ∧
    (∀ s' source events, s ≠ s' → (∀ e ∈ events, e.Plain s) →
      ∀ line ∈ lines ((Program.ofSource s' source).output events), s.tags line = false) ∧
    ∀ o, s.decode o = s.absorbAll .empty (s.interpreted o) ∧
      Interleaved (s.interpreted o) (s.programOutput o) (lines o) ∧
      (∀ line ∈ s.interpreted o, s.actionStart <+: line ∨ s.codeSizeStart <+: line) ∧
      ∀ line ∈ s.programOutput o, ¬ s.actionStart <+: line ∧ ¬ s.codeSizeStart <+: line := by
  have hsame (o o') (h : (lines o).filter s.tags = (lines o').filter s.tags) :
      s.decode o = s.decode o' := by
    rw [decode_eq_absorbAll, interpreted_eq, h, ← interpreted_eq, ← decode_eq_absorbAll]
  refine ⟨fun s' line hne h => ?_, hsame, fun o others merged hmerged hothers => ?_,
    fun s' source events hne plain line hline => Program.tags_output_of_ne hne plain hline,
    fun o => ⟨decode_eq_absorbAll s o, interleaved_programOutput s o, fun line hline => ?_,
      fun line hline => ?_⟩⟩
  · exact hne (eq_of_tags (tags_eq_true_iff.2 h.1) (tags_eq_true_iff.2 h.2))
  · exact hsame merged o (hmerged.filter_eq hothers)
  · rw [interpreted_eq] at hline
    exact tags_eq_true_iff.1 (List.of_mem_filter hline)
  · have hnot : (!s.tags line) = true := (List.mem_filter.1 hline).2
    exact tags_eq_false_iff.1 (Bool.not_eq_true' _ ▸ hnot)

/-- The output of a run beside that of a session whose name goes on with one more letter. -/
theorem decode_isolated_longer_name :
    let a : Session := ⟨['a'], rfl⟩
    let ab : Session := ⟨['a', 'b'], rfl⟩
    a ≠ ab ∧ (∀ line ∈ lines ((Program.ofSource ab "left()".toList).output [.call .left 1]),
      a.tags line = false) ∧
    a.decode "__ab_codesize__6__\n__a__left__\n__ab__left__\n".toList =
      a.decode "__a__left__\n".toList := by
  intro a ab
  have hne : a ≠ ab := fun h => absurd (congrArg Session.name h) (by decide)
  obtain ⟨_, _, hmerge, hother, _⟩ := Session.decode_isolated a
  have hlines : lines "__a__left__\n".toList = ["__a__left__".toList, []] := by decide +kernel
  have hmerged : lines "__ab_codesize__6__\n__a__left__\n__ab__left__\n".toList =
      ["__ab_codesize__6__".toList, "__a__left__".toList, "__ab__left__".toList, []] := by
    decide +kernel
  refine ⟨hne, hother ab _ _ hne (by decide), hmerge _
    ["__ab_codesize__6__".toList, "__ab__left__".toList] _ ?_ (by decide +kernel)⟩
  rw [hlines, hmerged]
  exact .right (.left (.right (.left .nil)))

end Shepherd.Script
