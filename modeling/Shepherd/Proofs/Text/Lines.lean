import Mathlib.Data.List.Induction
import Shepherd.Proofs.Text.Blank
import Shepherd.Text.Lines

/-!
# Lines

Where two texts meet, a line can go on; where a line feed parts them, each has its own lines. The
last line of a text that shows something is where the text is cut in three: what stands before the
line, the line without the blanks at its end, and nothing but blanks. There is only one way to cut
like this, and none in a text that shows nothing.
-/

namespace Shepherd.Text

/-! ### Cutting a text -/

/-- Cutting a text is splitting it at line feeds. -/
theorem cutLines_eq_splitOn (cs : List Char) : cutLines cs = cs.splitOn '\n' := by
  induction cs with
  | nil => rfl
  | cons c cs ih =>
    have hcut : cutLines (c :: cs) = cutStep c (cutLines cs) := rfl
    rw [hcut, List.splitOn, List.splitOnP_cons_eq_if_modifyHead, ← List.splitOn, ← ih]
    cases hlines : cutLines cs with
    | nil => exact absurd hlines (cutLines_ne_nil cs)
    | cons line rest => simp only [cutStep, List.modifyHead_cons, beq_iff_eq]

theorem lines_eq_map_splitOn (cs : List Char) :
    lines cs = (cs.splitOn '\n').map dropReturn := by
  rw [lines, cutLines_eq_splitOn]

/-- The first line of a text is a start of it. -/
theorem isPrefix_of_cutLines {cs line : List Char} {rest : List (List Char)}
    (h : cutLines cs = line :: rest) : line <+: cs := by
  induction cs generalizing line rest with
  | nil =>
    cases h
    exact List.prefix_rfl
  | cons c cs ih =>
    have hcut : cutLines (c :: cs) = cutStep c (cutLines cs) := rfl
    cases hcs : cutLines cs with
    | nil => exact absurd hcs (cutLines_ne_nil cs)
    | cons first others =>
      rw [hcut, hcs, cutStep] at h
      split at h
      · cases h
        exact List.nil_prefix
      · cases h
        exact List.cons_prefix_cons.2 ⟨rfl, ih hcs⟩

/-- What starts a line and has no carriage return in it starts the line without its ending. -/
theorem isPrefix_dropReturn_of_isPrefix {x line : List Char} (hx : '\r' ∉ x) (h : x <+: line) :
    x <+: dropReturn line := by
  rw [dropReturn]
  split
  · next hlast =>
    obtain ⟨init, rfl⟩ := List.getLast?_eq_some_iff.1 hlast
    rw [List.dropLast_concat]
    rcases List.prefix_concat_iff.1 h with rfl | h
    · exact absurd (List.mem_append_right _ List.mem_cons_self) hx
    · exact h
  · exact h

/-! ### Cutting texts that are put together -/

/-- A text is cut into lines piece by piece; where two pieces meet, a line can go on. -/
theorem cutLines_append (start rest : List Char) :
    ∃ before line tail after, cutLines start = before ++ [line] ∧
      cutLines rest = tail :: after ∧
      cutLines (start ++ rest) = before ++ (line ++ tail) :: after := by
  induction start with
  | nil =>
    cases hrest : cutLines rest with
    | nil => exact absurd hrest (cutLines_ne_nil rest)
    | cons tail after => exact ⟨[], [], tail, after, rfl, rfl, hrest⟩
  | cons c start ih =>
    obtain ⟨before, line, tail, after, hstart, hrest, hwhole⟩ := ih
    have hcut (cs : List Char) : cutLines (c :: cs) = cutStep c (cutLines cs) := rfl
    rw [List.cons_append, hcut, hcut, hstart, hwhole]
    by_cases hc : c = '\n'
    · -- the line feed puts an empty line in front of both
      refine ⟨[] :: before, line, tail, after, ?_, hrest, ?_⟩ <;>
        cases before <;> simp [cutStep, hc]
    · cases before with
      | nil =>
        exact ⟨[], c :: line, tail, after, by simp [cutStep, hc], hrest, by simp [cutStep, hc]⟩
      | cons first before =>
        exact ⟨(c :: first) :: before, line, tail, after, by simp [cutStep, hc], hrest,
          by simp [cutStep, hc]⟩

/-- A line feed between two texts parts their lines. -/
theorem cutLines_append_newline_append (cs ds : List Char) :
    cutLines (cs ++ '\n' :: ds) = cutLines cs ++ cutLines ds := by
  obtain ⟨before, line, tail, after, hcs, hds, hwhole⟩ := cutLines_append cs ('\n' :: ds)
  rw [cutLines_newline, List.cons.injEq] at hds
  rw [hwhole, hcs, hds.2, ← hds.1, List.append_nil, List.append_assoc, List.singleton_append]

theorem lines_append_newline (cs ds : List Char) :
    lines (cs ++ '\n' :: ds) = lines cs ++ lines ds := by
  rw [lines, cutLines_append_newline_append, List.map_append]
  rfl

/-- A line is what is left of it without its ending, or that and a carriage return. -/
theorem eq_dropReturn_or (line : List Char) :
    line = dropReturn line ∨ line = dropReturn line ++ ['\r'] := by
  rw [dropReturn]
  split
  · next hlast =>
    obtain ⟨init, rfl⟩ := List.getLast?_eq_some_iff.1 hlast
    rw [List.dropLast_concat]
    exact .inr rfl
  · exact .inl rfl

theorem cutLines_of_single {line : List Char} (h : '\n' ∉ line) : cutLines line = [line] := by
  have hended := cutLines_append_newline h []
  rw [cutLines_append_newline_append, ← List.singleton_append] at hended
  exact List.append_cancel_right hended

/-- A text is what stands before its last line, and that line. -/
theorem exists_eq_append_last (text : List Char) :
    ∃ before line, text = before ++ line ∧ '\n' ∉ line ∧
      (before = [] ∨ ∃ front, before = front ++ ['\n']) := by
  induction text using List.reverseRecOn with
  | nil => exact ⟨[], [], rfl, List.not_mem_nil, .inl rfl⟩
  | append_singleton text c ih =>
    by_cases hc : c = '\n'
    · exact ⟨text ++ [c], [], by simp, List.not_mem_nil, .inr ⟨text, by rw [hc]⟩⟩
    · obtain ⟨before, line, rfl, hline, hbefore⟩ := ih
      refine ⟨before, line ++ [c], by simp, ?_, hbefore⟩
      simp [hline, Ne.symm hc]

/-! ### The last line that shows something -/

/-- The last line of a text with something to be seen, without the blanks at its end. -/
def LastVisible (text line : List Char) : Prop :=
  ∃ before cut after, cutLines text = before ++ cut :: after ∧ ¬ Silent cut ∧
    (∀ later ∈ after, Silent later) ∧ line = trimEnd cut

theorem LastVisible.ne_nil {text line : List Char} (h : LastVisible text line) : line ≠ [] := by
  obtain ⟨_, cut, _, -, hcut, -, rfl⟩ := h
  exact fun hnil => hcut (trimEnd_eq_nil_iff.1 hnil)

theorem lastVisibleLine?_eq_some_iff {text line : List Char} :
    lastVisibleLine? text = some line ↔ LastVisible text line := by
  rw [lastVisibleLine?, List.find?_map, Option.map_eq_some_iff]
  simp only [List.find?_eq_some_iff_append, Function.comp_apply, decide_eq_true_eq, ne_eq,
    trimEnd_eq_nil_iff, Bool.not_eq_true', decide_eq_false_iff_not, not_not]
  constructor
  · rintro ⟨cut, ⟨hcut, after, before, hcuts, hafter⟩, rfl⟩
    have hcuts' : cutLines text = before.reverse ++ cut :: after.reverse := by
      rw [← List.reverse_reverse (cutLines text), hcuts]
      simp
    exact ⟨_, cut, _, hcuts', hcut, fun later h => hafter later (List.mem_reverse.1 h), rfl⟩
  · rintro ⟨before, cut, after, hcuts, hcut, hafter, rfl⟩
    refine ⟨cut, ⟨hcut, after.reverse, before.reverse, by simp [hcuts], fun later h => ?_⟩, rfl⟩
    exact hafter later (List.mem_reverse.1 h)

theorem silent_nil : Silent [] := nofun

theorem silent_cons {c : Char} {text : List Char} :
    Silent (c :: text) ↔ isBlank c = true ∧ Silent text := List.forall_mem_cons

/-- A text is silent if all its lines are. -/
theorem silent_iff_cutLines {text : List Char} :
    Silent text ↔ ∀ cut ∈ cutLines text, Silent cut := by
  induction text with
  | nil => simp [silent_nil, cutLines_nil]
  | cons c text ih =>
    rw [silent_cons, ih]
    by_cases hc : c = '\n'
    · have hblank : isBlank '\n' = true := by decide
      rw [hc, cutLines_newline, List.forall_mem_cons, and_iff_right hblank,
        and_iff_right silent_nil]
    · have hcut : cutLines (c :: text) = cutStep c (cutLines text) := rfl
      rw [hcut]
      cases hlines : cutLines text with
      | nil => exact absurd hlines (cutLines_ne_nil text)
      | cons line rest =>
        rw [cutStep, if_neg hc, List.forall_mem_cons, List.forall_mem_cons, silent_cons, and_assoc]

theorem lastVisibleLine?_eq_none_iff {text : List Char} :
    lastVisibleLine? text = none ↔ Silent text := by
  rw [lastVisibleLine?, List.find?_eq_none, silent_iff_cutLines]
  simp only [List.forall_mem_map, List.mem_reverse, ne_eq, decide_eq_true_eq, not_not,
    trimEnd_eq_nil_iff]

/-! ### Where it stands -/

/-- A text is cut around a line: `before` ends where the line begins, the line ends in a visible
character, and only blanks stand behind it. -/
structure LastLine (text before line after : List Char) : Prop where
  whole : text = before ++ line ++ after
  begins : before = [] ∨ ∃ front, before = front ++ ['\n']
  ne_nil : line ≠ []
  single : '\n' ∉ line
  visible : isBlank (line.getLast ne_nil) = false
  silent : Silent after

namespace LastLine
variable {text before line after before' line' after' : List Char}

/-- Trimming leaves the line and what stands before it. -/
theorem trimEnd_eq (h : LastLine text before line after) : trimEnd text = before ++ line := by
  have hne : before ++ line ≠ [] := List.append_ne_nil_of_right_ne_nil _ h.ne_nil
  have hlast : isBlank ((before ++ line).getLast hne) = false := by
    rw [List.getLast_append_of_ne_nil _ h.ne_nil]
    exact h.visible
  rw [h.whole, trimEnd_append _ h.silent, trimEnd_of_visible hne hlast]

/-- Among the lines of the text, it is the one behind which all are silent. -/
theorem lastVisible (h : LastLine text before line after) : LastVisible text line := by
  obtain ⟨start, last, blank, later, hline, hafter, hrest⟩ := cutLines_append line after
  rw [cutLines_of_single h.single] at hline
  obtain ⟨rfl, rfl⟩ : start = [] ∧ last = line := by
    simpa [List.singleton_eq_append_iff] using hline
  have hsilent : ∀ cut ∈ blank :: later, Silent cut := hafter ▸ silent_iff_cutLines.1 h.silent
  rw [List.forall_mem_cons] at hsilent
  have htrim : trimEnd (last ++ blank) = last := by
    rw [trimEnd_append _ hsilent.1, trimEnd_of_visible h.ne_nil h.visible]
  have hshows : ¬ Silent (last ++ blank) := by
    rw [← trimEnd_eq_nil_iff, htrim]
    exact h.ne_nil
  have hwhole := h.whole
  rw [List.append_assoc] at hwhole
  rcases h.begins with rfl | ⟨front, rfl⟩
  · exact ⟨[], _, later, by rw [hwhole, List.nil_append, hrest], hshows, hsilent.2, htrim.symm⟩
  · refine ⟨cutLines front, _, later, ?_, hshows, hsilent.2, htrim.symm⟩
    rw [hwhole, List.append_assoc, List.singleton_append, cutLines_append_newline_append, hrest]
    rfl

theorem unique (h : LastLine text before line after) (h' : LastLine text before' line' after') :
    before' = before ∧ line' = line ∧ after' = after := by
  have hfound := lastVisibleLine?_eq_some_iff.2 h.lastVisible
  rw [lastVisibleLine?_eq_some_iff.2 h'.lastVisible] at hfound
  obtain rfl : line' = line := Option.some.inj hfound
  obtain rfl : before' = before :=
    List.append_cancel_right (h'.trimEnd_eq.symm.trans h.trimEnd_eq)
  exact ⟨rfl, rfl, List.append_cancel_left (h'.whole.symm.trans h.whole)⟩

end LastLine

/-- A text that shows something has such a line. -/
theorem exists_lastLine {text : List Char} (h : ¬ Silent text) :
    ∃ before line after, LastLine text before line after := by
  have hshown : trimEnd text ≠ [] := mt trimEnd_eq_nil_iff.1 h
  have hlast := isBlank_getLast_trimEnd hshown
  obtain ⟨after, hwhole, hsilent⟩ := exists_eq_trimEnd_append text
  obtain ⟨before, line, hcut, hsingle, hbefore⟩ := exists_eq_append_last (trimEnd text)
  have hline : line ≠ [] := by
    rintro rfl
    rw [List.append_nil] at hcut
    rcases hbefore with rfl | ⟨front, rfl⟩
    · exact hshown hcut
    · have hblank : isBlank '\n' = true := by decide
      simp [hcut, hblank] at hlast
  refine ⟨before, line, after, ?_, hbefore, hline, hsingle, ?_, hsilent⟩
  · rw [← hcut]
    exact hwhole
  · simp only [hcut, List.getLast_append_of_ne_nil _ hline] at hlast
    exact hlast

/-! ### Endings -/

/-- The lines of a text by their endings: a carriage return belongs to the ending only in front of a
line feed, and behind the last ending there is no line unless something is written there. -/
def endedLines (text : List Char) : List (List Char) :=
  (cutLines text).dropLast.map dropReturn ++ (cutLines text).getLast?.toList.filter (· ≠ [])

theorem trimEnd_dropReturn (line : List Char) : trimEnd (dropReturn line) = trimEnd line := by
  have hblank : isBlank '\r' = true := by decide
  rcases eq_dropReturn_or line with h | h
  · rw [← h]
  · conv_rhs => rw [h, trimEnd_concat_blank _ hblank]

/-- An ending shows nothing, so it does not matter what belongs to it. -/
theorem lastVisibleLine?_eq_endedLines (text : List Char) :
    lastVisibleLine? text = ((endedLines text).reverse.map trimEnd).find? (· ≠ []) := by
  obtain ⟨init, last, hlines⟩ :=
    (List.eq_nil_or_concat' (cutLines text)).resolve_left (cutLines_ne_nil text)
  have hinit : (init.map dropReturn).map trimEnd = init.map trimEnd := by
    rw [List.map_map]
    exact List.map_congr_left fun line _ => trimEnd_dropReturn line
  unfold lastVisibleLine? endedLines
  rw [List.map_reverse, List.map_reverse, hlines, List.dropLast_concat, List.getLast?_concat,
    List.map_append, List.map_append, hinit]
  by_cases hlast : last = []
  · simp [hlast, trimEnd_nil]
  · simp [hlast]

/-- **The last line that shows something.** It is found exactly where a text can be cut around such
a line, which is possible in one way at most; none is found exactly if the text shows nothing. To
find it, go through the lines from the last one on, without the blanks at their ends, up to the
first that is not empty. -/
theorem lastVisibleLine?_exact (text : List Char) :
    (∀ line, lastVisibleLine? text = some line ↔
      ∃ before after, LastLine text before line after) ∧
    (∀ before line after before' line' after', LastLine text before line after →
      LastLine text before' line' after' → before' = before ∧ line' = line ∧ after' = after) ∧
    (lastVisibleLine? text = none ↔ Silent text) ∧
    lastVisibleLine? text = ((endedLines text).reverse.map trimEnd).find? (· ≠ []) := by
  refine ⟨fun line => ⟨fun hfound => ?_, ?_⟩, ?_, lastVisibleLine?_eq_none_iff,
    lastVisibleLine?_eq_endedLines text⟩
  · have hshows : ¬ Silent text := by
      rw [← lastVisibleLine?_eq_none_iff, hfound]
      exact Option.some_ne_none line
    obtain ⟨before, line', after, hcut⟩ := exists_lastLine hshows
    rw [lastVisibleLine?_eq_some_iff.2 hcut.lastVisible] at hfound
    exact ⟨before, after, Option.some.inj hfound ▸ hcut⟩
  · rintro ⟨before, after, hcut⟩
    exact lastVisibleLine?_eq_some_iff.2 hcut.lastVisible
  · intro before line after before' line' after' hcut hcut'
    exact hcut.unique hcut'

/-- Both endings, a blank line, and blanks beyond the common ones. -/
theorem lastVisibleLine?_exact_unusual_blanks : ∃ text before line after : List Char,
    text = "one\r\n two\u2003!\u00a0\r\n \t\r\n\u3000".toList ∧
      LastLine text before line after ∧ lastVisibleLine? text = some " two\u2003!".toList ∧
      ∀ before' line' after', LastLine text before' line' after' → line' = line := by
  have hcut : LastLine "one\r\n two\u2003!\u00a0\r\n \t\r\n\u3000".toList "one\r\n".toList
      " two\u2003!".toList "\u00a0\r\n \t\r\n\u3000".toList :=
    ⟨by decide +kernel, .inr ⟨"one\r".toList, by decide +kernel⟩, by decide +kernel,
      by decide +kernel, by decide +kernel, trimEnd_eq_nil_iff.1 (by decide +kernel)⟩
  refine ⟨_, _, _, _, rfl, hcut, ((lastVisibleLine?_exact _).1 _).2 ⟨_, _, hcut⟩,
    fun before' line' after' hcut' => ?_⟩
  exact ((lastVisibleLine?_exact _).2.1 _ _ _ before' line' after' hcut hcut').2.1

end Shepherd.Text
