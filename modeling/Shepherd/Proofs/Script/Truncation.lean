import Shepherd.Proofs.Script.Grammar

/-!
# Output that breaks off

The start of an output has the lines of the output up to some place, and then a start of the next
one. A marker's line starts another one in one way only: the marker of an action is how the call
count of that action begins. So a cut anywhere else leaves a trace that starts like the whole one,
or no trace; a cut behind the name in a call count leaves one action too many.
-/

namespace Shepherd.Text

variable {c : Char} {x y xs ys : List Char}

/-- Two texts that agree up to the first occurrence of a character in both agree behind it. -/
theorem prefix_of_append_cons (hx : c ∉ x) (hy : c ∉ y) (h : x ++ c :: xs <+: y ++ c :: ys) :
    x = y ∧ xs <+: ys := by
  induction x generalizing y with
  | nil =>
    cases y with
    | nil => exact ⟨rfl, (List.cons_prefix_cons.1 h).2⟩
    | cons d y =>
      obtain ⟨rfl, -⟩ := List.cons_prefix_cons.1 h
      exact absurd List.mem_cons_self hy
  | cons d x ih =>
    cases y with
    | nil =>
      obtain ⟨rfl, -⟩ := List.cons_prefix_cons.1 h
      exact absurd List.mem_cons_self hx
    | cons d' y =>
      obtain ⟨rfl, htail⟩ := List.cons_prefix_cons.1 h
      rw [List.mem_cons, not_or] at hx hy
      obtain ⟨rfl, hrest⟩ := ih hx.2 hy.2 htail
      exact ⟨rfl, hrest⟩

end Shepherd.Text

namespace Shepherd.Script
open Grid Text

variable {s : Session} {line whole : List Char} {m n : Marker}

/-! ### Markers that start other markers -/

theorem underscore_not_mem_digits {digits : List Char} {n : UInt32} (h : Numeral digits n) :
    '_' ∉ digits := fun hmem => by
  cases h.allDigits '_' hmem

/-- Behind the start of an action marker, two markers that start alike name the same action. -/
theorem verb_eq_of_isPrefix {verb verb' : Action} {xs ys : List Char}
    (h : verb.name.toList ++ '_' :: xs <+: verb'.name.toList ++ '_' :: ys) :
    verb = verb' ∧ xs <+: ys := by
  obtain ⟨hname, hrest⟩ :=
    prefix_of_append_cons (underscore_not_mem_verb verb) (underscore_not_mem_verb verb') h
  have hread := Action.ofName?_name verb
  rw [String.toList_inj.1 hname, Action.ofName?_name] at hread
  exact ⟨(Option.some.inj hread).symm, hrest⟩

/-- What a call count goes on with where the marker of its action ends. -/
def countMark : List Char := "calls__".toList

theorem countMark_eq : countMark = 'c' :: "alls__".toList := by decide +kernel

theorem callsMark_eq : callsMark = '_' :: '_' :: countMark := by decide +kernel

/-- A number's run of digits that starts another one up to its end is that one. -/
theorem digits_eq_of_isPrefix {ds ds' : List Char} {k k' : UInt32} (h : Numeral ds k)
    (h' : Numeral ds' k') (hstart : ds ++ markerEnd <+: ds' ++ markerEnd) : ds = ds' :=
  (prefix_of_append_cons (underscore_not_mem_digits h) (underscore_not_mem_digits h') hstart).1

/-- A marker's line that starts another one is a code size if the other one is, and only then. -/
theorem Spells.isCodeSize_iff (h : Spells s line m) (h' : Spells s whole n)
    (hstart : line <+: whole) : (∃ k, m = .codeSize k) ↔ ∃ k, n = .codeSize k := by
  rcases h.start with ⟨haction, hm⟩ | ⟨hsize, hm⟩ <;>
    rcases h'.start with ⟨haction', hn⟩ | ⟨hsize', hn⟩
  · exact iff_of_false (fun ⟨k, hk⟩ => hm k hk) fun ⟨k, hk⟩ => hn k hk
  · exact absurd hsize' (not_codeSizeStart (haction.trans hstart))
  · exact absurd (hsize.trans hstart) (not_codeSizeStart haction')
  · exact iff_of_true hm hn

/-- A marker's line that starts another one is that line, or the marker of an action whose call
count the other one is. -/
theorem Spells.isPrefix_cases (h : Spells s line m) (h' : Spells s whole n)
    (hstart : line <+: whole) :
    line = whole ∨ ∃ verb count, m = .action verb ∧ n = .calls verb count := by
  have hsame := h.isCodeSize_iff h' hstart
  cases h with
  | action verb =>
    cases h' with
    | action verb' =>
      simp only [List.append_assoc, List.prefix_append_right_inj] at hstart
      obtain ⟨rfl, -⟩ := verb_eq_of_isPrefix hstart
      exact .inl rfl
    | calls verb' hdigits' =>
      simp only [List.append_assoc, List.prefix_append_right_inj, callsMark_eq] at hstart
      obtain ⟨rfl, -⟩ := verb_eq_of_isPrefix hstart
      exact .inr ⟨_, _, rfl, rfl⟩
    | codeSize hdigits' => obtain ⟨_, ⟨⟩⟩ := hsame.2 ⟨_, rfl⟩
  | calls verb hdigits =>
    cases h' with
    | action verb' =>
      simp only [List.append_assoc, List.prefix_append_right_inj, callsMark_eq] at hstart
      obtain ⟨-, hrest⟩ := verb_eq_of_isPrefix hstart
      -- behind the name one more underscore is left of the whole, which is too little
      have hnothing := List.prefix_nil.1 (List.cons_prefix_cons.1 hrest).2
      simp [markerEnd] at hnothing
    | calls verb' hdigits' =>
      simp only [List.append_assoc, List.prefix_append_right_inj, callsMark_eq] at hstart
      obtain ⟨rfl, hrest⟩ := verb_eq_of_isPrefix hstart
      have hnumber := (List.prefix_append_right_inj ('_' :: countMark)).1 hrest
      rw [digits_eq_of_isPrefix hdigits hdigits' hnumber]
      exact .inl rfl
    | codeSize hdigits' => obtain ⟨_, ⟨⟩⟩ := hsame.2 ⟨_, rfl⟩
  | codeSize hdigits =>
    cases h' with
    | action verb' => obtain ⟨_, ⟨⟩⟩ := hsame.1 ⟨_, rfl⟩
    | calls verb' hdigits' => obtain ⟨_, ⟨⟩⟩ := hsame.1 ⟨_, rfl⟩
    | codeSize hdigits' =>
      simp only [List.append_assoc, List.prefix_append_right_inj] at hstart
      rw [digits_eq_of_isPrefix hdigits hdigits' hstart]
      exact .inl rfl

theorem Spells.all_isTagChar (h : Spells s line m) : line.all isTagChar = true := by
  have hdigits {ds : List Char} {k : UInt32} (hd : Numeral ds k) : ds.all isTagChar = true :=
    all_isTagChar_of_isAlphanum fun c hc => by
      rw [Char.isAlphanum, hd.allDigits c hc, Bool.or_true]
  have hend : markerEnd.all isTagChar = true := by decide
  have hmark : callsMark.all isTagChar = true := by decide +kernel
  cases h with
  | action verb => exact all_isTagChar_line s (.action verb)
  | calls verb hd =>
    simp [List.all_append, s.all_isTagChar_actionStart, all_isTagChar_verb, hmark, hdigits hd, hend]
  | codeSize hd => simp [List.all_append, s.all_isTagChar_codeSizeStart, hdigits hd, hend]

/-! ### A line that breaks off -/

/-- A cut falls behind the name in a call count: what stands before it on the line is the marker of
the action, and the text goes on like its call count. -/
def CutsCount (s : Session) (verb : Action) (start rest : List Char) : Prop :=
  (start.splitOn '\n').getLast? = some ((Marker.action verb).line s) ∧ countMark <+: rest

/-- A call count begins with the marker of its action. -/
theorem Spells.eq_of_calls {verb : Action} {count : UInt32}
    (h : Spells s line (.calls verb count)) :
    ∃ more, line = (Marker.action verb).line s ++ (countMark ++ more) := by
  cases h with
  | @calls _ digits _ hdigits =>
    exact ⟨digits ++ markerEnd, by simp [Marker.line, callsMark_eq, markerEnd]⟩

/-- The start of a grammatical line that is a marker is the whole line, or it ends behind the name
in a call count. -/
theorem cut_line_cases {before : List (List Char)} {tail : List Char}
    (fits : Fits s before (dropReturn (line ++ tail))) (h : Spells s (dropReturn line) m) :
    dropReturn line = dropReturn (line ++ tail) ∨
      ∃ verb, line = (Marker.action verb).line s ∧ countMark <+: tail := by
  have hreturn : '\r' ∉ dropReturn line := not_mem_of_all_isTagChar h.all_isTagChar (by decide)
  have hstart : dropReturn line <+: dropReturn (line ++ tail) :=
    isPrefix_dropReturn_of_isPrefix hreturn
      ((isPrefix_dropReturn line).trans (List.prefix_append line tail))
  have hwhole : ∃ n, Spells s (dropReturn (line ++ tail)) n := by
    rcases h.start with ⟨haction, -⟩ | ⟨hsize, -⟩
    · obtain ⟨verb, hverb | ⟨count, hcount⟩⟩ := fits.action (haction.trans hstart)
      · exact ⟨_, hverb⟩
      · exact ⟨_, hcount⟩
    · obtain ⟨chars, hchars⟩ := fits.codeSize (hsize.trans hstart)
      exact ⟨_, hchars⟩
  obtain ⟨n, hn⟩ := hwhole
  rcases h.isPrefix_cases hn hstart with hsame | ⟨verb, count, rfl, rfl⟩
  · exact .inl hsame
  · have hline : dropReturn line = (Marker.action verb).line s := by
      generalize dropReturn line = marker at h
      cases h
      rfl
    have hmore : ∃ more, line ++ tail = (Marker.action verb).line s ++ (countMark ++ more) := by
      obtain ⟨more, hmore⟩ := hn.eq_of_calls
      rcases eq_dropReturn_or (line ++ tail) with hend | hend
      · exact ⟨more, hend.trans hmore⟩
      · exact ⟨more ++ ['\r'], by rw [hend, hmore]; simp⟩
    obtain ⟨more, hmore⟩ := hmore
    rcases eq_dropReturn_or line with hend | hend <;> rw [hline] at hend
    · rw [hend, List.append_cancel_left_eq] at hmore
      exact .inr ⟨verb, hend, more, hmore.symm⟩
    · -- a carriage return behind the name would stand where the call count goes on
      rw [hend, List.append_assoc, List.append_cancel_left_eq, countMark_eq] at hmore
      exact absurd (List.cons.inj hmore).1 (by decide)

/-! ### A trace that breaks off -/

/-- A trace goes on as another one begins. -/
structure Begins (t t' : Trace) : Prop where
  actions : t.actions <+: t'.actions
  calls : ∀ a n, t.calls a = some n → t'.calls a = some n

variable {before after : List (List Char)} {t t' : Trace}

/-- Output is decoded where its lines are grammatical. -/
theorem decode_spec (s : Session) (output : List Char) :
    match s.decode output with
    | .ok t => Grammatical s (lines output) ∧ Reports s (lines output) t
    | .error _ => ¬ Grammatical s (lines output) := by
  have hempty : Grammatical s [] := ⟨nofun, nofun, .nil⟩
  have hnothing : Reports s [] .empty :=
    ⟨rfl, fun _ _ => ⟨nofun, nofun⟩, .none nofun⟩
  have hrun := absorbAll_spec (lines output) hempty hnothing
  rw [← Session.decode] at hrun
  cases hdecode : s.decode output with
  | ok t => simpa [hdecode] using hrun
  | error e =>
    rw [hdecode] at hrun
    obtain ⟨before, line, after, hls, -, -, hbreak⟩ := hrun
    simp only [List.nil_append] at hbreak
    rw [hls, List.append_cons]
    exact fun g => hbreak g.of_append

/-- Where the markers of some lines are the first ones of others, their trace begins the other
one. -/
theorem Reports.begins {ls ls' : List (List Char)} (r : Reports s ls t) (r' : Reports s ls' t')
    (actions : ls.filterMap (verbOf? s) <+: ls'.filterMap (verbOf? s))
    (calls : ∀ line ∈ ls, ∀ verb n, Spells s line (.calls verb n) → line ∈ ls') : Begins t t' where
  actions := by rwa [r.actions, r'.actions]
  calls verb n h := by
    obtain ⟨line, hline, hspells⟩ := (r.calls verb n).1 h
    exact (r'.calls verb n).2 ⟨line, calls line hline verb n hspells, hspells⟩

/-- Where lines break off in one that is no marker, or behind a whole one, the trace begins the
whole one. -/
theorem Reports.begins_of_cut {cut : List Char} (r : Reports s (before ++ [cut]) t)
    (r' : Reports s (before ++ whole :: after) t')
    (h : (∀ m, ¬ Spells s cut m) ∨ cut = whole) : Begins t t' := by
  rcases h with hnone | rfl
  · refine r.begins r' ?_ fun l hl verb n hspells => ?_
    · rw [List.filterMap_append, List.filterMap_append,
        List.filterMap_cons_none (verbOf?_eq_none fun _ => hnone _), List.filterMap_nil,
        List.append_nil]
      exact List.prefix_append _ _
    · rcases List.mem_append.1 hl with hl | hl
      · exact List.mem_append_left _ hl
      · rw [List.mem_singleton.1 hl] at hspells
        exact absurd hspells (hnone _)
  · rw [List.append_cons] at r'
    exact r.begins r' ((List.prefix_append _ after).filterMap _) fun l hl _ _ _ =>
      List.mem_append_left _ hl

/-- Where lines break off behind the name in a call count, the trace has one action more than the
lines in front report. -/
theorem Reports.pushed_of_cut {cut : List Char} {verb : Action}
    (r : Reports s (before ++ [cut]) t) (r' : Reports s (before ++ after) t')
    (h : Spells s cut (.action verb)) : ∃ part, t = part.pushAction verb ∧ Begins part t' := by
  have hactions : t.actions = before.filterMap (verbOf? s) ++ [verb] := by
    rw [r.actions, List.filterMap_append, List.filterMap_cons_some (verbOf?_eq_some_iff.2 h),
      List.filterMap_nil]
  refine ⟨{ t with actions := before.filterMap (verbOf? s) }, ?_, ?_, ?_⟩
  · rw [Trace.pushAction, ← hactions]
  · rw [r'.actions, List.filterMap_append]
    exact List.prefix_append _ _
  · intro a n hn
    rcases exists_concat.1 ((r.calls a n).1 hn) with ⟨line, hline, hspells⟩ | hspells
    · exact (r'.calls a n).2 ⟨line, List.mem_append_left _ hline, hspells⟩
    · cases h.unique hspells

/-- **What a cut does to a trace.** Output that decodes, cut at any character, is refused or decodes
to a trace that begins the whole one, unless the cut falls behind the name in a call count. There it
decodes to such a trace with one more action: the call count is read as the marker of an action. -/
theorem Session.decode_truncated (s : Session) {start rest : List Char} {t : Trace}
    (h : s.decode (start ++ rest) = .ok t) :
    ((∀ verb, ¬ CutsCount s verb start rest) →
      (∃ e, s.decode start = .error e) ∨ ∃ part, s.decode start = .ok part ∧ Begins part t) ∧
    ∀ verb, CutsCount s verb start rest →
      ∃ part, s.decode start = .ok (part.pushAction verb) ∧ Begins part t := by
  obtain ⟨before, line, tail, after, hstart, hrest, hall⟩ := cutLines_append start rest
  have hwhole := decode_spec s (start ++ rest)
  have hcut := decode_spec s start
  simp only [h, lines, hall, List.map_append, List.map_cons] at hwhole
  simp only [lines, hstart, List.map_append, List.map_cons, List.map_nil] at hcut
  obtain ⟨g, r⟩ := hwhole
  have hlast : (start.splitOn '\n').getLast? = some line := by
    rw [← cutLines_eq_splitOn, hstart, List.getLast?_concat]
  have fits := (grammatical_concat_iff.1 (List.append_cons _ _ _ ▸ g).of_append).2
  constructor
  · intro hno
    cases hdecode : s.decode start with
    | error e => exact .inl ⟨e, rfl⟩
    | ok part =>
      rw [hdecode] at hcut
      refine .inr ⟨part, rfl, hcut.2.begins_of_cut r ?_⟩
      by_contra! hmarker
      obtain ⟨⟨m, hm⟩, hne⟩ := hmarker
      rcases cut_line_cases fits hm with hsame | ⟨verb, rfl, hmark⟩
      · exact hne hsame
      · exact hno verb ⟨hlast, hmark.trans (isPrefix_of_cutLines hrest)⟩
  · rintro verb ⟨hline, -⟩
    obtain rfl := Option.some.inj (hlast.symm.trans hline)
    rw [dropReturn_line] at hcut
    have hspells := spells_line s (.action verb)
    have gcut : Grammatical s (before.map dropReturn ++ [(Marker.action verb).line s]) := by
      refine grammatical_concat_iff.2 ⟨g.of_append, hspells.fits_iff.2 fun _ _ hcalls => ?_⟩
      cases hcalls
    cases hdecode : s.decode start with
    | error e =>
      rw [hdecode] at hcut
      exact absurd gcut hcut
    | ok t' =>
      rw [hdecode] at hcut
      obtain ⟨part, rfl, hbegins⟩ := hcut.2.pushed_of_cut r hspells
      exact ⟨part, rfl, hbegins⟩

/-- An output cut among the digits of a call count, and cut behind the name before them. -/
theorem decode_truncated_in_count :
    let s : Session := ⟨['s', '1'], rfl⟩
    ∃ t, s.decode "__s1__left__\n__s1__forward__calls__12__\n".toList = .ok t ∧
      ((∃ e, s.decode "__s1__left__\n__s1__forward__calls__1".toList = .error e) ∨
        ∃ part, s.decode "__s1__left__\n__s1__forward__calls__1".toList = .ok part ∧
          Begins part t) ∧
      ∃ part, s.decode "__s1__left__\n__s1__forward__".toList = .ok (part.pushAction .forward) ∧
        Begins part t := by
  intro s
  have hdigits : "__s1__left__\n__s1__forward__calls__12__\n".toList =
      "__s1__left__\n__s1__forward__calls__1".toList ++ "2__\n".toList := by decide +kernel
  have hname : "__s1__left__\n__s1__forward__calls__12__\n".toList =
      "__s1__left__\n__s1__forward__".toList ++ "calls__12__\n".toList := by decide +kernel
  obtain ⟨t, ht⟩ : ∃ t, s.decode "__s1__left__\n__s1__forward__calls__12__\n".toList = .ok t :=
    ⟨_, rfl⟩
  have hno : ∀ verb, ¬ CutsCount s verb "__s1__left__\n__s1__forward__calls__1".toList
      "2__\n".toList := fun _ h => absurd h.2 (by decide +kernel)
  exact ⟨t, ht, (s.decode_truncated (hdigits ▸ ht)).1 hno,
    (s.decode_truncated (hname ▸ ht)).2 .forward ⟨by decide +kernel, by decide +kernel⟩⟩

/-- Cut output can report an action that the whole output does not: what is left of a call count
behind its name is a marker. -/
theorem decode_truncated_invents_action :
    ¬ ∀ (s : Session) (start rest : List Char) (t : Trace), s.decode (start ++ rest) = .ok t →
      (∃ e, s.decode start = .error e) ∨ ∃ part, s.decode start = .ok part ∧ Begins part t := by
  intro h
  have hwhole : ((Session.mk ['s', '1'] rfl).decode ("__s1__left__\n__s1__forward__".toList ++
    "calls__0__\n".toList)).toOption.map (·.actions) = some [.left] := by decide +kernel
  have hpart : ((Session.mk ['s', '1'] rfl).decode
    "__s1__left__\n__s1__forward__".toList).toOption.map (·.actions) =
      some [.left, .forward] := by decide +kernel
  cases ht : (Session.mk ['s', '1'] rfl).decode
      ("__s1__left__\n__s1__forward__".toList ++ "calls__0__\n".toList) with
  | error e =>
    rw [ht] at hwhole
    cases hwhole
  | ok t =>
    rw [ht] at hwhole
    have hactions : t.actions = [.left] := Option.some.inj hwhole
    rcases h _ _ _ t ht with ⟨e, he⟩ | ⟨part, hdecode, hbegins⟩
    · rw [he] at hpart
      cases hpart
    · rw [hdecode] at hpart
      have hpushed : part.actions = [.left, .forward] := Option.some.inj hpart
      have hprefix := hbegins.actions
      rw [hactions, hpushed] at hprefix
      exact absurd hprefix (by decide)

end Shepherd.Script
