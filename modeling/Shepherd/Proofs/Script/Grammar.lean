import Shepherd.Proofs.Script.Marker
import Shepherd.Proofs.Text.Lines
import Shepherd.Script.Decoding

/-!
# The grammar of an output

An output is grammatical where each line that begins like a marker is one, and no action has two
call counts. The decoder accepts the grammatical outputs and no others. The trace of one holds what
its lines say, and an error names the line at which an output stops being grammatical.
-/

namespace Shepherd.Script
open Grid Text

variable {s : Session} {before : List (List Char)} {line : List Char} {t : Trace}

/-! ### Grammatical lines, and what they say -/

/-- What the grammar asks of the lines of an output. -/
structure Grammatical (s : Session) (ls : List (List Char)) : Prop where
  action : ∀ line ∈ ls, s.actionStart <+: line →
    ∃ verb, Spells s line (.action verb) ∨ ∃ n, Spells s line (.calls verb n)
  codeSize : ∀ line ∈ ls, s.codeSizeStart <+: line → ∃ n, Spells s line (.codeSize n)
  /-- No action has two call counts. -/
  once : ls.Pairwise fun first second => ∀ verb m n,
    Spells s first (.calls verb m) → ¬ Spells s second (.calls verb n)

/-- The action whose marker a line is. -/
def verbOf? (s : Session) (line : List Char) : Option Action :=
  Action.all.find? fun verb => line == (Marker.action verb).line s

/-- The last code size of some lines, or zero where they have none. -/
inductive LastSize (s : Session) (ls : List (List Char)) : UInt32 → Prop
  | none (h : ∀ line ∈ ls, ∀ n, ¬ Spells s line (.codeSize n)) : LastSize s ls 0
  | last {before after : List (List Char)} {line : List Char} {n : UInt32}
    (split : ls = before ++ line :: after) (size : Spells s line (.codeSize n))
    (rest : ∀ later ∈ after, ∀ m, ¬ Spells s later (.codeSize m)) : LastSize s ls n

/-- A trace holds what the markers among some lines say. -/
structure Reports (s : Session) (ls : List (List Char)) (t : Trace) : Prop where
  actions : t.actions = ls.filterMap (verbOf? s)
  calls : ∀ verb n, t.calls verb = some n ↔ ∃ line ∈ ls, Spells s line (.calls verb n)
  size : LastSize s ls t.size

/-! ### What a line spells -/

/-- A line spells one marker at most. -/
theorem Spells.unique {m n : Marker} (hm : Spells s line m) (hn : Spells s line n) : m = n := by
  have hread := read_of_spells hm
  rw [read_of_spells hn] at hread
  cases hread
  rfl

/-- Every line that spells a marker begins like one. -/
theorem Spells.start {m : Marker} (h : Spells s line m) :
    s.actionStart <+: line ∧ (∀ n, m ≠ .codeSize n) ∨
      s.codeSizeStart <+: line ∧ ∃ n, m = .codeSize n := by
  cases h with
  | action verb =>
    rw [List.append_assoc]
    exact .inl ⟨List.prefix_append _ _, nofun⟩
  | calls verb h =>
    simp only [List.append_assoc]
    exact .inl ⟨List.prefix_append _ _, nofun⟩
  | codeSize h =>
    rw [List.append_assoc]
    exact .inr ⟨List.prefix_append _ _, _, rfl⟩

theorem verbOf?_eq_some_iff {verb : Action} :
    verbOf? s line = some verb ↔ Spells s line (.action verb) := by
  constructor
  · intro h
    have hline := List.find?_some (p := fun verb => line == (Marker.action verb).line s) h
    rw [beq_iff_eq.1 hline]
    exact spells_line s _
  · intro h
    have hline : line = (Marker.action verb).line s := by cases h; rfl
    cases hfound : verbOf? s line with
    | none =>
      have hno := List.find?_eq_none.1 hfound verb verb.mem_all
      exact absurd (beq_iff_eq.2 hline) hno
    | some other =>
      have hother := List.find?_some (p := fun v => line == (Marker.action v).line s) hfound
      have hspells : Spells s line (.action other) := by
        rw [beq_iff_eq.1 hother]
        exact spells_line s _
      cases h.unique hspells
      rfl

theorem verbOf?_eq_none (h : ∀ verb, ¬ Spells s line (.action verb)) : verbOf? s line = none :=
  Option.eq_none_iff_forall_ne_some.2 fun verb hverb => h verb (verbOf?_eq_some_iff.1 hverb)

/-! ### One more line -/

/-- What a line has to be to stand behind others. -/
structure Fits (s : Session) (before : List (List Char)) (line : List Char) : Prop where
  action : s.actionStart <+: line →
    ∃ verb, Spells s line (.action verb) ∨ ∃ n, Spells s line (.calls verb n)
  codeSize : s.codeSizeStart <+: line → ∃ n, Spells s line (.codeSize n)
  once : ∀ first ∈ before, ∀ verb m n,
    Spells s first (.calls verb m) → ¬ Spells s line (.calls verb n)

theorem grammatical_concat_iff :
    Grammatical s (before ++ [line]) ↔ Grammatical s before ∧ Fits s before line := by
  constructor
  · rintro ⟨action, codeSize, once⟩
    have hmem : line ∈ before ++ [line] := List.mem_append_right _ List.mem_cons_self
    obtain ⟨honce, -, hcross⟩ := List.pairwise_append.1 once
    exact ⟨⟨fun l hl => action l (List.mem_append_left _ hl),
      fun l hl => codeSize l (List.mem_append_left _ hl), honce⟩,
      ⟨action line hmem, codeSize line hmem,
        fun first hfirst => hcross first hfirst line List.mem_cons_self⟩⟩
  · rintro ⟨g, fits⟩
    have hall {P : List Char → Prop} (hbefore : ∀ l ∈ before, P l) (hline : P line) :
        ∀ l ∈ before ++ [line], P l := by
      intro l hl
      rcases List.mem_append.1 hl with hl | hl
      · exact hbefore l hl
      · rw [List.mem_singleton.1 hl]
        exact hline
    refine ⟨hall g.action fits.action, hall g.codeSize fits.codeSize, ?_⟩
    refine List.pairwise_append.2 ⟨g.once, List.pairwise_singleton _ _, ?_⟩
    intro first hfirst second hsecond
    rw [List.mem_singleton.1 hsecond]
    exact fits.once first hfirst

theorem Grammatical.of_append {after : List (List Char)} (g : Grammatical s (before ++ after)) :
    Grammatical s before :=
  ⟨fun l hl => g.action l (List.mem_append_left _ hl),
    fun l hl => g.codeSize l (List.mem_append_left _ hl), (List.pairwise_append.1 g.once).1⟩

/-- A line that begins like no marker fits everywhere. -/
theorem fits_of_printed (h : s.read line = .printed) : Fits s before line := by
  have hspells (m : Marker) : ¬ Spells s line m := fun hm => by
    rw [read_of_spells hm] at h
    cases h
  refine ⟨fun hstart => ?_, fun hstart => ?_, fun _ _ _ _ _ _ => hspells _⟩
  · exact absurd h (read_ne_printed (.inl hstart))
  · exact absurd h (read_ne_printed (.inr hstart))

/-- A line that begins like a marker and is none fits nowhere. -/
theorem not_fits_of_malformed {fault : Fault} (h : s.read line = .malformed fault) :
    ¬ Fits s before line := by
  intro fits
  have hspells (m : Marker) : ¬ Spells s line m := fun hm => by
    rw [read_of_spells hm] at h
    cases h
  cases htags : s.tags line with
  | false =>
    rw [read_eq_printed htags] at h
    cases h
  | true =>
    by_cases hstart : s.actionStart <+: line
    · obtain ⟨verb, haction | ⟨n, hcalls⟩⟩ := fits.action hstart
      · exact hspells _ haction
      · exact hspells _ hcalls
    · have hsize : s.codeSizeStart <+: line := by
        by_contra hno
        rw [tags_eq_false_iff.2 ⟨hstart, hno⟩] at htags
        cases htags
      obtain ⟨n, hn⟩ := fits.codeSize hsize
      exact hspells _ hn

/-- A line that spells a marker fits unless it is a second call count. -/
theorem Spells.fits_iff {m : Marker} (h : Spells s line m) :
    Fits s before line ↔ ∀ verb n, m = .calls verb n →
      ∀ first ∈ before, ∀ k, ¬ Spells s first (.calls verb k) := by
  constructor
  · rintro fits verb n rfl first hfirst k hk
    exact fits.once first hfirst verb k n hk h
  · intro hnew
    refine ⟨fun hstart => ?_, fun hstart => ?_, ?_⟩
    · cases m with
      | action verb => exact ⟨verb, .inl h⟩
      | calls verb n => exact ⟨verb, .inr ⟨n, h⟩⟩
      | codeSize n =>
        obtain ⟨-, hno⟩ | ⟨hsize, -⟩ := h.start
        · exact absurd rfl (hno n)
        · exact absurd hsize (not_codeSizeStart hstart)
    · obtain ⟨haction, -⟩ | ⟨-, n, rfl⟩ := h.start
      · exact absurd hstart (not_codeSizeStart haction)
      · exact ⟨n, h⟩
    · intro first hfirst verb k n hk hn
      exact hnew verb n (h.unique hn) first hfirst k hk

/-! ### One more line in the trace -/

theorem LastSize.skip {n : UInt32} (h : LastSize s before n)
    (hline : ∀ m, ¬ Spells s line (.codeSize m)) : LastSize s (before ++ [line]) n := by
  have hall {ls : List (List Char)} (hls : ∀ l ∈ ls, ∀ m, ¬ Spells s l (.codeSize m)) :
      ∀ l ∈ ls ++ [line], ∀ m, ¬ Spells s l (.codeSize m) := by
    intro l hl
    rcases List.mem_append.1 hl with hl | hl
    · exact hls l hl
    · rw [List.mem_singleton.1 hl]
      exact hline
  cases h with
  | none h => exact .none (hall h)
  | last split size rest =>
    rw [split, List.append_assoc, List.cons_append]
    exact .last rfl size (hall rest)

theorem exists_concat {P : List Char → Prop} :
    (∃ l ∈ before ++ [line], P l) ↔ (∃ l ∈ before, P l) ∨ P line := by
  simp only [List.mem_append, List.mem_singleton, or_and_right, exists_or, exists_eq_left]

/-- A line that spells nothing adds nothing to a trace. -/
theorem Reports.skip (r : Reports s before t) (h : ∀ m, ¬ Spells s line m) :
    Reports s (before ++ [line]) t where
  actions := by
    rw [List.filterMap_append, List.filterMap_cons_none (verbOf?_eq_none fun _ => h _),
      List.filterMap_nil, List.append_nil, r.actions]
  calls verb n := by
    rw [exists_concat, or_iff_left (h _), r.calls]
  size := r.size.skip fun _ => h _

/-- A line that spells a marker adds it to a trace. -/
theorem Reports.record {m : Marker} {t' : Trace} (r : Reports s before t) (h : Spells s line m)
    (hrecord : record t m = .ok t') : Reports s (before ++ [line]) t' := by
  have hother {n : Marker} (hn : m ≠ n) : ¬ Spells s line n := fun hline => hn (h.unique hline)
  cases m with
  | action verb =>
    cases hrecord
    refine ⟨?_, fun v n => ?_, r.size.skip fun _ => hother nofun⟩
    · rw [List.filterMap_append, List.filterMap_cons_some (verbOf?_eq_some_iff.2 h),
        List.filterMap_nil, Trace.pushAction_actions, r.actions]
    · rw [exists_concat, or_iff_left (hother (n := .calls v n) nofun)]
      exact r.calls v n
  | calls verb count =>
    unfold Script.record Trace.recordCalls? at hrecord
    cases hold : t.calls verb with
    | some k => simp [hold] at hrecord
    | none =>
      simp only [hold, Except.ok.injEq] at hrecord
      subst hrecord
      refine ⟨?_, fun v n => ?_, r.size.skip fun _ => hother nofun⟩
      · rw [List.filterMap_append,
          List.filterMap_cons_none (verbOf?_eq_none fun _ => hother nofun), List.filterMap_nil,
          List.append_nil, r.actions]
      · rw [exists_concat, ← r.calls]
        by_cases hv : v = verb
        · subst hv
          simp only [if_true, hold, reduceCtorEq, false_or, Option.some.injEq]
          exact ⟨fun hn => hn ▸ h, fun hn => by cases h.unique hn; rfl⟩
        · simp only [if_neg hv]
          refine (or_iff_left (hother fun heq => hv ?_)).symm
          cases heq
          rfl
  | codeSize chars =>
    cases hrecord
    refine ⟨?_, fun v n => ?_, .last rfl h nofun⟩
    · rw [List.filterMap_append,
        List.filterMap_cons_none (verbOf?_eq_none fun _ => hother nofun), List.filterMap_nil,
        List.append_nil]
      exact r.actions
    · rw [exists_concat, or_iff_left (hother (n := .calls v n) nofun)]
      exact r.calls v n

/-! ### Decoding -/

/-- One line is taken in if it fits, and then the trace holds what it says too. -/
theorem absorb_spec (line : List Char) (g : Grammatical s before) (r : Reports s before t) :
    match s.absorb t line with
    | .ok t' => Grammatical s (before ++ [line]) ∧ Reports s (before ++ [line]) t'
    | .error e => e.line = String.ofList line ∧ ¬ Grammatical s (before ++ [line]) := by
  simp only [grammatical_concat_iff]
  unfold Session.absorb
  cases hread : s.read line with
  | printed =>
    refine ⟨⟨g, fits_of_printed hread⟩, r.skip fun m hm => ?_⟩
    rw [read_of_spells hm] at hread
    cases hread
  | malformed fault => exact ⟨rfl, fun h => not_fits_of_malformed hread h.2⟩
  | marker m =>
    have hspells := read_eq_marker_iff.1 hread
    cases hrecord : record t m with
    | ok t' =>
      simp only [hrecord, Except.mapError]
      refine ⟨⟨g, hspells.fits_iff.2 ?_⟩, r.record hspells hrecord⟩
      rintro verb n rfl first hfirst k hk
      have hold := (r.calls verb k).2 ⟨first, hfirst, hk⟩
      simp [record, Trace.recordCalls?, hold] at hrecord
    | error fault =>
      simp only [hrecord, Except.mapError, true_and]
      intro h
      cases m with
      | action verb => cases hrecord
      | codeSize n => cases hrecord
      | calls verb n =>
        have hfresh := hspells.fits_iff.1 h.2 verb n rfl
        cases hold : t.calls verb with
        | none => simp [record, Trace.recordCalls?, hold] at hrecord
        | some k =>
          obtain ⟨first, hfirst, hk⟩ := (r.calls verb k).1 hold
          exact hfresh first hfirst k hk

/-- Lines are taken in as long as they are grammatical. -/
theorem absorbAll_spec (ls : List (List Char)) (g : Grammatical s before)
    (r : Reports s before t) :
    match s.absorbAll t ls with
    | .ok t' => Grammatical s (before ++ ls) ∧ Reports s (before ++ ls) t'
    | .error e => ∃ mid line after, ls = mid ++ line :: after ∧ e.line = String.ofList line ∧
        Grammatical s (before ++ mid) ∧ ¬ Grammatical s (before ++ mid ++ [line]) := by
  induction ls generalizing before t with
  | nil =>
    rw [List.append_nil]
    exact ⟨g, r⟩
  | cons line ls ih =>
    have hstep := absorb_spec line g r
    rw [Session.absorbAll_cons]
    cases habsorb : s.absorb t line with
    | error e =>
      rw [habsorb] at hstep
      exact ⟨[], line, ls, rfl, hstep.1, by rwa [List.append_nil],
        by rw [List.append_nil]; exact hstep.2⟩
    | ok t' =>
      rw [habsorb] at hstep
      have hrest := ih hstep.1 hstep.2
      rw [Except.bind]
      cases hall : s.absorbAll t' ls with
      | ok last =>
        rw [hall] at hrest
        rw [List.append_cons]
        exact hrest
      | error e =>
        rw [hall] at hrest
        obtain ⟨mid, l, after, hls, hline, hmid, hbreak⟩ := hrest
        refine ⟨line :: mid, l, after, by rw [hls]; rfl, hline, ?_, ?_⟩
        · rwa [List.append_cons]
        · rwa [List.append_cons before line mid]

/-- **The decoder accepts exactly the grammar.** It succeeds on the outputs whose lines are
grammatical, with a trace that holds what these lines say. On any other output it names the first
line with which they stop being grammatical. -/
theorem decode_exact (s : Session) (output : List Char) :
    ((∃ t, s.decode output = .ok t) ↔
        Grammatical s ((output.splitOn '\n').map dropReturn)) ∧
      (∀ t, s.decode output = .ok t → Reports s ((output.splitOn '\n').map dropReturn) t) ∧
      ∀ e, s.decode output = .error e → ∃ before line after,
        (output.splitOn '\n').map dropReturn = before ++ line :: after ∧
        e.line = String.ofList line ∧
        Grammatical s before ∧ ¬ Grammatical s (before ++ [line]) := by
  have hempty : Grammatical s [] := ⟨nofun, nofun, .nil⟩
  have hnothing : Reports s [] .empty :=
    ⟨rfl, fun _ _ => ⟨nofun, nofun⟩, .none nofun⟩
  have hrun := absorbAll_spec (lines output) hempty hnothing
  simp only [List.nil_append] at hrun
  rw [← lines_eq_map_splitOn]
  cases hdecode : s.decode output with
  | ok t =>
    rw [← Session.decode, hdecode] at hrun
    refine ⟨iff_of_true ⟨t, rfl⟩ hrun.1, ?_, nofun⟩
    intro t ht
    cases ht
    exact hrun.2
  | error e =>
    rw [← Session.decode, hdecode] at hrun
    obtain ⟨before, line, after, hls, hline, g, hbreak⟩ := hrun
    refine ⟨iff_of_false nofun fun hall => ?_, nofun, ?_⟩
    · rw [hls, List.append_cons] at hall
      exact hbreak hall.of_append
    · intro e he
      cases he
      exact ⟨before, line, after, hls, hline, g, hbreak⟩

/-- A count with leading zeros on a line with a carriage return is read, and a second count of the
same action is refused. -/
theorem decode_exact_zeros_and_second_count :
    (∃ t, (Session.mk ['t', '1'] rfl).decode
        "__t1__left__calls__007__\r\n__t1__left__".toList = .ok t ∧ t.calls .left = some 7) ∧
      ∃ e before line after, (Session.mk ['t', '1'] rfl).decode
          "__t1__left__calls__7__\n__t1__left__calls__0__\n__t1__jump__".toList = .error e ∧
        ["__t1__left__calls__7__".toList, "__t1__left__calls__0__".toList,
          "__t1__jump__".toList] = before ++ line :: after ∧ e.line = String.ofList line ∧
        Grammatical ⟨['t', '1'], rfl⟩ before ∧
        ¬ Grammatical ⟨['t', '1'], rfl⟩ (before ++ [line]) := by
  constructor
  · obtain ⟨-, reports, -⟩ := decode_exact ⟨['t', '1'], rfl⟩
      "__t1__left__calls__007__\r\n__t1__left__".toList
    have hok : ∃ t, (Session.mk ['t', '1'] rfl).decode
        "__t1__left__calls__007__\r\n__t1__left__".toList = .ok t := ⟨_, rfl⟩
    obtain ⟨t, ht⟩ := hok
    refine ⟨t, ht, ((reports t ht).calls .left 7).2 ⟨"__t1__left__calls__007__".toList, ?_, ?_⟩⟩
    · decide +kernel
    · exact read_eq_marker_iff.1 (by decide +kernel)
  · obtain ⟨-, -, breaks⟩ := decode_exact ⟨['t', '1'], rfl⟩
      "__t1__left__calls__7__\n__t1__left__calls__0__\n__t1__jump__".toList
    have herror : ∃ e, (Session.mk ['t', '1'] rfl).decode
        "__t1__left__calls__7__\n__t1__left__calls__0__\n__t1__jump__".toList = .error e := ⟨_, rfl⟩
    obtain ⟨e, he⟩ := herror
    obtain ⟨before, line, after, hbreak⟩ := breaks e he
    exact ⟨e, before, line, after, he, hbreak⟩

end Shepherd.Script
