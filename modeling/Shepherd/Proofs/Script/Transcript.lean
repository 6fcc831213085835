import Mathlib.Algebra.Order.Ring.Nat
import Shepherd.Proofs.Script.ProgramText
import Shepherd.Script.Decoding

/-!
# Decoding the output of a program

The literals of a program and the readers of the decoder are written apart. Here they meet: what a
program prints is a code size, then the lines of the events, then one call count for each action,
and decoding such lines gives back what the events did.
-/

namespace Shepherd.Script.Program
open Grid Text

variable {s : Session} {source : List Char}

/-! ### What a run does -/

/-- The actions that an event executes. -/
def Event.actions : Event → List Action
  | .call verb times => List.replicate times verb
  | .say _ => []

/-- Whether an event is a call of any action function. -/
def Event.isCall : Event → Bool
  | .call _ _ => true
  | .say _ => false

/-- The line that the script prints by itself. -/
def Event.said? : Event → Option (List Char)
  | .call _ _ => none
  | .say line => some line

/-- A line that the script prints is a single one and does not begin like a marker. -/
def Event.Plain (s : Session) : Event → Prop
  | .call _ _ => True
  | .say line => '\n' ∉ line ∧ s.tags line = false

instance (s : Session) : (e : Event) → Decidable (e.Plain s)
  | .call _ _ => isTrue trivial
  | .say line => inferInstanceAs (Decidable ('\n' ∉ line ∧ s.tags line = false))

/-- The lines of an event, with calls as markers. -/
def Event.lines (s : Session) : Event → List (List Char)
  | .call verb times => List.replicate times ((Marker.action verb).line s)
  | .say line => [line]

theorem callsIn_le (events : List Event) (a : Action) :
    callsIn events a ≤ events.countP Event.isCall := by
  refine List.countP_mono_left fun e _ he => ?_
  cases e with
  | call verb times => rfl
  | say line => cases he

theorem callsIn_call (verb : Action) (times : Nat) (events : List Event) (a : Action) :
    callsIn (.call verb times :: events) a = callsIn events a + if verb == a then 1 else 0 :=
  List.countP_cons

/-- Every call is a call of one action function. -/
theorem sum_callsIn (events : List Event) :
    (Action.all.map (callsIn events)).sum = events.countP Event.isCall := by
  induction events with
  | nil => rfl
  | cons e events ih =>
    rw [List.countP_cons, ← ih]
    cases e with
    | call verb times =>
      cases verb <;>
        simp [Action.all, callsIn_call, Event.isCall, Nat.add_assoc, Nat.add_comm,
          Nat.add_left_comm]
    | say line => rfl

/-! ### Putting in values -/

section Interpolation

variable {value : List Char → List Char} {cs : List Char}

/-- Nothing is put in where no `$` stands. -/
theorem interpolate_append (h : '$' ∉ cs) (rest : List Char) :
    interpolate value (cs ++ rest) = cs ++ interpolate value rest := by
  induction cs with
  | nil => rfl
  | cons c cs ih =>
    rw [List.mem_cons, not_or] at h
    rw [List.cons_append, interpolate, ih h.2, List.cons_append]
    exact fun _ hc => absurd hc.symm h.1

/-- A value is put in for its name. -/
theorem interpolate_slot (h : '}' ∉ cs) (rest : List Char) :
    interpolate value ('$' :: '{' :: (cs ++ '}' :: rest)) = value cs ++ interpolate value rest := by
  have hname : ∀ c ∈ cs, decide (c ≠ '}') = true := fun c hc => by
    rw [decide_eq_true_iff]
    rintro rfl
    exact h hc
  rw [interpolate, List.takeWhile_append_of_pos hname, List.dropWhile_append_of_pos hname]
  simp

end Interpolation

/-! ### The functions of a program -/

/-- Each action has a counter of its own. -/
theorem counter_inj {a b : Action} : counter s a = counter s b ↔ a = b := by
  refine ⟨fun h => ?_, fun h => by rw [h]⟩
  rw [counter, counter, List.append_cancel_right_eq, List.append_cancel_left_eq,
    String.toList_inj] at h
  exact Option.some.inj (by rw [← Action.ofName?_name a, h, Action.ofName?_name])

theorem find?_action (a : Action) :
    (ofSource s source).wrappers.find? (·.action == a) = some (wrapper s a) := by
  have hall : Action.all.find? (· == a) = some a := by cases a <;> rfl
  rw [ofSource, List.find?_map]
  exact congrArg (Option.map (wrapper s)) hall

theorem find?_counter (a : Action) :
    (ofSource s source).wrappers.find? (·.counter == counter s a) = some (wrapper s a) := by
  have hsame : ((·.counter == counter s a) ∘ wrapper s) = ((·.action == a) ∘ wrapper s) := by
    funext b
    rw [Function.comp, Function.comp, Bool.eq_iff_iff, beq_iff_eq, beq_iff_eq]
    exact counter_inj
  have hfound : (ofSource s source).wrappers.find? (·.action == a) = some (wrapper s a) :=
    find?_action a
  rw [ofSource, List.find?_map] at hfound ⊢
  rw [hsame, hfound]

theorem valueAfter_counter (events : List Event) (a : Action) :
    (ofSource s source).valueAfter events (counter s a) =
      (Nat.repr (callsIn events a)).toList := by
  simp only [valueAfter, find?_counter]
  rfl

theorem eventLines_ofSource (e : Event) : (ofSource s source).eventLines e = e.lines s := by
  cases e with
  | call verb times => simp only [eventLines, find?_action]; rfl
  | say line => rfl

/-- A report gives the number of calls, however many. -/
theorem interpolate_report_eq (events : List Event) (a : Action) :
    interpolate ((ofSource s source).valueAfter events) (wrapper s a).report =
      counter s a ++ (Nat.repr (callsIn events a)).toList ++ markerEnd := by
  have hdollar : '$' ∉ counter s a := not_mem_counter (by decide) s a
  have hbrace : '}' ∉ counter s a := not_mem_counter (by decide) s a
  have hreport : (wrapper s a).report =
      counter s a ++ '$' :: '{' :: (counter s a ++ '}' :: markerEnd) := by
    simp [Wrapper.report, wrapper]
  have hend (value) : interpolate value markerEnd = markerEnd := by
    simp [markerEnd, interpolate]
  rw [hreport, interpolate_append hdollar, interpolate_slot hbrace, valueAfter_counter, hend,
    List.append_assoc]

/-- A number of calls that fits a word is reported by the marker's line. -/
theorem interpolate_report {events : List Event} (few : events.countP Event.isCall < UInt32.size)
    (a : Action) :
    interpolate ((ofSource s source).valueAfter events) (wrapper s a).report =
      (Marker.calls a (UInt32.ofNat (callsIn events a))).line s := by
  have hfits := Nat.lt_of_le_of_lt (callsIn_le events a) few
  rw [interpolate_report_eq, Marker.line, decimalDigits, UInt32.toNat_ofNat_of_lt' hfits, counter]

/-- A program prints the size of its script, the lines of the events and the call counts. -/
theorem outputLines_ofSource (small : source.length < UInt32.size) {events : List Event}
    (few : events.countP Event.isCall < UInt32.size) :
    (ofSource s source).outputLines events =
      (Marker.codeSize (UInt32.ofNat source.length)).line s :: events.flatMap (Event.lines s) ++
        Action.all.map fun a => (Marker.calls a (UInt32.ofNat (callsIn events a))).line s := by
  have hopening : (ofSource s source).opening =
      (Marker.codeSize (UInt32.ofNat source.length)).line s := by
    rw [Marker.line, decimalDigits, UInt32.toNat_ofNat_of_lt' small]
    rfl
  have hreports : ((ofSource s source).wrappers.map fun w =>
      interpolate ((ofSource s source).valueAfter events) w.report) =
      Action.all.map fun a => (Marker.calls a (UInt32.ofNat (callsIn events a))).line s := by
    rw [ofSource, List.map_map]
    exact List.map_congr_left fun a _ => interpolate_report few a
  rw [outputLines, hopening, hreports, funext eventLines_ofSource]

/-! ### Decoding lines -/

theorem absorb_line (s : Session) (t : Trace) (m : Marker) :
    s.absorb t (m.line s) =
      (record t m).mapError fun fault => ⟨String.ofList (m.line s), fault⟩ := by
  simp only [Session.absorb, read_line]

theorem absorbAll_append (t : Trace) (ls₁ ls₂ : List (List Char)) :
    s.absorbAll t (ls₁ ++ ls₂) = (s.absorbAll t ls₁).bind (s.absorbAll · ls₂) := by
  rw [Session.absorbAll, List.foldlM_append]
  rfl

/-- The markers of a call are as many executed actions. -/
theorem absorbAll_replicate (t : Trace) (a : Action) (times : Nat) :
    s.absorbAll t (List.replicate times ((Marker.action a).line s)) =
      .ok { t with actions := t.actions ++ List.replicate times a } := by
  induction times generalizing t with
  | zero => rw [List.replicate_zero, List.replicate_zero, List.append_nil, Session.absorbAll_nil]
  | succ times ih =>
    have hpush : s.absorb t ((Marker.action a).line s) = .ok (t.pushAction a) := absorb_line s t _
    rw [List.replicate_succ, Session.absorbAll_cons, hpush, Except.bind, ih,
      Trace.pushAction_actions, List.append_assoc, List.singleton_append, ← List.replicate_succ]
    rfl

theorem absorbAll_event (t : Trace) {e : Event} (plain : e.Plain s) :
    s.absorbAll t ((e.lines s).map dropReturn) =
      .ok { t with actions := t.actions ++ e.actions } := by
  cases e with
  | call verb times =>
    rw [Event.lines, List.map_replicate, dropReturn_line, absorbAll_replicate, Event.actions]
  | say line =>
    have hread := read_eq_printed (tags_dropReturn plain.2)
    rw [Event.lines, List.map_singleton, Session.absorbAll_cons, Session.absorb, hread,
      Event.actions, List.append_nil]
    rfl

/-- The lines of the events are their actions, in order. -/
theorem absorbAll_events (t : Trace) {events : List Event} (plain : ∀ e ∈ events, e.Plain s) :
    s.absorbAll t ((events.flatMap (Event.lines s)).map dropReturn) =
      .ok { t with actions := t.actions ++ events.flatMap Event.actions } := by
  induction events generalizing t with
  | nil => rw [List.flatMap_nil, List.flatMap_nil, List.append_nil]; rfl
  | cons e events ih =>
    rw [List.forall_mem_cons] at plain
    rw [List.flatMap_cons, List.map_append, absorbAll_append, absorbAll_event t plain.1,
      Except.bind, ih _ plain.2, List.flatMap_cons, List.append_assoc]

/-- A first call count is recorded and added. -/
theorem absorb_calls {t : Trace} {a : Action} {n : UInt32} (unset : t.calls a = none)
    (fits : t.callCount.toNat + n.toNat < UInt32.size) :
    s.absorb t ((Marker.calls a n).line s) =
      .ok { t with
        calls := fun b => if b = a then some n else t.calls b
        callCount := t.callCount + n } := by
  have hsum : addCapped t.callCount n = t.callCount + n := if_pos fits
  simp only [absorb_line, record, Trace.recordCalls?, unset, hsum]
  rfl

/-- The call counts of different actions are all recorded, and their sum is the number of calls. -/
theorem absorbAll_counts (count : Action → Nat) {as : List Action} (nodup : as.Nodup) {t : Trace}
    (unset : ∀ a ∈ as, t.calls a = none)
    (fits : t.callCount.toNat + (as.map count).sum < UInt32.size) :
    s.absorbAll t (as.map fun a => (Marker.calls a (UInt32.ofNat (count a))).line s) =
      .ok { t with
        calls := fun a => if a ∈ as then some (UInt32.ofNat (count a)) else t.calls a
        callCount := t.callCount + UInt32.ofNat (as.map count).sum } := by
  induction as generalizing t with
  | nil => simp [Session.absorbAll_nil]
  | cons a as ih =>
    rw [List.nodup_cons] at nodup
    rw [List.forall_mem_cons] at unset
    rw [List.map_cons, List.sum_cons] at fits
    have hsmall : count a < UInt32.size := by omega
    have hcount : (UInt32.ofNat (count a)).toNat = count a := UInt32.toNat_ofNat_of_lt' hsmall
    have hadd : (t.callCount + UInt32.ofNat (count a)).toNat = t.callCount.toNat + count a := by
      have hroom : t.callCount.toNat + count a < UInt32.size := by omega
      rw [UInt32.toNat_add, hcount]
      exact Nat.mod_eq_of_lt hroom
    rw [List.map_cons, Session.absorbAll_cons, absorb_calls unset.1 (by omega), Except.bind,
      ih nodup.2]
    · congr 2
      · funext b
        by_cases hb : b = a
        · simp [hb, nodup.1]
        · simp [hb]
      · rw [List.map_cons, List.sum_cons, UInt32.ofNat_add, UInt32.add_assoc]
    · intro b hb
      have hne : b ≠ a := fun he => nodup.1 (he ▸ hb)
      exact (if_neg hne).trans (unset.2 b hb)
    · rw [hadd]
      omega

/-! ### The whole run -/

/-- Every line of a run is one line of its output. -/
theorem lines_output {events : List Event} (small : source.length < UInt32.size)
    (few : events.countP Event.isCall < UInt32.size) (plain : ∀ e ∈ events, e.Plain s) :
    lines ((ofSource s source).output events) =
      (Marker.codeSize (UInt32.ofNat source.length)).line s ::
          (events.flatMap (Event.lines s)).map dropReturn ++
        (Action.all.map fun a => (Marker.calls a (UInt32.ofNat (callsIn events a))).line s) ++
        [[]] := by
  have hsingle : ∀ line ∈ (ofSource s source).outputLines events, '\n' ∉ line := by
    rw [outputLines_ofSource small few]
    intro line hline
    rw [List.mem_append, List.mem_cons, List.mem_flatMap, List.mem_map] at hline
    rcases hline with (rfl | ⟨e, he, hline⟩) | ⟨a, _, rfl⟩
    · exact newline_not_mem_line s _
    · cases e with
      | call verb times =>
        rw [List.eq_of_mem_replicate hline]
        exact newline_not_mem_line s _
      | say text =>
        rw [List.mem_singleton.1 hline]
        exact (plain _ he).1
    · exact newline_not_mem_line s _
  rw [output, lines_terminated hsingle, outputLines_ofSource small few, List.map_append,
    List.map_cons, List.map_map, dropReturn_line]
  congr 2
  exact List.map_congr_left fun a _ => dropReturn_line s _

/-- The trace of a run, its numbers as words. -/
def traceOf (source : List Char) (events : List Event) : Trace where
  actions := events.flatMap Event.actions
  calls := fun a => some (UInt32.ofNat (callsIn events a))
  callCount := UInt32.ofNat (events.countP Event.isCall)
  size := UInt32.ofNat source.length

theorem decode_eq_traceOf {events : List Event} (small : source.length < UInt32.size)
    (few : events.countP Event.isCall < UInt32.size) (plain : ∀ e ∈ events, e.Plain s) :
    s.decode ((ofSource s source).output events) = .ok (traceOf source events) := by
  have hsize : s.absorb .empty ((Marker.codeSize (UInt32.ofNat source.length)).line s) =
      .ok (Trace.empty.setSize (UInt32.ofNat source.length)) := absorb_line s _ _
  have hlast (t : Trace) : s.absorb t [] = .ok t := by
    simp only [Session.absorb, read_eq_printed (tags_nil s)]
  have hevents := absorbAll_events (Trace.empty.setSize (UInt32.ofNat source.length)) plain
  have hfits : (0 : UInt32).toNat + (Action.all.map (callsIn events)).sum < UInt32.size := by
    rw [sum_callsIn, UInt32.toNat_zero, Nat.zero_add]
    exact few
  rw [Session.decode, lines_output small few plain, absorbAll_append, absorbAll_append,
    Session.absorbAll_cons, hsize, Except.bind, hevents, Except.bind,
    absorbAll_counts _ (by decide) (fun _ _ => rfl) hfits, Except.bind, Session.absorbAll_cons,
    hlast, sum_callsIn]
  simp [traceOf, Trace.empty, Trace.setSize, Action.mem_all, Session.absorbAll_nil, Except.bind]

/-- What is left of the lines of the events without the markers. -/
theorem filter_tags_events {events : List Event} (plain : ∀ e ∈ events, e.Plain s) :
    ((events.flatMap (Event.lines s)).map dropReturn).filter (!s.tags ·) =
      (events.filterMap Event.said?).map dropReturn := by
  induction events with
  | nil => rfl
  | cons e events ih =>
    rw [List.forall_mem_cons] at plain
    rw [List.flatMap_cons, List.map_append, List.filter_append, ih plain.2]
    cases e with
    | call verb times =>
      rw [List.filterMap_cons_none (f := Event.said?) rfl]
      simp [Event.lines, dropReturn_line, tags_line]
    | say line =>
      rw [List.filterMap_cons_some (f := Event.said?) rfl]
      simp [Event.lines, tags_dropReturn plain.1.2]

theorem programOutput_eq_said {events : List Event} (small : source.length < UInt32.size)
    (few : events.countP Event.isCall < UInt32.size) (plain : ∀ e ∈ events, e.Plain s) :
    s.programOutput ((ofSource s source).output events) =
      (events.filterMap Event.said?).map dropReturn ++ [[]] := by
  have hcounts : (Action.all.map fun a =>
      (Marker.calls a (UInt32.ofNat (callsIn events a))).line s).filter (!s.tags ·) = [] := by
    refine List.filter_eq_nil_iff.2 fun line hline => ?_
    obtain ⟨a, _, rfl⟩ := List.mem_map.1 hline
    simp [tags_line]
  rw [Session.programOutput, lines_output small few plain, List.filter_append, List.filter_append,
    List.filter_cons, tags_line, filter_tags_events plain, hcounts]
  simp [tags_nil]

/-- **Decoding undoes instrumenting.** The literals that the text of a program prints are the ones
that its output is made of, besides those of the script. The output decodes to a trace with the
actions of the calls in order, the number of calls of every action, their total and the size of the
script; the other lines are those that the script printed, and an empty one behind the last line
feed. -/
theorem decode_output (s : Session) (source : List Char) (events : List Event)
    (small : source.length < UInt32.size) (few : events.countP Event.isCall < UInt32.size)
    (plain : ∀ e ∈ events, e.Plain s) :
    printedIn (s.instrument (String.ofList source)).toList =
      (ofSource s source).opening :: (ofSource s source).wrappers.map Wrapper.marker ++
        printedIn source ++ (ofSource s source).wrappers.map Wrapper.report ∧
    ∃ t, s.decode ((ofSource s source).output events) = .ok t ∧
      t.actions = events.flatMap Event.actions ∧
      (∀ a, ∃ n, t.calls a = some n ∧ n.toNat = callsIn events a) ∧
      t.callCount.toNat = events.countP Event.isCall ∧
      t.size.toNat = source.length ∧
      s.programOutput ((ofSource s source).output events) =
        (events.filterMap Event.said?).map dropReturn ++ [[]] := by
  refine ⟨?_, traceOf source events, decode_eq_traceOf small few plain, rfl, fun a => ?_, ?_, ?_,
    programOutput_eq_said small few plain⟩
  · rw [Session.instrument, String.toList_ofList, String.toList_ofList, printedIn_text]
  · have hfits := Nat.lt_of_le_of_lt (callsIn_le events a) few
    exact ⟨_, rfl, UInt32.toNat_ofNat_of_lt' hfits⟩
  · exact UInt32.toNat_ofNat_of_lt' few
  · exact UInt32.toNat_ofNat_of_lt' small

/-- A script that steps twice, prints what is nearly a marker, and calls a function for nothing. -/
theorem decode_output_near_marker :
    (printedIn ((Session.mk ['t', '1'] rfl).instrument "left(2)").toList).length = 13 ∧
    ∃ t, (Session.mk ['t', '1'] rfl).decode ((ofSource ⟨['t', '1'], rfl⟩ "left(2)".toList).output
          [.call .left 2, .say "__t1_left__".toList, .call .forward 0]) = .ok t ∧
      t.actions = [.left, .left] ∧ t.callCount.toNat = 2 ∧ t.size.toNat = 7 := by
  obtain ⟨hprinted, t, hok, hactions, _, htotal, hsize, _⟩ := decode_output ⟨['t', '1'], rfl⟩
    "left(2)".toList [.call .left 2, .say "__t1_left__".toList, .call .forward 0]
    (by decide +kernel) (by decide) (by decide +kernel)
  rw [String.ofList_toList] at hprinted
  exact ⟨by rw [hprinted]; decide +kernel, t, hok, hactions, htotal, hsize⟩

end Shepherd.Script.Program
