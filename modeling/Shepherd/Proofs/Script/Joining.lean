import Mathlib.Algebra.BigOperators.Group.List.Basic
import Mathlib.Data.List.Induction
import Shepherd.Proofs.Script.CallCount
import Shepherd.Proofs.Script.Transcript
import Shepherd.Proofs.Script.Truncation

/-!
# Outputs one behind the other

Two outputs with a line feed between them have the lines of the one and then the lines of the other.
So decoding them together comes to decoding each: the traces are joined, or an error of the first
output, or one that the second has as well, or a second call count of some action ends it. In
particular an output that decodes can be cut at any line.
-/

namespace Shepherd.Grid.Trace

/-- A trace is made of two others, the actions of the second behind those of the first. The number
of calls is a word and stops at the largest one. -/
structure Joins (t₁ t₂ t : Trace) : Prop where
  actions : t.actions = t₁.actions ++ t₂.actions
  calls : ∀ a n, t.calls a = some n ↔ t₁.calls a = some n ∨ t₂.calls a = some n
  callCount : t.callCount.toNat =
    min (t₁.callCount.toNat + t₂.callCount.toNat) (UInt32.size - 1)

variable {t₁ t₂ t : Trace}

/-- Where no action has a call count in both, the call counts of two traces add up. -/
theorem callSum_eq_add
    (calls : ∀ a n, t.calls a = some n ↔ t₁.calls a = some n ∨ t₂.calls a = some n)
    (apart : ∀ a, t₁.calls a = none ∨ t₂.calls a = none) :
    t.callSum = t₁.callSum + t₂.callSum := by
  have hcallsOf : ∀ a, (t.callsOf a).toNat = (t₁.callsOf a).toNat + (t₂.callsOf a).toNat := by
    intro a
    have hcalls : t.calls a = (t₁.calls a).or (t₂.calls a) := by
      ext n
      rw [calls, Option.or_eq_some_iff]
      rcases apart a with hnone | hnone <;> simp [hnone]
    rcases apart a with hnone | hnone <;> simp [callsOf, hcalls, hnone]
  rw [callSum_eq, callSum_eq, callSum_eq, ← List.sum_map_add]
  exact congrArg List.sum (List.map_congr_left fun a _ => hcallsOf a)

end Shepherd.Grid.Trace

namespace Shepherd.Script
open Grid Text

variable {s : Session} {ls ls' : List (List Char)} {line : List Char} {m n : UInt32}
  {t t₁ t₂ : Trace}

/-- An action has a call count among some lines. -/
def Counted (s : Session) (ls : List (List Char)) (verb : Action) : Prop :=
  ∃ line ∈ ls, ∃ n, Spells s line (.calls verb n)

/-- Some lines tell the size of the script. -/
def Sized (s : Session) (ls : List (List Char)) : Prop :=
  ∃ line ∈ ls, ∃ n, Spells s line (.codeSize n)

/-- Lines are grammatical behind others where they are so alone, and no action is counted again. -/
theorem grammatical_append_iff :
    Grammatical s (ls ++ ls') ↔ Grammatical s ls ∧ Grammatical s ls' ∧
      ∀ verb, Counted s ls verb → ¬ Counted s ls' verb := by
  constructor
  · intro g
    obtain ⟨-, once, cross⟩ := List.pairwise_append.1 g.once
    refine ⟨g.of_append, ⟨fun l hl => g.action l (List.mem_append_right _ hl),
      fun l hl => g.codeSize l (List.mem_append_right _ hl), once⟩, ?_⟩
    rintro verb ⟨first, hfirst, m, hm⟩ ⟨second, hsecond, n, hn⟩
    exact cross first hfirst second hsecond verb m n hm hn
  · rintro ⟨g, g', apart⟩
    refine ⟨fun l hl => ?_, fun l hl => ?_, List.pairwise_append.2 ⟨g.once, g'.once, ?_⟩⟩
    · exact (List.mem_append.1 hl).elim (g.action l) (g'.action l)
    · exact (List.mem_append.1 hl).elim (g.codeSize l) (g'.codeSize l)
    · intro first hfirst second hsecond verb m n hm hn
      exact apart verb ⟨first, hfirst, m, hm⟩ ⟨second, hsecond, n, hn⟩

/-! ### The size of the script -/

/-- The last line decides on the size if it tells one. -/
theorem lastSize_concat_iff : LastSize s (ls ++ [line]) n ↔
    Spells s line (.codeSize n) ∨ (∀ k, ¬ Spells s line (.codeSize k)) ∧ LastSize s ls n := by
  constructor
  · intro h
    cases h with
    | none h =>
      exact .inr ⟨h line (List.mem_append_right _ List.mem_cons_self),
        .none fun l hl => h l (List.mem_append_left _ hl)⟩
    | @last before after _ _ split size rest =>
      rcases List.eq_nil_or_concat' after with rfl | ⟨init, last, rfl⟩
      · obtain ⟨-, hline⟩ := List.append_inj' split rfl
        rw [List.cons.inj hline |>.1]
        exact .inl size
      · rw [← List.cons_append, ← List.append_assoc] at split
        obtain ⟨hls, ⟨⟩⟩ := List.append_inj' split rfl
        exact .inr ⟨rest line (List.mem_append_right _ List.mem_cons_self),
          .last hls size fun later hlater => rest later (List.mem_append_left _ hlater)⟩
  · rintro (h | ⟨hline, h⟩)
    · exact .last rfl h nofun
    · exact h.skip hline

theorem LastSize.unique (hm : LastSize s ls m) (hn : LastSize s ls n) : m = n := by
  induction ls using List.reverseRecOn with
  | nil =>
    cases hm with
    | none =>
      cases hn with
      | none => rfl
      | last split => simp at split
    | last split => simp at split
  | append_singleton ls line ih =>
    rcases lastSize_concat_iff.1 hm with hm | ⟨hno, hm⟩ <;>
      rcases lastSize_concat_iff.1 hn with hn | ⟨hno', hn⟩
    · cases hm.unique hn
      rfl
    · exact absurd hm (hno' m)
    · exact absurd hn (hno n)
    · exact ih hm hn

theorem LastSize.append_of_sized (h : LastSize s ls' n) (sized : Sized s ls') :
    LastSize s (ls ++ ls') n := by
  cases h with
  | none h =>
    obtain ⟨line, hline, k, hk⟩ := sized
    exact absurd hk (h line hline k)
  | last split size rest =>
    rw [split, ← List.append_assoc]
    exact .last rfl size rest

theorem LastSize.append_of_not_sized (h : LastSize s ls n) (hno : ¬ Sized s ls') :
    LastSize s (ls ++ ls') n := by
  have hrest : ∀ line ∈ ls', ∀ k, ¬ Spells s line (.codeSize k) :=
    fun line hline k hk => hno ⟨line, hline, k, hk⟩
  cases h with
  | none h =>
    exact .none fun line hline => (List.mem_append.1 hline).elim (h line) (hrest line)
  | last split size rest =>
    rw [split, List.append_assoc, List.cons_append]
    exact .last rfl size fun line hline => (List.mem_append.1 hline).elim (rest line) (hrest line)

/-! ### The trace of both -/

theorem Reports.counted_iff (r : Reports s ls t) {verb : Action} :
    Counted s ls verb ↔ t.calls verb ≠ none := by
  rw [Option.ne_none_iff_exists']
  constructor
  · rintro ⟨line, hline, n, hn⟩
    exact ⟨n, (r.calls verb n).2 ⟨line, hline, hn⟩⟩
  · rintro ⟨n, hn⟩
    obtain ⟨line, hline, hspells⟩ := (r.calls verb n).1 hn
    exact ⟨line, hline, n, hspells⟩

theorem Reports.actions_append (r₁ : Reports s ls t₁) (r₂ : Reports s ls' t₂)
    (r : Reports s (ls ++ ls') t) : t.actions = t₁.actions ++ t₂.actions := by
  rw [r.actions, List.filterMap_append, r₁.actions, r₂.actions]

theorem Reports.calls_append (r₁ : Reports s ls t₁) (r₂ : Reports s ls' t₂)
    (r : Reports s (ls ++ ls') t) (verb : Action) (n : UInt32) :
    t.calls verb = some n ↔ t₁.calls verb = some n ∨ t₂.calls verb = some n := by
  simp only [r.calls, r₁.calls, r₂.calls, List.mem_append, or_and_right, exists_or]

theorem Reports.size_append_of_sized (r₂ : Reports s ls' t₂) (r : Reports s (ls ++ ls') t)
    (sized : Sized s ls') : t.size = t₂.size :=
  r.size.unique (r₂.size.append_of_sized sized)

theorem Reports.size_append_of_not_sized (r₁ : Reports s ls t₁) (r : Reports s (ls ++ ls') t)
    (hno : ¬ Sized s ls') : t.size = t₁.size :=
  r.size.unique (r₁.size.append_of_not_sized hno)

namespace Session

/-- What decodes is grammatical, and its trace holds what it says. -/
theorem grammatical_of_decode {output : List Char} (h : s.decode output = .ok t) :
    Grammatical s (lines output) ∧ Reports s (lines output) t := by
  have hspec := decode_spec s output
  rwa [h] at hspec

theorem exists_decode_iff {output : List Char} :
    (∃ t, s.decode output = .ok t) ↔ Grammatical s (lines output) := by
  constructor
  · rintro ⟨t, h⟩
    exact (grammatical_of_decode h).1
  · intro g
    have hspec := decode_spec s output
    cases hdecode : s.decode output with
    | ok t => exact ⟨t, rfl⟩
    | error e =>
      rw [hdecode] at hspec
      exact absurd g hspec

variable (s : Session) (o o' : List Char)

/-- Decoding goes on with the second output where the first one has ended. -/
theorem decode_append_newline :
    s.decode (o ++ '\n' :: o') = (s.decode o).bind (s.absorbAll · (lines o')) := by
  rw [decode, lines_append_newline, Program.absorbAll_append]
  rfl

/-- A line feed at the end adds an empty line, which says nothing. -/
theorem decode_concat_newline : s.decode (o ++ ['\n']) = s.decode o := by
  have hempty (t : Trace) : s.absorbAll t (lines []) = .ok t := by
    have hread := read_eq_printed (tags_nil s)
    show s.absorbAll t [[]] = .ok t
    rw [absorbAll_cons, absorb, hread]
    rfl
  rw [decode_append_newline, funext hempty]
  cases s.decode o <;> rfl

variable {s o o'}

/-- The joined traces of two outputs without an action that is counted in both. -/
theorem joins_of_decode (h₁ : s.decode o = .ok t₁) (h₂ : s.decode o' = .ok t₂)
    (h : s.decode (o ++ '\n' :: o') = .ok t)
    (apart : ∀ a, t₁.calls a = none ∨ t₂.calls a = none) : Trace.Joins t₁ t₂ t := by
  obtain ⟨-, r₁⟩ := grammatical_of_decode h₁
  obtain ⟨-, r₂⟩ := grammatical_of_decode h₂
  obtain ⟨-, r⟩ := grammatical_of_decode h
  rw [lines_append_newline] at r
  have hcalls := r₁.calls_append r₂ r
  refine ⟨r₁.actions_append r₂ r, hcalls, ?_⟩
  have hsum := Trace.callSum_eq_add hcalls apart
  have hcount {output : List Char} {t : Trace} (h : s.decode output = .ok t) :
      t.callCount.toNat = min t.callSum (UInt32.size - 1) := (built_absorbAll .empty h).callCount
  rw [hcount h, hcount h₁, hcount h₂, hsum]
  omega

/-- **Decoding goes line by line.** An output in front of another one with a line feed between them
decodes if both decode and no action is counted in both, and then the trace is made of the two; the
size is the one told last. An error of the first output remains. So an output that decodes can be
cut at any line, in front of the line feed or behind it, and what is left decodes to a start of the
actions. -/
theorem decode_joined (s : Session) (o o' : List Char) :
    (∀ e, s.decode o = .error e → s.decode (o ++ '\n' :: o') = .error e) ∧
    (∀ t, s.decode (o ++ '\n' :: o') = .ok t →
      (∃ t₁, s.decode o = .ok t₁) ∧ ∃ t₂, s.decode o' = .ok t₂) ∧
    (∀ t₁ t₂, s.decode o = .ok t₁ → s.decode o' = .ok t₂ →
      ((∀ a, t₁.calls a = none ∨ t₂.calls a = none) →
        ∃ t, s.decode (o ++ '\n' :: o') = .ok t ∧ Trace.Joins t₁ t₂ t ∧
          (Sized s (lines o') → t.size = t₂.size) ∧ (¬ Sized s (lines o') → t.size = t₁.size)) ∧
      ((∃ a, t₁.calls a ≠ none ∧ t₂.calls a ≠ none) →
        ∃ e, s.decode (o ++ '\n' :: o') = .error e)) ∧
    ∀ t, s.decode (o ++ '\n' :: o') = .ok t → ∃ part, s.decode o = .ok part ∧
      s.decode (o ++ ['\n']) = .ok part ∧ part.actions <+: t.actions := by
  have hboth {t : Trace} (h : s.decode (o ++ '\n' :: o') = .ok t) :
      (∃ t₁, s.decode o = .ok t₁) ∧ ∃ t₂, s.decode o' = .ok t₂ := by
    have g := (grammatical_of_decode h).1
    rw [lines_append_newline, grammatical_append_iff] at g
    exact ⟨exists_decode_iff.2 g.1, exists_decode_iff.2 g.2.1⟩
  refine ⟨fun e he => by rw [decode_append_newline, he]; rfl, fun t h => hboth h,
    fun t₁ t₂ h₁ h₂ => ⟨fun apart => ?_, fun ⟨a, ha₁, ha₂⟩ => ?_⟩, fun t h => ?_⟩
  · obtain ⟨g₁, r₁⟩ := grammatical_of_decode h₁
    obtain ⟨g₂, r₂⟩ := grammatical_of_decode h₂
    have g : Grammatical s (lines (o ++ '\n' :: o')) := by
      rw [lines_append_newline, grammatical_append_iff]
      refine ⟨g₁, g₂, fun verb hverb hverb' => ?_⟩
      exact (apart verb).elim (r₁.counted_iff.1 hverb) (r₂.counted_iff.1 hverb')
    obtain ⟨t, h⟩ := exists_decode_iff.2 g
    obtain ⟨-, r⟩ := grammatical_of_decode h
    rw [lines_append_newline] at r
    exact ⟨t, h, joins_of_decode h₁ h₂ h apart, r₂.size_append_of_sized r,
      r₁.size_append_of_not_sized r⟩
  · obtain ⟨-, r₁⟩ := grammatical_of_decode h₁
    obtain ⟨-, r₂⟩ := grammatical_of_decode h₂
    cases h : s.decode (o ++ '\n' :: o') with
    | error e => exact ⟨e, rfl⟩
    | ok t =>
      have g := (grammatical_of_decode h).1
      rw [lines_append_newline, grammatical_append_iff] at g
      exact absurd (r₂.counted_iff.2 ha₂) (g.2.2 a (r₁.counted_iff.2 ha₁))
  · obtain ⟨⟨t₁, h₁⟩, t₂, h₂⟩ := hboth h
    obtain ⟨-, r₁⟩ := grammatical_of_decode h₁
    obtain ⟨-, r₂⟩ := grammatical_of_decode h₂
    obtain ⟨-, r⟩ := grammatical_of_decode h
    rw [lines_append_newline] at r
    refine ⟨t₁, h₁, by rw [decode_concat_newline, h₁], ?_⟩
    rw [r₁.actions_append r₂ r]
    exact List.prefix_append _ _

/-- Two outputs with more calls than a word can count, of which the second one tells the size. It
cannot be taken twice, and a malformed line in front is an error at once. -/
theorem decode_joined_many_calls :
    let s : Session := ⟨['s', '1'], rfl⟩
    let o := "__s1_codesize__4__\n__s1__left__\r\n__s1__left__calls__4294967295__".toList
    let o' := "__s1__right__\n__s1__right__calls__1__\n__s1_codesize__9__".toList
    ∃ t₁ t₂ t, s.decode o = .ok t₁ ∧ s.decode o' = .ok t₂ ∧ s.decode (o ++ '\n' :: o') = .ok t ∧
      Trace.Joins t₁ t₂ t ∧ t.size = t₂.size ∧
      (∃ part, s.decode (o ++ ['\n']) = .ok part ∧ part.actions <+: t.actions) ∧
      (∃ e, s.decode (o' ++ '\n' :: o') = .error e) ∧
      ∃ e, s.decode "__s1__left".toList = .error e ∧
        s.decode ("__s1__left".toList ++ '\n' :: o) = .error e := by
  intro s o o'
  have hvalue {output : List Char} {counts : List (Option UInt32)}
      (h : (s.decode output).toOption.map (fun t => Action.all.map t.calls) = some counts) :
      ∃ t, s.decode output = .ok t ∧ Action.all.map t.calls = counts := by
    cases hdecode : s.decode output with
    | error e =>
      rw [hdecode] at h
      cases h
    | ok t =>
      rw [hdecode] at h
      exact ⟨t, rfl, Option.some.inj h⟩
  obtain ⟨t₁, h₁, hcalls₁⟩ : ∃ t, s.decode o = .ok t ∧
      Action.all.map t.calls = [none, none, some 4294967295, none, none, none] :=
    hvalue (by decide +kernel)
  obtain ⟨t₂, h₂, hcalls₂⟩ : ∃ t, s.decode o' = .ok t ∧
      Action.all.map t.calls = [none, none, none, some 1, none, none] :=
    hvalue (by decide +kernel)
  simp only [Action.all, List.map_cons, List.map_nil, List.cons.injEq, and_true] at hcalls₁ hcalls₂
  have apart : ∀ a, t₁.calls a = none ∨ t₂.calls a = none := by
    intro a
    cases a <;> simp [hcalls₁, hcalls₂]
  have sized : Sized s (lines o') :=
    ⟨"__s1_codesize__9__".toList, by decide +kernel, 9, read_eq_marker_iff.1 (by decide +kernel)⟩
  obtain ⟨e, he⟩ : ∃ e, s.decode "__s1__left".toList = .error e := ⟨_, rfl⟩
  obtain ⟨t, h, joins, hsize, -⟩ := ((decode_joined s o o').2.2.1 t₁ t₂ h₁ h₂).1 apart
  obtain ⟨part, -, hpart, hactions⟩ := (decode_joined s o o').2.2.2 t h
  have hagain := ((decode_joined s o' o').2.2.1 t₂ t₂ h₂ h₂).2 ⟨.right, by simp [hcalls₂]⟩
  exact ⟨t₁, t₂, t, h₁, h₂, h, joins, hsize sized, ⟨part, hpart, hactions⟩, hagain, e, he,
    (decode_joined s _ o).1 e he⟩

end Session

end Shepherd.Script
