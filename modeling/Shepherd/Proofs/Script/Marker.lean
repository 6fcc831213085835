import Mathlib.Data.List.Basic
import Shepherd.Proofs.Text.Split
import Shepherd.Script.Marker
import Shepherd.Text.Lines

/-!
# Markers read back

Marker lines are written with letters, digits and underscores, so each is one line of the output
and no ending is cut off it. The names of the actions have no underscore in them, and behind the
session's name the code size goes on with a letter: the three shapes do not overlap, and every
marker line reads as the marker that it was written for.
-/

namespace Shepherd.Text

/-- A non-empty run of ASCII digits, leading zeros included, and the word that it writes. -/
structure Numeral (digits : List Char) (n : UInt32) : Prop where
  nonempty : digits ≠ []
  allDigits : ∀ c ∈ digits, c.isDigit = true
  value : digitsValue digits = n.toNat

/-- Words are read off their numerals and off nothing else. -/
theorem readUInt32?_eq_some_iff {cs : List Char} {n : UInt32} :
    readUInt32? cs = some n ↔ Numeral cs n := by
  simp only [readUInt32?, Option.bind_eq_some_iff, readNat?_eq_some_iff, List.all_eq_true]
  constructor
  · rintro ⟨m, ⟨hne, hdigits, hvalue⟩, hfits⟩
    split at hfits
    · next hm =>
      cases hfits
      exact ⟨hne, hdigits, by rw [hvalue, UInt32.toNat_ofNat_of_lt' hm]⟩
    · cases hfits
  · rintro ⟨hne, hdigits, hvalue⟩
    exact ⟨n.toNat, ⟨hne, hdigits, hvalue⟩, by rw [if_pos n.toNat_lt, UInt32.ofNat_toNat]⟩

/-- Dropping a carriage return leaves a start of the line. -/
theorem isPrefix_dropReturn (line : List Char) : dropReturn line <+: line := by
  rw [dropReturn]
  split
  · exact List.dropLast_prefix line
  · exact List.prefix_rfl

end Shepherd.Text

namespace Shepherd.Script
open Grid Text

/-! ### The characters of a marker -/

/-- The characters that markers are written with. -/
def isTagChar (c : Char) : Bool := c == '_' || c.isAlphanum

theorem all_isTagChar_of_isAlphanum {cs : List Char} (h : ∀ c ∈ cs, c.isAlphanum = true) :
    cs.all isTagChar = true :=
  List.all_eq_true.2 fun c hc => by rw [isTagChar, h c hc, Bool.or_true]

theorem Session.all_isTagChar_name (s : Session) : s.name.all isTagChar = true := by
  have hname := s.isName
  rw [isSessionName, Bool.and_eq_true] at hname
  exact all_isTagChar_of_isAlphanum (List.all_eq_true.1 hname.2)

theorem Session.all_isTagChar_actionStart (s : Session) :
    s.actionStart.all isTagChar = true := by
  rw [actionStart, List.all_append, List.all_append, s.all_isTagChar_name]
  rfl

theorem Session.all_isTagChar_codeSizeStart (s : Session) :
    s.codeSizeStart.all isTagChar = true := by
  have hword : "_codesize__".toList.all isTagChar = true := by decide +kernel
  rw [codeSizeStart, List.all_append, List.all_append, s.all_isTagChar_name, hword]
  rfl

theorem all_isTagChar_verb (a : Action) : a.name.toList.all isTagChar = true := by
  cases a <;> decide +kernel

theorem all_isTagChar_repr (n : Nat) : (Nat.repr n).toList.all isTagChar = true := by
  refine all_isTagChar_of_isAlphanum fun c hc => ?_
  rw [Nat.toList_repr] at hc
  have hdigit := Nat.isDigit_of_mem_toDigits (by decide) (by decide) hc
  rw [Char.isAlphanum, hdigit, Bool.or_true]

theorem all_isTagChar_decimalDigits (n : UInt32) : (decimalDigits n).all isTagChar = true :=
  all_isTagChar_repr n.toNat

theorem all_isTagChar_line (s : Session) (m : Marker) : (m.line s).all isTagChar = true := by
  have hend : markerEnd.all isTagChar = true := by decide
  have hmark : callsMark.all isTagChar = true := by decide +kernel
  cases m with
  | action a =>
    rw [Marker.line, List.all_append, List.all_append, s.all_isTagChar_actionStart,
      all_isTagChar_verb, hend]
    rfl
  | calls a n =>
    rw [Marker.line, List.all_append, List.all_append, List.all_append, List.all_append,
      s.all_isTagChar_actionStart, all_isTagChar_verb, hmark, all_isTagChar_decimalDigits, hend]
    rfl
  | codeSize n =>
    rw [Marker.line, List.all_append, List.all_append, s.all_isTagChar_codeSizeStart,
      all_isTagChar_decimalDigits, hend]
    rfl

/-- Other characters do not occur in such a text. -/
theorem not_mem_of_all_isTagChar {cs : List Char} {c : Char} (h : cs.all isTagChar = true)
    (hc : isTagChar c = false) : c ∉ cs := fun hmem => by
  rw [List.all_eq_true.1 h c hmem] at hc
  cases hc

theorem newline_not_mem_line (s : Session) (m : Marker) : '\n' ∉ m.line s :=
  not_mem_of_all_isTagChar (all_isTagChar_line s m) (by decide)

/-- A marker's line has no carriage return to lose. -/
theorem dropReturn_line (s : Session) (m : Marker) : dropReturn (m.line s) = m.line s := by
  refine if_neg fun hlast => ?_
  have hmem := List.mem_of_getLast? hlast
  exact not_mem_of_all_isTagChar (all_isTagChar_line s m) (by decide) hmem

/-! ### Reading a marker -/

/-- The lines that are markers of a session, and the markers that they are. A number may have
leading zeros there; `Marker.line` writes none. -/
inductive Spells (s : Session) : List Char → Marker → Prop
  | action (verb : Action) :
    Spells s (s.actionStart ++ verb.name.toList ++ markerEnd) (.action verb)
  | calls (verb : Action) {digits : List Char} {count : UInt32} (h : Numeral digits count) :
    Spells s (s.actionStart ++ verb.name.toList ++ callsMark ++ digits ++ markerEnd)
      (.calls verb count)
  | codeSize {digits : List Char} {chars : UInt32} (h : Numeral digits chars) :
    Spells s (s.codeSizeStart ++ digits ++ markerEnd) (.codeSize chars)

theorem numeral_decimalDigits (n : UInt32) : Numeral (decimalDigits n) n := by
  rw [← readUInt32?_eq_some_iff, decimalDigits, readUInt32?_repr n.toNat_lt, UInt32.ofNat_toNat]

/-- Every marker is spelled by the line that is written for it. -/
theorem spells_line (s : Session) (m : Marker) : Spells s (m.line s) m := by
  cases m with
  | action verb => exact .action verb
  | calls verb count => exact .calls verb (numeral_decimalDigits count)
  | codeSize chars => exact .codeSize (numeral_decimalDigits chars)

/-- No line begins both like an action marker and like a code size. -/
theorem not_codeSizeStart {s : Session} {line : List Char} (h : s.actionStart <+: line) :
    ¬ s.codeSizeStart <+: line := by
  rintro ⟨rest, rfl⟩
  obtain ⟨body, h⟩ := h
  rw [Session.actionStart, Session.codeSizeStart] at h
  simp only [List.append_assoc, List.append_cancel_left_eq] at h
  -- behind the name stands an underscore in both, and then one more or the `c`
  have hsecond : ('_' :: '_' :: body)[1]? = ('_' :: 'c' :: ("odesize__".toList ++ rest))[1]? :=
    congrArg (·[1]?) h
  cases hsecond

theorem isSuffixOf?_markerEnd (body : List Char) :
    markerEnd.isSuffixOf? (body ++ markerEnd) = some body :=
  List.isSuffixOf?_eq_some_iff_append_eq.2 rfl

theorem underscore_not_mem_verb (a : Action) : '_' ∉ a.name.toList := by
  cases a <;> decide +kernel

theorem readAction_verb (a : Action) :
    readAction (a.name.toList ++ markerEnd) = .marker (.action a) := by
  have hsplit : splitOnce? callsMark a.name.toList = none :=
    splitOnce?_eq_none (underscore_not_mem_verb a)
  simp only [readAction, isSuffixOf?_markerEnd, hsplit, String.ofList_toList, Action.ofName?_name]

theorem readAction_calls (a : Action) {digits : List Char} {n : UInt32} (h : Numeral digits n) :
    readAction (a.name.toList ++ callsMark ++ digits ++ markerEnd) = .marker (.calls a n) := by
  have hsplit : splitOnce? callsMark (a.name.toList ++ callsMark ++ digits) =
      some (a.name.toList, digits) :=
    splitOnce?_append (underscore_not_mem_verb a) _
  simp only [readAction, isSuffixOf?_markerEnd, hsplit, readCalls, String.ofList_toList,
    Action.ofName?_name, readUInt32?_eq_some_iff.2 h]

/-- What the reader looks at first. -/
theorem read_actionStart (s : Session) (body : List Char) :
    s.read (s.actionStart ++ body) = readAction body := by
  have hstart : s.actionStart.isPrefixOf? (s.actionStart ++ body) = some body :=
    List.isPrefixOf?_eq_some_iff_append_eq.2 rfl
  simp only [Session.read, hstart]

theorem read_codeSizeStart (s : Session) (body : List Char) :
    s.read (s.codeSizeStart ++ body) = readCodeSize body := by
  have hother : s.actionStart.isPrefixOf? (s.codeSizeStart ++ body) = none := by
    rw [Option.eq_none_iff_forall_ne_some]
    intro rest h
    exact not_codeSizeStart ⟨rest, List.isPrefixOf?_eq_some_iff_append_eq.1 h⟩ ⟨body, rfl⟩
  have hstart : s.codeSizeStart.isPrefixOf? (s.codeSizeStart ++ body) = some body :=
    List.isPrefixOf?_eq_some_iff_append_eq.2 rfl
  simp only [Session.read, hother, hstart]

/-- Every line that spells a marker reads as that marker. -/
theorem read_of_spells {s : Session} {line : List Char} {m : Marker} (h : Spells s line m) :
    s.read line = .marker m := by
  cases h with
  | action verb => rw [List.append_assoc, read_actionStart, readAction_verb]
  | calls verb h =>
    have hline := readAction_calls verb h
    simp only [List.append_assoc] at hline ⊢
    rw [read_actionStart, hline]
  | codeSize h =>
    rw [List.append_assoc, read_codeSizeStart, readCodeSize, isSuffixOf?_markerEnd,
      Option.bind_some, readUInt32?_eq_some_iff.2 h]

/-- Every marker's line reads as the marker. -/
theorem read_line (s : Session) (m : Marker) : s.read (m.line s) = .marker m :=
  read_of_spells (spells_line s m)

/-- What reads as a verb is the name of the action. -/
theorem eq_name_of_ofName? {cs : List Char} {a : Action}
    (h : Action.ofName? (String.ofList cs) = some a) : cs = a.name.toList := by
  rw [← Action.ofName?_eq_some_iff.1 h, String.toList_ofList]

theorem spells_of_readAction (s : Session) {body : List Char} {m : Marker}
    (h : readAction body = .marker m) : Spells s (s.actionStart ++ body) m := by
  unfold readAction at h
  split at h
  · cases h
  · next inner hend =>
    obtain rfl := List.isSuffixOf?_eq_some_iff_append_eq.1 hend
    split at h
    · next verb count hsplit =>
      obtain rfl := eq_append_of_splitOnce? hsplit
      unfold readCalls at h
      split at h
      · cases h
      · next a hverb =>
        split at h
        · cases h
        · next n hcount =>
          cases h
          rw [eq_name_of_ofName? hverb]
          simpa only [List.append_assoc] using
            Spells.calls (s := s) a (readUInt32?_eq_some_iff.1 hcount)
    · split at h
      · cases h
      · next a hverb =>
        cases h
        rw [eq_name_of_ofName? hverb, ← List.append_assoc]
        exact .action a

theorem spells_of_readCodeSize (s : Session) {body : List Char} {m : Marker}
    (h : readCodeSize body = .marker m) : Spells s (s.codeSizeStart ++ body) m := by
  unfold readCodeSize at h
  split at h
  · cases h
  · next n hsize =>
    cases h
    obtain ⟨digits, hend, hn⟩ := Option.bind_eq_some_iff.1 hsize
    obtain rfl := List.isSuffixOf?_eq_some_iff_append_eq.1 hend
    rw [← List.append_assoc]
    exact .codeSize (readUInt32?_eq_some_iff.1 hn)

/-- The reader finds the markers that lines spell, and no others. -/
theorem read_eq_marker_iff {s : Session} {line : List Char} {m : Marker} :
    s.read line = .marker m ↔ Spells s line m := by
  refine ⟨fun h => ?_, read_of_spells⟩
  unfold Session.read at h
  split at h
  · next body hstart =>
    obtain rfl := List.isPrefixOf?_eq_some_iff_append_eq.1 hstart
    exact spells_of_readAction s h
  · split at h
    · next body hstart =>
      obtain rfl := List.isPrefixOf?_eq_some_iff_append_eq.1 hstart
      exact spells_of_readCodeSize s h
    · cases h

/-! ### Lines of the script's own -/

theorem tags_eq_true_iff {s : Session} {line : List Char} :
    s.tags line = true ↔ s.actionStart <+: line ∨ s.codeSizeStart <+: line := by
  rw [Session.tags, Bool.or_eq_true, List.isPrefixOf_iff_prefix, List.isPrefixOf_iff_prefix]

theorem tags_eq_false_iff {s : Session} {line : List Char} :
    s.tags line = false ↔ ¬ s.actionStart <+: line ∧ ¬ s.codeSizeStart <+: line := by
  rw [← Bool.not_eq_true, tags_eq_true_iff, not_or]

/-- A line that does not begin like a marker is the script's own. -/
theorem read_eq_printed {s : Session} {line : List Char} (h : s.tags line = false) :
    s.read line = .printed := by
  rw [Session.tags, Bool.or_eq_false_iff, ← List.isSome_isPrefixOf?_eq_isPrefixOf,
    ← List.isSome_isPrefixOf?_eq_isPrefixOf, Option.isSome_eq_false_iff,
    Option.isSome_eq_false_iff, Option.isNone_iff_eq_none, Option.isNone_iff_eq_none] at h
  simp only [Session.read, h.1, h.2]

/-- A line that begins like a marker is one or malformed. -/
theorem read_ne_printed {s : Session} {line : List Char}
    (h : s.actionStart <+: line ∨ s.codeSizeStart <+: line) : s.read line ≠ .printed := by
  rcases h with ⟨body, rfl⟩ | ⟨body, rfl⟩
  · rw [read_actionStart]
    unfold readAction readCalls
    repeat' split
    all_goals nofun
  · rw [read_codeSizeStart]
    unfold readCodeSize
    split <;> nofun

theorem tags_nil (s : Session) : s.tags [] = false := rfl

/-- Every marker's line begins like a marker. -/
theorem tags_line (s : Session) (m : Marker) : s.tags (m.line s) = true := by
  by_contra hfalse
  have hread := read_eq_printed ((Bool.not_eq_true _).mp hfalse)
  rw [read_line] at hread
  cases hread

/-- A line does not begin like a marker for want of a carriage return. -/
theorem tags_dropReturn {s : Session} {line : List Char} (h : s.tags line = false) :
    s.tags (dropReturn line) = false := by
  rw [tags_eq_false_iff] at h ⊢
  have hpre := isPrefix_dropReturn line
  exact ⟨fun hstart => h.1 (hstart.trans hpre), fun hstart => h.2 (hstart.trans hpre)⟩

end Shepherd.Script
