import Shepherd.Grid.Position
import Shepherd.Proofs.Text.Blank
import Shepherd.Proofs.Text.Integer
import Shepherd.Proofs.Text.Split

/-!
# Positions as text

A text is read as a position if a number stands on either side of its first comma, each with any
blanks around it; what is not read is handed back as it was. Positions are written in such a form,
so each of them is read back from what was written, the one with the least coordinates included.
-/

namespace Shepherd.Grid
open Text

namespace Position

/-- A number that fits a signed word of 32 bits, with blanks around it. -/
def Coordinate (text : List Char) (n : Int) : Prop :=
  ∃ numeral, Stripped text numeral ∧ SignedNumeral numeral n ∧
    -0x80000000 ≤ n ∧ n < 0x80000000

/-- A text that writes a position: a coordinate on either side of the first comma. -/
def Written (text : List Char) (p : Position) : Prop :=
  ∃ before after, text = before ++ ',' :: after ∧ ',' ∉ before ∧
    Coordinate before p.x ∧ Coordinate after p.y

/-- Both coordinates fit signed words of 32 bits. -/
structure FitsWords (p : Position) : Prop where
  x : -0x80000000 ≤ p.x ∧ p.x < 0x80000000
  y : -0x80000000 ≤ p.y ∧ p.y < 0x80000000

instance (p : Position) : Decidable p.FitsWords :=
  decidable_of_iff
    ((-0x80000000 ≤ p.x ∧ p.x < 0x80000000) ∧ -0x80000000 ≤ p.y ∧ p.y < 0x80000000)
    ⟨fun ⟨hx, hy⟩ => ⟨hx, hy⟩, fun h => ⟨h.x, h.y⟩⟩

variable {text before after : List Char} {p : Position} {n : Int}

/-! ### Reading -/

theorem readInt32?_trim_iff : readInt32? (trim text) = some n ↔ Coordinate text n := by
  rw [readInt32?_eq_some_iff]
  constructor
  · rintro ⟨hnumeral, hfits⟩
    exact ⟨trim text, trim_eq_iff.1 rfl, hnumeral, hfits⟩
  · rintro ⟨numeral, hstripped, hnumeral, hfits⟩
    rw [trim_eq_iff.2 hstripped]
    exact ⟨hnumeral, hfits⟩

theorem ofText?_eq_some_iff : ofText? text = some p ↔ Written text p := by
  constructor
  · intro h
    obtain ⟨⟨before, after⟩, hsplit, h⟩ := Option.bind_eq_some_iff.1 h
    obtain ⟨x, hx, h⟩ := Option.bind_eq_some_iff.1 h
    obtain ⟨y, hy, h⟩ := Option.bind_eq_some_iff.1 h
    cases h
    obtain ⟨htext, hcomma⟩ := splitOnce?_eq_some_iff.1 hsplit
    exact ⟨before, after, htext, hcomma, readInt32?_trim_iff.1 hx, readInt32?_trim_iff.1 hy⟩
  · rintro ⟨before, after, htext, hcomma, hx, hy⟩
    refine Option.bind_eq_some_iff.2 ⟨_, splitOnce?_eq_some_iff.2 ⟨htext, hcomma⟩, ?_⟩
    refine Option.bind_eq_some_iff.2 ⟨_, readInt32?_trim_iff.2 hx, ?_⟩
    exact Option.bind_eq_some_iff.2 ⟨_, readInt32?_trim_iff.2 hy, rfl⟩

theorem parse_eq_ok_iff {text : String} : parse text = .ok p ↔ Written text.toList p := by
  rw [parse, ← ofText?_eq_some_iff]
  cases ofText? text.toList <;> simp

theorem parse_eq_error_iff {text : String} {e : ParseError} :
    parse text = .error e ↔ e = ⟨text⟩ ∧ ∀ p, ¬ Written text.toList p := by
  simp only [parse, ← ofText?_eq_some_iff]
  cases ofText? text.toList <;> simp [eq_comm]

/-! ### Writing -/

/-- A number with blanks around it is a coordinate. -/
theorem coordinate_of_silent (hfits : -0x80000000 ≤ n ∧ n < 0x80000000) (hbefore : Silent before)
    (hafter : Silent after) : Coordinate (before ++ (toString n).toList ++ after) n := by
  have hnumeral := signedNumeral_toString n
  refine ⟨_, ⟨⟨before, after, rfl, hbefore, hafter⟩, fun hne => ?_⟩, hnumeral, hfits⟩
  exact ⟨(hnumeral.visible _ (List.head_mem hne)).1, (hnumeral.visible _ (List.getLast_mem hne)).1⟩

theorem comma_not_mem_of_silent (h : Silent text) : ',' ∉ text := fun hmem => by
  cases h ',' hmem

theorem toText_toList (p : Position) :
    p.toText.toList = (toString p.x).toList ++ ',' :: (toString p.y).toList := by
  rw [toText, String.toList_append, String.toList_append, List.append_assoc]
  rfl

/-- What a position is written with writes it, whatever blanks are put around its numbers. -/
theorem FitsWords.written (h : p.FitsWords) {a b c d : List Char} (ha : Silent a) (hb : Silent b)
    (hc : Silent c) (hd : Silent d) :
    Written (a ++ (toString p.x).toList ++ b ++ ',' :: (c ++ (toString p.y).toList ++ d)) p := by
  refine ⟨_, _, rfl, ?_, coordinate_of_silent h.x ha hb, coordinate_of_silent h.y hc hd⟩
  have hnumber : ',' ∉ (toString p.x).toList := fun hmem =>
    ((signedNumeral_toString p.x).visible ',' hmem).2 rfl
  simp only [List.mem_append, comma_not_mem_of_silent ha, hnumber, comma_not_mem_of_silent hb,
    or_self, not_false_eq_true]

/-- **Positions are read exactly.** A text is read as a position if it writes that one: its first
comma parts two texts, each a number that fits a word, with at most one sign and with blanks around
it. Any other text is handed back as the error. What a position is written with is read as that
position, also with more blanks around the numbers. -/
theorem parse_exact :
    (∀ text p, parse text = .ok p ↔ Written text.toList p) ∧
    (∀ text e, parse text = .error e ↔ e = ⟨text⟩ ∧ ∀ p, ¬ Written text.toList p) ∧
    ∀ p : Position, p.FitsWords → parse p.toText = .ok p ∧
      ∀ a b c d, Silent a → Silent b → Silent c → Silent d →
        parse (String.ofList (a ++ (toString p.x).toList ++ b ++
          ',' :: (c ++ (toString p.y).toList ++ d))) = .ok p := by
  refine ⟨fun text p => parse_eq_ok_iff, fun text e => parse_eq_error_iff, fun p h => ⟨?_, ?_⟩⟩
  · have hwritten := h.written (a := []) (b := []) (c := []) (d := []) nofun nofun nofun nofun
    rw [parse_eq_ok_iff, toText_toList]
    simpa only [List.nil_append, List.append_nil] using hwritten
  · intro a b c d ha hb hc hd
    rw [parse_eq_ok_iff, String.toList_ofList]
    exact h.written ha hb hc hd

/-- The least word, which has no positive counterpart, between an ideographic space and a tab. -/
theorem parse_exact_least : parse "-2147483648,2147483647" = .ok ⟨-2147483648, 2147483647⟩ ∧
    parse "\u3000-2147483648\t,2147483647" = .ok ⟨-2147483648, 2147483647⟩ := by
  have hfits : FitsWords ⟨-2147483648, 2147483647⟩ := ⟨by decide, by decide⟩
  have hwide : Silent ['\u3000'] := List.forall_mem_singleton.2 (by decide)
  have htab : Silent ['\t'] := List.forall_mem_singleton.2 (by decide)
  obtain ⟨hplain, hblanks⟩ := parse_exact.2.2 _ hfits
  exact ⟨hplain, hblanks _ _ [] [] hwide htab nofun nofun⟩

end Position

end Shepherd.Grid
