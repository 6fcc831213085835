import Mathlib.Data.List.Basic
import Mathlib.Data.List.Forall2
import Shepherd.Data.Json.Printer
import Shepherd.Data.Json.Reader
import Shepherd.Proofs.Text.Integer
import Shepherd.Proofs.Text.Scan

/-!
# Strings and numbers in JSON

A string of any characters reads as itself from between its quotes, whether a character was written
plainly, with a letter or as the unit that it is. A whole number is read up to where it ends, which
the text behind it must show.
-/

namespace Shepherd.Data.Json
open Text Scan

variable {cs rest done : List Char} {n : Int}

/-! ### Strings -/

/-- A piece of a string that stands for a character. -/
inductive Stands : Piece → Char → Prop
  | char (c : Char) : Stands (.char c) c
  /-- Units below the surrogates are characters. -/
  | unit {u : Nat} (h : u < 0xD800) : Stands (.unit u) (Char.ofNat u)

theorem joinPieces_unit {u : Nat} (h : u < 0xD800) (ps : List Piece) :
    joinPieces done (.unit u :: ps) = joinPieces (Char.ofNat u :: done) ps := by
  have hhigh : ¬ (0xD800 ≤ u ∧ u < 0xDC00) := by omega
  have hlow : ¬ (0xDC00 ≤ u ∧ u < 0xE000) := by omega
  have hnone : ¬ (0xD800 ≤ u ∧ u < 0xE000) := by omega
  match ps with
  | [] => rw [joinPieces.eq_4, if_neg hnone]; nofun
  | .char c :: ps => rw [joinPieces.eq_4, if_neg hnone]; nofun
  | .unit low :: ps => rw [joinPieces.eq_3, if_neg hhigh, if_neg hlow]

/-- Pieces that stand for the characters of a text are joined to that text. -/
theorem joinPieces_of_stands {ps : List Piece} (h : List.Forall₂ Stands ps cs) :
    joinPieces done ps = some (done.reverse ++ cs) := by
  induction h generalizing done with
  | nil => rw [joinPieces, List.append_nil]
  | cons hpiece _ ih =>
    cases hpiece with
    | char c => rw [joinPieces, ih, List.reverse_cons, List.append_assoc, List.singleton_append]
    | unit hu =>
      rw [joinPieces_unit hu, ih, List.reverse_cons, List.append_assoc, List.singleton_append]

theorem hexValue_control : ∀ n : Fin 0x20,
    ['0', '0', hexDigit (n.val / 16), hexDigit (n.val % 16)].all isHexDigit = true ∧
      hexValue ['0', '0', hexDigit (n.val / 16), hexDigit (n.val % 16)] = n.val := by
  decide +kernel

theorem pieces_cons {c : Char} (hquote : c ≠ '"') (hslash : c ≠ '\\') (hvisible : ¬ c.toNat < 0x20)
    (before : List Piece) (cs : List Char) :
    pieces before (c :: cs) = pieces (.char c :: before) cs := by
  have hplain : (c == '\\' || decide (c.toNat < 0x20)) = false := by
    rw [Bool.or_eq_false_iff, beq_eq_false_iff_ne, decide_eq_false_iff_not]
    exact ⟨hslash, hvisible⟩
  rw [pieces, hplain]
  · rfl
  · exact hquote
  · exact fun _ _ _ _ _ hc => absurd hc hslash
  · exact fun _ _ hc => absurd hc hslash

/-- However a character is written in a string, one piece is read, and it stands for it. -/
theorem exists_pieces_escape (c : Char) : ∃ piece, Stands piece c ∧ ∀ before cs,
    pieces before (escape c ++ cs) = pieces (piece :: before) cs := by
  unfold escape
  split
  · exact ⟨_, .char '"', fun before cs => rfl⟩
  · exact ⟨_, .char '\\', fun before cs => rfl⟩
  · exact ⟨_, .char '\x08', fun before cs => rfl⟩
  · exact ⟨_, .char '\x0c', fun before cs => rfl⟩
  · exact ⟨_, .char '\n', fun before cs => rfl⟩
  · exact ⟨_, .char '\r', fun before cs => rfl⟩
  · exact ⟨_, .char '\t', fun before cs => rfl⟩
  · next hquote hslash _ _ _ _ _ =>
    split
    · next hcontrol =>
      obtain ⟨hhex, hvalue⟩ := hexValue_control ⟨c.toNat, hcontrol⟩
      have hstands : Stands (.unit c.toNat) (Char.ofNat c.toNat) := .unit (by omega)
      rw [Char.ofNat_toNat] at hstands
      refine ⟨_, hstands, fun before cs => ?_⟩
      show pieces before ('\\' :: 'u' :: _ :: _ :: _ :: _ :: cs) = _
      rw [pieces, if_pos hhex, hvalue]
    · next hvisible => exact ⟨_, .char c, pieces_cons hquote hslash hvisible⟩

/-- The pieces of a printed text stand for its characters. -/
theorem exists_pieces_flatMap (cs : List Char) (before : List Piece) (rest : List Char) :
    ∃ ps, List.Forall₂ Stands ps cs ∧
      pieces before (cs.flatMap escape ++ '"' :: rest) = some (before.reverse ++ ps, rest) := by
  induction cs generalizing before with
  | nil => exact ⟨[], .nil, by rw [List.append_nil]; rfl⟩
  | cons c cs ih =>
    obtain ⟨piece, hstands, hpiece⟩ := exists_pieces_escape c
    obtain ⟨ps, hall, hps⟩ := ih (piece :: before)
    refine ⟨piece :: ps, .cons hstands hall, ?_⟩
    rw [List.flatMap_cons, List.append_assoc, hpiece, hps, List.reverse_cons, List.append_assoc,
      List.singleton_append]

theorem toList_literal (s : String) :
    (literal s).toList = '"' :: (s.toList.flatMap escape ++ ['"']) := by
  rw [literal, String.toList_ofList, List.cons_append]

/-- A printed text is read back behind its first quote. -/
theorem string_literal (s : String) (rest : List Char) :
    string (s.toList.flatMap escape ++ '"' :: rest) = some (some s, rest) := by
  obtain ⟨ps, hall, hps⟩ := exists_pieces_flatMap s.toList [] rest
  have hjoin : (joinPieces [] ps).map String.ofList = some s := by
    rw [joinPieces_of_stands hall, Option.map_some, List.reverse_nil, List.nil_append,
      String.ofList_toList]
  rw [string, hps, Option.map_some, List.reverse_nil, List.nil_append]
  show some ((joinPieces [] ps).map String.ofList, rest) = _
  rw [hjoin]

/-! ### Numbers -/

/-- What may stand behind a printed value. -/
def Apart (rest : List Char) : Prop := ∀ c ∈ rest.head?, c = ',' ∨ c = '\n'

theorem Apart.next (h : Apart rest) (p : Char → Bool) (hcomma : p ',' = false)
    (hfeed : p '\n' = false) : ∀ c ∈ rest.head?, p c = false := by
  intro c hc
  obtain rfl | rfl := h c hc
  · exact hcomma
  · exact hfeed

/-- The digits of a number begin with a zero only where it is the only one. -/
theorem head?_toDigits_ne_zero {m : Nat} (h : 0 < m) : (Nat.toDigits 10 m).head? ≠ some '0' := by
  induction m using Nat.strongRecOn with
  | _ m ih =>
    by_cases hsmall : m < 10
    · have hdigit : ∀ k < 10, 0 < k → k.digitChar ≠ '0' := by decide
      rw [Nat.toDigits_of_lt_base hsmall, List.head?_cons, ne_eq, Option.some.injEq]
      exact hdigit m hsmall h
    · have hdigits := ih (m / 10) (by omega) (by omega)
      have hne : Nat.toDigits 10 (m / 10) ≠ [] := Nat.toDigits_ne_nil
      rwa [Nat.toDigits_of_base_le (by decide) (by omega), List.head?_append_of_ne_nil _ hne]

theorem length_or_head?_repr (m : Nat) :
    (Nat.repr m).toList.length = 1 ∨ (Nat.repr m).toList.head? ≠ some '0' := by
  rw [Nat.toList_repr]
  by_cases hm : 0 < m
  · exact .inr (head?_toDigits_ne_zero hm)
  · rw [Nat.toDigits_of_lt_base (by omega)]
    exact .inl rfl

theorem wholeDigits_repr (m : Nat) (h : Apart rest) :
    wholeDigits ((Nat.repr m).toList ++ rest) = some ((Nat.repr m).toList, rest) := by
  obtain ⟨hdigits, -⟩ := digits_repr m
  have hspan := span_append hdigits.allDigits (h.next Char.isDigit rfl rfl)
  have hspan1 : span1 Char.isDigit ((Nat.repr m).toList ++ rest) =
      some ((Nat.repr m).toList, rest) := by
    rw [span1, bind_of_eq hspan, bind_of_eq (guard_of hdigits.nonempty)]
    rfl
  rw [wholeDigits, bind_of_eq hspan1, bind_of_eq (guard_of (length_or_head?_repr m))]
  rfl

/-- Behind the sign and the digits of a number nothing is taken. -/
theorem number_of_parts {minus : Option Unit} {mid digits : List Char}
    (hminus : attempt (Scan.char '-') cs = some (minus, mid))
    (hwhole : wholeDigits mid = some (digits, rest)) (hrest : Apart rest)
    (hzero : minus.isSome = true → digitsValue digits ≠ 0)
    (hsize : digitsValue digits < UInt64.size) :
    number cs = some (.integer (if minus.isSome then -digitsValue digits else digitsValue digits),
      rest) := by
  have hfrac : attempt fraction rest = some (none, rest) := by
    rw [fraction, seqRight_eq_bind]
    exact attempt_of_none (bind_of_none (char_of_head? (hrest.next _ rfl rfl)))
  have hpower : attempt exponent rest = some (none, rest) :=
    attempt_of_none (bind_of_none (discard_of_none (satisfy_of_head? (hrest.next _ rfl rfl))))
  have hsign : (minus.isSome && digitsValue digits == 0) = false := by
    rw [Bool.and_eq_false_imp]
    exact fun hsome => beq_eq_false_iff_ne.2 (hzero hsome)
  rw [number, bind_of_eq hminus, bind_of_eq hwhole, bind_of_eq hfrac, bind_of_eq hpower, hsign,
    decide_eq_true hsize]
  rfl

/-- Whole numbers are read back up to what they are apart from. -/
theorem number_toString (hsize : n.natAbs < UInt64.size) (hrest : Apart rest) :
    number ((toString n).toList ++ rest) = some (.integer n, rest) := by
  have hwhole := wholeDigits_repr n.natAbs hrest
  obtain ⟨hdigits, hvalue⟩ := digits_repr n.natAbs
  rw [← hvalue] at hsize
  rw [toList_toString_int]
  split
  · have hminus := attempt_of_some (char_cons '-' ((Nat.repr n.natAbs).toList ++ rest))
    rw [List.cons_append, number_of_parts hminus hwhole hrest (by omega) hsize, hvalue,
      if_pos Option.isSome_some, Int.ofNat_natAbs_of_nonpos (by omega), Int.neg_neg]
  · have hunsigned : ∀ c ∈ ((Nat.repr n.natAbs).toList ++ rest).head?, (c == '-') = false := by
      obtain ⟨c, cs, hcons, hdigit⟩ := hdigits.exists_eq_cons
      rw [hcons, List.cons_append, List.head?_cons]
      rintro _ ⟨⟩
      exact beq_eq_false_iff_ne.2 fun hc => by rw [hc] at hdigit; cases hdigit
    have hminus := attempt_of_none (char_of_head? hunsigned)
    rw [number_of_parts hminus hwhole hrest nofun hsize, hvalue, if_neg nofun,
      Int.natAbs_of_nonneg (by omega)]

/-! ### White space -/

/-- What does not begin with white space. -/
def Opens (rest : List Char) : Prop := ∀ c ∈ rest.head?, isBlank c = false

theorem opens_cons {c : Char} (h : isBlank c = false) (cs : List Char) : Opens (c :: cs) := by
  rintro _ ⟨⟩
  exact h

theorem skipBlank_append (blanks : List Char) (hblanks : ∀ c ∈ blanks, c = ' ' ∨ c = '\n')
    (hrest : Opens rest) :
    skipBlank (blanks ++ rest) = some ((), rest) := by
  refine discard_of_eq (span_append (fun c hc => ?_) fun c hc => ?_)
  · obtain rfl | rfl := hblanks c hc <;> rfl
  · have hvisible := hrest c hc
    simp only [Bool.or_eq_false_iff, beq_eq_false_iff_ne]
    refine ⟨⟨⟨?_, ?_⟩, ?_⟩, ?_⟩ <;> rintro rfl <;> cases hvisible

theorem skipBlank_of_opens (hrest : Opens rest) :
    skipBlank rest = some ((), rest) :=
  skipBlank_append [] nofun hrest

theorem skipBlank_newLine (level : Nat) (rest : List Char) (hrest : Opens rest) :
    skipBlank ((newLine level).toList ++ rest) = some ((), rest) := by
  refine skipBlank_append _ (fun c hc => ?_) hrest
  rw [newLine, String.toList_append, List.mem_append] at hc
  obtain hfeed | hspace := hc
  · exact .inr (List.mem_singleton.1 hfeed)
  · rw [String.toList_ofList] at hspace
    exact .inl (List.eq_of_mem_replicate hspace)

end Shepherd.Data.Json
