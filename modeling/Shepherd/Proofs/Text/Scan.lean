import Mathlib.Data.List.Basic
import Shepherd.Text.Scan

/-!
# Scans in sequence

A sequence of scans reads a text exactly if each reads where the one before it stopped. Read
backwards this takes an accepted text apart, and forwards it carries a reader along a text whose
pieces are known.
-/

namespace Shepherd.Text.Scan

variable {α β : Type} {s : Scan α} {f : α → Scan β} {p : Char → Bool} {c : Char}
  {cs mid run rest : List Char} {a : α}

/-! ### What a scan has read -/

theorem bind_eq_some_iff {b : β} :
    (s >>= f) cs = some (b, rest) ↔ ∃ a mid, s cs = some (a, mid) ∧ f a mid = some (b, rest) := by
  show (s cs).bind (fun p => f p.1 p.2) = some (b, rest) ↔ _
  rw [Option.bind_eq_some_iff, Prod.exists]

theorem seqRight_eq_some_iff {s' : Scan β} {b : β} :
    (s *> s') cs = some (b, rest) ↔ ∃ a mid, s cs = some (a, mid) ∧ s' mid = some (b, rest) := by
  rw [seqRight_eq_bind, bind_eq_some_iff]

theorem seqLeft_eq_some_iff {s' : Scan β} :
    (s <* s') cs = some (a, rest) ↔ ∃ mid b, s cs = some (a, mid) ∧ s' mid = some (b, rest) := by
  rw [seqLeft_eq_bind, bind_eq_some_iff]
  constructor
  · rintro ⟨a, mid, hfirst, h⟩
    obtain ⟨b, mid', hnext, h⟩ := bind_eq_some_iff.1 h
    cases h
    exact ⟨mid, b, hfirst, hnext⟩
  · rintro ⟨mid, b, hfirst, hnext⟩
    exact ⟨a, mid, hfirst, bind_eq_some_iff.2 ⟨b, rest, hnext, rfl⟩⟩

/-- What is read of a whole text is read of its front. -/
theorem exists_of_readAll? (h : readAll? s cs = some a) : ∃ rest, s cs = some (a, rest) := by
  obtain ⟨⟨_, _⟩, hscan, rfl⟩ := Option.map_eq_some_iff.1 h
  obtain ⟨rest, _, hread, -⟩ := seqLeft_eq_some_iff.1 hscan
  exact ⟨rest, hread⟩

/-! ### Scanning on -/

/-- Behind what a first scan has read the next one goes on. -/
theorem bind_of_eq (h : s cs = some (a, mid)) : (s >>= f) cs = f a mid := by
  show (s cs).bind (fun p => f p.1 p.2) = f a mid
  rw [h]
  rfl

/-- Where a first scan fails, nothing behind it is read. -/
theorem bind_of_none (h : s cs = none) : (s >>= f) cs = none := by
  show (s cs).bind (fun p => f p.1 p.2) = none
  rw [h]
  rfl

theorem guard_of {P : Prop} [Decidable P] (h : P) : (guard P : Scan Unit) cs = some ((), cs) := by
  rw [guard, if_pos h]
  rfl

theorem peek_cons (c : Char) (cs : List Char) : peek (c :: cs) = some (some c, c :: cs) := rfl

theorem satisfy_of_head? (h : ∀ c ∈ cs.head?, p c = false) : satisfy p cs = none := by
  cases cs with
  | nil => rfl
  | cons c cs =>
    refine if_neg fun hc => ?_
    rw [h c rfl] at hc
    cases hc

theorem discard_of_eq (h : s cs = some (a, rest)) : (discard s : Scan Unit) cs = some ((), rest) := by
  show (s cs).bind (fun p => some ((), p.2)) = some ((), rest)
  rw [h]
  rfl

theorem discard_of_none (h : s cs = none) : (discard s : Scan Unit) cs = none := by
  show (s cs).bind (fun p => some ((), p.2)) = none
  rw [h]
  rfl

theorem char_cons (c : Char) (cs : List Char) : char c (c :: cs) = some ((), cs) :=
  discard_of_eq (if_pos (beq_self_eq_true c))

theorem char_of_head? (h : ∀ d ∈ cs.head?, (d == c) = false) : char c cs = none :=
  discard_of_none (satisfy_of_head? h)

theorem attempt_of_some (h : s cs = some (a, rest)) : attempt s cs = some (some a, rest) := by
  rw [attempt, h]

theorem attempt_of_none (h : s cs = none) : attempt s cs = some (none, cs) := by
  rw [attempt, h]

/-- A run of characters that pass a test ends where the next one does not pass it. -/
theorem span_append (hrun : ∀ c ∈ run, p c = true) (hrest : ∀ c ∈ rest.head?, p c = false) :
    span p (run ++ rest) = some (run, rest) := by
  have htake : rest.takeWhile p = [] := by
    cases rest with
    | nil => rfl
    | cons c rest => rw [List.takeWhile_cons, hrest c rfl]; rfl
  have hdrop : rest.dropWhile p = rest := by
    cases rest with
    | nil => rfl
    | cons c rest => rw [List.dropWhile_cons, hrest c rfl]; rfl
  rw [span, List.takeWhile_append_of_pos hrun, List.dropWhile_append_of_pos hrun, htake, hdrop,
    List.append_nil]

end Shepherd.Text.Scan
