import Mathlib.Data.List.Forall2
import Shepherd.Data.Json.Reader
import Shepherd.Data.Shape
import Shepherd.Proofs.Text.Scan

/-!
# Fields of tables

A table gives a value to a field if exactly one of its entries has the field's name. A text in JSON
that begins with a brace stands for a table, or for nothing.
-/

namespace Shepherd.Data
open Text

/-! ### Numbers -/

theorem Tree.int32?_eq_some_iff {t : Tree} {n : Int} :
    t.int32? = some n ↔ t = .integer n ∧ -0x80000000 ≤ n ∧ n < 0x80000000 := by
  cases t with
  | integer k =>
    rw [int32?, Option.ite_none_right_eq_some, Tree.integer.injEq, Option.some.injEq, and_comm,
      ← fitsInt32_iff]
    exact and_congr_right fun h => h ▸ Iff.rfl
  | _ => simp [int32?]

theorem Tree.uint32?_eq_some_iff {t : Tree} {w : UInt32} :
    t.uint32? = some w ↔ t = .integer w.toNat := by
  cases t with
  | integer n =>
    rw [uint32?, Option.ite_none_right_eq_some, Tree.integer.injEq, Option.some.injEq]
    constructor
    · rintro ⟨⟨hlow, hhigh⟩, rfl⟩
      rw [UInt32.toNat_ofNat_of_lt' (by omega), Int.toNat_of_nonneg hlow]
    · rintro rfl
      have hhigh := w.toNat_lt_size
      exact ⟨⟨Int.natCast_nonneg _, by exact_mod_cast hhigh⟩, by
        rw [Int.toNat_natCast, UInt32.ofNat_toNat]⟩
  | _ => simp [uint32?]

/-! ### Tables -/

/-- Of all entries, exactly one has the given name, and it has the given value. -/
def Only (entries : List (String × Tree)) (name : String) (value : Tree) : Prop :=
  entries.filter (·.1 == name) = [(name, value)]

theorem only_iff {entries : List (String × Tree)} {name : String} {value : Tree} :
    Only entries name value ↔
      (entries.filter (·.1 == name)).length ≤ 1 ∧ (Tree.table entries).get? name = some value := by
  have hnames : ∀ entry ∈ entries.filter (·.1 == name), entry.1 = name := fun entry h =>
    beq_iff_eq.1 (List.mem_filter.1 h).2
  rw [Only, Tree.get?, ← List.head?_filter]
  generalize entries.filter (·.1 == name) = found at *
  match found with
  | [] => simp
  | [(key, v)] =>
    obtain rfl : key = name := hnames (key, v) (List.mem_singleton_self _)
    simp
  | _ :: _ :: _ => simp

/-- All of some fields have a value in a table exactly if each has one entry. -/
theorem Shape.fields_table_iff (shape : Shape) {names : List String}
    {entries : List (String × Tree)} {values : List Tree} :
    shape.fields names (.table entries) = some (values.map some) ↔
      List.Forall₂ (Only entries) names values := by
  rw [fields, Option.ite_none_right_eq_some, Option.some.injEq, List.all_eq_true]
  induction names generalizing values with
  | nil => cases values <;> simp
  | cons name names ih =>
    cases values with
    | nil => simp
    | cons value values =>
      rw [List.forall₂_cons, ← ih, only_iff, List.forall_mem_cons, List.map_cons, List.map_cons,
        List.cons.injEq, decide_eq_true_iff, and_and_and_comm]

/-- Where no key comes twice, an entry is the only one with its name. -/
theorem only_of_mem {entries : List (String × Tree)} {name : String} {value : Tree}
    (nodup : (entries.map (·.1)).Nodup) (h : (name, value) ∈ entries) :
    Only entries name value := by
  induction entries with
  | nil => cases h
  | cons entry entries ih =>
    rw [List.map_cons, List.nodup_cons] at nodup
    rw [Only, List.filter_cons]
    rcases List.mem_cons.1 h with rfl | h
    · have hothers : entries.filter (·.1 == name) = [] := by
        rw [List.filter_eq_nil_iff]
        intro other hother hname
        exact nodup.1 (List.mem_map.2 ⟨other, hother, beq_iff_eq.1 hname⟩)
      rw [if_pos (beq_self_eq_true name), hothers]
    · have hne : entry.1 ≠ name := fun heq => nodup.1 (heq ▸ List.mem_map_of_mem h)
      rw [if_neg fun hname => hne (beq_iff_eq.1 hname)]
      exact ih nodup.2 h

/-- A table of all fields, each written once, gives every field its value. -/
theorem Shape.fields_zip (shape : Shape) (names : List String) (values : List Tree)
    (nodup : names.Nodup) (hlength : names.length = values.length) :
    shape.fields names (.table (names.zip values)) = some (values.map some) := by
  rw [fields_table_iff, List.forall₂_iff_zip]
  refine ⟨hlength, fun hmem => only_of_mem ?_ hmem⟩
  rwa [List.map_fst_zip (Nat.le_of_eq hlength)]

/-! ### Tables in JSON -/

namespace Json

theorem tableOf_cases (entries : List (Option String × Tree)) :
    (∃ entries', tableOf entries = .table entries') ∨ tableOf entries = .invalid := by
  unfold tableOf
  split
  · exact .inl ⟨_, rfl⟩
  · exact .inr rfl

/-- Behind a brace only a table is read. -/
theorem value_of_brace {fuel : Nat} {cs rest : List Char} {t : Tree}
    (h : value fuel ('{' :: cs) = some (t, rest)) :
    (∃ entries, t = .table entries) ∨ t = .invalid := by
  cases fuel with
  | zero => cases h
  | succ fuel =>
    rw [value] at h
    obtain ⟨_, _, hpeek, h⟩ := Scan.bind_eq_some_iff.1 h
    cases hpeek
    -- behind the brace and blanks, what comes next tells whether there are entries
    obtain ⟨_, _, -, h⟩ := Scan.bind_eq_some_iff.1 h
    obtain ⟨_, _, -, h⟩ := Scan.bind_eq_some_iff.1 h
    obtain ⟨next, _, -, h⟩ := Scan.bind_eq_some_iff.1 h
    split at h
    · obtain ⟨_, _, -, h⟩ := Scan.bind_eq_some_iff.1 h
      cases h
      exact .inl ⟨_, rfl⟩
    · obtain ⟨entries, _, -, h⟩ := Scan.bind_eq_some_iff.1 h
      cases h
      exact tableOf_cases entries

theorem skipBlank_brace (cs : List Char) : skipBlank ('{' :: cs) = some ((), '{' :: cs) := rfl

/-- A text that begins with a brace stands for a table, or for nothing. -/
theorem read?_of_brace {text : List Char} {t : Tree} (hbrace : text.head? = some '{')
    (hread : read? (String.ofList text) = some t) :
    (∃ entries, t = .table entries) ∨ t = .invalid := by
  obtain ⟨cs, rfl⟩ := List.head?_eq_some_iff.1 hbrace
  rw [read?, String.toList_ofList] at hread
  obtain ⟨_, hread⟩ := Scan.exists_of_readAll? hread
  obtain ⟨_, _, hread, -⟩ := Scan.seqLeft_eq_some_iff.1 hread
  obtain ⟨_, _, hblank, hread⟩ := Scan.seqRight_eq_some_iff.1 hread
  rw [skipBlank_brace] at hblank
  cases hblank
  exact value_of_brace hread

end Json

end Shepherd.Data
