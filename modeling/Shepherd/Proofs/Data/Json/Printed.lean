import Shepherd.Proofs.Data.Json.Scalar

/-!
# Printed JSON read back

What is printed of a tree reads as that tree, for every tree that JSON has a notation for: whole
numbers of at most 64 bits, truth values, null, texts of any characters, lists and tables of any
depth. Each value ends the text or stands before a comma or a new line, and there its reader stops.
-/

namespace Shepherd.Data.Json
open Text Scan

/-- Trees that are printed without a loss. -/
inductive Plain : Tree → Prop
  | null : Plain .null
  | bool (b : Bool) : Plain (.bool b)
  | integer {n : Int} (h : n.natAbs < UInt64.size) : Plain (.integer n)
  | text (s : String) : Plain (.text s)
  | list {items : List Tree} (h : ∀ item ∈ items, Plain item) : Plain (.list items)
  | table {entries : List (String × Tree)} (h : ∀ entry ∈ entries, Plain entry.2) :
    Plain (.table entries)

variable {cs rest : List Char} {level fuel : Nat} {t item : Tree} {items : List Tree}
  {key : String} {entries : List (String × Tree)}

/-! ### Printed lists and tables -/

/-- What is printed of a list behind its first item. -/
def itemsEnd (level : Nat) (items : List Tree) : List Char :=
  (prettyItems (level + 1) items).toList ++ (newLine level).toList ++ [']']

/-- An entry of a table as it is printed. -/
def entryText (level : Nat) (key : String) (item : Tree) : List Char :=
  (literal key).toList ++ ':' :: ' ' :: (pretty level item).toList

/-- What is printed of a table behind its first entry. -/
def entriesEnd (level : Nat) (entries : List (String × Tree)) : List Char :=
  (prettyEntries (level + 1) entries).toList ++ (newLine level).toList ++ ['}']

theorem toList_pretty_list (level : Nat) (item : Tree) (items : List Tree) :
    (pretty level (.list (item :: items))).toList =
      '[' :: ((newLine (level + 1)).toList ++
        ((pretty (level + 1) item).toList ++ itemsEnd level items)) := by
  simp only [pretty, itemsEnd, String.toList_append, List.append_assoc]
  rfl

theorem itemsEnd_nil (level : Nat) : itemsEnd level [] = (newLine level).toList ++ [']'] := by
  rw [itemsEnd, prettyItems, String.toList_empty, List.nil_append]

theorem itemsEnd_cons (level : Nat) (item : Tree) (items : List Tree) :
    itemsEnd level (item :: items) =
      ',' :: ((newLine (level + 1)).toList ++
        ((pretty (level + 1) item).toList ++ itemsEnd level items)) := by
  simp only [prettyItems, itemsEnd, String.toList_append, List.append_assoc]
  rfl

theorem toList_pretty_table (level : Nat) (key : String) (item : Tree)
    (entries : List (String × Tree)) :
    (pretty level (.table ((key, item) :: entries))).toList =
      '{' :: ((newLine (level + 1)).toList ++
        (entryText (level + 1) key item ++ entriesEnd level entries)) := by
  simp only [pretty, entryText, entriesEnd, String.toList_append, List.append_assoc]
  rfl

theorem entriesEnd_nil (level : Nat) :
    entriesEnd level [] = (newLine level).toList ++ ['}'] := by
  rw [entriesEnd, prettyEntries, String.toList_empty, List.nil_append]

theorem entriesEnd_cons (level : Nat) (key : String) (item : Tree)
    (entries : List (String × Tree)) :
    entriesEnd level ((key, item) :: entries) =
      ',' :: ((newLine (level + 1)).toList ++
        (entryText (level + 1) key item ++ entriesEnd level entries)) := by
  simp only [prettyEntries, entryText, entriesEnd, String.toList_append, List.append_assoc]
  rfl

theorem apart_comma (cs : List Char) : Apart (',' :: cs) := by
  rintro _ ⟨⟩
  exact .inl rfl

theorem apart_newLine (level : Nat) (cs : List Char) : Apart ((newLine level).toList ++ cs) := by
  rw [newLine, String.toList_append]
  rintro _ ⟨⟩
  exact .inr rfl

theorem apart_itemsEnd (level : Nat) (items : List Tree) (rest : List Char) :
    Apart (itemsEnd level items ++ rest) := by
  cases items with
  | nil =>
    rw [itemsEnd_nil, List.append_assoc]
    exact apart_newLine level _
  | cons item items =>
    rw [itemsEnd_cons]
    exact apart_comma _

theorem apart_entriesEnd (level : Nat) (entries : List (String × Tree)) (rest : List Char) :
    Apart (entriesEnd level entries ++ rest) := by
  cases entries with
  | nil =>
    rw [entriesEnd_nil, List.append_assoc]
    exact apart_newLine level _
  | cons entry entries =>
    rw [entriesEnd_cons]
    exact apart_comma _

/-- The first character of a printed tree is none that the reader skips or ends a list at. -/
theorem Plain.exists_eq_cons (h : Plain t) (level : Nat) :
    ∃ c cs, (pretty level t).toList = c :: cs ∧ isBlank c = false ∧ c ≠ ']' := by
  cases h with
  | null => exact ⟨'n', _, by rw [pretty]; rfl, by decide, by decide⟩
  | bool b =>
    cases b
    · exact ⟨'f', _, by rw [pretty]; rfl, by decide, by decide⟩
    · exact ⟨'t', _, by rw [pretty]; rfl, by decide, by decide⟩
  | @integer n h =>
    rw [pretty]
    obtain ⟨c, cs, hcons, hc⟩ := exists_toString_eq_cons n
    refine ⟨c, cs, hcons, ?_, ?_⟩
    · obtain rfl | hdigit := hc
      · decide
      · exact isBlank_of_isDigit hdigit
    · rintro rfl
      obtain hc | hc := hc <;> cases hc
  | text s => exact ⟨'"', _, by rw [pretty, toList_literal], by decide, by decide⟩
  | @list items h =>
    cases items with
    | nil => exact ⟨'[', _, by rw [pretty]; rfl, by decide, by decide⟩
    | cons item items => exact ⟨'[', _, toList_pretty_list .., by decide, by decide⟩
  | @table entries h =>
    cases entries with
    | nil => exact ⟨'{', _, by rw [pretty]; rfl, by decide, by decide⟩
    | cons entry entries => exact ⟨'{', _, toList_pretty_table .., by decide, by decide⟩

theorem Plain.opens_append (h : Plain t) (level : Nat) (cs : List Char) :
    Opens ((pretty level t).toList ++ cs) := by
  obtain ⟨c, cs', hcons, hvisible, -⟩ := h.exists_eq_cons level
  rw [hcons]
  exact opens_cons hvisible _

/-! ### Values -/

/-- A tree is read back where it stands apart from what follows, in as many steps as it has
characters. -/
def ReadsBack (t : Tree) : Prop :=
  ∀ level fuel rest, (pretty level t).toList.length ≤ fuel → Apart rest →
    value fuel ((pretty level t).toList ++ rest) = some (t, rest)

/-- Behind the last item or entry, what closes the list or table is next. -/
theorem separator_none {β : Type} {next : Option Unit → Scan β} {close : Char}
    (hvisible : isBlank close = false) (hclose : close ≠ ',') (level : Nat) (rest : List Char) :
    (skipBlank >>= fun _ => attempt (Scan.char ',') >>= next)
      ((newLine level).toList ++ close :: rest) = next none (close :: rest) := by
  have hcomma : ∀ c ∈ (close :: rest).head?, (c == ',') = false := by
    rintro _ ⟨⟩
    exact beq_eq_false_iff_ne.2 hclose
  rw [bind_of_eq (skipBlank_newLine level _ (opens_cons hvisible rest)),
    bind_of_eq (attempt_of_none (char_of_head? hcomma))]

/-- Behind any other, a comma is next. -/
theorem separator_some {β : Type} {next : Option Unit → Scan β} (cs : List Char) :
    (skipBlank >>= fun _ => attempt (Scan.char ',') >>= next) (',' :: cs) = next (some ()) cs := by
  rw [bind_of_eq (skipBlank_of_opens (opens_cons rfl cs)),
    bind_of_eq (attempt_of_some (char_cons ',' cs))]

/-- The items of a list are read back up to its closing bracket. -/
theorem elements_printed (h : ∀ t ∈ item :: items, Plain t ∧ ReadsBack t) (level fuel : Nat)
    (done : List Tree)
    (hfuel : ((pretty (level + 1) item).toList ++ itemsEnd level items).length ≤ fuel)
    (rest : List Char) :
    elements fuel done ((pretty (level + 1) item).toList ++ (itemsEnd level items ++ rest)) =
      some (done.reverse ++ item :: items, rest) := by
  induction items generalizing item done fuel with
  | nil =>
    rw [itemsEnd_nil] at hfuel
    simp only [List.length_append, List.length_cons] at hfuel
    obtain ⟨fuel, rfl⟩ : ∃ k, fuel = k + 1 := ⟨fuel - 1, by omega⟩
    have hitem := (h item List.mem_cons_self).2 (level + 1) fuel _ (by omega)
      (apart_itemsEnd level [] rest)
    rw [elements, bind_of_eq hitem, itemsEnd_nil, List.append_assoc, List.singleton_append,
      separator_none rfl (by decide), if_neg nofun, bind_of_eq (char_cons ']' rest),
      List.reverse_cons]
    rfl
  | cons next items ih =>
    rw [itemsEnd_cons] at hfuel
    simp only [List.length_append, List.length_cons] at hfuel
    obtain ⟨fuel, rfl⟩ : ∃ k, fuel = k + 1 := ⟨fuel - 1, by omega⟩
    have hitem := (h item List.mem_cons_self).2 (level + 1) fuel _ (by omega)
      (apart_itemsEnd level (next :: items) rest)
    have hnext := (h next (List.mem_cons_of_mem _ List.mem_cons_self)).1
    have hitems := ih (fun t ht => h t (List.mem_cons_of_mem _ ht)) fuel (item :: done)
      (by rw [List.length_append]; omega)
    rw [elements, bind_of_eq hitem, itemsEnd_cons, List.cons_append, List.append_assoc,
      List.append_assoc, separator_some, if_pos Option.isSome_some,
      bind_of_eq (skipBlank_newLine _ _ (hnext.opens_append _ _)), hitems, List.reverse_cons,
      List.append_assoc, List.singleton_append]

theorem entryText_append (level : Nat) (key : String) (item : Tree) (cs : List Char) :
    entryText level key item ++ cs =
      '"' :: (key.toList.flatMap escape ++
        '"' :: ':' :: ([' '] ++ ((pretty level item).toList ++ cs))) := by
  simp only [entryText, toList_literal, List.append_assoc, List.cons_append, List.nil_append]

theorem opens_entryText (level : Nat) (key : String) (item : Tree) (cs : List Char) :
    Opens (entryText level key item ++ cs) := by
  rw [entryText_append]
  exact opens_cons rfl _

/-- An entry is read back, and then what is behind it decides. -/
theorem members_entry (hplain : Plain item)
    (hitem : value fuel ((pretty level item).toList ++ cs) = some (item, cs)) (key : String)
    (done : List (Option String × Tree)) :
    members (fuel + 1) done (entryText level key item ++ cs) =
      (do
        skipBlank
        if (← Scan.attempt (Scan.char ',')).isSome then
          skipBlank
          members fuel ((some key, item) :: done)
        else
          Scan.char '}'
          return ((some key, item) :: done).reverse : Scan (List (Option String × Tree))) cs := by
  have hcolon (cs : List Char) : skipBlank (':' :: cs) = some ((), ':' :: cs) :=
    skipBlank_of_opens (opens_cons rfl _)
  have hspace := skipBlank_append [' '] (List.forall_mem_singleton.2 (.inl rfl))
    (hplain.opens_append level cs)
  rw [entryText_append, members, bind_of_eq (char_cons '"' _), bind_of_eq (string_literal key _),
    bind_of_eq (hcolon _), bind_of_eq (char_cons ':' _), bind_of_eq hspace, bind_of_eq hitem]

/-- The entries of a table are read back up to its closing brace. -/
theorem members_printed (h : ∀ entry ∈ (key, item) :: entries, Plain entry.2 ∧ ReadsBack entry.2)
    (level fuel : Nat) (done : List (Option String × Tree))
    (hfuel : (entryText (level + 1) key item ++ entriesEnd level entries).length ≤ fuel)
    (rest : List Char) :
    members fuel done (entryText (level + 1) key item ++ (entriesEnd level entries ++ rest)) =
      some (done.reverse ++ (some key, item) :: entries.map fun entry => (some entry.1, entry.2),
        rest) := by
  induction entries generalizing key item done fuel with
  | nil =>
    rw [entriesEnd_nil, entryText] at hfuel
    simp only [List.length_append, List.length_cons] at hfuel
    obtain ⟨fuel, rfl⟩ : ∃ k, fuel = k + 1 := ⟨fuel - 1, by omega⟩
    obtain ⟨hplain, hreads⟩ : Plain item ∧ ReadsBack item := h (key, item) List.mem_cons_self
    have hitem := hreads (level + 1) fuel _ (by omega) (apart_entriesEnd level [] rest)
    rw [members_entry hplain hitem, entriesEnd_nil, List.append_assoc, List.singleton_append,
      separator_none rfl (by decide), if_neg nofun, bind_of_eq (char_cons '}' rest),
      List.reverse_cons]
    rfl
  | cons next entries ih =>
    obtain ⟨nextKey, nextItem⟩ := next
    rw [entriesEnd_cons, entryText] at hfuel
    simp only [List.length_append, List.length_cons] at hfuel
    obtain ⟨fuel, rfl⟩ : ∃ k, fuel = k + 1 := ⟨fuel - 1, by omega⟩
    obtain ⟨hplain, hreads⟩ : Plain item ∧ ReadsBack item := h (key, item) List.mem_cons_self
    have hitem := hreads (level + 1) fuel _ (by omega)
      (apart_entriesEnd level ((nextKey, nextItem) :: entries) rest)
    have hentries := ih (fun t ht => h t (List.mem_cons_of_mem _ ht)) fuel
      ((some key, item) :: done) (by rw [List.length_append]; omega)
    rw [members_entry hplain hitem, entriesEnd_cons, List.cons_append, List.append_assoc,
      List.append_assoc, separator_some, if_pos Option.isSome_some,
      bind_of_eq (skipBlank_newLine _ _ (opens_entryText _ _ _ _)), hentries, List.reverse_cons,
      List.append_assoc, List.singleton_append, List.map_cons]

/-- A printed tree is not empty, so a step is there for it. -/
theorem ReadsBack.of_succ (h : Plain t)
    (hsucc : ∀ level fuel rest, (pretty level t).toList.length ≤ fuel + 1 → Apart rest →
      value (fuel + 1) ((pretty level t).toList ++ rest) = some (t, rest)) : ReadsBack t := by
  intro level fuel rest hfuel hrest
  obtain ⟨c, cs, hcons, -⟩ := h.exists_eq_cons level
  cases fuel with
  | zero =>
    rw [hcons] at hfuel
    cases hfuel
  | succ fuel => exact hsucc level fuel rest hfuel hrest

theorem value_number {c : Char} (hc : c = '-' ∨ c.isDigit = true) :
    value (fuel + 1) (c :: cs) = number (c :: cs) := by
  rw [value, bind_of_eq (peek_cons c cs)]
  -- a number begins with none of the characters that other values begin with
  obtain rfl | hdigit := hc
  · rfl
  · refine congrFun ?_ (c :: cs)
    split
    case h_7 => rfl
    all_goals
      next heq =>
        cases heq
        cases hdigit

theorem value_quote (s : String) (rest : List Char) :
    value (fuel + 1) ((literal s).toList ++ rest) = some (.text s, rest) := by
  rw [toList_literal, List.cons_append, List.append_assoc, List.singleton_append, value,
    bind_of_eq (peek_cons '"' _)]
  simp only
  rw [bind_of_eq (char_cons '"' _), bind_of_eq (string_literal s rest)]
  rfl

theorem value_bracket (hplain : Plain item)
    (hitems : elements fuel [] ((pretty (level + 1) item).toList ++ cs) = some (items, rest)) :
    value (fuel + 1) ('[' :: ((newLine (level + 1)).toList ++
      ((pretty (level + 1) item).toList ++ cs))) = some (.list items, rest) := by
  have hblank := skipBlank_newLine (level + 1) _ (hplain.opens_append (level + 1) cs)
  obtain ⟨c, cs', hcons, -, hbracket⟩ := hplain.exists_eq_cons (level + 1)
  have hpeek : peek ((pretty (level + 1) item).toList ++ cs) =
      some (some c, (pretty (level + 1) item).toList ++ cs) := by
    rw [hcons]
    rfl
  rw [value, bind_of_eq (peek_cons '[' _)]
  simp only
  rw [bind_of_eq (char_cons '[' _), bind_of_eq hblank, bind_of_eq hpeek,
    if_neg fun h => hbracket (Option.some.inj h), bind_of_eq hitems]
  rfl

theorem tableOf_map (entries : List (String × Tree)) :
    tableOf (entries.map fun entry => (some entry.1, entry.2)) = .table entries := by
  rw [tableOf, if_pos, List.map_map]
  · exact congrArg Tree.table (List.map_id entries)
  · rw [List.all_map, List.all_eq_true]
    exact fun _ _ => rfl

theorem value_brace (hentries : members fuel [] (entryText (level + 1) key item ++ cs) =
      some (entries.map fun entry => (some entry.1, entry.2), rest)) :
    value (fuel + 1) ('{' :: ((newLine (level + 1)).toList ++
      (entryText (level + 1) key item ++ cs))) = some (.table entries, rest) := by
  have hblank := skipBlank_newLine (level + 1) _ (opens_entryText (level + 1) key item cs)
  have hpeek : peek (entryText (level + 1) key item ++ cs) =
      some (some '"', entryText (level + 1) key item ++ cs) := by
    rw [entryText_append]
    rfl
  rw [value, bind_of_eq (peek_cons '{' _)]
  simp only
  rw [bind_of_eq (char_cons '{' _), bind_of_eq hblank, bind_of_eq hpeek, if_neg (by decide),
    bind_of_eq hentries, tableOf_map]
  rfl

/-- A printed tree is read back. -/
theorem Plain.readsBack (h : Plain t) : ReadsBack t := by
  induction h with
  | null =>
    refine .of_succ .null fun level fuel rest _ _ => ?_
    rw [pretty]
    rfl
  | bool b =>
    refine .of_succ (.bool b) fun level fuel rest _ _ => ?_
    rw [pretty]
    cases b <;> rfl
  | @integer n h =>
    refine .of_succ (.integer h) fun level fuel rest _ hrest => ?_
    have hnumber := number_toString h hrest
    obtain ⟨c, cs, hcons, hc⟩ := exists_toString_eq_cons n
    rw [pretty, hcons, List.cons_append, value_number hc, ← List.cons_append, ← hcons, hnumber]
  | text s =>
    refine .of_succ (.text s) fun level fuel rest _ _ => ?_
    rw [pretty, value_quote]
  | @list items h ih =>
    refine .of_succ (.list h) fun level fuel rest hfuel _ => ?_
    cases items with
    | nil =>
      rw [pretty]
      rfl
    | cons item items =>
      rw [toList_pretty_list] at hfuel ⊢
      simp only [List.length_append, List.length_cons] at hfuel
      have hitems := elements_printed (fun t ht => ⟨h t ht, ih t ht⟩) level fuel []
        (by rw [List.length_append]; omega) rest
      rw [List.cons_append, List.append_assoc, List.append_assoc,
        value_bracket (h item List.mem_cons_self) hitems]
      rfl
  | @table entries h ih =>
    refine .of_succ (.table h) fun level fuel rest hfuel _ => ?_
    cases entries with
    | nil =>
      rw [pretty]
      rfl
    | cons entry entries =>
      obtain ⟨key, item⟩ := entry
      rw [toList_pretty_table] at hfuel ⊢
      simp only [List.length_append, List.length_cons] at hfuel
      have hentries := members_printed (fun e he => ⟨h e he, ih e he⟩) level fuel []
        (by rw [List.length_append]; omega) rest
      rw [List.cons_append, List.append_assoc, List.append_assoc]
      exact value_brace hentries

/-- **What is printed is read back.** A tree that JSON has a notation for is the value of its own
text, printed at any depth. -/
theorem read?_pretty (h : Plain t) (level : Nat) : read? (pretty level t) = some t := by
  have hvalue := h.readsBack level (2 * (pretty level t).toList.length + 2) [] (by omega) nofun
  have hblank := skipBlank_of_opens (h.opens_append level [])
  rw [List.append_nil] at hvalue hblank
  have hfront : (skipBlank *> value (2 * (pretty level t).toList.length + 2) <* skipBlank)
      (pretty level t).toList = some (t, []) :=
    seqLeft_eq_some_iff.2 ⟨[], (), seqRight_eq_some_iff.2 ⟨(), _, hblank, hvalue⟩, rfl⟩
  have hwhole : (skipBlank *> value (2 * (pretty level t).toList.length + 2) <* skipBlank <* finish)
      (pretty level t).toList = some (t, []) :=
    seqLeft_eq_some_iff.2 ⟨[], (), hfront, rfl⟩
  rw [read?, readAll?, hwhole]
  rfl

end Shepherd.Data.Json
