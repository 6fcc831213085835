import Shepherd.Proofs.Data.Fields
import Shepherd.Proofs.Runner.Phases
import Shepherd.Proofs.Sandbox.Memory

/-!
# Answers

What comes of the packed text that a guest's execution returned. If it tells a record and all three
texts of the record can be read, the record is the outcome, as a whole. If not, the text is handed
back as it is, and if not even the text can be read, the reason is. Nothing else can come of it: no
outcome is partly a record, and only a record can be a success.
-/

namespace Shepherd.Host
open Data Sandbox Text

variable {γ : Type}

/-! ### Records in texts -/

namespace Record
variable {r : Record} {entries : List (String × Tree)} {text : List Char}

/-- How an extent is written in a record. -/
def written (e : Extent) : Tree := .list [.integer e.ptr.toNat, .integer e.len.toNat]

theorem extent?_eq_some_iff {t : Tree} {e : Extent} : extent? t = some e ↔ t = written e := by
  constructor
  · intro h
    unfold extent? at h
    split at h
    next ptr len =>
      obtain ⟨p, hptr, h⟩ := Option.bind_eq_some_iff.1 h
      obtain ⟨l, hlen, h⟩ := Option.bind_eq_some_iff.1 h
      cases h
      rw [Tree.uint32?_eq_some_iff.1 hptr, Tree.uint32?_eq_some_iff.1 hlen, written]
    next => cases h
  · rintro rfl
    rw [written, extent?, Tree.uint32?_eq_some_iff.2 rfl, Tree.uint32?_eq_some_iff.2 rfl]
    rfl

/-- The entries of a table spell a record: each of its fields has exactly one entry, with a value of
the right kind and range. What other entries there are does not matter. -/
structure Spelled (r : Record) (entries : List (String × Tree)) : Prop where
  exitCode : Only entries "exitCode" (.integer r.exitCode)
  range : -0x80000000 ≤ r.exitCode ∧ r.exitCode < 0x80000000
  stdout : Only entries "stdout" (written r.stdout)
  stderr : Only entries "stderr" (written r.stderr)
  trace : Only entries "trace" (written r.trace)

theorem ofTree?_table_iff : ofTree? (.table entries) = some r ↔ r.Spelled entries := by
  constructor
  · intro h
    obtain ⟨values, hfields, h⟩ := Option.bind_eq_some_iff.1 h
    split at h
    next exitCode stdout stderr trace =>
      have hvalues : Shape.json.fields ["exitCode", "stdout", "stderr", "trace"] (.table entries) =
          some ([exitCode, stdout, stderr, trace].map some) := hfields
      have honly := (Shape.fields_table_iff .json).1 hvalues
      simp only [List.forall₂_cons, List.forall₂_nil_left_iff, and_true] at honly
      obtain ⟨hexitCode, hstdout, hstderr, htrace⟩ := honly
      obtain ⟨n, hn, h⟩ := Option.bind_eq_some_iff.1 h
      obtain ⟨out, hout, h⟩ := Option.bind_eq_some_iff.1 h
      obtain ⟨err, herr, h⟩ := Option.bind_eq_some_iff.1 h
      obtain ⟨tr, htr, h⟩ := Option.bind_eq_some_iff.1 h
      cases h
      obtain ⟨rfl, hrange⟩ := Tree.int32?_eq_some_iff.1 hn
      rw [extent?_eq_some_iff] at hout herr htr
      exact ⟨hexitCode, hrange, hout ▸ hstdout, herr ▸ hstderr, htr ▸ htrace⟩
    next => cases h
  · intro h
    have hfields : Shape.json.fields ["exitCode", "stdout", "stderr", "trace"] (.table entries) =
        some ([.integer r.exitCode, written r.stdout, written r.stderr,
          written r.trace].map some) :=
      (Shape.fields_table_iff .json).2
        (.cons h.exitCode (.cons h.stdout (.cons h.stderr (.cons h.trace .nil))))
    rw [ofTree?, hfields]
    simp only [List.map_cons, List.map_nil, Option.bind_eq_bind, Option.bind_some,
      Tree.int32?_eq_some_iff.2 ⟨rfl, h.range⟩, extent?_eq_some_iff.2 rfl]
    rfl

/-- A text tells a record: it begins with a brace, and is a table in JSON that spells the record. -/
def Told (r : Record) (text : List Char) : Prop :=
  text.head? = some '{' ∧
    ∃ entries, Json.read? (String.ofList text) = some (.table entries) ∧ r.Spelled entries

theorem ofText?_eq_some_iff : ofText? text = some r ↔ r.Told text := by
  rw [ofText?, Option.ite_none_right_eq_some, Told]
  refine and_congr_right fun hbrace => ?_
  rw [Option.bind_eq_some_iff]
  constructor
  · rintro ⟨t, hread, ht⟩
    obtain ⟨entries, rfl⟩ | rfl := Json.read?_of_brace hbrace hread
    · exact ⟨entries, hread, ofTree?_table_iff.1 ht⟩
    · cases ht
  · rintro ⟨entries, hread, hspelled⟩
    exact ⟨_, hread, ofTree?_table_iff.2 hspelled⟩

/-- An outcome is that of a record, with all three texts read from the memory. -/
structure Gives (r : Record) (m : Memory) (o : Outcome) : Prop where
  exitCode : o.exitCode = r.exitCode
  stdout : m.readText r.stdout = .ok o.stdout
  stderr : m.readText r.stderr = .ok o.stderr
  trace : m.readText r.trace = .ok o.trace

theorem outcome?_eq_some_iff {m : Memory} {o : Outcome} : r.outcome? m = some o ↔ r.Gives m o := by
  unfold outcome?
  constructor
  · intro h
    split at h
    next hstdout hstderr htrace =>
      cases h
      exact ⟨rfl, hstdout, hstderr, htrace⟩
    next => cases h
  · rintro ⟨hexitCode, hstdout, hstderr, htrace⟩
    rw [hstdout, hstderr, htrace, ← hexitCode]

/-- A record gives an outcome if all its texts can be read. -/
theorem exists_gives_iff {m : Memory} :
    (∃ o, r.Gives m o) ↔ m.Readable r.stdout ∧ m.Readable r.stderr ∧ m.Readable r.trace := by
  simp only [← Memory.exists_readText_iff]
  constructor
  · rintro ⟨o, -, hstdout, hstderr, htrace⟩
    exact ⟨⟨_, hstdout⟩, ⟨_, hstderr⟩, ⟨_, htrace⟩⟩
  · rintro ⟨⟨stdout, hstdout⟩, ⟨stderr, hstderr⟩, ⟨trace, htrace⟩⟩
    exact ⟨⟨r.exitCode, stdout, stderr, trace⟩, rfl, hstdout, hstderr, htrace⟩

end Record

/-! ### Outcomes of answers -/

/-- A text tells a record, and the outcome is the one that the record gives. -/
def Taken (m : Memory) (text : List Char) (o : Outcome) : Prop :=
  ∃ r : Record, r.Told text ∧ r.Gives m o

/-- What a packed answer comes to. -/
structure Answered (m : Memory) (packed : UInt32) (o : Outcome) : Prop where
  /-- Where no text can be read, nothing but the reason is reported. -/
  unreadable : ∀ e, m.readPacked packed = .error e →
    o = ⟨-1, [], ("guest memory error: " ++ e.message).toList, []⟩
  /-- A record is taken exactly if the text tells one whose texts can all be read. -/
  taken_iff : ∀ text, m.readPacked packed = .ok text → (Taken m text o ↔
    ∃ r : Record, r.Told text ∧ m.Readable r.stdout ∧ m.Readable r.stderr ∧ m.Readable r.trace)
  /-- Every other text is handed back as it is. -/
  raw : ∀ text, m.readPacked packed = .ok text → ¬ Taken m text o → o = ⟨-1, text, [], []⟩
  /-- Only a record can be a success. -/
  succeeded : o.succeeded = true → ∃ text, m.readPacked packed = .ok text ∧ Taken m text o

section
variable {m : Memory} {packed : UInt32} {text : List Char} {o : Outcome}

theorem taken_iff_bind : Taken m text o ↔ (Record.ofText? text).bind (·.outcome? m) = some o := by
  simp only [Taken, Option.bind_eq_some_iff, Record.ofText?_eq_some_iff,
    Record.outcome?_eq_some_iff]

theorem exists_taken_iff :
    (∃ o, Taken m text o) ↔
      ∃ r : Record, r.Told text ∧ m.Readable r.stdout ∧ m.Readable r.stderr ∧
        m.Readable r.trace := by
  simp only [Taken, ← Record.exists_gives_iff]
  rw [exists_comm]
  simp only [exists_and_left]

/-- An outcome with exit code -1 is no success. -/
theorem not_succeeded (h : o.exitCode = -1) : ¬ o.succeeded = true := by
  rw [Outcome.succeeded, h]
  exact nofun

theorem answered_of_error {e : MemoryError} (hread : m.readPacked packed = .error e) :
    Answered m packed (.failure (HostError.memory e).message.toList) where
  unreadable e' h := by
    cases hread.symm.trans h
    rfl
  taken_iff text h := by cases hread.symm.trans h
  raw text h := by cases hread.symm.trans h
  succeeded h := absurd h (not_succeeded rfl)

theorem answered_of_taken (hread : m.readPacked packed = .ok text) (h : Taken m text o) :
    Answered m packed o where
  unreadable e herror := by cases hread.symm.trans herror
  taken_iff text' hread' := by
    cases hread.symm.trans hread'
    rw [← exists_taken_iff]
    exact ⟨fun _ => ⟨o, h⟩, fun _ => h⟩
  raw text' hread' hnot := by
    cases hread.symm.trans hread'
    exact absurd h hnot
  succeeded _ := ⟨text, hread, h⟩

theorem answered_of_not_taken (hread : m.readPacked packed = .ok text)
    (h : ∀ o, ¬ Taken m text o) : Answered m packed (.raw text) where
  unreadable e herror := by cases hread.symm.trans herror
  taken_iff text' hread' := by
    cases hread.symm.trans hread'
    rw [← exists_taken_iff]
    exact ⟨fun htaken => ⟨_, htaken⟩, fun ⟨o, htaken⟩ => absurd htaken (h o)⟩
  raw text' hread' _ := by
    cases hread.symm.trans hread'
    rfl
  succeeded h := absurd h (not_succeeded rfl)

end

/-- What a guest answered is taken as a whole or not at all. -/
theorem Instance.outcome_answered (i : Instance γ) (packed : UInt32) :
    Answered i.image.memory packed (i.outcome packed) := by
  unfold outcome
  split
  next text hread =>
    rw [Outcome.ofAnswer]
    cases htaken : (Record.ofText? text).bind (·.outcome? i.image.memory) with
    | some o => exact answered_of_taken hread (taken_iff_bind.2 htaken)
    | none =>
      refine answered_of_not_taken hread fun o ho => ?_
      cases htaken.symm.trans (taken_iff_bind.1 ho)
  next e hread => exact answered_of_error hread

namespace Runner
variable {r : Runner γ} {i after : Instance γ} {tainted : Bool} {name source : List Char}
  {packed : UInt32}

/-- The runner that a script is executed on: started anew where that is needed. -/
def prepared (r : Runner γ) : Runner γ := if r.needsRestart then r.restart.2 else r

theorem restart_rest (r : Runner γ) : r.restart.2 = { r with state := r.restart.2.state } := by
  unfold restart
  cases Instance.boot r.config r.guest <;> rfl

theorem prepared_rest (r : Runner γ) : r.prepared = { r with state := r.prepared.state } := by
  unfold prepared
  split
  · exact r.restart_rest
  · rfl

theorem execute_eq_executeHere (ready : r.prepared.state = .ready i tainted) :
    r.execute name source = r.prepared.executeHere name source := by
  unfold execute prepared at *
  split at ready
  next hneeds =>
    rw [if_pos hneeds, if_pos hneeds]
    unfold restart at *
    cases hboot : Instance.boot r.config r.guest with
    | error e =>
      rw [hboot] at ready
      cases ready
    | ok i => rfl
  next hneeds => rw [if_neg hneeds, if_neg hneeds]

/-- **A record as a whole, or none of it.** Every execution that returns leaves the runner ready,
and its outcome is a record with all its texts, or the returned text, or the reason why there is
none. -/
theorem execute_answered (ready : r.prepared.state = .ready i tainted)
    (returned : i.consoleCleared.call i.exports.execute name source = (.ok packed, after)) :
    ∃ o, r.execute name source = (.ok o, ⟨r.guest, r.config, .ready after true⟩) ∧
      Answered after.image.memory packed o := by
  refine ⟨after.outcome packed, ?_, after.outcome_answered packed⟩
  rw [execute_eq_executeHere ready, r.prepared_rest, ready, executeHere]
  simp only
  rw [← Instance.consoleCleared, returned]
  rfl

/-- A guest that answers with a record, of whose texts one lies in another and one is nowhere. -/
theorem execute_answered_record : ∃ (g : Guest Unit) (after : Instance Unit) (o : Outcome),
    (new g .default).execute [] [] = (.ok o, ⟨g, .default, .ready after true⟩) ∧
      Answered after.image.memory 8 o ∧ o = ⟨0, "né".toList, [], "é".toList⟩ := by
  let record := "\x7b\"exitCode\":0,\"stdout\":[16,3],\"stderr\":[0,0],\"trace\":[17,2]\x7d"
  let octets : List UInt8 := [19, 0, 0, 0, 60, 0, 0, 0, 110, 195, 169] ++ encodeUtf8 record.toList
  let image : Image Unit := ⟨⟨1, 64, fun address => octets.getD (address - 8) 0⟩, ()⟩
  let answering (packed : UInt32) (image : Image Unit) : Run Unit := .done (.ok packed) image
  let g : Guest Unit := ⟨some image, true, none, none, some fun _ => answering 0,
    some fun _ => answering 0, some fun _ => answering 0, some fun _ => answering 8⟩
  obtain ⟨o, hexecute, answered⟩ :=
    @execute_answered Unit (new g .default) _ _ _ [] [] 8 rfl rfl
  refine ⟨g, _, o, hexecute, answered, ?_⟩
  have houtcome : ((new g .default).execute [] []).1.toOption =
      some ⟨0, "né".toList, [], "é".toList⟩ := by decide +kernel
  rw [hexecute] at houtcome
  exact Option.some.inj houtcome

end Runner

end Shepherd.Host
