import Mathlib.Data.List.DropRight
import Shepherd.Host.Instance

/-!
# What the host hears

A call into a guest, told without a listener. All that a guest can learn from its host is whether
octets that it writes find room. So the result of a call, what the guest remembers of it, and what
it says follow from its functions, what it remembered before, and the room that is left in its two
streams. What was said before has no other influence: the listener of a real call ends up as the one
before it, with what is said put behind.
-/

namespace Shepherd.Host
open Sandbox Text

/-- Something that a guest says: a line for its console, or octets for a file. -/
inductive Utterance where
  | line (text : List Char)
  | octets (file : UInt32) (bytes : List UInt8)

/-- The lines among what was said. -/
def linesSaid (said : List Utterance) : List (List Char) :=
  said.filterMap fun
    | .line text => some text
    | .octets .. => none

/-- The octets for a file among what was said, those that found no room included. -/
def octetsSaid (file : UInt32) (said : List Utterance) : List UInt8 :=
  said.flatMap fun
    | .line _ => []
    | .octets file' bytes => if file' = file then bytes else []

/-! ### Room -/

namespace Stream
variable (s : Stream) (bytes more : List UInt8)

/-- How many octets can still be taken. -/
def room (s : Stream) : Nat := s.capacity - s.bytes.length

theorem hasRoom_eq : s.hasRoom bytes = decide (bytes.length ≤ s.room) := by
  cases bytes with
  | nil => simp [hasRoom]
  | cons b bytes =>
    simp only [hasRoom, room, List.isEmpty_cons, Bool.false_or, List.length_cons]
    exact decide_eq_decide.2 (by omega)

theorem push_bytes : (s.push bytes).bytes = s.bytes ++ bytes.take s.room := rfl

theorem room_push : (s.push bytes).room = s.room - bytes.length := by
  simp only [push, room, List.length_append, List.length_take]
  omega

/-- Octets that are taken in two parts are taken as one. -/
theorem push_push : (s.push bytes).push more = s.push (bytes ++ more) := by
  have hbytes : ((s.push bytes).push more).bytes = (s.push (bytes ++ more)).bytes := by
    rw [push_bytes, room_push, push_bytes, push_bytes, List.take_append, List.append_assoc]
  exact congrArg (Stream.mk s.capacity) hbytes

end Stream

/-- The room that is left in the two streams of a guest. -/
structure Room where
  stdout : Nat
  stderr : Nat

namespace Room

/-- Takes octets for a file, and tells whether there was room for all of them. -/
def take (r : Room) (file : UInt32) (bytes : List UInt8) : Room × Bool :=
  if file = 1 then ({ r with stdout := r.stdout - bytes.length }, decide (bytes.length ≤ r.stdout))
  else if file = 2 then
    ({ r with stderr := r.stderr - bytes.length }, decide (bytes.length ≤ r.stderr))
  else (r, false)

/-- The room that is left after all that was said. -/
def after (r : Room) : List Utterance → Room
  | [] => r
  | .line _ :: said => r.after said
  | .octets file bytes :: said => (r.take file bytes).1.after said

end Room

namespace Listener
variable (l : Listener) (said more : List Utterance)

/-- The room in the streams of a listener. -/
def room (l : Listener) : Room := ⟨l.stdout.room, l.stderr.room⟩

/-- Hears one thing. -/
def note (l : Listener) : Utterance → Listener
  | .line text => l.addLine text
  | .octets file bytes => (l.take file bytes).1

/-- Hears all that was said, in order. -/
def noteAll (l : Listener) (said : List Utterance) : Listener := said.foldl note l

@[simp] theorem noteAll_nil : l.noteAll [] = l := rfl

@[simp] theorem noteAll_cons (u : Utterance) :
    l.noteAll (u :: said) = (l.note u).noteAll said := rfl

theorem noteAll_append : l.noteAll (said ++ more) = (l.noteAll said).noteAll more :=
  List.foldl_append

theorem take_eq (file : UInt32) (bytes : List UInt8) :
    (l.take file bytes).2 = (l.room.take file bytes).2 ∧
      (l.take file bytes).1.room = (l.room.take file bytes).1 := by
  simp only [take, Room.take, room]
  split
  · exact ⟨Stream.hasRoom_eq .., by rw [Stream.room_push]⟩
  · split
    · exact ⟨Stream.hasRoom_eq .., by rw [Stream.room_push]⟩
    · exact ⟨rfl, rfl⟩

theorem room_noteAll : (l.noteAll said).room = l.room.after said := by
  induction said generalizing l with
  | nil => rfl
  | cons u said ih =>
    cases u with
    | line text => exact ih _
    | octets file bytes =>
      rw [noteAll_cons, ih, note, (l.take_eq file bytes).2]
      rfl

theorem take_stderr (file : UInt32) (bytes : List UInt8) :
    (l.take file bytes).1.stderr = l.stderr.push (if file = 2 then bytes else []) := by
  have hpush : l.stderr.push [] = l.stderr := by simp [Stream.push]
  rw [take]
  split
  · next hfile => rw [hfile, if_neg (by decide), hpush]
  · split
    · next hfile => rfl
    · exact hpush.symm

/-- Octets for a file do not touch the console. -/
theorem take_frame (file : UInt32) (bytes : List UInt8) :
    (l.take file bytes).1.console = l.console ∧
      (l.take file bytes).1.consoleLimit = l.consoleLimit := by
  rw [take]
  split
  · exact ⟨rfl, rfl⟩
  · split <;> exact ⟨rfl, rfl⟩

theorem consoleLimit_noteAll : (l.noteAll said).consoleLimit = l.consoleLimit := by
  induction said generalizing l with
  | nil => rfl
  | cons u said ih =>
    rw [noteAll_cons, ih]
    cases u with
    | line text => rfl
    | octets file bytes => exact (l.take_frame file bytes).2

/-- Of the octets for the error stream, those are taken that find room. -/
theorem stderr_noteAll : (l.noteAll said).stderr = l.stderr.push (octetsSaid 2 said) := by
  induction said generalizing l with
  | nil => simp [octetsSaid, Stream.push]
  | cons u said ih =>
    rw [noteAll_cons, ih]
    cases u with
    | line text => rfl
    | octets file bytes => rw [note, take_stderr, Stream.push_push, octetsSaid, octetsSaid,
        List.flatMap_cons]

end Listener

/-! ### The console -/

theorem length_rtake {α : Type} (xs : List α) (n : Nat) :
    (xs.rtake n).length = min xs.length n := by
  rw [List.rtake, List.length_drop]
  omega

/-- Only the last items count for the last items of more. -/
theorem rtake_append_rtake {α : Type} (xs ys : List α) (n : Nat) :
    (xs.rtake n ++ ys).rtake n = (xs ++ ys).rtake n := by
  simp only [List.rtake_eq_reverse_take_reverse, List.reverse_append, List.reverse_reverse,
    List.take_append, List.take_take, Nat.min_eq_left (Nat.sub_le ..)]

namespace Listener
variable {l : Listener}

/-- A console that holds as many lines as are kept, or fewer, keeps the last ones. -/
theorem addLine_console (hlimit : 0 < l.consoleLimit) (hfits : l.console.length ≤ l.consoleLimit)
    (text : List Char) :
    (l.addLine text).console = (l.console ++ [text]).rtake l.consoleLimit := by
  obtain ⟨n, hn⟩ := Nat.exists_eq_add_of_lt hlimit
  rw [Nat.zero_add] at hn
  rw [hn] at hfits ⊢
  rw [List.rtake_concat_succ, addLine, hn]
  refine congrArg (· ++ [text]) ?_
  split
  · next hfull => rw [List.rtake, hfull, Nat.add_sub_cancel_left]
  · next hroom => rw [List.rtake, Nat.sub_eq_zero_of_le (by omega), List.drop_zero]

/-- The console keeps the last of all the lines that it was told. -/
theorem console_noteAll (hlimit : 0 < l.consoleLimit)
    (hfits : l.console.length ≤ l.consoleLimit) (said : List Utterance) :
    (l.noteAll said).console = (l.console ++ linesSaid said).rtake l.consoleLimit := by
  induction said generalizing l with
  | nil =>
    rw [linesSaid, List.filterMap_nil, List.append_nil, List.rtake, Nat.sub_eq_zero_of_le hfits,
      List.drop_zero, noteAll_nil]
  | cons u said ih =>
    cases u with
    | line text =>
      -- what an earlier line pushed out would have been pushed out by the later ones too
      have hconsole := addLine_console hlimit hfits text
      have hlength : (l.addLine text).console.length ≤ l.consoleLimit := by
        rw [hconsole, length_rtake]
        exact Nat.min_le_right ..
      have hrest := ih (l := l.addLine text) hlimit hlength
      have hlines : linesSaid (.line text :: said) = text :: linesSaid said := rfl
      have hlast := rtake_append_rtake (l.console ++ [text]) (linesSaid said) l.consoleLimit
      rw [hconsole] at hrest
      rw [hlines, List.append_cons, ← hlast]
      exact hrest
    | octets file bytes =>
      obtain ⟨hconsole, hsame⟩ := l.take_frame file bytes
      have hrest := ih (l := (l.take file bytes).1) (hsame ▸ hlimit) (by rwa [hconsole, hsame])
      rw [hconsole, hsame] at hrest
      exact hrest

end Listener

/-! ### Accounts -/

/-- What comes of a call into a guest: its result, what the guest remembers, and what it said. -/
structure Account (γ α : Type) where
  result : Except Failure α
  image : Image γ
  said : List Utterance

variable {γ α β : Type}

namespace Account

/-- The account with something said before. -/
def behind (a : Account γ α) (said : List Utterance) : Account γ α :=
  { a with said := said ++ a.said }

/-- Goes on with the result, if there is one, in the room that is left. -/
def andThen (a : Account γ α) (r : Room) (next : α → Image γ → Room → Account γ β) : Account γ β :=
  match a.result with
  | .error f => ⟨.error f, a.image, a.said⟩
  | .ok x => (next x a.image (r.after a.said)).behind a.said

end Account

/-- The account of a run, for a guest that shows its memory. -/
def Account.ofRun : Run γ → Room → Account γ UInt32
  | .done result after, _ => ⟨result.mapError Failure.trap, after, []⟩
  | .exit code after, _ => ⟨.error (.exit code), after, []⟩
  | .log line now next, r =>
    match now.memory.readText line with
    | .ok text => (ofRun next r).behind [.line text]
    | .error _ => ofRun next r
  | .write file text now next, r =>
    if !Listener.isOpen file then ofRun (next false) r
    else if text.len = 0 then ofRun (next true) r
    else match now.memory.read text.ptr.toNat text.len.toNat with
      | .error _ => ⟨.error (.badBuffer text), now, []⟩
      | .ok bytes =>
        (ofRun (next (r.take file bytes).2) (r.take file bytes).1).behind [.octets file bytes]

/-- The account of copying a text into memory that the allocator gives. -/
def Account.ofText (e : Exports γ) (text : List Char) (image : Image γ) (r : Room) :
    Account γ Extent :=
  let bytes := encodeUtf8 text
  let len := UInt32.ofNat bytes.length
  if !fitsInt32 bytes.length then ⟨.error .tooLong, image, []⟩
  else (ofRun (e.malloc len image) r).andThen r fun ptr image _ =>
    match image.memory.write? ptr.toNat bytes with
    | none => ⟨.error .badPointer, image, []⟩
    | some m => ⟨.ok ⟨ptr, len⟩, { image with memory := m }, []⟩

/-- The account of a call of a function that takes a script. -/
def Account.ofCall (e : Exports γ) (function : Arguments → Image γ → Run γ)
    (name source : List Char) (image : Image γ) (r : Room) : Account γ UInt32 :=
  (ofText e name image r).andThen r fun nameAt image r =>
    (ofText e source image r).andThen r fun sourceAt image r =>
      ofRun (function ⟨nameAt, sourceAt⟩ image) r

/-! ### Calls go by their accounts -/

/-- A run is answered by its account. -/
theorem answer_eq (run : Run γ) (l : Listener) :
    answer true run l = ((Account.ofRun run l.room).result, (Account.ofRun run l.room).image,
      l.noteAll (Account.ofRun run l.room).said) := by
  induction run generalizing l with
  | done result after => rfl
  | exit code after => rfl
  | log line now next ih =>
    rw [answer, Account.ofRun, ih, Listener.hear]
    cases now.memory.readText line <;> rfl
  | write file text now next ih =>
    rw [answer, Account.ofRun]
    cases Listener.isOpen file with
    | false => simpa using ih false l
    | true =>
      by_cases hempty : text.len = 0
      · simpa [hempty] using ih true l
      · cases now.memory.read text.ptr.toNat text.len.toNat with
        | error e => simp [hempty]
        | ok bytes =>
          obtain ⟨htaken, hroom⟩ := l.take_eq file bytes
          simp only [hempty, ih, htaken, hroom]
          rfl

/-- A listener has heard some more after a run, whatever comes of it. -/
theorem exists_answer_eq_noteAll (shown : Bool) (run : Run γ) (l : Listener) :
    ∃ said, (answer shown run l).2.2 = l.noteAll said := by
  cases shown with
  | true => exact ⟨_, by rw [answer_eq]⟩
  | false =>
    -- nothing is heard of a guest that hides its memory
    refine ⟨[], ?_⟩
    induction run with
    | done | exit => rfl
    | log line now next ih => exact ih
    | write file text now next => rw [answer, if_pos Bool.not_false, Listener.noteAll_nil]

namespace Instance
variable (i : Instance γ) (text name source : List Char)

/-- A fresh instance has a listener that heard what the guest said when it started. -/
theorem exists_boot_eq_noteAll {c : Config} {g : Guest γ} (h : boot c g = .ok i) :
    ∃ said, i.listener = (Listener.fresh c).noteAll said := by
  have hstarted {image : Image γ} {after : Image γ × Listener}
      (h : startedUp c g image = .ok after) :
      ∃ said, after.2 = (Listener.fresh c).noteAll said := by
    unfold startedUp at h
    split at h
    · cases h
      exact ⟨[], rfl⟩
    · next entry routine _ =>
      have heard := exists_answer_eq_noteAll g.showsMemory (routine image) (.fresh c)
      split at h
      · next heq =>
        cases h
        rwa [heq] at heard
      · next heq =>
        cases h
        rwa [heq] at heard
      · cases h
  unfold boot at h
  split at h
  · cases h
  · next image _ =>
    rcases hgrown : grown c g image with e | image'
    · simp only [hgrown, bind, Except.bind] at h
      cases h
    · rcases hafter : startedUp c g image' with e | after
      · simp only [hgrown, hafter, bind, Except.bind] at h
        cases h
      · simp only [hgrown, hafter, bind, Except.bind] at h
        split at h
        · cases h
          exact hstarted hafter
        · cases h

/-- The instance, and the result, after what an account tells. -/
def told (i : Instance γ) (a : Account γ α) : Except Failure α × Instance γ :=
  (a.result, { i with image := a.image, listener := i.listener.noteAll a.said })

theorem enter_eq (routine : Image γ → Run γ) :
    i.enter routine = i.told (.ofRun (routine i.image) i.listener.room) := by
  rw [enter, answer_eq]
  rfl

/-- Going on goes by the account of what is next, told from where the first part ended. -/
theorem told_andThen (a : Account γ α) (next : α → Image γ → Room → Account γ β) :
    i.told (a.andThen i.listener.room next) =
      match i.told a with
      | (.error f, i') => (.error f, i')
      | (.ok x, i') => i'.told (next x i'.image i'.listener.room) := by
  obtain ⟨f | x, image, said⟩ := a
  · rfl
  · simp only [told, Account.andThen, Account.behind, Listener.noteAll_append,
      Listener.room_noteAll]

theorem writeText_eq :
    i.writeText text = i.told (.ofText i.exports text i.image i.listener.room) := by
  unfold writeText Account.ofText
  dsimp only
  cases fitsInt32 (encodeUtf8 text).length with
  | false => rfl
  | true =>
    rw [enter_eq]
    simp only [Bool.not_true, Bool.false_eq_true, ↓reduceIte, told_andThen]
    rcases i.told _ with ⟨f | ptr, i'⟩
    · rfl
    · simp only
      cases i'.image.memory.write? ptr.toNat (encodeUtf8 text) <;> rfl

theorem call_eq (function : Arguments → Image γ → Run γ) :
    i.call function name source =
      i.told (.ofCall i.exports function name source i.image i.listener.room) := by
  rw [call, writeText_eq, Account.ofCall, told_andThen]
  have hexports : (i.told (.ofText i.exports name i.image i.listener.room)).2.exports =
      i.exports := rfl
  rcases htold : i.told (.ofText i.exports name i.image i.listener.room) with ⟨f | nameAt, i'⟩
  · rfl
  · rw [htold] at hexports
    have hkept : i'.exports = i.exports := hexports
    simp only [writeText_eq, hkept, told_andThen]
    rcases i'.told (.ofText i.exports source i'.image i'.listener.room) with
      ⟨f | sourceAt, i''⟩
    · rfl
    · exact enter_eq i'' _

end Instance

/-! ### How much room matters -/

/-- Octets find as much room in the one stream as in the other: both have the same room, or room for
all of them. -/
def Alike (octets a b : Nat) : Prop := a = b ∨ octets ≤ min a b

theorem Alike.split {m n a b : Nat} (h : Alike (m + n) a b) :
    (m ≤ b ↔ m ≤ a) ∧ Alike n (a - m) (b - m) := by
  unfold Alike at h ⊢
  omega

/-- What is said finds as much room in the one case as in the other. -/
structure Room.Suits (said : List Utterance) (r r' : Room) : Prop where
  stdout : Alike (octetsSaid 1 said).length r.stdout r'.stdout
  stderr : Alike (octetsSaid 2 said).length r.stderr r'.stderr

theorem length_octetsSaid_cons (file file' : UInt32) (bytes : List UInt8)
    (said : List Utterance) : (octetsSaid file (.octets file' bytes :: said)).length =
      (if file' = file then bytes.length else 0) + (octetsSaid file said).length := by
  rw [octetsSaid, List.flatMap_cons, List.length_append, ← octetsSaid]
  refine congrArg (· + _) ?_
  dsimp only
  split <;> rfl

namespace Room.Suits
variable {r r' : Room} {said more : List Utterance}

/-- Octets are all taken in both cases or in neither, and the rest finds as much room again. -/
theorem octets {file : UInt32} {bytes : List UInt8}
    (h : Suits (.octets file bytes :: said) r r') :
    (r'.take file bytes).2 = (r.take file bytes).2 ∧
      Suits said (r.take file bytes).1 (r'.take file bytes).1 := by
  obtain ⟨hstdout, hstderr⟩ := h
  rw [length_octetsSaid_cons] at hstdout hstderr
  unfold take
  by_cases hone : file = 1
  · subst hone
    obtain ⟨hfits, hrest⟩ := hstdout.split
    exact ⟨decide_eq_decide.2 hfits, hrest, by simpa using hstderr⟩
  · by_cases htwo : file = 2
    · subst htwo
      obtain ⟨hfits, hrest⟩ := hstderr.split
      exact ⟨decide_eq_decide.2 hfits, by simpa using hstdout, hrest⟩
    · simp only [if_neg hone, if_neg htwo, Nat.zero_add] at hstdout hstderr
      rw [if_neg hone, if_neg htwo, if_neg hone, if_neg htwo]
      exact ⟨rfl, hstdout, hstderr⟩

theorem first (h : Suits (said ++ more) r r') : Suits said r r' := by
  have hmono (file : UInt32) : (octetsSaid file said).length ≤
      (octetsSaid file (said ++ more)).length := by
    rw [octetsSaid, octetsSaid, List.flatMap_append, List.length_append]
    exact Nat.le_add_right _ _
  exact ⟨h.stdout.imp_right (hmono 1).trans, h.stderr.imp_right (hmono 2).trans⟩

theorem rest (h : Suits (said ++ more) r r') : Suits more (r.after said) (r'.after said) := by
  induction said generalizing r r' with
  | nil => exact h
  | cons u said ih =>
    cases u with
    | line text => exact ih ⟨h.stdout, h.stderr⟩
    | octets file bytes => exact ih h.octets.2

end Room.Suits

namespace Account

/-- An account that is the same wherever what it says finds as much room. -/
def Settled (a : Room → Account γ α) : Prop :=
  ∀ r r', Room.Suits (a r).said r r' → a r' = a r

theorem settled_const (a : Account γ α) : Settled fun _ => a := fun _ _ _ => rfl

theorem Settled.andThen {a : Room → Account γ α} {next : α → Image γ → Room → Account γ β}
    (ha : Settled a) (hnext : ∀ x image, Settled (next x image)) :
    Settled fun r => (a r).andThen r next := by
  intro r r' h
  dsimp only at h ⊢
  unfold Account.andThen at h ⊢
  cases hresult : (a r).result with
  | error f =>
    simp only [hresult] at h
    rw [ha r r' h, hresult]
  | ok x =>
    simp only [hresult] at h
    rw [ha r r' h.first, hresult]
    simp only [hnext x _ _ _ h.rest]

theorem settled_ofRun (run : Run γ) : Settled (ofRun run) := by
  induction run with
  | done result after => exact settled_const _
  | exit code after => exact settled_const _
  | log line now next ih =>
    intro r r'
    unfold ofRun
    cases now.memory.readText line with
    | error e => exact ih r r'
    | ok text => exact fun h => congrArg (behind · _) (ih r r' ⟨h.stdout, h.stderr⟩)
  | write file text now next ih =>
    intro r r'
    unfold ofRun
    cases Listener.isOpen file with
    | false => exact ih false r r'
    | true =>
      by_cases hempty : text.len = 0
      · simp only [if_pos hempty]
        exact ih true r r'
      · simp only [if_neg hempty]
        cases now.memory.read text.ptr.toNat text.len.toNat with
        | error e => exact fun _ => rfl
        | ok bytes =>
          -- the guest is told the same about these octets, so it goes on in the same way
          intro h
          obtain ⟨htaken, hsuits⟩ := Room.Suits.octets h
          simp only [Bool.not_true, Bool.false_eq_true, ↓reduceIte, htaken, ih _ _ _ hsuits]

theorem settled_ofText (e : Exports γ) (text : List Char) (image : Image γ) :
    Settled (ofText e text image) := by
  unfold ofText
  dsimp only
  split
  · exact settled_const _
  · refine (settled_ofRun _).andThen fun ptr image => ?_
    split <;> exact settled_const _

theorem settled_ofCall (e : Exports γ) (function : Arguments → Image γ → Run γ)
    (name source : List Char) (image : Image γ) :
    Settled (ofCall e function name source image) :=
  (settled_ofText e name image).andThen fun _ image =>
    (settled_ofText e source image).andThen fun _ _ => settled_ofRun _

end Account

end Shepherd.Host
