import Shepherd.Proofs.Runner.Hearing
import Shepherd.Proofs.Runner.Phases
import Shepherd.Proofs.Text.Lines

/-!
# Last words

What is reported of a script that ran into a trap. Where the guest gave up by itself, by way of the
unreachable, its last visible line is: the one on its error stream, or else the one on its console;
only if it said nothing that can be seen, the trap is named. It is always named where the guest
failed otherwise. All of this goes by what was said while this script was executed. What was said
before has one influence only: octets take room in the two streams, and last words that find none
are lost.
-/

namespace Shepherd.Sandbox

/-- The engine has words for the trap. -/
def Trap.Worded (t : Trap) : Prop := t.message ≠ ""

end Shepherd.Sandbox

namespace Shepherd.Host
open Sandbox Text

variable {γ : Type}

/-! ### Reports -/

/-- The reported line of a script that ran into a trap, given the octets that its error stream took
and the lines that its console kept. -/
structure LastWords (octets : List UInt8) (lines : List (List Char)) (t : Trap)
    (reported : List Char) : Prop where
  visible : t.Worded → reported ≠ []
  /-- A trap that the guest did not raise by itself is named. -/
  other : t.isUnreachable = false → reported = t.message.toList
  /-- The last visible line on the error stream comes first. -/
  stream : t.isUnreachable = true → ∀ line, LastVisible (decodeUtf8 octets) line → reported = line
  /-- If there is none, the latest console line that shows something does. -/
  console : t.isUnreachable = true → Silent (decodeUtf8 octets) → ∀ before text after line,
    lines = before ++ text :: after → (∀ later ∈ after, Silent later) → LastVisible text line →
      reported = line
  /-- If the console shows nothing either, the trap is named. -/
  silent : t.isUnreachable = true → Silent (decodeUtf8 octets) → (∀ text ∈ lines, Silent text) →
    reported = t.message.toList

/-- What is reported of a trap. -/
def lastWords (octets : List UInt8) (lines : List (List Char)) (t : Trap) : List Char :=
  if t.isUnreachable then
    ((lastVisibleLine? (decodeUtf8 octets)).or
      (lines.reverse.findSome? lastVisibleLine?)).getD t.message.toList
  else t.message.toList

theorem lastWords_spec (octets : List UInt8) (lines : List (List Char)) (t : Trap) :
    LastWords octets lines t (lastWords octets lines t) where
  visible worded := by
    have hmessage : t.message.toList ≠ [] := mt String.toList_eq_nil_iff.1 worded
    rw [lastWords]
    split
    · cases hwords : (lastVisibleLine? (decodeUtf8 octets)).or
        (lines.reverse.findSome? lastVisibleLine?) with
      | none => exact hmessage
      | some line =>
        obtain hstream | ⟨-, hconsole⟩ := Option.or_eq_some_iff.1 hwords
        · exact (lastVisibleLine?_eq_some_iff.1 hstream).ne_nil
        · obtain ⟨text, -, hline⟩ := List.exists_of_findSome?_eq_some hconsole
          exact (lastVisibleLine?_eq_some_iff.1 hline).ne_nil
    · exact hmessage
  other ht := if_neg (Bool.eq_false_iff.1 ht)
  stream ht line hline := by
    rw [lastWords, if_pos ht, lastVisibleLine?_eq_some_iff.2 hline]
    rfl
  console ht hsilent before text after line hlines hafter hline := by
    have hconsole : lines.reverse.findSome? lastVisibleLine? = some line := by
      refine List.findSome?_eq_some_iff.2 ⟨after.reverse, text, before.reverse, by simp [hlines],
        lastVisibleLine?_eq_some_iff.2 hline, fun later h => ?_⟩
      exact lastVisibleLine?_eq_none_iff.2 (hafter later (List.mem_reverse.1 h))
    rw [lastWords, if_pos ht, lastVisibleLine?_eq_none_iff.2 hsilent, hconsole]
    rfl
  silent ht hsilent hlines := by
    have hconsole : lines.reverse.findSome? lastVisibleLine? = none :=
      List.findSome?_eq_none_iff.2 fun text h =>
        lastVisibleLine?_eq_none_iff.2 (hlines text (List.mem_reverse.1 h))
    rw [lastWords, if_pos ht, lastVisibleLine?_eq_none_iff.2 hsilent, hconsole]
    rfl

namespace Instance
variable (i : Instance γ) (name source : List Char) {t : Trap}

/-- The account of executing a script. -/
def execution (i : Instance γ) (name source : List Char) : Account γ UInt32 :=
  .ofCall i.exports i.exports.execute name source i.image i.listener.room

/-- The octets that the error stream takes while a script is executed. -/
def captured (i : Instance γ) (name source : List Char) : List UInt8 :=
  (octetsSaid 2 (i.execution name source).said).take i.listener.stderr.room

/-- The lines that are on the console after a script was executed, and were logged meanwhile. -/
def kept (i : Instance γ) (name source : List Char) : List (List Char) :=
  (linesSaid (i.execution name source).said).rtake i.listener.consoleLimit

theorem call_execute : i.consoleCleared.call i.exports.execute name source =
    i.consoleCleared.told (i.execution name source) :=
  i.consoleCleared.call_eq name source i.exports.execute

/-- The instance after executing a script. -/
def executed (i : Instance γ) (name source : List Char) : Instance γ :=
  (i.consoleCleared.told (i.execution name source)).2

theorem stderr_executed : (i.executed name source).listener.stderr.bytes =
    i.listener.stderr.bytes ++ i.captured name source := by
  have hlistener : (i.executed name source).listener =
      i.listener.clearConsole.noteAll (i.execution name source).said := rfl
  rw [hlistener, Listener.stderr_noteAll, Stream.push_bytes]
  rfl

theorem console_executed (hlimit : 0 < i.listener.consoleLimit) :
    (i.executed name source).listener.console = i.kept name source :=
  Listener.console_noteAll (l := i.listener.clearConsole) hlimit (Nat.zero_le _) _

theorem report_trap (hlimit : 0 < i.listener.consoleLimit) :
    (i.executed name source).report i.listener.stderr.bytes.length (.trap t) =
      lastWords (i.captured name source) (i.kept name source) t := by
  have hunreachable : (Failure.trap t).isUnreachable = t.isUnreachable := rfl
  unfold report lastWords Listener.lastWords?
  rw [hunreachable, stderr_executed, List.drop_left, i.console_executed name source hlimit]
  rfl

variable (g : Guest γ) (c : Config) (tainted : Bool)

/-- Executing a script goes by its account. -/
theorem executeHere_eq :
    (⟨g, c, .ready i tainted⟩ : Runner γ).executeHere name source =
      match i.consoleCleared.told (i.execution name source) with
      | (result, i') =>
        (.ok (match result with
          | .ok packed => i'.outcome packed
          | .error f => .failure (i'.report i.listener.stderr.bytes.length f)),
        ⟨g, c, Runner.stateAfter i' result⟩) := by
  rw [← call_execute]
  rfl

theorem executeHere_of_trap (hlimit : 0 < i.listener.consoleLimit)
    (htrap : (i.execution name source).result = .error (.trap t)) :
    (⟨g, c, .ready i tainted⟩ : Runner γ).executeHere name source =
      (.ok (.failure (lastWords (i.captured name source) (i.kept name source) t)),
        ⟨g, c, .faulted (i.executed name source)⟩) := by
  have htold : i.consoleCleared.told (i.execution name source) =
      (.error (.trap t), i.executed name source) := Prod.ext htrap rfl
  rw [executeHere_eq, htold, ← i.report_trap name source hlimit]
  rfl

/-- Only a trap makes the instance unusable. -/
theorem phase_executeHere :
    ((⟨g, c, .ready i tainted⟩ : Runner γ).executeHere name source).2.phase = .faulted ↔
      ∃ t, (i.execution name source).result = .error (.trap t) := by
  have htold : (i.consoleCleared.told (i.execution name source)).1 =
      (i.execution name source).result := rfl
  rw [executeHere_eq, ← htold]
  rcases i.consoleCleared.told (i.execution name source) with ⟨f | packed, i'⟩
  · simp only [Runner.stateAfter, Except.error.injEq, ← isTrap_iff]
    cases f.isTrap <;> simp [Runner.phase]
  · simp [Runner.stateAfter, Runner.phase]

/-! ### Any history -/

/-- The console of a started guest keeps at least one line. -/
theorem consoleLimit_boot {i : Instance γ} {c : Config} {g : Guest γ} (h : boot c g = .ok i) :
    i.listener.consoleLimit = max c.consoleLines 1 := by
  obtain ⟨said, hlistener⟩ := i.exists_boot_eq_noteAll h
  rw [hlistener, Listener.consoleLimit_noteAll]
  rfl

/-- Where the same is remembered and what is said finds as much room, the account is the same, and
so is what is captured and kept. -/
theorem execution_congr {i i' : Instance γ} (hexports : i'.exports = i.exports)
    (himage : i'.image = i.image)
    (hroom : Room.Suits (i.execution name source).said i.listener.room i'.listener.room) :
    i'.execution name source = i.execution name source := by
  unfold execution at hroom ⊢
  rw [hexports, himage]
  exact Account.settled_ofCall _ _ _ _ _ _ _ hroom

theorem captured_congr {i i' : Instance γ} (hexports : i'.exports = i.exports)
    (himage : i'.image = i.image)
    (hroom : Room.Suits (i.execution name source).said i.listener.room i'.listener.room) :
    i'.captured name source = i.captured name source := by
  rw [captured, captured, execution_congr name source hexports himage hroom]
  obtain heq | hfits := hroom.stderr
  · exact congrArg (List.take · _) heq.symm
  · obtain ⟨hleft, hright⟩ := Nat.le_min.1 hfits
    exact (List.take_of_length_le hright).trans (List.take_of_length_le hleft).symm

end Instance

namespace Runner
variable (g : Guest γ) (c : Config) (name source : List Char)

theorem executeAnew_of_boot {i : Instance γ} (hboot : Instance.boot c g = .ok i) :
    (new g c).executeAnew name source =
      (⟨g, c, .ready i false⟩ : Runner γ).executeHere name source := by
  simp only [executeAnew, restart, new, hboot]

theorem phase_executeAnew_of_error {e : HostError} (hboot : Instance.boot c g = .error e) :
    ((new g c).executeAnew name source).2.phase = .uninitialized := by
  simp only [executeAnew, restart, new, hboot]
  rfl

/-- Whatever was served before, a script meets a fresh instance. -/
theorem execute_serveAll (history : List Request) :
    ((new g c).serveAll history).2.execute name source = (new g c).executeAnew name source := by
  have clean := (clean_new g c).serveAll history
  rw [clean.execute_eq, clean.executeAnew_eq]

/-- **Last words are fresh and never empty.** Executing a script faults the guest if its account on
a started instance ends in a trap. Then the outcome is the same after any history: exit code -1, and
nothing but a line on the error stream, which is the one that `LastWords` describes from what the
stream took and the console kept of this execution. An instance that remembers the same gives the
same outcome, whatever it said before, as long as this execution finds as much room. -/
theorem lastWords_exact :
    (∀ history, (((new g c).serveAll history).2.execute name source).2.phase = .faulted ↔
      ∃ i t, Instance.boot c g = .ok i ∧ (i.execution name source).result = .error (.trap t)) ∧
    ∀ i t, Instance.boot c g = .ok i → (i.execution name source).result = .error (.trap t) →
      i.listener.consoleLimit = max c.consoleLines 1 ∧
      ∃ reported, LastWords (i.captured name source) (i.kept name source) t reported ∧
        (∀ history, ∃ after, ((new g c).serveAll history).2.execute name source =
            (.ok ⟨-1, [], reported, []⟩, ⟨g, c, .faulted after⟩) ∧
          after.listener.stderr.bytes =
            i.listener.stderr.bytes ++ i.captured name source ∧
          after.listener.console = i.kept name source) ∧
        ∀ i' : Instance γ, i'.exports = i.exports → i'.image = i.image →
          i'.listener.consoleLimit = i.listener.consoleLimit →
          Room.Suits (i.execution name source).said i.listener.room i'.listener.room →
          ∀ g' c' tainted, ((⟨g', c', .ready i' tainted⟩ : Runner γ).executeHere name source).1 =
            .ok ⟨-1, [], reported, []⟩ := by
  refine ⟨fun history => ?_, fun i t hboot htrap => ?_⟩
  · rw [execute_serveAll]
    cases hboot : Instance.boot c g with
    | error e =>
      rw [phase_executeAnew_of_error g c name source hboot]
      refine ⟨nofun, ?_⟩
      rintro ⟨_, _, hok, -⟩
      cases hok
    | ok i =>
      rw [executeAnew_of_boot g c name source hboot, Instance.phase_executeHere]
      simp
  · have hlimit := Instance.consoleLimit_boot hboot
    have hpos : 0 < i.listener.consoleLimit :=
      hlimit ▸ Nat.lt_of_lt_of_le Nat.zero_lt_one (Nat.le_max_right _ _)
    refine ⟨hlimit, _, lastWords_spec _ _ t, fun history => ?_, ?_⟩
    · refine ⟨i.executed name source, ?_, i.stderr_executed name source,
        i.console_executed name source hpos⟩
      rw [execute_serveAll, executeAnew_of_boot g c name source hboot,
        i.executeHere_of_trap name source g c false hpos htrap]
      rfl
    · intro i' hexports himage hconsole hroom g' c' tainted
      have hexecution := Instance.execution_congr name source hexports himage hroom
      have hcaptured := Instance.captured_congr name source hexports himage hroom
      have hkept : i'.kept name source = i.kept name source := by
        rw [Instance.kept, Instance.kept, hexecution, hconsole]
      rw [i'.executeHere_of_trap name source g' c' tainted (hconsole ▸ hpos)
        (hexecution ▸ htrap), hcaptured, hkept]
      rfl

/-- A guest with some octets from address 8 on. Its execution writes those of `last` to the error
stream and gives up. -/
def quittingGuest (octets : List UInt8) (start : Image Unit → Run Unit) (last : Extent) :
    Guest Unit where
  instantiate := some ⟨⟨1, 64, fun address => octets.getD (address - 8) 0⟩, ()⟩
  showsMemory := true
  onLoad := none
  onStart := some start
  malloc := some fun _ now => .done (.ok 0) now
  tokenize := some fun _ now => .done (.ok 0) now
  parse := some fun _ now => .done (.ok 0) now
  execute := some fun _ now =>
    .write 2 last now fun _ => .done (.error ⟨true, "unreachable"⟩) now

/-- A guest that logs and writes a word when it starts, and another one, with blanks behind, before
it gives up. Without the first word it is reported in the same way. -/
theorem lastWords_exact_stale_start : ∃ (g : Guest Unit) (i i' : Instance Unit) (t : Trap),
    Instance.boot .default g = .ok i ∧ i.listener.console = ["old".toList] ∧
    i.listener.stderr.text = "old".toList ∧
    Instance.boot .default { g with onStart := none } = .ok i' ∧ i'.listener.console = [] ∧
    i'.listener.stderr.text = [] ∧
    Room.Suits (i.execution [] []).said i.listener.room i'.listener.room ∧
    (i.execution [] []).result = .error (.trap t) ∧ t.Worded ∧
    ∃ reported, reported ≠ [] ∧ reported = "boom".toList ∧
      (∀ history, (((new g .default).serveAll history).2.execute [] []).1 =
        .ok ⟨-1, [], reported, []⟩) ∧
      ((⟨g, .default, .ready i' false⟩ : Runner Unit).executeHere [] []).1 =
        .ok ⟨-1, [], reported, []⟩ := by
  let start (now : Image Unit) : Run Unit :=
    .log ⟨8, 3⟩ now (.write 2 ⟨8, 3⟩ now fun _ => .done (.ok 0) now)
  let g := quittingGuest [111, 108, 100, 98, 111, 111, 109, 32, 10, 32] start ⟨11, 7⟩
  obtain ⟨-, reported, words, any, other⟩ :=
    (lastWords_exact g .default [] []).2 _ ⟨true, "unreachable"⟩ rfl rfl
  have worded : Trap.Worded ⟨true, "unreachable"⟩ := by unfold Trap.Worded; decide
  have hboom : reported = "boom".toList :=
    words.stream rfl _ (lastVisibleLine?_eq_some_iff.1 (by decide +kernel))
  -- both streams have more room than seven octets take
  refine ⟨g, _, _, _, rfl, by decide +kernel, by decide +kernel, rfl, by decide +kernel,
    by decide +kernel, ⟨.inr (by decide +kernel), .inr (by decide +kernel)⟩, rfl, worded, reported,
    words.visible worded, hboom, fun history => ?_, ?_⟩
  · obtain ⟨after, hexecute, -⟩ := any history
    rw [hexecute]
  · exact other _ rfl rfl rfl ⟨.inr (by decide +kernel), .inr (by decide +kernel)⟩
      g .default false

/-- Two guests that differ in what they write when they start, and in nothing else. The one that
fills its error stream then is reported with the trap, the other one with its last words. -/
theorem lastWords_shut_out : ∃ (loud quiet : Guest Unit) (c : Config) (i i' : Instance Unit)
    (t : Trap), quiet = { loud with onStart := none } ∧
    Instance.boot c loud = .ok i ∧ Instance.boot c quiet = .ok i' ∧
    i'.exports = i.exports ∧ i'.image = i.image ∧ i'.listener.console = i.listener.console ∧
    (i.execution [] []).result = .error (.trap t) ∧
    (i'.execution [] []).result = .error (.trap t) ∧
    ((new loud c).execute [] []).1 = .ok ⟨-1, [], t.message.toList, []⟩ ∧
    ((new quiet c).execute [] []).1 = .ok ⟨-1, [], "boom".toList, []⟩ ∧
    t.message.toList ≠ "boom".toList := by
  let start (now : Image Unit) : Run Unit := .write 2 ⟨8, 4⟩ now fun _ => .done (.ok 0) now
  let loud := quittingGuest [117, 115, 101, 100, 98, 111, 111, 109] start ⟨12, 4⟩
  -- four octets find room, which are those of the start
  let c : Config := { Config.default with outputCapacity := 4 }
  exact ⟨loud, { loud with onStart := none }, c, _, _, ⟨true, "unreachable"⟩, rfl, rfl, rfl, rfl,
    rfl, rfl, rfl, rfl, by decide +kernel, by decide +kernel, by decide +kernel⟩

end Runner

end Shepherd.Host
