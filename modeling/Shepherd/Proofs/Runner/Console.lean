import Shepherd.Proofs.Runner.Hearing
import Shepherd.Proofs.Runner.Restart

/-!
# The console

A console keeps the latest lines, as many as it was made for and at least one, whatever is heard and
however often it is cleared; so it forgets a line only to make room for another one. The listeners
of a runner's instances never meet anything else than that, so this goes for every console that a
runner has after any requests.
-/

namespace Shepherd.Host
open Sandbox

/-- What can happen to a listener: it hears something, or its console is cleared. -/
inductive Event where
  | heard (u : Utterance)
  | cleared

/-- What was heard, unless the console was cleared. -/
def Event.heard? : Event → Option Utterance
  | .heard u => some u
  | .cleared => none

/-- The lines that were logged since the console was last cleared, or from the start. -/
def logged (events : List Event) : List (List Char) :=
  linesSaid ((events.rtakeWhile (·.heard?.isSome)).filterMap Event.heard?)

theorem logged_line (events : List Event) (text : List Char) :
    logged (events ++ [.heard (.line text)]) = logged events ++ [text] := by
  simp [logged, Event.heard?, linesSaid]

theorem logged_octets (events : List Event) (file : UInt32) (bytes : List UInt8) :
    logged (events ++ [.heard (.octets file bytes)]) = logged events := by
  simp [logged, Event.heard?, linesSaid]

theorem logged_cleared (events : List Event) : logged (events ++ [.cleared]) = [] := by
  simp [logged, Event.heard?, linesSaid]

namespace Listener
variable {l : Listener} {events : List Event}

/-- Takes one event. -/
def meet (l : Listener) : Event → Listener
  | .heard u => l.note u
  | .cleared => l.clearConsole

/-- Takes all events, in order. -/
def meetAll (l : Listener) (events : List Event) : Listener := events.foldl meet l

theorem meetAll_concat (l : Listener) (events : List Event) (e : Event) :
    l.meetAll (events ++ [e]) = (l.meetAll events).meet e := List.foldl_concat ..

theorem meetAll_append (l : Listener) (events more : List Event) :
    l.meetAll (events ++ more) = (l.meetAll events).meetAll more := List.foldl_append

theorem meetAll_heard (l : Listener) (said : List Utterance) :
    l.meetAll (said.map .heard) = l.noteAll said := List.foldl_map

/-- The console has the last of the lines that were logged, as many as are kept. -/
structure Keeps (l : Listener) (limit : Nat) (events : List Event) : Prop where
  room : l.consoleLimit = limit
  console : l.console = (logged events).rtake limit

/-- An event leaves the last lines on the console. -/
theorem Keeps.meet {limit : Nat} (h : Keeps l limit events) (hlimit : 0 < limit) (e : Event) :
    Keeps (l.meet e) limit (events ++ [e]) := by
  obtain ⟨rfl, hconsole⟩ := h
  match e with
  | .heard (.line text) =>
    have hfits : l.console.length ≤ l.consoleLimit := by
      rw [hconsole, length_rtake]
      exact Nat.min_le_right ..
    refine ⟨rfl, ?_⟩
    -- the line that is pushed out is not one of the last ones any more
    rw [logged_line, ← rtake_append_rtake, ← hconsole]
    exact addLine_console hlimit hfits text
  | .heard (.octets file bytes) =>
    obtain ⟨hsame, hlimitSame⟩ := l.take_frame file bytes
    exact ⟨hlimitSame, by rw [logged_octets, ← hconsole]; exact hsame⟩
  | .cleared => exact ⟨rfl, by rw [logged_cleared, List.rtake_nil]; rfl⟩

theorem keeps_meetAll (c : Config) (events : List Event) :
    Keeps ((fresh c).meetAll events) (max c.consoleLines 1) events := by
  have hlimit : 0 < max c.consoleLines 1 := Nat.lt_of_lt_of_le Nat.one_pos (Nat.le_max_right ..)
  induction events using List.reverseRecOn with
  | nil => exact ⟨rfl, (List.rtake_nil ..).symm⟩
  | append_singleton events e ih =>
    rw [meetAll_concat]
    exact ih.meet hlimit e

theorem length_console_meetAll (c : Config) (events : List Event) :
    ((fresh c).meetAll events).console.length =
      min (logged events).length (max c.consoleLines 1) := by
  rw [(keeps_meetAll c events).console, length_rtake]

/-- One more line takes the place of the oldest one on a full console. -/
theorem console_meetAll_line (c : Config) (events : List Event) (text : List Char) :
    ((fresh c).meetAll (events ++ [.heard (.line text)])).console =
      (if (logged events).length < max c.consoleLines 1 then
        ((fresh c).meetAll events).console
      else ((fresh c).meetAll events).console.drop 1) ++ [text] := by
  rw [meetAll_concat, meet, note, addLine, length_console_meetAll, (keeps_meetAll c events).room]
  by_cases hroom : (logged events).length < max c.consoleLines 1
  · rw [if_neg (by omega), if_pos hroom]
  · rw [if_pos (by omega), if_neg hroom]

end Listener

/-! ### Any requests -/

namespace Runner
variable {γ : Type} {c : Config} {r : Runner γ}

/-- A listener that met events and nothing else since it was fresh. -/
def Met (c : Config) (l : Listener) : Prop := ∃ events, l = (Listener.fresh c).meetAll events

theorem Met.noteAll {l : Listener} (h : Met c l) (said : List Utterance) :
    Met c (l.noteAll said) := by
  obtain ⟨events, rfl⟩ := h
  exact ⟨events ++ said.map .heard, by rw [Listener.meetAll_append, Listener.meetAll_heard]⟩

theorem Met.clearConsole {l : Listener} (h : Met c l) : Met c l.clearConsole := by
  obtain ⟨events, rfl⟩ := h
  exact ⟨events ++ [.cleared], by rw [Listener.meetAll_concat]; rfl⟩

/-- The instance at hand, if there is one, has a listener that met events and nothing else. -/
structure Attended (c : Config) (r : Runner γ) : Prop where
  config : r.config = c
  met : ∀ i, r.instance? = some i → Met c i.listener

theorem instance?_stateAfter {α : Type} (i : Instance γ) (result : Except Failure α) :
    (⟨r.guest, r.config, stateAfter i result⟩ : Runner γ).instance? = some i := by
  unfold stateAfter
  cases result with
  | ok => rfl
  | error f =>
    dsimp only
    split <;> rfl

theorem Attended.restart (h : Attended c r) : Attended c r.restart.2 := by
  obtain ⟨rfl, -⟩ := h
  unfold Runner.restart
  split
  · next i hboot =>
    refine ⟨rfl, fun j hj => ?_⟩
    cases hj
    obtain ⟨said, hsaid⟩ := i.exists_boot_eq_noteAll hboot
    rw [hsaid]
    exact Met.noteAll ⟨[], rfl⟩ said
  · exact ⟨rfl, nofun⟩

/-- Whatever is asked for, the listener meets nothing but events. -/
theorem lasting_attended (c : Config) : Lasting (Attended c : Runner γ → Prop) where
  restart := Attended.restart
  call {r i j tainted} h hstate hj function name source := by
    refine ⟨h.config, fun k hk => ?_⟩
    rw [instance?_stateAfter] at hk
    cases hk
    have hi : Met c i.listener := h.met i (by rw [instance?, hstate])
    have hj : Met c j.listener := by
      rcases hj with rfl | rfl
      · exact hi
      · exact hi.clearConsole
    rw [Instance.call_eq]
    exact hj.noteAll _

/-- **The console has the latest lines.** After any events, these are the last of the lines that
were logged since the console was cleared, as many as the configuration says and at least one, or
all of them if there are fewer. One more line takes the place of the oldest one if there is no room,
and is put behind the others if there is. No listener of a runner meets anything else than such
events. -/
theorem console_exact (g : Guest γ) (c : Config) :
    (∀ events : List Event,
      ((Listener.fresh c).meetAll events).console =
        (logged events).rtake (min (logged events).length (max c.consoleLines 1)) ∧
      ((Listener.fresh c).meetAll events).console.length =
        min (logged events).length (max c.consoleLines 1) ∧
      ∀ text, ((Listener.fresh c).meetAll (events ++ [.heard (.line text)])).console =
        (if (logged events).length < max c.consoleLines 1 then
          ((Listener.fresh c).meetAll events).console
        else ((Listener.fresh c).meetAll events).console.drop 1) ++ [text]) ∧
    ∀ history i, ((new g c).serveAll history).2.instance? = some i → Met c i.listener := by
  refine ⟨fun events => ⟨?_, Listener.length_console_meetAll c events,
    Listener.console_meetAll_line c events⟩, fun history i hi => ?_⟩
  · rw [(Listener.keeps_meetAll c events).console, List.rtake, List.rtake]
    refine congrArg (List.drop · _) ?_
    omega
  · have attended : Attended c (new g c) := ⟨rfl, nofun⟩
    exact ((lasting_attended c).serveAll attended history).met i hi

/-- A guest that says three lines each time to a console for two of them. -/
theorem console_exact_two_lines : ∃ (g : Guest Unit) (c : Config) (i : Instance Unit),
    c.consoleLines = 2 ∧
    ((new g c).serveAll [.init, .execute [] [], .tokenize [] []]).2.instance? = some i ∧
    Met c i.listener ∧ i.listener.console = ["b".toList, "c".toList] := by
  let image : Image Unit := ⟨⟨1, 64, fun address => UInt8.ofNat (address + 89)⟩, ()⟩
  let say (image : Image Unit) : Run Unit :=
    .log ⟨8, 1⟩ image (.log ⟨9, 1⟩ image (.log ⟨10, 1⟩ image (.done (.ok 0) image)))
  let nothing (image : Image Unit) : Run Unit := .done (.ok 0) image
  let g : Guest Unit := ⟨some image, true, none, none, some fun _ => nothing,
    some fun _ => say, some fun _ => say, some fun _ => say⟩
  let c : Config := { Config.default with consoleLines := 2 }
  have hconsole : (((new g c).serveAll [.init, .execute [] [], .tokenize [] []]).2.instance?.map
      (·.listener.console)) = some ["b".toList, "c".toList] := by decide +kernel
  obtain ⟨i, hi, hlines⟩ := Option.map_eq_some_iff.1 hconsole
  exact ⟨g, c, i, rfl, hi, (console_exact g c).2 _ i hi, hlines⟩

end Runner

end Shepherd.Host
