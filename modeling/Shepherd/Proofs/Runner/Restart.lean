import Shepherd.Host.Runner

/-!
# Restarts

A script always meets a fresh instance. Either the runner starts one for it, or the instance at hand
is one that no call was made into since it was started, and starting a guest gives the same instance
each time. So what executing a script gives, and what it leaves behind, does not depend on what the
runner served before; and when the runner saves the restart, nobody can tell.
-/

namespace Shepherd.Host
open Sandbox

namespace Runner
variable {γ : Type} {g : Guest γ} {c : Config} {r : Runner γ}

/-! ### What no request ends -/

/-- A property of runners that outlasts starts and calls, also where the console was cleared before
the call. -/
structure Lasting (P : Runner γ → Prop) : Prop where
  restart : ∀ {r}, P r → P r.restart.2
  call : ∀ {r : Runner γ} {i j tainted}, P r → r.state = .ready i tainted →
    j = i ∨ j = { i with listener := i.listener.clearConsole } →
    ∀ function name source, P { r with
      state := stateAfter (j.call function name source).2 (j.call function name source).1 }

namespace Lasting
variable {P : Runner γ → Prop}

theorem init (hP : Lasting P) (h : P r) : P r.init.2 := by
  unfold Runner.init
  split
  · exact h
  · exact hP.restart h

theorem callText (hP : Lasting P) (h : P r) (function : Exports γ → Arguments → Image γ → Run γ)
    (name source : List Char) : P (r.callText function name source).2 := by
  unfold Runner.callText
  split
  · exact h
  · exact h
  · next hstate => exact hP.call h hstate (.inl rfl) _ name source

theorem executeHere (hP : Lasting P) (h : P r) (name source : List Char) :
    P (r.executeHere name source).2 := by
  unfold Runner.executeHere
  split
  · exact h
  · exact h
  · next hstate => exact hP.call h hstate (.inr rfl) _ name source

theorem execute (hP : Lasting P) (h : P r) (name source : List Char) :
    P (r.execute name source).2 := by
  have hrestart := hP.restart h
  unfold Runner.execute
  split
  · split
    · next heq =>
      rw [heq] at hrestart
      exact hrestart
    · next heq =>
      rw [heq] at hrestart
      exact hP.executeHere hrestart name source
  · exact hP.executeHere h name source

theorem serve (hP : Lasting P) (h : P r) (request : Request) : P (r.serve request).2 := by
  cases request with
  | init => exact hP.init h
  | restart => exact hP.restart h
  | tokenize name source => exact hP.callText h _ name source
  | parse name source => exact hP.callText h _ name source
  | execute name source => exact hP.execute h name source

theorem serveAll (hP : Lasting P) (h : P r) (requests : List Request) :
    P (r.serveAll requests).2 := by
  induction requests generalizing r with
  | nil => exact h
  | cons request rest ih => exact ih (hP.serve h request)

end Lasting

/-! ### Untainted instances -/

/-- A runner of a guest, whose instance is as it was started if no call was made into it. -/
structure Clean (g : Guest γ) (c : Config) (r : Runner γ) : Prop where
  guest : r.guest = g
  config : r.config = c
  untainted : ∀ i, r.state = .ready i false → Instance.boot c g = .ok i

theorem clean_new (g : Guest γ) (c : Config) : Clean g c (new g c) := ⟨rfl, rfl, nofun⟩

/-- A call taints the instance. -/
theorem stateAfter_ne_untainted {α : Type} (i j : Instance γ) (result : Except Failure α) :
    stateAfter i result ≠ .ready j false := by
  unfold stateAfter
  cases result with
  | ok => nofun
  | error f =>
    intro h
    dsimp only at h
    split at h <;> cases h

theorem Clean.restart (h : Clean g c r) : Clean g c r.restart.2 := by
  obtain ⟨rfl, rfl, -⟩ := h
  unfold Runner.restart
  split
  · next i hboot =>
    refine ⟨rfl, rfl, fun j hj => ?_⟩
    cases hj
    exact hboot
  · exact ⟨rfl, rfl, nofun⟩

/-- Whatever is asked for, an instance that no call was made into stays as it was started. -/
theorem lasting_clean (g : Guest γ) (c : Config) : Lasting (Clean g c) where
  restart := Clean.restart
  call h _ _ _ _ _ := ⟨h.guest, h.config, fun j hj => absurd hj (stateAfter_ne_untainted _ j _)⟩

theorem Clean.serve (h : Clean g c r) (request : Request) : Clean g c (r.serve request).2 :=
  (lasting_clean g c).serve h request

theorem Clean.serveAll (h : Clean g c r) (requests : List Request) :
    Clean g c (r.serveAll requests).2 := (lasting_clean g c).serveAll h requests

/-! ### Executing from a clean slate -/

/-- Starts the guest anew in any case, and then executes a script. -/
def executeAnew (r : Runner γ) (name source : List Char) :
    Except HostError Outcome × Runner γ :=
  match r.restart with
  | (.error e, r) => (.error e, r)
  | (.ok (), r) => r.executeHere name source

/-- A runner that is ready and not tainted holds an instance that no call was made into. -/
theorem state_eq_untainted (h : (!r.isReady || r.tainted) = false) :
    ∃ i, r.state = .ready i false := by
  rw [Bool.or_eq_false_iff, Bool.not_eq_false'] at h
  obtain ⟨hready, htainted⟩ := h
  unfold tainted at htainted
  unfold isReady phase at hready
  cases hstate : r.state with
  | uninitialized => simp [hstate] at hready
  | faulted i => simp [hstate] at hready
  | ready i tainted =>
    simp only [hstate] at htainted
    exact ⟨i, by rw [htainted]⟩

/-- Starting a guest anew that no call was made into changes nothing. -/
theorem Clean.restart_eq (h : Clean g c r) {i : Instance γ} (hstate : r.state = .ready i false) :
    r.restart = (.ok (), r) := by
  have hboot := h.untainted i hstate
  obtain ⟨guest, config, state⟩ := r
  obtain ⟨rfl, rfl, -⟩ := h
  cases hstate
  simp only [Runner.restart, hboot]

/-- Leaving a restart out makes no difference. -/
theorem Clean.execute_eq (h : Clean g c r) (name source : List Char) :
    r.execute name source = r.executeAnew name source := by
  unfold Runner.execute executeAnew
  split
  · rfl
  · next hno =>
    rw [Bool.not_eq_true] at hno
    unfold needsRestart at hno
    split at hno
    · cases hno
    · obtain ⟨i, hstate⟩ := state_eq_untainted hno
      rw [h.restart_eq hstate]

/-- What comes of starting anew depends on the guest and the configuration alone. -/
theorem Clean.executeAnew_eq (h : Clean g c r) (name source : List Char) :
    r.executeAnew name source = (new g c).executeAnew name source := by
  obtain ⟨guest, config, state⟩ := r
  obtain ⟨rfl, rfl, -⟩ := h
  rfl

/-- However two runners of a guest came about, executing a script gives the same result on both,
leaves both in the same state, and is what a new runner makes of it. -/
theorem execute_history_independent (g : Guest γ) (c : Config) (before before' : List Request)
    (name source : List Char) :
    ((new g c).serveAll before).2.execute name source =
        ((new g c).serveAll before').2.execute name source ∧
      ((new g c).serveAll before).2.execute name source = (new g c).execute name source := by
  have any (history : List Request) :
      ((new g c).serveAll history).2.execute name source =
        (new g c).executeAnew name source := by
    have clean := (clean_new g c).serveAll history
    rw [clean.execute_eq, clean.executeAnew_eq]
  exact ⟨(any before).trans (any before').symm, (any before).trans (any []).symm⟩

/-! ### The two restart policies -/

/-- What can be seen of a runner: its phase, whether it takes calls, and all that the host heard
from the instance. -/
structure View where
  phase : Phase
  ready : Bool
  heard : Option Listener

/-- The view of a runner. -/
def view (r : Runner γ) : View := ⟨r.phase, r.isReady, r.instance?.map Instance.listener⟩

/-- The responses to requests, each with what can be seen after it. -/
def transcript (r : Runner γ) : List Request → List (Response × View)
  | [] => []
  | request :: rest =>
    ((r.serve request).1, (r.serve request).2.view) :: (r.serve request).2.transcript rest

/-- The runner under another restart policy. -/
def withPolicy (r : Runner γ) (p : RestartPolicy) : Runner γ :=
  { r with config := { r.config with restartPolicy := p } }

section Policy
variable (p : RestartPolicy)

/-- The policy plays no part in starting a guest. -/
theorem boot_withPolicy (g : Guest γ) (c : Config) :
    Instance.boot { c with restartPolicy := p } g = Instance.boot c g := rfl

theorem Clean.withPolicy (h : Clean g c r) :
    Clean g { c with restartPolicy := p } (r.withPolicy p) := by
  obtain ⟨rfl, rfl, untainted⟩ := h
  exact ⟨rfl, rfl, fun i hi => (boot_withPolicy p _ _).trans (untainted i hi)⟩

theorem restart_withPolicy (r : Runner γ) :
    (r.withPolicy p).restart = r.restart.map id (·.withPolicy p) := by
  have hboot : Instance.boot (r.withPolicy p).config (r.withPolicy p).guest =
      Instance.boot r.config r.guest := boot_withPolicy p _ _
  unfold restart
  rw [hboot]
  cases Instance.boot r.config r.guest <;> rfl

theorem init_withPolicy (r : Runner γ) :
    (r.withPolicy p).init = r.init.map id (·.withPolicy p) := by
  have hready : (r.withPolicy p).isReady = r.isReady := rfl
  unfold init
  rw [hready]
  split
  · rfl
  · exact restart_withPolicy p r

theorem callText_withPolicy (r : Runner γ) (function : Exports γ → Arguments → Image γ → Run γ)
    (name source : List Char) :
    (r.withPolicy p).callText function name source =
      (r.callText function name source).map id (·.withPolicy p) := by
  obtain ⟨guest, config, state⟩ := r
  cases state <;> rfl

theorem executeHere_withPolicy (r : Runner γ) (name source : List Char) :
    (r.withPolicy p).executeHere name source =
      (r.executeHere name source).map id (·.withPolicy p) := by
  obtain ⟨guest, config, state⟩ := r
  cases state <;> rfl

theorem executeAnew_withPolicy (r : Runner γ) (name source : List Char) :
    (r.withPolicy p).executeAnew name source =
      (r.executeAnew name source).map id (·.withPolicy p) := by
  unfold executeAnew
  rw [restart_withPolicy]
  rcases r.restart with ⟨_ | _, started⟩
  · rfl
  · exact executeHere_withPolicy p started name source

/-- On a clean runner each request gets the same response under any policy, and leads to the same
runner but for the policy. -/
theorem Clean.serve_withPolicy (h : Clean g c r) (request : Request) :
    (r.withPolicy p).serve request = (r.serve request).map id (·.withPolicy p) := by
  cases request with
  | init =>
    simp only [Runner.serve, init_withPolicy, Prod.map_map]
    rfl
  | restart =>
    simp only [Runner.serve, restart_withPolicy, Prod.map_map]
    rfl
  | tokenize name source | parse name source =>
    simp only [Runner.serve, tokenize, parse, callText_withPolicy, Prod.map_map]
    rfl
  | execute name source =>
    simp only [Runner.serve, (h.withPolicy p).execute_eq, h.execute_eq, executeAnew_withPolicy,
      Prod.map_map]
    rfl

theorem Clean.transcript_withPolicy (h : Clean g c r) (requests : List Request) :
    (r.withPolicy p).transcript requests = r.transcript requests := by
  induction requests generalizing r with
  | nil => rfl
  | cons request rest ih =>
    simp only [transcript, h.serve_withPolicy p request, Prod.map_fst, Prod.map_snd, id_eq,
      ih (h.serve request)]
    rfl

end Policy

/-- Restarting only where a call was made or the guest is not ready cannot be told from restarting
always: each request gets the same response, and the same can be seen after it. -/
theorem transcript_always_eq_whenTainted (g : Guest γ) (c : Config) (requests : List Request) :
    (new g { c with restartPolicy := .always }).transcript requests =
      (new g { c with restartPolicy := .whenTainted }).transcript requests :=
  (clean_new g { c with restartPolicy := .whenTainted }).transcript_withPolicy .always requests

end Runner

end Shepherd.Host
