import Shepherd.Proofs.Runner.Registers

/-!
# The life of an instance

An instance is started, takes calls, and takes no more of them once one of the guest's functions,
the allocator included, raised a trap; whatever else goes wrong in a call, it stays ready. This
follows the registers of a runner through any requests.
-/

namespace Shepherd.Host
open Sandbox Text

variable {γ : Type}

/-! ### Runs that raise a trap -/

/-- The run of a function ends in a trap, where the host answers its calls. -/
inductive Raises : Run γ → Listener → Trap → Prop
  | done {t : Trap} {after : Image γ} {l : Listener} : Raises (.done (.error t) after) l t
  | log {line : Extent} {now : Image γ} {next : Run γ} {l : Listener} {t : Trap}
    (h : Raises next (l.hear now.memory line) t) : Raises (.log line now next) l t
  | closed {file : UInt32} {text : Extent} {now : Image γ} {next : Bool → Run γ} {l : Listener}
    {t : Trap} (shut : Listener.isOpen file = false) (h : Raises (next false) l t) :
    Raises (.write file text now next) l t
  | empty {file : UInt32} {text : Extent} {now : Image γ} {next : Bool → Run γ} {l : Listener}
    {t : Trap} (known : Listener.isOpen file = true) (none : text.len = 0)
    (h : Raises (next true) l t) : Raises (.write file text now next) l t
  | written {file : UInt32} {text : Extent} {now : Image γ} {next : Bool → Run γ} {l : Listener}
    {t : Trap} {bytes : List UInt8} (known : Listener.isOpen file = true) (some : text.len ≠ 0)
    (read : now.memory.read text.ptr.toNat text.len.toNat = .ok bytes)
    (h : Raises (next (l.take file bytes).2) (l.take file bytes).1 t) :
    Raises (.write file text now next) l t

/-- A run fails with a trap if it raises it. -/
theorem answer_eq_trap_iff {run : Run γ} {l : Listener} {t : Trap} :
    (answer true run l).1 = .error (.trap t) ↔ Raises run l t := by
  induction run generalizing l with
  | done result after =>
    constructor
    · intro h
      cases result with
      | ok value => cases h
      | error t' =>
        cases h
        exact .done
    · intro h
      cases h
      rfl
  | exit code after =>
    constructor
    · intro h
      cases h
    · intro h
      cases h
  | log line now next ih =>
    rw [answer, if_pos rfl, ih]
    constructor
    · exact .log
    · intro h
      cases h with
      | log h => exact h
  | write file text now next ih =>
    rw [answer, if_neg (by decide)]
    constructor
    · intro h
      split at h
      · next shut => exact .closed (by simpa using shut) ((ih false).1 h)
      · next known =>
        have known : Listener.isOpen file = true := by simpa using known
        split at h
        · next none => exact .empty known none ((ih true).1 h)
        · next some =>
          split at h
          · cases h
          · next bytes read => exact .written known some read ((ih _).1 h)
    · intro h
      cases h with
      | closed shut h => simpa [shut] using (ih false).2 h
      | empty known none h => simpa [known, none] using (ih true).2 h
      | written known some read h => simpa [known, some, read] using (ih _).2 h

/-! ### Calls that raise a trap -/

theorem isTrap_iff {f : Failure} : f.isTrap = true ↔ ∃ t, f = .trap t := by
  cases f <;> simp [Failure.isTrap, Failure.trap?]

namespace Instance
variable {i : Instance γ} {function : Arguments → Image γ → Run γ} {text name source : List Char}

/-- The call of the allocator that asks for room for a text. -/
def allocation (i : Instance γ) (text : List Char) : Run γ :=
  i.exports.malloc (UInt32.ofNat (encodeUtf8 text).length) i.image

/-- The runs of guest functions that a call consists of, each with what the host heard before: the
allocator for the name, then for the script, and then the function. -/
inductive Enters (i : Instance γ) (function : Arguments → Image γ → Run γ)
    (name source : List Char) : Run γ → Listener → Prop
  | name (fits : fitsInt32 (encodeUtf8 name).length = true) :
    Enters i function name source (i.allocation name) i.listener
  | source {nameAt : Extent} {i' : Instance γ} (written : i.writeText name = (.ok nameAt, i'))
    (fits : fitsInt32 (encodeUtf8 source).length = true) :
    Enters i function name source (i'.allocation source) i'.listener
  | function {nameAt sourceAt : Extent} {i' i'' : Instance γ}
    (written : i.writeText name = (.ok nameAt, i'))
    (written' : i'.writeText source = (.ok sourceAt, i'')) :
    Enters i function name source (function ⟨nameAt, sourceAt⟩ i''.image) i''.listener

/-- One of the guest functions that a call consists of raises a trap. -/
def Traps (i : Instance γ) (function : Arguments → Image γ → Run γ) (name source : List Char) :
    Prop :=
  ∃ run l t, Enters i function name source run l ∧ Raises run l t

theorem enter_eq_trap_iff {routine : Image γ → Run γ} {t : Trap} :
    (i.enter routine).1 = .error (.trap t) ↔ Raises (routine i.image) i.listener t :=
  answer_eq_trap_iff

/-- Writing a text fails with a trap only in the allocator. -/
theorem writeText_eq_trap_iff {t : Trap} :
    (i.writeText text).1 = .error (.trap t) ↔
      fitsInt32 (encodeUtf8 text).length = true ∧ Raises (i.allocation text) i.listener t := by
  rw [allocation, ← enter_eq_trap_iff]
  unfold writeText
  dsimp only
  cases fitsInt32 (encodeUtf8 text).length with
  | false => simp
  | true =>
    rcases i.enter (i.exports.malloc (UInt32.ofNat (encodeUtf8 text).length)) with ⟨f | ptr, i'⟩
    · simp
    · simp only [Bool.not_true, Bool.false_eq_true, ↓reduceIte]
      split <;> simp

/-- A call fails with a trap if one of the functions that it consists of raises one. -/
theorem call_eq_trap_iff :
    (∃ t, (i.call function name source).1 = .error (.trap t)) ↔ i.Traps function name source := by
  constructor
  · rintro ⟨t, h⟩
    rw [call] at h
    split at h
    · next f i' hname =>
      cases h
      obtain ⟨fits, hraises⟩ := writeText_eq_trap_iff.1 (congrArg Prod.fst hname)
      exact ⟨_, _, t, .name fits, hraises⟩
    · next nameAt i' hname =>
      split at h
      · next f i'' hsource =>
        cases h
        obtain ⟨fits, hraises⟩ := writeText_eq_trap_iff.1 (congrArg Prod.fst hsource)
        exact ⟨_, _, t, .source hname fits, hraises⟩
      · next sourceAt i'' hsource =>
        exact ⟨_, _, t, .function hname hsource, enter_eq_trap_iff.1 h⟩
  · rintro ⟨run, l, t, henters, hraises⟩
    refine ⟨t, ?_⟩
    cases henters with
    | name fits =>
      have htrap := writeText_eq_trap_iff.2 ⟨fits, hraises⟩
      rcases hname : i.writeText name with ⟨f | nameAt, i'⟩
      · rw [hname] at htrap
        cases htrap
        simp only [call, hname]
      · rw [hname] at htrap
        cases htrap
    | source hname fits =>
      have htrap := writeText_eq_trap_iff.2 ⟨fits, hraises⟩
      rename_i nameAt i'
      rcases hsource : i'.writeText source with ⟨f | sourceAt, i''⟩
      · rw [hsource] at htrap
        cases htrap
        simp only [call, hname, hsource]
      · rw [hsource] at htrap
        cases htrap
    | function hname hsource =>
      simp only [call, hname, hsource]
      exact enter_eq_trap_iff.2 hraises

/-- The instance as it is when it executes a script. -/
def consoleCleared (i : Instance γ) : Instance γ := { i with listener := i.listener.clearConsole }

/-! ### Starts that fail -/

theorem grown_eq_error {c : Config} {g : Guest γ} {image : Image γ} {e : HostError}
    (h : grown c g image = .error e) : ∃ m, e = .memory m := by
  unfold grown at h
  split at h
  · split at h
    · cases h
    · next m _ =>
      cases h
      exact ⟨m, rfl⟩
  · cases h

theorem startedUp_eq_error {c : Config} {g : Guest γ} {image : Image γ} {e : HostError}
    (h : startedUp c g image = .error e) : ∃ entry f, e = .startUpFailed entry f := by
  unfold startedUp at h
  split at h
  · cases h
  · next entry routine _ =>
    split at h
    · cases h
    · cases h
    · next f _ _ _ =>
      cases h
      exact ⟨entry, f, rfl⟩

/-- A start never fails for want of one. -/
theorem boot_eq_error {c : Config} {g : Guest γ} {e : HostError} (h : boot c g = .error e) :
    e ≠ .notReady ∧ e ≠ .faulted := by
  unfold boot at h
  split at h
  · cases h
    exact ⟨nofun, nofun⟩
  · next image _ =>
    rcases hgrown : grown c g image with e' | image'
    · obtain ⟨m, rfl⟩ := grown_eq_error hgrown
      rw [hgrown] at h
      cases h
      exact ⟨nofun, nofun⟩
    · rcases hstarted : startedUp c g image' with e' | after
      · obtain ⟨entry, f, rfl⟩ := startedUp_eq_error hstarted
        simp only [hgrown, hstarted, bind, Except.bind] at h
        cases h
        exact ⟨nofun, nofun⟩
      · simp only [hgrown, hstarted, bind, Except.bind] at h
        split at h
        · cases h
        · cases h
          exact ⟨nofun, nofun⟩

end Instance

/-! ### Single requests -/

/-- The guest function that a request for a text calls, and the script that it takes. -/
def Request.text? : Request →
    Option ((Exports γ → Arguments → Image γ → Run γ) × List Char × List Char)
  | .tokenize name source => some (Exports.tokenize, name, source)
  | .parse name source => some (Exports.parse, name, source)
  | .init | .restart | .execute _ _ => none

namespace Registers
variable {g : Guest γ} {c : Config} {s : Registers γ}

/-- There is no instance before the first start or behind a failed one, and then nothing is tainted;
an instance that trapped is. -/
structure Consistent (s : Registers γ) : Prop where
  live_eq_none_iff : s.live = none ↔ s.phase = .uninitialized
  untainted : s.phase = .uninitialized → s.tainted = false
  tainted : s.phase = .faulted → s.tainted = true

theorem Consistent.exists_live (h : Consistent s) (hphase : s.phase ≠ .uninitialized) :
    ∃ i, s.live = some i :=
  Option.ne_none_iff_exists'.1 fun hnone => hphase (h.live_eq_none_iff.1 hnone)

/-- A start fails and leaves no instance, or leaves a fresh one that is ready. -/
theorem boot_cases (g : Guest γ) (c : Config) (s : Registers γ) :
    (∃ e, Instance.boot c g = .error e ∧
      s.boot g c = (.error e, ⟨.uninitialized, none, false, s.starts ++ [.error e]⟩)) ∨
    ∃ i, Instance.boot c g = .ok i ∧
      s.boot g c = (.ok (), ⟨.ready, some i, false, s.starts ++ [.ok ()]⟩) := by
  unfold boot
  cases Instance.boot c g with
  | error e => exact .inl ⟨e, rfl, rfl⟩
  | ok i => exact .inr ⟨i, rfl, rfl⟩

/-- What a call of a ready guest leaves behind, given whether a function of the guest raised a
trap. -/
structure Called (s s' : Registers γ) (traps : Prop) : Prop where
  live : s'.live ≠ none
  tainted : s'.tainted = true
  starts : s'.starts = s.starts
  faulted_iff : s'.phase = .faulted ↔ traps
  ready_iff : s'.phase = .ready ↔ ¬ traps

/-- Leaving a call faults the guest if the call failed with a trap. -/
theorem called_leave (hphase : s.phase = .ready) (i : Instance γ)
    {result : Except Failure UInt32} {traps : Prop}
    (htraps : (∃ t, result = .error (.trap t)) ↔ traps) :
    Called s ({ s with tainted := true }.leave i result) traps := by
  rw [← htraps]
  cases result with
  | ok packed => exact ⟨nofun, rfl, rfl, by simp [leave, hphase], by simp [leave, hphase]⟩
  | error f =>
    simp only [Except.error.injEq, ← isTrap_iff]
    cases htrap : f.isTrap with
    | true => exact ⟨by simp [leave, htrap], by simp [leave, htrap], by simp [leave, htrap],
        by simp [leave, htrap], by simp [leave, htrap]⟩
    | false => exact ⟨by simp [leave, htrap], by simp [leave, htrap], by simp [leave, htrap],
        by simp [leave, htrap, hphase], by simp [leave, htrap, hphase]⟩

/-- A call leaves the registers consistent. -/
theorem Called.consistent {s' : Registers γ} {traps : Prop} (h : Called s s' traps) :
    Consistent s' := by
  by_cases htraps : traps
  · have hphase := h.faulted_iff.2 htraps
    exact ⟨by simp [h.live, hphase], by simp [hphase], fun _ => h.tainted⟩
  · have hphase := h.ready_iff.2 htraps
    exact ⟨by simp [h.live, hphase], by simp [hphase], by simp [hphase]⟩

variable {function : Exports γ → Arguments → Image γ → Run γ} {name source : List Char}

theorem callText_of_uninitialized (hphase : s.phase = .uninitialized) :
    s.callText function name source = (.error .notReady, s) := by
  simp only [callText, readyGuest, hphase]

theorem callText_of_faulted (hphase : s.phase = .faulted) :
    s.callText function name source = (.error .faulted, s) := by
  simp only [callText, readyGuest, hphase]

theorem readyGuest_of_ready {i : Instance γ} (hphase : s.phase = .ready)
    (hlive : s.live = some i) : s.readyGuest = .ok i := by
  simp only [readyGuest, hphase, hlive]

theorem called_callText {i : Instance γ} (hphase : s.phase = .ready) (hlive : s.live = some i) :
    Called s (s.callText function name source).2 (i.Traps (function i.exports) name source) := by
  have htraps : (∃ t, (i.call (function i.exports) name source).1 = .error (.trap t)) ↔
      i.Traps (function i.exports) name source := Instance.call_eq_trap_iff
  unfold callText
  rw [readyGuest_of_ready hphase hlive]
  simp only
  rcases hcall : i.call (function i.exports) name source with ⟨result, i'⟩
  rw [hcall] at htraps
  cases result with
  | ok packed => exact called_leave hphase i' htraps
  | error f => exact called_leave hphase i' htraps

/-- A ready guest executes scripts, whatever comes of it. -/
theorem called_executeHere {i : Instance γ} (hphase : s.phase = .ready) (hlive : s.live = some i)
    (name source : List Char) :
    (∃ o, (s.executeHere name source).1 = .ok o) ∧
      Called s (s.executeHere name source).2
        (i.consoleCleared.Traps i.exports.execute name source) := by
  have htraps :
      (∃ t, (i.consoleCleared.call i.exports.execute name source).1 = .error (.trap t)) ↔
        i.consoleCleared.Traps i.exports.execute name source := Instance.call_eq_trap_iff
  unfold executeHere
  rw [readyGuest_of_ready hphase hlive]
  simp only
  rcases hcall : i.consoleCleared.call i.exports.execute name source with ⟨result, i'⟩
  rw [hcall] at htraps
  rw [Instance.consoleCleared] at hcall
  simp only [hcall]
  cases result with
  | ok packed => exact ⟨⟨_, rfl⟩, called_leave hphase i' htraps⟩
  | error f => exact ⟨⟨_, rfl⟩, called_leave hphase i' htraps⟩

/-! ### Executing a script -/

/-- What executing a script comes to: its answer is an error if a start that it performed failed,
and nothing is left then. Otherwise the script was called, on the instance at hand or a fresh
one. -/
structure Execution (g : Guest γ) (c : Config) (s : Registers γ) (name source : List Char)
    (answer : Except HostError Outcome) (s' : Registers γ)
    (performed : List (Except HostError Unit)) : Prop where
  starts : s'.starts = s.starts ++ performed
  ne_notReady : answer ≠ .error .notReady
  ne_faulted : answer ≠ .error .faulted
  error_iff : (∃ e, answer = .error e) ↔ ∃ e, .error e ∈ performed
  failed : (∃ e, .error e ∈ performed) →
    s'.phase = .uninitialized ∧ s'.live = none ∧ s'.tainted = false
  called : (∀ e, .error e ∉ performed) → ∃ i,
    (performed = [] ∧ s.live = some i ∨ performed = [.ok ()] ∧ Instance.boot c g = .ok i) ∧
    (∃ o, answer = .ok o) ∧ s'.live ≠ none ∧ s'.tainted = true ∧
    (s'.phase = .faulted ↔ i.consoleCleared.Traps i.exports.execute name source) ∧
    (s'.phase = .ready ↔ ¬ i.consoleCleared.Traps i.exports.execute name source)

theorem execution_of_failed_start {e : HostError} (hboot : Instance.boot c g = .error e) :
    Execution g c s name source (.error e)
      ⟨.uninitialized, none, false, s.starts ++ [.error e]⟩ [.error e] := by
  obtain ⟨hready, hfaulted⟩ := Instance.boot_eq_error hboot
  refine ⟨rfl, by simpa using hready, by simpa using hfaulted, by simp, fun _ => ⟨rfl, rfl, rfl⟩,
    fun hnone => ?_⟩
  exact absurd (List.mem_singleton.2 rfl) (hnone _)

theorem execution_of_ready {s₀ : Registers γ} {i : Instance γ}
    {performed : List (Except HostError Unit)} (hphase : s₀.phase = .ready)
    (hlive : s₀.live = some i) (hstarts : s₀.starts = s.starts ++ performed)
    (hfrom : performed = [] ∧ s.live = some i ∨
      performed = [.ok ()] ∧ Instance.boot c g = .ok i) :
    Execution g c s name source (s₀.executeHere name source).1 (s₀.executeHere name source).2
      performed := by
  obtain ⟨⟨o, ho⟩, hcalled⟩ := called_executeHere hphase hlive name source
  have hgood : ¬ ∃ e, .error e ∈ performed := by
    rintro ⟨e, he⟩
    rcases hfrom with ⟨rfl, -⟩ | ⟨rfl, -⟩ <;> simp at he
  refine ⟨hcalled.starts.trans hstarts, by simp [ho], by simp [ho], ?_,
    fun hbad => absurd hbad hgood, fun _ => ⟨i, hfrom, ⟨o, ho⟩, hcalled.live, hcalled.tainted,
      hcalled.faulted_iff, hcalled.ready_iff⟩⟩
  rw [ho, iff_false_right hgood]
  rintro ⟨e, he⟩
  cases he

theorem execution_execute (g : Guest γ) (c : Config) (consistent : Consistent s)
    (name source : List Char) :
    ∃ performed, Execution g c s name source (s.execute g c name source).1
      (s.execute g c name source).2 performed := by
  cases hneeds : s.needsRestart c with
  | true =>
    rw [execute, if_pos hneeds]
    obtain ⟨e, hboot, heq⟩ | ⟨i, hboot, heq⟩ := boot_cases g c s <;> rw [heq]
    · exact ⟨_, execution_of_failed_start hboot⟩
    · exact ⟨_, execution_of_ready rfl rfl rfl (.inr ⟨rfl, hboot⟩)⟩
  | false =>
    have hphase : s.phase = .ready := by
      unfold needsRestart at hneeds
      split at hneeds
      · cases hneeds
      · simpa using (Bool.or_eq_false_iff.1 hneeds).1
    obtain ⟨i, hlive⟩ := consistent.exists_live (by simp [hphase])
    rw [execute, if_neg (by simp [hneeds])]
    exact ⟨[], execution_of_ready hphase hlive (List.append_nil _).symm (.inl ⟨rfl, hlive⟩)⟩

theorem Execution.consistent {answer : Except HostError Outcome} {s' : Registers γ}
    {performed : List (Except HostError Unit)}
    (h : Execution g c s name source answer s' performed) : Consistent s' := by
  by_cases hbad : ∃ e, .error e ∈ performed
  · obtain ⟨hphase, hlive, htainted⟩ := h.failed hbad
    exact ⟨by simp [hphase, hlive], fun _ => htainted, by simp [hphase]⟩
  · obtain ⟨i, -, -, hlive, htainted, hfaulted, hready⟩ :=
      h.called fun e he => hbad ⟨e, he⟩
    exact (Called.mk (s := s') hlive htainted rfl hfaulted hready).consistent

/-! ### Any requests -/

theorem init_of_ready (hready : s.phase = .ready) : s.init g c = (.ok (), s) := if_pos hready

theorem init_of_not_ready (hready : s.phase ≠ .ready) : s.init g c = s.boot g c := if_neg hready

theorem consistent_boot (g : Guest γ) (c : Config) (s : Registers γ) :
    Consistent (s.boot g c).2 := by
  obtain ⟨e, -, heq⟩ | ⟨i, -, heq⟩ := boot_cases g c s <;> rw [heq]
  · exact ⟨by simp, fun _ => rfl, nofun⟩
  · exact ⟨by simp, nofun, nofun⟩

theorem Consistent.callText (h : Consistent s) :
    Consistent (s.callText function name source).2 := by
  cases hphase : s.phase with
  | uninitialized => rwa [callText_of_uninitialized hphase]
  | faulted => rwa [callText_of_faulted hphase]
  | ready =>
    obtain ⟨i, hlive⟩ := h.exists_live (by simp [hphase])
    exact (called_callText hphase hlive).consistent

/-- Every request keeps the registers consistent. -/
theorem Consistent.serve (h : Consistent s) (g : Guest γ) (c : Config) (request : Request) :
    Consistent (s.serve g c request).2 := by
  cases request with
  | init =>
    by_cases hready : s.phase = .ready
    · rw [Registers.serve, init_of_ready hready]
      exact h
    · rw [Registers.serve, init_of_not_ready hready]
      exact consistent_boot g c s
  | restart => exact consistent_boot g c s
  | tokenize name source | parse name source => exact h.callText
  | execute name source =>
    obtain ⟨performed, hexecution⟩ := execution_execute g c h name source
    exact hexecution.consistent

theorem Consistent.serveAll (h : Consistent s) (g : Guest γ) (c : Config)
    (history : List Request) : Consistent (s.serveAll g c history).2 := by
  induction history generalizing s with
  | nil => exact h
  | cons request rest ih => exact ih (h.serve g c request)

end Registers

end Shepherd.Host
