import Shepherd.Playthrough
import Shepherd.Proofs.Board.Solved

/-!
# All or nothing

A playthrough that ends in an error, of the host or of the decoder, has not moved the board. Else
the board has taken the whole trace, as if it had been replayed at once: pauses, exit code and error
stream decide what is reported, and never what the board does.
-/

namespace Shepherd.Playthrough
open Grid Script Host

variable {b : Board} {delay : Nat}

/-! ### Replaying tick by tick -/

/-- Whatever was paused before, the ticks do to the board what replaying does. -/
theorem board_foldl_tick (done : Replayed) (actions : List Action) (index : Nat) :
    ((actions.zipIdx index).foldl (tick delay) done).board = done.board.replay actions := by
  induction actions generalizing done index with
  | nil => rfl
  | cons a actions ih => rw [List.zipIdx_cons, List.foldl_cons, ih, tick, Board.replay_cons]

/-- Ticks behind the first wait for the delay each. -/
theorem pause_foldl_tick (done : Replayed) (actions : List Action) {index : Nat}
    (later : 0 < index) :
    ((actions.zipIdx index).foldl (tick delay) done).pause =
      done.pause + delay * actions.length := by
  induction actions generalizing done index with
  | nil => rfl
  | cons a actions ih =>
    have hpause : (tick delay done (a, index)).pause = done.pause + delay := by
      by_cases h : delay = 0
      · simp [tick, h]
      · simp [tick, h, later]
    rw [List.zipIdx_cons, List.foldl_cons, ih _ (Nat.succ_pos index), hpause, List.length_cons,
      Nat.mul_succ]
    omega

/-- Pausing between the actions makes no difference to the board. -/
theorem replay_board (delay : Nat) (b : Board) (actions : List Action) :
    (replay delay b actions).board = b.replay actions :=
  board_foldl_tick ⟨b, 0⟩ actions 0

/-- There is one pause less than there are actions. -/
theorem replay_pause (delay : Nat) (b : Board) (actions : List Action) :
    (replay delay b actions).pause = delay * (actions.length - 1) := by
  cases actions with
  | nil => rfl
  | cons a actions =>
    rw [replay, List.zipIdx_cons, List.foldl_cons, pause_foldl_tick _ _ (Nat.succ_pos 0)]
    simp [tick]

/-! ### What is reported -/

theorem succeeded_iff {o : Outcome} : o.succeeded = true ↔ o.exitCode = 0 ∧ o.stderr = [] := by
  rw [Outcome.succeeded, Bool.and_eq_true, beq_iff_eq, List.isEmpty_iff]

variable {s : Session} {o : Outcome}

/-- What comes of an output that cannot be decoded. -/
theorem finish_of_error {e : ProtocolError} (h : s.decode o.stdout = .error e) :
    finish s delay b o =
      (⟨.failed (.protocol e o.exitCode o.stderr) none, b.solveState none,
        (s.programOutput o.stdout).filter (· ≠ []), 0⟩, b) := by
  rw [finish, h]

/-- What comes of an output that can be decoded. -/
theorem finish_of_ok {t : Trace} (h : s.decode o.stdout = .ok t) :
    finish s delay b o =
      (⟨if o.succeeded then .completed t else .failed (.guest o.exitCode o.stderr) (some t),
        (b.replay t.actions).solveState (some t), (s.programOutput o.stdout).filter (· ≠ []),
        delay * (t.actions.length - 1)⟩, b.replay t.actions) := by
  rw [finish, h]
  simp only [replay_board, replay_pause]

theorem solved_iff {r : RunReport} :
    r.solved = true ↔ r.failure? = none ∧ r.solve.solved = true := by
  rw [RunReport.solved, Bool.and_eq_true, Option.isNone_iff_eq_none]

/-- Only an execution that ended well, with an output that can be decoded, can solve a level. -/
theorem solved_finish_iff :
    (finish s delay b o).1.solved = true ↔
      o.exitCode = 0 ∧ o.stderr = [] ∧ ∃ t, s.decode o.stdout = .ok t ∧
        ((b.replay t.actions).solveState (some t)).solved = true := by
  rw [solved_iff]
  cases hdecode : s.decode o.stdout with
  | error e =>
    rw [finish_of_error hdecode]
    exact ⟨fun h => (nomatch h.1), fun ⟨_, _, _, h, _⟩ => (nomatch h)⟩
  | ok t =>
    rw [finish_of_ok hdecode, ← and_assoc, ← succeeded_iff]
    cases hclean : o.succeeded with
    | false => exact ⟨fun h => (nomatch h.1), fun h => (nomatch h.1)⟩
    | true =>
      refine ⟨fun h => ⟨rfl, t, rfl, h.2⟩, fun ⟨_, t', ht', hsolved⟩ => ⟨rfl, ?_⟩⟩
      cases ht'
      exact hsolved

/-- **All or nothing.** An answer that is an error is the error of the run, and the board stays as
it was. An output that cannot be decoded fails the run and leaves the board as well; the guest's
exit code and error stream are kept beside the reason. Any other output has its whole trace
replayed, and the run is completed if the guest ended well and failed otherwise. The run solves the
level if the guest ended well, the output can be decoded, and the board then meets the objectives. -/
theorem run_all_or_nothing {ε γ : Type} (s : Session) (delay : Nat) (b : Board) :
    (∀ (r : Runner γ) (source : String),
      let answered := r.execute entryName (s.instrument source).toList
      let concluded := conclude s delay b answered.1
      runPaced delay s r b source = (concluded.1, answered.2, concluded.2)) ∧
    (∀ e : ε, conclude s delay b (.error e) = (.error e, b)) ∧
    ∀ o : Outcome, ∃ report b',
      conclude s delay b (.ok o : Except ε Outcome) = (.ok report, b') ∧
      (∀ e, s.decode o.stdout = .error e → b' = b ∧
        report.status = .failed (.protocol e o.exitCode o.stderr) none ∧
        report.solve = b.solveState none) ∧
      (∀ t, s.decode o.stdout = .ok t → b' = b.replay t.actions ∧
        report.solve = b'.solveState (some t) ∧
        (o.exitCode = 0 ∧ o.stderr = [] → report.status = .completed t) ∧
        (¬ (o.exitCode = 0 ∧ o.stderr = []) →
          report.status = .failed (.guest o.exitCode o.stderr) (some t))) ∧
      (report.solved = true ↔ o.exitCode = 0 ∧ o.stderr = [] ∧ ∃ t, s.decode o.stdout = .ok t ∧
        b'.agent.pos = b'.exit.pos ∧ b'.coverage.current = b'.coverage.total ∧
        Within b'.limits.maxActions t.actions.length ∧
        Within b'.limits.maxCalls t.callCount.toNat) ∧
      report.output = (s.programOutput o.stdout).filter (· ≠ []) := by
  refine ⟨fun r source => rfl, fun e => rfl, fun o =>
    ⟨(finish s delay b o).1, (finish s delay b o).2, rfl, fun e hdecode => ?_, fun t hdecode => ?_,
      ?_, ?_⟩⟩
  · rw [finish_of_error hdecode]
    exact ⟨rfl, rfl, rfl⟩
  · rw [finish_of_ok hdecode]
    refine ⟨rfl, rfl, fun hclean => ?_, fun hfailed => ?_⟩
    · exact if_pos (succeeded_iff.2 hclean)
    · exact if_neg (mt succeeded_iff.1 hfailed)
  · rw [solved_finish_iff]
    refine and_congr_right fun _ => and_congr_right fun _ => exists_congr fun t =>
      and_congr_right fun hdecode => ?_
    rw [finish_of_ok hdecode]
    exact Board.solved_solveState
  · cases hdecode : s.decode o.stdout with
    | error e => rw [finish_of_error hdecode]
    | ok t => rw [finish_of_ok hdecode]

/-- Two steps lead to the exit and solve the level; where a line behind the first step is malformed,
not even that step is taken. -/
theorem run_all_or_nothing_two_steps :
    ∃ b, Board.ofLayout ⟨3, ⟨⟨1, 2⟩, .north⟩, ⟨1, 0⟩, .none⟩ = .ok b ∧
      (∃ report, conclude ⟨['s'], rfl⟩ 400 b (.ok ⟨0, "__s__forward__\n__s__forward__\n".toList,
          [], []⟩ : Except HostError Outcome) = (.ok report, b.replay [.forward, .forward]) ∧
        report.solved = true) ∧
      ∃ report, conclude ⟨['s'], rfl⟩ 400 b (.ok ⟨0, "__s__forward__\n__s__fly__\n".toList,
          [], []⟩ : Except HostError Outcome) = (.ok report, b) ∧
        report.solve = b.solveState none := by
  refine ⟨_, rfl, ?_, ?_⟩
  · obtain ⟨-, -, hanswer⟩ := run_all_or_nothing (ε := HostError) (γ := Unit) ⟨['s'], rfl⟩ 400 _
    obtain ⟨report, b', heq, -, hok, hsolved, -⟩ :=
      hanswer ⟨0, "__s__forward__\n__s__forward__\n".toList, [], []⟩
    obtain ⟨rfl, -⟩ := hok ⟨[.forward, .forward], fun _ => none, 0, 0⟩ rfl
    refine ⟨report, heq, hsolved.2 ⟨rfl, rfl, _, rfl, by decide +kernel, by decide +kernel, ?_, ?_⟩⟩
    · intro max hmax
      cases hmax
    · intro max hmax
      cases hmax
  · obtain ⟨-, -, hanswer⟩ := run_all_or_nothing (ε := HostError) (γ := Unit) ⟨['s'], rfl⟩ 400 _
    obtain ⟨report, b', heq, herror, -⟩ :=
      hanswer ⟨0, "__s__forward__\n__s__fly__\n".toList, [], []⟩
    obtain ⟨rfl, -, hsolve⟩ := herror ⟨"__s__fly__", .unknownAction "fly"⟩ rfl
    exact ⟨report, heq, hsolve⟩

end Shepherd.Playthrough
