import Shepherd.Proofs.Board.Reachable
import Shepherd.Proofs.Board.Solved

/-!
# Verdicts

What a verdict on a level depends on. No operation reads the limits of a board, so a board with
other limits goes through the same states; and of the limits and the trace, the limit on characters
and the size of the script only meet in a check that is reported and decides nothing. So two runs
that differ in these alone end with the same verdict.
-/

namespace Shepherd.Grid

namespace Board
variable {b : Board}

/-! ### Operations do not read limits -/

/-- The board with other limits. -/
def withLimits (b : Board) (l : Limits) : Board := { b with limits := l }

section Limits
variable (b) (l : Limits)

theorem addItems_withLimits (items : List Item) : (b.withLimits l).addItems items =
    (b.addItems items).map fun (b', ids) => (b'.withLimits l, ids) := by
  simp only [addItems, withLimits]
  split <;> rfl

theorem remove_withLimits (id : EntityId) : (b.withLimits l).remove id =
    (b.remove id).map fun (b', e) => (b'.withLimits l, e) := by
  have hfound : (b.withLimits l).entity? id = b.entity? id := rfl
  rw [remove, remove, hfound]
  cases b.entity? id with
  | none => rfl
  | some e =>
    have hfixed : (id = (b.withLimits l).agent.id ∨ id = (b.withLimits l).exit.id) ↔
        (id = b.agent.id ∨ id = b.exit.id) := Iff.rfl
    simp only [hfixed]
    split <;> rfl

theorem trackCarried_withLimits :
    (b.withLimits l).trackCarried = b.trackCarried.withLimits l := by
  simp only [trackCarried, withLimits]
  split <;> rfl

theorem resized_withLimits (size : Int) :
    (b.withLimits l).resized size = (b.resized size).map (withLimits · l) := by
  rw [resized, resized]
  split
  · rfl
  · exact congrArg Except.ok ((b.cropped size).pruneLinks.trackCarried_withLimits l)

theorem step_withLimits (goal : Position) :
    (b.withLimits l).step goal = (b.step goal).withLimits l := by
  have hblocked : (b.withLimits l).blocked (goal.clamp b.size) = b.blocked (goal.clamp b.size) := rfl
  have hsize : (b.withLimits l).size = b.size := rfl
  simp only [step, hsize, hblocked]
  split <;> rfl

theorem move_withLimits (a : Action) : (b.withLimits l).move a = (b.move a).withLimits l := by
  cases a with
  | forward | backward | left | right => exact b.step_withLimits l _
  | turnLeft | turnRight => rfl

theorem settle_withLimits : (b.withLimits l).settle = b.settle.withLimits l := by
  have htarget (unit : EntityId) : (b.withLimits l).targetHere? unit = b.targetHere? unit := rfl
  have hunit : (b.withLimits l).unitHere? = b.unitHere? := rfl
  have hcarrying : (b.withLimits l).carrying = b.carrying := rfl
  rw [settle, settle, hcarrying]
  cases b.carrying with
  | some unit =>
    simp only [htarget]
    cases b.targetHere? unit <;> rfl
  | none =>
    simp only [hunit]
    cases b.unitHere? <;> rfl

theorem apply_withLimits (a : Action) : (b.withLimits l).apply a = (b.apply a).withLimits l := by
  rw [apply, move_withLimits, settle_withLimits, trackCarried_withLimits, apply]

theorem applyToken_withLimits (token : String) :
    (b.withLimits l).applyToken token = (b.applyToken token).map (withLimits · l) := by
  rw [applyToken, applyToken]
  cases Action.ofName? token with
  | none => rfl
  | some a => exact congrArg Except.ok (b.apply_withLimits l a)

theorem replay_withLimits (actions : List Action) :
    (b.withLimits l).replay actions = (b.replay actions).withLimits l := by
  induction actions generalizing b with
  | nil => rfl
  | cons a actions ih => rw [replay_cons, replay_cons, apply_withLimits, ih]

/-- An operation does to the board with other limits what it does to the board. -/
theorem perform_withLimits (op : Operation) :
    (b.withLimits l).perform op = (b.perform op).withLimits l := by
  cases op with
  | add items =>
    rw [perform, perform, addItems_withLimits]
    cases b.addItems items <;> rfl
  | remove id =>
    rw [perform, perform, remove_withLimits]
    cases b.remove id <;> rfl
  | resize size =>
    rw [perform, perform, resized_withLimits]
    cases b.resized size <;> rfl
  | act a => exact b.apply_withLimits l a
  | word token =>
    rw [perform, perform, applyToken_withLimits]
    cases b.applyToken token <;> rfl
  | replay actions => exact b.replay_withLimits l actions

theorem performAll_withLimits (ops : List Operation) :
    (b.withLimits l).performAll ops = (b.performAll ops).withLimits l := by
  induction ops generalizing b with
  | nil => rfl
  | cons op ops ih =>
    have hfirst : (b.withLimits l).performAll (op :: ops) =
        ((b.perform op).withLimits l).performAll ops :=
      congrArg (performAll · ops) (b.perform_withLimits l op)
    rw [hfirst, ih]
    rfl

end Limits

/-- The limits are those of the layout for ever. -/
theorem performAll_limits (b : Board) (ops : List Operation) :
    (b.performAll ops).limits = b.limits :=
  (congrArg limits (b.performAll_withLimits b.limits ops) :)

end Board

/-! ### Verdicts -/

/-- Evaluations that differ at most in the check of the size. -/
structure SolveState.SameButSize (s s' : SolveState) : Prop where
  solved : s.solved = s'.solved
  playerOnExit : s.playerOnExit = s'.playerOnExit
  herd : s.herd = s'.herd
  actions : s.economy.map (·.actions) = s'.economy.map (·.actions)
  calls : s.economy.map (·.calls) = s'.economy.map (·.calls)

namespace SolveState.SameButSize
variable {s s' s'' : SolveState}

theorem symm (h : s.SameButSize s') : s'.SameButSize s :=
  ⟨h.solved.symm, h.playerOnExit.symm, h.herd.symm, h.actions.symm, h.calls.symm⟩

theorem trans (first : s.SameButSize s') (second : s'.SameButSize s'') : s.SameButSize s'' :=
  ⟨first.solved.trans second.solved, first.playerOnExit.trans second.playerOnExit,
    first.herd.trans second.herd, first.actions.trans second.actions,
    first.calls.trans second.calls⟩

end SolveState.SameButSize

/-- Traces that differ at most in the size. -/
def Trace.SameButSize (t t' : Trace) : Prop := t.setSize 0 = t'.setSize 0

/-- A word is within a limit if it does not pass one that is given and not zero. -/
theorem within_toNat_iff {limit : Option UInt32} {n : UInt32} :
    Within limit n.toNat ↔ limit = none ∨ limit = some 0 ∨ ∃ max, limit = some max ∧ n ≤ max := by
  cases limit with
  | none => simp [Within]
  | some max =>
    simp only [Within, min_toNat, Option.some.injEq, forall_eq', reduceCtorEq, false_or,
      UInt32.le_iff_toNat_le, exists_eq_left']
    exact Classical.or_iff_not_imp_left.symm

namespace Board

/-- The board with another limit on characters. -/
def withMaxChars (b : Board) (chars : Option UInt32) : Board :=
  b.withLimits { b.limits with maxChars := chars }

/-- Boards that differ at most in the limit on characters. -/
def SameButMaxChars (b b' : Board) : Prop := b.withMaxChars none = b'.withMaxChars none

theorem performAll_withMaxChars (b : Board) (chars : Option UInt32) (ops : List Operation) :
    (b.withMaxChars chars).performAll ops = (b.performAll ops).withMaxChars chars := by
  rw [withMaxChars, performAll_withLimits, withMaxChars, performAll_limits]

theorem SameButMaxChars.performAll {b b' : Board} (h : b.SameButMaxChars b')
    (ops : List Operation) : (b.performAll ops).SameButMaxChars (b'.performAll ops) := by
  rw [SameButMaxChars, ← performAll_withMaxChars, h, performAll_withMaxChars]

/-- The limit on characters and the size of the trace decide no other check. -/
theorem solveState_withMaxChars (b : Board) (t : Trace) (chars : Option UInt32) (size : UInt32) :
    ((b.withMaxChars chars).solveState (some (t.setSize size))).SameButSize
      (b.solveState (some t)) :=
  ⟨rfl, rfl, rfl, rfl, rfl⟩

theorem SameButMaxChars.solveState {b b' : Board} {t t' : Trace} (h : b.SameButMaxChars b')
    (ht : t.SameButSize t') :
    (b.solveState (some t)).SameButSize (b'.solveState (some t')) := by
  -- without the limit and the size, boards and traces are the same
  have hbare := b.solveState_withMaxChars t none 0
  rw [h, ht] at hbare
  exact hbare.symm.trans (b'.solveState_withMaxChars t' none 0)

/-- Without a trace, a level is solved if the agent is on the exit and the herd on its targets. -/
theorem solved_solveState_none {b : Board} :
    (b.solveState none).solved = true ↔
      b.agent.pos = b.exit.pos ∧ b.coverage.current = b.coverage.total := by
  have heconomy : (b.solveState none).economy.all Economy.solved = true := rfl
  rw [SolveState.solved, Bool.and_eq_true, Bool.and_eq_true, and_iff_left heconomy]
  exact and_congr beq_iff_eq beq_iff_eq

/-- Exit, herd, actions and calls decide whether a level is solved, and the size never does: it has
a check of its own, and boards and traces that differ only there get the same verdict, whatever is
done to the boards before. A verdict with a trace holds without it. -/
theorem verdict_exact (b : Board) (t : Trace) :
    ((b.solveState (some t)).solved = true ↔
      b.agent.pos = b.exit.pos ∧
        (b.solveState (some t)).herd.current = (b.solveState (some t)).herd.total ∧
        Within b.limits.maxActions t.actions.length ∧
        Within b.limits.maxCalls t.callCount.toNat) ∧
    (∀ b' t', b.SameButMaxChars b' → t.SameButSize t' → ∀ ops,
      ((b.performAll ops).solveState (some t)).SameButSize
        ((b'.performAll ops).solveState (some t'))) ∧
    (∃ economy, (b.solveState (some t)).economy = some economy ∧
      (economy.size.solved = true ↔ b.limits.maxChars = none ∨ b.limits.maxChars = some 0 ∨
        ∃ max, b.limits.maxChars = some max ∧ t.size ≤ max)) ∧
    ((b.solveState (some t)).solved = true → (b.solveState none).solved = true) := by
  refine ⟨solved_solveState, fun b' t' h ht ops => (h.performAll ops).solveState ht, ?_, ?_⟩
  · exact ⟨_, rfl, (Threshold.solved_effective (min_toNat _).symm).trans within_toNat_iff⟩
  · intro hsolved
    obtain ⟨hexit, hherd, -, -⟩ := solved_solveState.1 hsolved
    exact solved_solveState_none.2 ⟨hexit, hherd⟩

/-- One step to the exit, with a script that fits and with one that is far too long. -/
theorem verdict_exact_oversized : ∃ b b' : Board, ∃ t t' : Trace, Reachable b ∧ Reachable b' ∧
    b.SameButMaxChars b' ∧ t.SameButSize t' ∧
    (b.solveState (some t)).economy.map (·.size.solved) = some true ∧
    (b'.solveState (some t')).economy.map (·.size.solved) = some false ∧
    (b.solveState (some t)).solved = false ∧
    ((b.performAll [.act .forward]).solveState (some t)).solved = true ∧
    ((b.performAll [.act .forward]).solveState (some t)).SameButSize
      ((b'.performAll [.act .forward]).solveState (some t')) ∧
    ((b.performAll [.act .forward]).solveState none).solved = true := by
  have reachable (chars : Option UInt32) := Reachable.ofLayout
    (l := ⟨3, ⟨⟨1, 1⟩, .north⟩, ⟨1, 0⟩, ⟨some 2, some 0, chars⟩⟩) rfl
  exact ⟨_, _, ⟨[.forward], fun _ => none, 7, 9⟩, ⟨[.forward], fun _ => none, 7, 500⟩,
    reachable none, reachable (some 10), rfl, rfl, by decide +kernel, by decide +kernel,
    by decide +kernel, by decide +kernel, (verdict_exact _ _).2.1 _ _ (by rfl) (by rfl) _,
    (verdict_exact _ ⟨[.forward], fun _ => none, 7, 9⟩).2.2.2 (by decide +kernel)⟩

end Board

end Shepherd.Grid
