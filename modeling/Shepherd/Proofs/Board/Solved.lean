import Shepherd.Grid.Board.Solve

/-!
# Solved levels

What the checks of the objectives come to: where the agent stands, how much of the herd is on its
targets, and two numbers within their limits.
-/

namespace Shepherd.Grid

/-- A number is within a limit, counted up to the largest word. Neither a missing limit nor one of
zero limits anything. -/
def Within (limit : Option UInt32) (n : Nat) : Prop :=
  ∀ max, limit = some max → max ≠ 0 → min n (UInt32.size - 1) ≤ max.toNat

/-- A limit is in force if it is given and not zero. -/
theorem Limits.effective_eq_some_iff {limit : Option UInt32} {max : UInt32} :
    effective limit = some max ↔ limit = some max ∧ max ≠ 0 := by
  rw [effective, Option.filter_eq_some_iff, decide_eq_true_iff, UInt32.pos_iff_ne_zero]

theorem Threshold.solved_iff {t : Threshold} :
    t.solved = true ↔ ∀ max, t.max = some max → t.current.toNat ≤ max.toNat := by
  obtain ⟨current, _ | limit⟩ := t
  · exact ⟨nofun, fun _ => rfl⟩
  · simp [solved, UInt32.le_iff_toNat_le]

theorem toNat_capped (n : Nat) : (capped n).toNat = min n (UInt32.size - 1) :=
  UInt32.toNat_ofNat_of_lt' (Nat.lt_of_le_of_lt (Nat.min_le_right _ _) (by decide))

/-- A word is not changed by counting up to the largest word. -/
theorem min_toNat (n : UInt32) : min n.toNat (UInt32.size - 1) = n.toNat :=
  Nat.min_eq_left (Nat.le_sub_one_of_lt n.toNat_lt)

/-- A check against a limit in force asks for no more than to be within the limit. -/
theorem Threshold.solved_effective {current : UInt32} {limit : Option UInt32} {n : Nat}
    (h : current.toNat = min n (UInt32.size - 1)) :
    (Threshold.mk current (Limits.effective limit)).solved = true ↔ Within limit n := by
  rw [solved_iff, Within, h]
  exact ⟨fun hle max hmax hne => hle max (Limits.effective_eq_some_iff.2 ⟨hmax, hne⟩),
    fun hle max hmax => (Limits.effective_eq_some_iff.1 hmax).elim (hle max)⟩

/-- The economy of a trace is good if the numbers of actions and of calls are within their
limits. -/
theorem Economy.solved_ofTrace {l : Limits} {t : Trace} :
    (Economy.ofTrace l t).solved = true ↔
      Within l.maxActions t.actions.length ∧ Within l.maxCalls t.callCount.toNat := by
  rw [Economy.solved, Bool.and_eq_true]
  exact and_congr (Threshold.solved_effective (toNat_capped _))
    (Threshold.solved_effective (min_toNat _).symm)

/-- A level is solved by a trace if the agent is on the exit, the herd on its targets, and the trace
within the limits. -/
theorem Board.solved_solveState {b : Board} {t : Trace} :
    (b.solveState (some t)).solved = true ↔
      b.agent.pos = b.exit.pos ∧ b.coverage.current = b.coverage.total ∧
        Within b.limits.maxActions t.actions.length ∧
        Within b.limits.maxCalls t.callCount.toNat := by
  rw [SolveState.solved, Bool.and_eq_true, Bool.and_eq_true, and_assoc]
  refine and_congr beq_iff_eq (and_congr beq_iff_eq ?_)
  exact Economy.solved_ofTrace

end Shepherd.Grid
