import Mathlib.Algebra.BigOperators.Group.List.Basic
import Mathlib.Algebra.GroupWithZero.Nat
import Shepherd.Script.Decoding

/-!
# The number of calls

A trace keeps the call count of each action and, beside these, the number of all calls. The number
is a word: it is the sum of the call counts as long as the sum fits, and the largest word from then
on. `Built` traces are those that come about report by report; decoding gives no others.
-/

namespace Shepherd.Grid

theorem toNat_addCapped (m n : UInt32) :
    (addCapped m n).toNat = min (m.toNat + n.toNat) (UInt32.size - 1) := by
  rw [addCapped]
  split
  · next hfits =>
    rw [UInt32.toNat_add, Nat.mod_eq_of_lt hfits]
    omega
  · next hover =>
    rw [UInt32.toNat_ofNat_of_lt' (by decide)]
    omega

namespace Trace

/-- The traces that reports lead to from the empty one. A second call count of an action is refused
and leaves the trace as it was. -/
inductive Built : Trace → Prop
  | empty : Built .empty
  | pushAction {t : Trace} (h : Built t) (a : Action) : Built (t.pushAction a)
  | recordCalls {t t' : Trace} {a : Action} {count : UInt32} (h : Built t)
    (recorded : t.recordCalls? a count = some t') : Built t'
  | setSize {t : Trace} (h : Built t) (size : UInt32) : Built (t.setSize size)

/-- The sum of the reported call counts. -/
def callSum (t : Trace) : Nat := (t.callList.map (·.2.toNat)).sum

variable {t t' : Trace} {a : Action} {count : UInt32}

/-- Actions without a call count add nothing to the sum. -/
theorem callSum_eq (t : Trace) : t.callSum = (Action.all.map fun a => (t.callsOf a).toNat).sum := by
  rw [callSum, callList]
  induction Action.all with
  | nil => rfl
  | cons a as ih =>
    cases hcalls : t.calls a with
    | none => simpa [hcalls, callsOf] using ih
    | some count => simpa [hcalls, callsOf] using ih

/-- A call count is taken in if the action had none, and changes no other. -/
theorem recordCalls?_eq_some (h : t.recordCalls? a count = some t') :
    t.callsOf a = 0 ∧ (∀ b, t'.callsOf b = if b = a then count else t.callsOf b) ∧
      t'.callCount = addCapped t.callCount count := by
  unfold recordCalls? at h
  split at h
  · cases h
  · next hnone =>
    cases h
    refine ⟨by rw [callsOf, hnone]; rfl, fun b => ?_, rfl⟩
    by_cases hb : b = a <;> simp [callsOf, hb]

/-- A new call count adds to the sum. -/
theorem callSum_recordCalls (h : t.recordCalls? a count = some t') :
    t'.callSum = t.callSum + count.toNat := by
  obtain ⟨hzero, hcalls, -⟩ := recordCalls?_eq_some h
  have hperm : Action.all.Perm (a :: Action.all.erase a) := List.perm_cons_erase a.mem_all
  have hothers : ∀ b ∈ Action.all.erase a, (t'.callsOf b).toNat = (t.callsOf b).toNat := by
    intro b hb
    have hne : b ≠ a := ((by decide : Action.all.Nodup).mem_erase_iff.1 hb).1
    rw [hcalls, if_neg hne]
  rw [callSum_eq, callSum_eq, (hperm.map _).sum_eq, (hperm.map _).sum_eq, List.map_cons,
    List.map_cons, List.sum_cons, List.sum_cons, List.map_congr_left hothers, hcalls, if_pos rfl,
    hzero]
  simp [Nat.add_comm]

/-- A built trace counts calls up to the largest word. -/
theorem Built.callCount (h : Built t) :
    t.callCount.toNat = min t.callSum (UInt32.size - 1) := by
  induction h with
  | empty => rfl
  | pushAction _ a ih => exact ih
  | @recordCalls t t' a count _ recorded ih =>
    obtain ⟨-, -, hcount⟩ := recordCalls?_eq_some recorded
    rw [hcount, toNat_addCapped, ih, callSum_recordCalls recorded]
    omega
  | setSize _ size ih => exact ih

end Trace

end Shepherd.Grid

namespace Shepherd.Script
open Grid

/-- Taking a line in reports at most one marker to the trace. -/
theorem built_absorb {s : Session} {t t' : Trace} {line : List Char} (built : t.Built)
    (h : s.absorb t line = .ok t') : t'.Built := by
  unfold Session.absorb at h
  split at h
  · cases h
    exact built
  · cases h
  · next m _ =>
    cases m with
    | action verb =>
      cases h
      exact built.pushAction verb
    | calls verb count =>
      cases hrecord : t.recordCalls? verb count with
      | none => simp [record, hrecord, Except.mapError] at h
      | some recorded =>
        simp only [record, hrecord, Except.mapError, Except.ok.injEq] at h
        subst h
        exact built.recordCalls hrecord
    | codeSize chars =>
      cases h
      exact built.setSize chars

/-- Decoding builds its trace marker by marker. -/
theorem built_absorbAll {s : Session} {t t' : Trace} {ls : List (List Char)} (built : t.Built)
    (h : s.absorbAll t ls = .ok t') : t'.Built := by
  induction ls generalizing t with
  | nil =>
    cases h
    exact built
  | cons line ls ih =>
    rw [Session.absorbAll_cons] at h
    cases habsorb : s.absorb t line with
    | error e =>
      rw [habsorb] at h
      cases h
    | ok next =>
      rw [habsorb] at h
      exact ih (built_absorb built habsorb) h

/-- **The number of calls is the sum of the call counts as long as it fits a word.** From then on it
stays at the largest word. This holds of every trace that reports lead to, in particular of those
that outputs decode to. -/
theorem callCount_eq_sum_iff_fits {t : Trace}
    (h : t.Built ∨ ∃ s : Session, ∃ output, s.decode output = .ok t) :
    t.callCount.toNat = min t.callSum (UInt32.size - 1) ∧
      (t.callCount.toNat = t.callSum ↔ t.callSum < UInt32.size) := by
  have built : t.Built := by
    rcases h with built | ⟨s, output, hdecode⟩
    · exact built
    · exact built_absorbAll .empty hdecode
  have hcount := built.callCount
  have hpos : 0 < UInt32.size := by decide
  refine ⟨hcount, ?_⟩
  omega

/-- The largest sum that fits. -/
theorem callCount_eq_sum_iff_fits_largest :
    ∃ t, (Session.mk ['s', '1'] rfl).decode
        "__s1__forward__calls__4294967294__\n__s1__left__calls__1__".toList = .ok t ∧
      t.callSum < UInt32.size ∧ t.callCount.toNat = t.callSum := by
  obtain ⟨t, ht⟩ : ∃ t, (Session.mk ['s', '1'] rfl).decode
    "__s1__forward__calls__4294967294__\n__s1__left__calls__1__".toList = .ok t := ⟨_, rfl⟩
  have hsum : ((Session.mk ['s', '1'] rfl).decode
    "__s1__forward__calls__4294967294__\n__s1__left__calls__1__".toList).toOption.map
      (·.callSum) = some 4294967295 := by decide +kernel
  rw [ht] at hsum
  have hfits : t.callSum < UInt32.size := by
    rw [show t.callSum = 4294967295 from Option.some.inj hsum]
    decide
  exact ⟨t, ht, hfits, (callCount_eq_sum_iff_fits (.inr ⟨_, _, ht⟩)).2.2 hfits⟩

/-- One call more, and the sum is not what the trace counts. -/
theorem callCount_ne_sum :
    ¬ ∀ t : Trace, (t.Built ∨ ∃ s : Session, ∃ output, s.decode output = .ok t) →
      t.callCount.toNat = t.callSum := by
  intro h
  have hcounts : ((Session.mk ['s', '1'] rfl).decode
    "__s1__forward__calls__4294967295__\n__s1__left__calls__1__".toList).toOption.map
      (fun t => (t.callCount.toNat, t.callSum)) = some (4294967295, 4294967296) := by
    decide +kernel
  cases ht : (Session.mk ['s', '1'] rfl).decode
      "__s1__forward__calls__4294967295__\n__s1__left__calls__1__".toList with
  | error e =>
    rw [ht] at hcounts
    cases hcounts
  | ok t =>
    rw [ht] at hcounts
    obtain ⟨hcount, hsum⟩ := Prod.mk.inj (Option.some.inj hcounts)
    have heq := h t (.inr ⟨_, _, ht⟩)
    omega

end Shepherd.Script
