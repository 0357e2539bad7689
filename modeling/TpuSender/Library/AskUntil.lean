import Mathlib.Tactic.Common

/-!
# AskUntil — asking again until there is an answer, under a deadline

A loop asks, looks at the answer, and asks again after a pause if the answer is one to be retried.
All of it runs under a deadline, which may cut an answer off or a pause.

The answers and the time they take are given in advance, one for each attempt (`Attempt`).  The loop
returns an answer exactly when the first one that is not retried arrives in time
(`askUntil_eq_some_iff`), and no more attempts fit into the time than pauses (`mul_le_askedAt`).
-/

namespace TpuSender
namespace Library

variable {Answer : Type*}

structure Attempt (Answer : Type*) where
  /-- How long the answer takes. -/
  took : Nat
  answer : Answer

section Loop

variable (retryable : Answer → Bool) (interval deadline : Nat) (attempts : Nat → Attempt Answer)

/-- The loop from its `attempt`-th turn on, which begins at `elapsed`; `none` is the deadline. -/
def askUntil (hinterval : 0 < interval) (attempt elapsed : Nat) : Option Answer :=
  let arrived := elapsed + (attempts attempt).took
  if deadline < arrived then
    none
  else if retryable (attempts attempt).answer then
    if deadline < arrived + interval then none
    else askUntil hinterval (attempt + 1) (arrived + interval)
  else
    some (attempts attempt).answer
termination_by deadline - elapsed
decreasing_by omega

/-- When the `k`-th attempt is made, if all before it are retried. -/
def askedAt : Nat → Nat
  | 0 => 0
  | k + 1 => askedAt k + (attempts k).took + interval

/-- All attempts before the `k`-th are retried, and the `k`-th is not. -/
structure EndsAt (k : Nat) : Prop where
  before : ∀ j, j < k → retryable (attempts j).answer = true
  last : retryable (attempts k).answer = false

end Loop

section Facts

variable {retryable : Answer → Bool} {interval deadline : Nat} {attempts : Nat → Attempt Answer}

theorem mul_le_askedAt (k : Nat) : k * interval ≤ askedAt interval attempts k := by
  induction k with
  | zero => exact Nat.le_of_eq (Nat.zero_mul interval)
  | succ k ih =>
      rw [Nat.succ_mul, askedAt]
      exact Nat.add_le_add_right (Nat.le_trans ih (Nat.le_add_right _ _)) interval

theorem askedAt_mono {j k : Nat} (h : j ≤ k) :
    askedAt interval attempts j ≤ askedAt interval attempts k := by
  induction h with
  | refl => exact Nat.le_refl _
  | step _ ih => exact Nat.le_trans ih (Nat.le_trans (Nat.le_add_right _ _) (Nat.le_add_right _ _))

/-- What is asked behind the `k`-th attempt is asked after its answer and a pause. -/
theorem askedAt_succ_le (interval : Nat) (attempts : Nat → Attempt Answer) {k m : Nat}
    (h : k < m) :
    askedAt interval attempts k + (attempts k).took + interval ≤ askedAt interval attempts m :=
  askedAt_mono h

/-- There is only one attempt that the loop can end with. -/
theorem EndsAt.unique {j k : Nat} (hj : EndsAt retryable attempts j)
    (hk : EndsAt retryable attempts k) : j = k := by
  rcases Nat.lt_trichotomy j k with hlt | heq | hlt
  · have hretried := hk.before j hlt
    rw [hj.last] at hretried
    cases hretried
  · exact heq
  · have hretried := hj.before k hlt
    rw [hk.last] at hretried
    cases hretried

/-- The attempts before a reached one are retried, so the loop ends with that one or later. -/
theorem EndsAt.ge {k m : Nat} (hm : EndsAt retryable attempts m)
    (hbefore : ∀ j, j < k → retryable (attempts j).answer = true) : k ≤ m := by
  by_contra hlt
  have hretried := hbefore m (Nat.lt_of_not_le hlt)
  rw [hm.last] at hretried
  cases hretried

/-- From an attempt on that is reached, the loop returns what it ends with, if that is in
time. -/
theorem askUntil_eq_some_iff_of_reached (hinterval : 0 < interval) {a : Answer} (k elapsed : Nat)
    (helapsed : elapsed = askedAt interval attempts k)
    (hbefore : ∀ j, j < k → retryable (attempts j).answer = true) :
    askUntil retryable interval deadline attempts hinterval k elapsed = some a ↔
      ∃ m, EndsAt retryable attempts m ∧ (attempts m).answer = a ∧
        askedAt interval attempts m + (attempts m).took ≤ deadline := by
  fun_induction askUntil retryable interval deadline attempts hinterval k elapsed with
  | case1 k elapsed arrived hlate =>
      refine iff_of_false nofun ?_
      rintro ⟨m, hm, _, hintime⟩
      rcases Nat.lt_or_eq_of_le (hm.ge hbefore) with hlater | rfl
      · have hasked := askedAt_succ_le interval attempts hlater
        omega
      · omega
  | case2 k elapsed arrived hintime hretry hpause =>
      refine iff_of_false nofun ?_
      rintro ⟨m, hm, _, hintime⟩
      rcases Nat.lt_or_eq_of_le (hm.ge hbefore) with hlater | rfl
      · -- even the next attempt would come after the deadline
        have hasked := askedAt_succ_le interval attempts hlater
        omega
      · rw [hm.last] at hretry
        cases hretry
  | case3 k elapsed arrived hintime hretry hpause ih =>
      refine ih ?_ ?_
      · rw [askedAt, ← helapsed]
      · intro j hj
        rcases Nat.lt_succ_iff_lt_or_eq.1 hj with hlt | rfl
        · exact hbefore j hlt
        · exact hretry
  | case4 k elapsed arrived hintime hsettled =>
      have hk : EndsAt retryable attempts k := ⟨hbefore, eq_false_of_ne_true hsettled⟩
      constructor
      · intro hsome
        cases hsome
        exact ⟨k, hk, rfl, by omega⟩
      · rintro ⟨m, hm, rfl, _⟩
        rw [hm.unique hk]

/-- The loop returns the first answer that is not retried, if it arrives in time. -/
theorem askUntil_eq_some_iff (hinterval : 0 < interval) {a : Answer} :
    askUntil retryable interval deadline attempts hinterval 0 0 = some a ↔
      ∃ m, EndsAt retryable attempts m ∧ (attempts m).answer = a ∧
        askedAt interval attempts m + (attempts m).took ≤ deadline :=
  askUntil_eq_some_iff_of_reached hinterval 0 0 rfl fun j hj => absurd hj (Nat.not_lt_zero j)

end Facts

end Library
end TpuSender
