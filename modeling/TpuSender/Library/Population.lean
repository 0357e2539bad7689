import Mathlib.Algebra.BigOperators.Group.Finset.Basic
import Mathlib.Algebra.Order.BigOperators.Group.Finset
import Mathlib.Data.Fintype.BigOperators
import Mathlib.Tactic.Common

/-!
# Population — sums over a finite family of parties

A concurrent component keeps one local state per party, `f : ι → α`.  `total w f` adds up the
weight `w` of the local states.  A weight of zeros and ones counts the parties in some phase.

A step of one party replaces one local state; `total_update` says what that does to every total,
without subtraction, so that `omega` can use it.
-/

namespace TpuSender
namespace Library

open Finset

section Total

variable {ι : Type*} [Fintype ι] {α : Type*}

/-- The weights of all local states, added up. -/
def total (w : α → Nat) (f : ι → α) : Nat := ∑ i, w (f i)

theorem total_const (w : α → Nat) (a : α) : total w (fun _ : ι => a) = Fintype.card ι * w a := by
  simp [total, Finset.card_univ]

theorem total_add (v w : α → Nat) (f : ι → α) :
    total (fun a => v a + w a) f = total v f + total w f :=
  Finset.sum_add_distrib

theorem total_eq_zero_iff {w : α → Nat} {f : ι → α} : total w f = 0 ↔ ∀ i, w (f i) = 0 := by
  simp [total]

theorem le_total (w : α → Nat) (f : ι → α) (i : ι) : w (f i) ≤ total w f :=
  Finset.single_le_sum (f := fun j => w (f j)) (fun _ _ => Nat.zero_le _) (Finset.mem_univ i)

theorem total_pos_iff {w : α → Nat} {f : ι → α} : 0 < total w f ↔ ∃ i, 0 < w (f i) := by
  constructor
  · intro h
    by_contra hnone
    have hzero : total w f = 0 := by
      apply total_eq_zero_iff.2
      intro i
      exact Nat.eq_zero_of_not_pos fun hpos => hnone ⟨i, hpos⟩
    exact absurd hzero (Nat.ne_of_gt h)
  · rintro ⟨i, hi⟩
    exact lt_of_lt_of_le hi (le_total w f i)

/-- A weight of zeros and ones counts. -/
theorem total_eq_card {w : α → Nat} {p : α → Prop} [DecidablePred p]
    (h : ∀ a, w a = if p a then 1 else 0) (f : ι → α) :
    total w f = (univ.filter fun i => p (f i)).card := by
  rw [Finset.card_filter]
  exact Finset.sum_congr rfl fun i _ => h (f i)

/-- With every weight at most `n`, what one party leaves unused is missing from the total. -/
theorem total_add_slack_le {w : α → Nat} {f : ι → α} {n : Nat} (h : ∀ i, w (f i) ≤ n) (i : ι) :
    total w f + (n - w (f i)) ≤ Fintype.card ι * n := by
  have hslack : n - w (f i) ≤ total (fun a => n - w a) f := le_total (fun a => n - w a) f i
  have hfull : total (fun a => w a + (n - w a)) f = Fintype.card ι * n := by
    have heach : ∀ j ∈ univ, w (f j) + (n - w (f j)) = n := fun j _ => Nat.add_sub_cancel' (h j)
    rw [total, Finset.sum_congr rfl heach]
    simp
  rw [total_add] at hfull
  exact hfull ▸ Nat.add_le_add_left hslack _

theorem total_le_card_mul {w : α → Nat} {f : ι → α} {n : Nat} (h : ∀ i, w (f i) ≤ n) :
    total w f ≤ Fintype.card ι * n := by
  have hsum := Finset.sum_le_card_nsmul univ (fun i => w (f i)) n fun i _ => h i
  simpa [total, Finset.card_univ] using hsum

/-- Replacing one local state trades its weight for the weight of the new one. -/
theorem total_update [DecidableEq ι] (w : α → Nat) (f : ι → α) (i : ι) (a : α) :
    total w (Function.update f i a) + w (f i) = total w f + w a := by
  have hrest : ∑ j ∈ univ.erase i, w (Function.update f i a j) = ∑ j ∈ univ.erase i, w (f j) := by
    apply Finset.sum_congr rfl
    intro j hj
    rw [Function.update_of_ne (Finset.ne_of_mem_erase hj)]
  calc total w (Function.update f i a) + w (f i)
      = w a + ∑ j ∈ univ.erase i, w (f j) + w (f i) := by
        rw [total, ← Finset.add_sum_erase univ _ (Finset.mem_univ i), hrest,
          Function.update_self]
    _ = w (f i) + ∑ j ∈ univ.erase i, w (f j) + w a := by omega
    _ = total w f + w a := by
        rw [total, ← Finset.add_sum_erase univ (fun j => w (f j)) (Finset.mem_univ i)]

section Update

variable [DecidableEq ι] {w : α → Nat} {f : ι → α} {i : ι} {a : α}

theorem total_update_of_eq (h : w a = w (f i)) : total w (Function.update f i a) = total w f := by
  have hmove := total_update w f i a
  rw [h] at hmove
  exact Nat.add_right_cancel hmove

theorem total_update_of_succ (h : w a = w (f i) + 1) :
    total w (Function.update f i a) = total w f + 1 := by
  have hmove := total_update w f i a
  rw [h, Nat.add_comm (w (f i)) 1, ← Nat.add_assoc] at hmove
  exact Nat.add_right_cancel hmove

end Update

end Total

end Library
end TpuSender
