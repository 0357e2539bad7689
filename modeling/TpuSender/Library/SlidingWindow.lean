import Mathlib.Data.List.DropRight

/-!
# SlidingWindow — a queue that keeps its last entries

A bounded queue is filled by `push`: append at the back, then drop from the front while more than
`cap` entries are left.  After any sequence of pushes the queue holds exactly the last `cap`
entries of everything that was ever pushed (`foldl_push`).
-/

namespace TpuSender
namespace Library
namespace SlidingWindow

variable {α : Type*}

/-! ## Trimming from the front -/

/-- Drop entries from the front while more than `cap` are left. -/
def trimFront (cap : Nat) : List α → List α
  | [] => []
  | x :: xs => if cap < (x :: xs).length then trimFront cap xs else x :: xs

theorem trimFront_eq_rtake (cap : Nat) (w : List α) : trimFront cap w = w.rtake cap := by
  induction w with
  | nil => simp [trimFront]
  | cons x xs ih =>
      by_cases hlen : cap < (x :: xs).length
      · have hsub : (x :: xs).length - cap = (xs.length - cap) + 1 := by
          simp only [List.length_cons] at hlen ⊢
          omega
        rw [trimFront, if_pos hlen, ih, List.rtake, List.rtake, hsub, List.drop_succ_cons]
      · have hsub : (x :: xs).length - cap = 0 := by omega
        rw [trimFront, if_neg hlen, List.rtake, hsub, List.drop_zero]

theorem length_rtake (cap : Nat) (w : List α) : (w.rtake cap).length = min cap w.length := by
  simp only [List.rtake, List.length_drop]
  omega

/-! ## Pushing -/

/-- Append `v` at the back and trim to the last `cap` entries. -/
def push (cap : Nat) (w : List α) (v : α) : List α := trimFront cap (w ++ [v])

theorem length_push (cap : Nat) (w : List α) (v : α) :
    (push cap w v).length = min cap (w.length + 1) := by
  simp [push, trimFront_eq_rtake, length_rtake]

theorem push_of_length_lt {cap : Nat} {w : List α} (h : w.length < cap) (v : α) :
    push cap w v = w ++ [v] := by
  have hsub : (w ++ [v]).length - cap = 0 := by
    simp only [List.length_append, List.length_singleton]
    omega
  rw [push, trimFront_eq_rtake, List.rtake, hsub, List.drop_zero]

theorem push_of_length_eq {cap : Nat} {w : List α} (h : w.length = cap) (hpos : 0 < cap) (v : α) :
    push cap w v = w.tail ++ [v] := by
  have hsub : (w ++ [v]).length - cap = 1 := by
    simp only [List.length_append, List.length_singleton]
    omega
  have hle : 1 ≤ w.length := by omega
  rw [push, trimFront_eq_rtake, List.rtake, hsub, List.drop_append_of_le_length hle,
    List.drop_one]

theorem rtake_rtake {m n : Nat} (h : n ≤ m) (w : List α) : (w.rtake m).rtake n = w.rtake n := by
  simp only [List.rtake_eq_reverse_take_reverse, List.reverse_reverse, List.take_take]
  rw [Nat.min_eq_left h]

theorem push_rtake (cap : Nat) (w : List α) (v : α) :
    push cap (w.rtake cap) v = (w ++ [v]).rtake cap := by
  rw [push, trimFront_eq_rtake]
  cases cap with
  | zero => simp
  | succ n => rw [List.rtake_concat_succ, List.rtake_concat_succ, rtake_rtake (Nat.le_succ n)]

/-- After any pushes the queue holds the last `cap` entries of all that was pushed. -/
theorem foldl_push (cap : Nat) (w vs : List α) :
    vs.foldl (push cap) (w.rtake cap) = (w ++ vs).rtake cap := by
  induction vs generalizing w with
  | nil => simp
  | cons v vs ih =>
      rw [List.foldl_cons, push_rtake, ih (w ++ [v]), List.append_assoc, List.singleton_append]

end SlidingWindow
end Library
end TpuSender
