import TpuSender.Engine.Checked
import TpuSender.Library.SlidingWindow
import TpuSender.Library.SortedRank

/-!
# RecentLeaderSlots — the window of slot notifications and the estimate drawn from it

`RecentLeaderSlots` is the deque behind the lock of the same name.  It starts with one slot and
`recordSlot` keeps at most the last 12, so it is never empty; both facts are fields of the
structure.

`estimatedCurrentSlot` is the source's computation step by step, panics included.  Everything
proved about it later goes through `estimatedCurrentSlot_eq_ok_iff`: the estimate is the greatest
recorded slot that does not exceed `maxReasonableSlot`.
-/

namespace TpuSender
namespace Engine

open Library Library.SortedRank

def MAX_RECENT_SLOTS : Nat := 12

/-- 48 chosen because it's unlikely that 12 leaders in a row will miss their slots. -/
def MAX_SLOT_SKIP_DISTANCE : Nat := 48

/-- The recent slots, oldest first. -/
structure RecentLeaderSlots where
  slots : List Nat
  nonempty : 0 < slots.length
  bounded : slots.length ≤ MAX_RECENT_SLOTS

namespace RecentLeaderSlots

def new (currentSlot : Nat) : RecentLeaderSlots :=
  { slots := [currentSlot]
    nonempty := Nat.one_pos
    bounded := Nat.one_le_of_lt (by decide : 0 < MAX_RECENT_SLOTS) }

/-- Push the slot at the back, then pop from the front while more than 12 are left. -/
def recordSlot (r : RecentLeaderSlots) (currentSlot : Nat) : RecentLeaderSlots :=
  { slots := SlidingWindow.push MAX_RECENT_SLOTS r.slots currentSlot
    nonempty := by
      have hlen := SlidingWindow.length_push MAX_RECENT_SLOTS r.slots currentSlot
      have hcap : MAX_RECENT_SLOTS = 12 := rfl
      omega
    bounded := by
      have hlen := SlidingWindow.length_push MAX_RECENT_SLOTS r.slots currentSlot
      omega }

/-- Estimate the current slot from recent slot notifications. -/
def estimatedCurrentSlot (r : RecentLeaderSlots) : Except Panic Nat := do
  let recentSlots := r.slots
  if recentSlots.isEmpty then
    throw .assertionFailed
  let recentSlots := sorted recentSlots
  -- Validators can broadcast invalid blocks that are far in the future, so the current slot is
  -- checked against the recent progression.
  let maxIndex := recentSlots.length - 1
  let medianIndex := maxIndex / 2
  let medianRecentSlot ← index recentSlots medianIndex
  let expectedCurrentSlot ← checkedAdd medianRecentSlot (maxIndex - medianIndex)
  let maxReasonableCurrentSlot ← checkedAdd expectedCurrentSlot MAX_SLOT_SKIP_DISTANCE
  match recentSlots.reverse.find? (fun slot => decide (slot ≤ maxReasonableCurrentSlot)) with
  | some slot => pure slot
  | none => throw .unwrapOnNone

@[simp] theorem slots_new (s : Nat) : (new s).slots = [s] := rfl

theorem slots_recordSlot (r : RecentLeaderSlots) (v : Nat) :
    (r.recordSlot v).slots = (r.slots ++ [v]).rtake 12 :=
  SlidingWindow.trimFront_eq_rtake 12 (r.slots ++ [v])

theorem slots_recordSlot_of_lt {r : RecentLeaderSlots} (h : r.slots.length < 12) (v : Nat) :
    (r.recordSlot v).slots = r.slots ++ [v] :=
  SlidingWindow.push_of_length_lt h v

theorem slots_recordSlot_of_full {r : RecentLeaderSlots} (h : r.slots.length = 12) (v : Nat) :
    (r.recordSlot v).slots = r.slots.tail ++ [v] :=
  SlidingWindow.push_of_length_eq h (by decide) v

/-! ## The bound behind the estimate -/

/-- Position of the (lower) median in the sorted window. -/
def medianIndex (r : RecentLeaderSlots) : Nat := (r.slots.length - 1) / 2

theorem medianIndex_lt (r : RecentLeaderSlots) : r.medianIndex < (sorted r.slots).length := by
  have hpos := r.nonempty
  rw [length_sorted, medianIndex]
  omega

def medianRecentSlot (r : RecentLeaderSlots) : Nat :=
  (sorted r.slots).get ⟨r.medianIndex, r.medianIndex_lt⟩

/-- The largest slot the estimator believes, as a number without a range. -/
def maxReasonableSlot (r : RecentLeaderSlots) : Nat :=
  r.medianRecentSlot + r.slots.length / 2 + MAX_SLOT_SKIP_DISTANCE

/-- No sum of the estimator leaves the `u64` range. -/
def SumsFit (r : RecentLeaderSlots) : Prop := r.maxReasonableSlot ≤ u64Max

instance (r : RecentLeaderSlots) : Decidable r.SumsFit := inferInstanceAs (Decidable (_ ≤ _))

theorem maxIndex_sub_medianIndex (r : RecentLeaderSlots) :
    r.slots.length - 1 - r.medianIndex = r.slots.length / 2 := by
  have hpos := r.nonempty
  rw [medianIndex]
  omega

theorem medianRecentSlot_mem (r : RecentLeaderSlots) : r.medianRecentSlot ∈ r.slots :=
  mem_sorted.1 (List.get_mem _ _)

theorem medianRecentSlot_le_maxReasonableSlot (r : RecentLeaderSlots) :
    r.medianRecentSlot ≤ r.maxReasonableSlot := by
  rw [maxReasonableSlot]
  omega

/-! ## What the estimator computes -/

/-- With all sums in range, the estimator is the search for the last sorted entry within the
bound; otherwise the overflow stops it. -/
theorem estimatedCurrentSlot_eq (r : RecentLeaderSlots) :
    r.estimatedCurrentSlot =
      if r.SumsFit then
        match (sorted r.slots).reverse.find? (fun slot => decide (slot ≤ r.maxReasonableSlot)) with
        | some slot => .ok slot
        | none => .error .unwrapOnNone
      else .error .arithmeticOverflow := by
  have hne : r.slots.isEmpty = false := by
    have hpos := r.nonempty
    cases hslots : r.slots with
    | nil => simp [hslots] at hpos
    | cons x xs => rfl
  have hmedian : index (sorted r.slots) ((r.slots.length - 1) / 2) = .ok r.medianRecentSlot :=
    index_of_lt r.medianIndex_lt
  have hoff : r.slots.length - 1 - (r.slots.length - 1) / 2 = r.slots.length / 2 :=
    r.maxIndex_sub_medianIndex
  by_cases hfit : r.SumsFit
  · -- both sums stay in range, and the search decides
    have hsum : r.medianRecentSlot + r.slots.length / 2 + MAX_SLOT_SKIP_DISTANCE ≤ u64Max := hfit
    have hexpected : checkedAdd r.medianRecentSlot (r.slots.length / 2) =
        .ok (r.medianRecentSlot + r.slots.length / 2) :=
      checkedAdd_of_le (by omega)
    have hmax := checkedAdd_of_le hsum
    simp only [estimatedCurrentSlot, hne, length_sorted, hmedian, hoff, hexpected, hmax, hfit,
      if_true, Bool.false_eq_true, if_false, bind, Except.bind, pure, Except.pure, throw,
      throwThe, MonadExceptOf.throw]
    rfl
  · -- one of the two sums overflows; which one makes no difference
    have hsum : u64Max < r.medianRecentSlot + r.slots.length / 2 + MAX_SLOT_SKIP_DISTANCE := by
      simpa [SumsFit, maxReasonableSlot] using hfit
    by_cases hexpected : r.medianRecentSlot + r.slots.length / 2 ≤ u64Max
    · simp [estimatedCurrentSlot, hne, hmedian, hoff, checkedAdd_of_le hexpected,
        checkedAdd_of_lt hsum, hfit, bind, Except.bind]
    · have hlt : u64Max < r.medianRecentSlot + r.slots.length / 2 := by omega
      simp [estimatedCurrentSlot, hne, hmedian, hoff, checkedAdd_of_lt hlt, hfit,
        bind, Except.bind]

/-- The estimate is the greatest recorded slot within the bound. -/
theorem estimatedCurrentSlot_eq_ok_iff {r : RecentLeaderSlots} {e : Nat} :
    r.estimatedCurrentSlot = .ok e ↔
      r.SumsFit ∧ IsGreatest {x | x ∈ r.slots ∧ x ≤ r.maxReasonableSlot} e := by
  have hset : {x | x ∈ r.slots ∧ x ≤ r.maxReasonableSlot} =
      {x | x ∈ sorted r.slots ∧ x ≤ r.maxReasonableSlot} := by
    ext x
    simp
  rw [hset, ← find?_reverse_eq_some_iff (pairwise_sorted r.slots), estimatedCurrentSlot_eq]
  by_cases hfit : r.SumsFit
  · cases hfind : (sorted r.slots).reverse.find?
        (fun slot => decide (slot ≤ r.maxReasonableSlot)) with
    | none => simp [hfit]
    | some x => simp [hfit]
  · simp [hfit]

/-- The median itself is within the bound, so with the sums in range an estimate exists. -/
theorem exists_estimatedCurrentSlot {r : RecentLeaderSlots} (h : r.SumsFit) :
    ∃ e, r.estimatedCurrentSlot = .ok e := by
  rw [estimatedCurrentSlot_eq, if_pos h]
  cases hfind : (sorted r.slots).reverse.find?
      (fun slot => decide (slot ≤ r.maxReasonableSlot)) with
  | some x => exact ⟨x, rfl⟩
  | none =>
      have hmem : r.medianRecentSlot ∈ (sorted r.slots).reverse :=
        List.mem_reverse.2 (mem_sorted.2 r.medianRecentSlot_mem)
      have hno := List.find?_eq_none.1 hfind _ hmem
      simp [r.medianRecentSlot_le_maxReasonableSlot] at hno

theorem estimatedCurrentSlot_mem {r : RecentLeaderSlots} {e : Nat}
    (h : r.estimatedCurrentSlot = .ok e) : e ∈ r.slots :=
  (estimatedCurrentSlot_eq_ok_iff.1 h).2.1.1

theorem estimatedCurrentSlot_le_max {r : RecentLeaderSlots} {e : Nat}
    (h : r.estimatedCurrentSlot = .ok e) : e ≤ r.maxReasonableSlot :=
  (estimatedCurrentSlot_eq_ok_iff.1 h).2.1.2

theorem le_estimatedCurrentSlot {r : RecentLeaderSlots} {e x : Nat}
    (h : r.estimatedCurrentSlot = .ok e) (hx : x ∈ r.slots) (hle : x ≤ r.maxReasonableSlot) :
    x ≤ e :=
  (estimatedCurrentSlot_eq_ok_iff.1 h).2.2 ⟨hx, hle⟩

/-- A window of one slot estimates that slot. -/
theorem estimatedCurrentSlot_new {s : Nat} (h : s + MAX_SLOT_SKIP_DISTANCE ≤ u64Max) :
    (new s).estimatedCurrentSlot = .ok s := by
  have hmax : (new s).maxReasonableSlot = s + MAX_SLOT_SKIP_DISTANCE := by
    simp [maxReasonableSlot, medianRecentSlot, medianIndex]
  rw [estimatedCurrentSlot_eq_ok_iff, SumsFit, hmax]
  refine ⟨h, ⟨by simp, Nat.le_add_right _ _⟩, ?_⟩
  rintro x ⟨hx, _⟩
  have hxs : x = s := by simpa using hx
  exact hxs.le

end RecentLeaderSlots
end Engine
end TpuSender
