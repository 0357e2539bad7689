import TpuSender.Engine.RecentLeaderSlots

/-!
# SlotEstimate — what the estimate is worth

Two families of facts about `RecentLeaderSlots.estimatedCurrentSlot`:

* **Robustness.**  Whatever minority of the window is faulty, the lower median lies between two
  honest entries, so the estimate is held between the honest maximum and a fixed distance ahead
  of it.
* **Monotonicity.**  While the recorded slots arrive in order, the bound of the estimator never
  moves down and an entry that leaves the window is never the only copy of the estimate.

The estimate is *not* monotone in the entries themselves: raising one entry above the bound lowers
it.  Both arguments therefore go through the bound, `maxReasonableSlot`.
-/

namespace TpuSender
namespace Engine

open Library Library.SortedRank

namespace RecentLeaderSlots

/-- The window after a start slot and a sequence of `record_slot` calls. -/
def recordAll (start : Nat) (vs : List Nat) : RecentLeaderSlots :=
  vs.foldl recordSlot (new start)

/-- The window holds exactly the last 12 of the slots recorded, the start slot included. -/
theorem slots_recordAll (start : Nat) (vs : List Nat) :
    (recordAll start vs).slots = (start :: vs).rtake 12 := by
  have hfold : ∀ r : RecentLeaderSlots,
      (vs.foldl recordSlot r).slots = vs.foldl (SlidingWindow.push 12) r.slots := by
    induction vs with
    | nil =>
        intro r
        rfl
    | cons v vs ih =>
        intro r
        exact ih (r.recordSlot v)
  have hstart : [start] = [start].rtake 12 := by simp [List.rtake]
  calc
    (recordAll start vs).slots = vs.foldl (SlidingWindow.push 12) [start] := hfold (new start)
    _ = vs.foldl (SlidingWindow.push 12) ([start].rtake 12) := by rw [← hstart]
    _ = ([start] ++ vs).rtake 12 := SlidingWindow.foldl_push 12 [start] vs

/-! ## Robustness against a faulty minority -/

section Robust

variable {r : RecentLeaderSlots} {faulty : Finset (Fin r.slots.length)}

theorem exists_honest_le_median (hcard : faulty.card ≤ (r.slots.length - 1) / 2) :
    ∃ i, i ∉ faulty ∧ r.slots.get i ≤ r.medianRecentSlot := by
  have hcount : r.medianIndex + 1 ≤ r.slots.countP fun x => decide (x ≤ r.medianRecentSlot) :=
    succ_le_countP_le_sorted r.slots r.medianIndex_lt
  have hlt : faulty.card < r.slots.countP fun x => decide (x ≤ r.medianRecentSlot) :=
    lt_of_le_of_lt hcard hcount
  rcases exists_notMem_of_card_lt_countP hlt with ⟨i, hi, hle⟩
  exact ⟨i, hi, of_decide_eq_true hle⟩

theorem exists_honest_ge_median (hcard : faulty.card ≤ (r.slots.length - 1) / 2) :
    ∃ i, i ∉ faulty ∧ r.medianRecentSlot ≤ r.slots.get i := by
  have hcount :
      r.slots.length - r.medianIndex ≤ r.slots.countP fun x => decide (r.medianRecentSlot ≤ x) :=
    length_sub_le_countP_sorted_le r.slots r.medianIndex_lt
  have hlt : faulty.card < r.slots.countP fun x => decide (r.medianRecentSlot ≤ x) := by
    -- from the lower median on there are `length - (length - 1) / 2` entries, a strict majority
    have hidx : r.medianIndex = (r.slots.length - 1) / 2 := rfl
    have hpos := r.nonempty
    omega
  rcases exists_notMem_of_card_lt_countP hlt with ⟨i, hi, hle⟩
  exact ⟨i, hi, of_decide_eq_true hle⟩

/-- The honest entries fence the bound in from both sides. -/
theorem maxReasonableSlot_fenced {L H : Nat}
    (hcard : faulty.card ≤ (r.slots.length - 1) / 2)
    (hhonest : ∀ i, i ∉ faulty → L ≤ r.slots.get i ∧ r.slots.get i ≤ H) :
    L + r.slots.length / 2 + 48 ≤ r.maxReasonableSlot ∧
      r.maxReasonableSlot ≤ H + r.slots.length / 2 + 48 := by
  rcases exists_honest_le_median hcard with ⟨i, hi, hile⟩
  rcases exists_honest_ge_median hcard with ⟨j, hj, hjge⟩
  have hL : L ≤ r.medianRecentSlot := le_trans (hhonest i hi).1 hile
  have hH : r.medianRecentSlot ≤ H := le_trans hjge (hhonest j hj).2
  have hmax : r.maxReasonableSlot = r.medianRecentSlot + r.slots.length / 2 + 48 := rfl
  constructor
  · omega
  · omega

end Robust

/-- At most `(n - 1) / 2` arbitrary entries of a window of `n` slots can neither hold the estimate
back below the honest maximum nor push it more than `48 + n / 2` slots ahead of it. -/
theorem estimate_robust (start : Nat) (vs : List Nat) :
    (recordAll start vs).slots = (start :: vs).rtake 12 ∧
      ∀ (faulty : Finset (Fin (recordAll start vs).slots.length)) (L H : Nat),
        faulty.card ≤ ((recordAll start vs).slots.length - 1) / 2 →
        (∀ i, i ∉ faulty →
          L ≤ (recordAll start vs).slots.get i ∧ (recordAll start vs).slots.get i ≤ H) →
        (∃ i, i ∉ faulty ∧ (recordAll start vs).slots.get i = H) →
        H - L ≤ 48 →
        (recordAll start vs).SumsFit →
        ∃ e, (recordAll start vs).estimatedCurrentSlot = .ok e ∧
          e ∈ (recordAll start vs).slots ∧
          H ≤ e ∧ e ≤ H + 48 + (recordAll start vs).slots.length / 2 := by
  refine ⟨slots_recordAll start vs, ?_⟩
  generalize recordAll start vs = r
  intro faulty L H hcard hhonest hmax hspread hfit
  rcases maxReasonableSlot_fenced hcard hhonest with ⟨hlow, hhigh⟩
  rcases exists_estimatedCurrentSlot hfit with ⟨e, he⟩
  -- the honest maximum is recorded and within the bound, so the search does not stop below it
  rcases hmax with ⟨m, _, hm⟩
  have hHmem : H ∈ r.slots := hm ▸ List.get_mem r.slots m
  have hHbound : H ≤ r.maxReasonableSlot := by omega
  have hHe : H ≤ e := le_estimatedCurrentSlot he hHmem hHbound
  have hemax : e ≤ r.maxReasonableSlot := estimatedCurrentSlot_le_max he
  refine ⟨e, he, estimatedCurrentSlot_mem he, hHe, ?_⟩
  omega

/-- Five far-future slots in a full window leave the estimate next to the honest maximum 106. -/
theorem estimate_robust_five_faulty :
    ∃ e, (recordAll 100 [101, 102, 9000, 103, 9001, 104, 9002, 105, 9003, 9004, 106]
        ).estimatedCurrentSlot = .ok e ∧ 106 ≤ e ∧ e ≤ 106 + 48 + 6 := by
  rcases (estimate_robust 100 [101, 102, 9000, 103, 9001, 104, 9002, 105, 9003, 9004, 106]).2
      (Finset.univ.filter fun i => 9000 ≤ (recordAll 100
        [101, 102, 9000, 103, 9001, 104, 9002, 105, 9003, 9004, 106]).slots.get i)
      100 106 (by decide) (by decide) (by decide) (by decide) (by decide)
    with ⟨e, he, _, hlow, hhigh⟩
  exact ⟨e, he, hlow, hhigh⟩

/-! ## Monotonicity on ordered notifications -/

/-- The window is in order of arrival and also in order of size. -/
def Ordered (r : RecentLeaderSlots) : Prop := r.slots.Pairwise (· ≤ ·)

/-- `v` is at least every slot of the window. -/
def Newest (r : RecentLeaderSlots) (v : Nat) : Prop := ∀ x ∈ r.slots, x ≤ v

theorem ordered_new (s : Nat) : (new s).Ordered := by
  simp [Ordered]

theorem Ordered.append {r : RecentLeaderSlots} (h : r.Ordered) {v : Nat} (hv : r.Newest v) :
    (r.slots ++ [v]).Pairwise (· ≤ ·) := by
  refine List.pairwise_append.2 ⟨h, List.pairwise_singleton _ v, ?_⟩
  intro x hx y hy
  have hyv : y = v := by simpa using hy
  exact hyv ▸ hv x hx

theorem mem_recordSlot {r : RecentLeaderSlots} {v x : Nat} (hx : x ∈ (r.recordSlot v).slots) :
    x ∈ r.slots ∨ x = v := by
  rw [slots_recordSlot] at hx
  have hall : x ∈ r.slots ++ [v] := List.mem_of_mem_drop hx
  simpa using hall

theorem Ordered.recordSlot {r : RecentLeaderSlots} (h : r.Ordered) {v : Nat} (hv : r.Newest v) :
    (r.recordSlot v).Ordered := by
  have hsub : ((r.slots ++ [v]).rtake 12).Pairwise (· ≤ ·) := (h.append hv).drop
  simpa [Ordered, slots_recordSlot] using hsub

theorem Ordered.getElem?_medianIndex {r : RecentLeaderSlots} (h : r.Ordered) :
    r.slots[r.medianIndex]? = some r.medianRecentSlot := by
  have hsorted : sorted r.slots = r.slots := sorted_eq_self h
  have hmedian : (sorted r.slots)[r.medianIndex]? = some r.medianRecentSlot :=
    List.getElem?_eq_getElem r.medianIndex_lt
  rwa [hsorted] at hmedian

/-- In an ordered window every entry from the median position on is at least the median. -/
theorem Ordered.medianRecentSlot_le {r : RecentLeaderSlots} (h : r.Ordered) {k x : Nat}
    (hk : r.medianIndex ≤ k) (hx : r.slots[k]? = some x) : r.medianRecentSlot ≤ x := by
  rcases List.getElem?_eq_some_iff.1 hx with ⟨hklt, hkx⟩
  rcases List.getElem?_eq_some_iff.1 h.getElem?_medianIndex with ⟨hmlt, hmx⟩
  have hle : r.slots[r.medianIndex] ≤ r.slots[k] := getElem_le_getElem h hk hklt
  rwa [hkx, hmx] at hle

/-- While the window grows, the median position and the offset to its end each stay or move up
by one. -/
theorem maxReasonableSlot_grow {r : RecentLeaderSlots} (h : r.Ordered) {v : Nat}
    (hv : r.Newest v) (hlen : r.slots.length < 12) :
    r.maxReasonableSlot ≤ (r.recordSlot v).maxReasonableSlot := by
  have hslots := slots_recordSlot_of_lt hlen v
  -- the median position of the longer window is the middle of the old one, rounded up
  have hlength : (r.recordSlot v).slots.length = r.slots.length + 1 := by simp [hslots]
  have hidx : (r.recordSlot v).medianIndex = r.slots.length / 2 := by simp [medianIndex, hlength]
  have hpos := r.nonempty
  have hnew := (h.recordSlot hv).getElem?_medianIndex
  rw [hslots, hidx, List.getElem?_append_left (by omega)] at hnew
  have hmedian : r.medianRecentSlot ≤ (r.recordSlot v).medianRecentSlot := by
    refine h.medianRecentSlot_le ?_ hnew
    rw [medianIndex]
    omega
  rw [maxReasonableSlot, maxReasonableSlot, hlength]
  omega

/-- In a full window the offset is fixed and the median position moves to the next entry. -/
theorem maxReasonableSlot_slide {r : RecentLeaderSlots} (h : r.Ordered) {v : Nat}
    (hv : r.Newest v) (hlen : r.slots.length = 12) :
    r.maxReasonableSlot ≤ (r.recordSlot v).maxReasonableSlot := by
  have hslots := slots_recordSlot_of_full hlen v
  -- the position stays and the entries move: the new median is the old entry behind the old median
  have hlength : (r.recordSlot v).slots.length = r.slots.length := by simp [hslots, hlen]
  have hidx : (r.recordSlot v).medianIndex = r.medianIndex := by simp [medianIndex, hlength]
  have hfive : r.medianIndex = 5 := by simp [medianIndex, hlen]
  have hnew := (h.recordSlot hv).getElem?_medianIndex
  have htail : r.medianIndex < r.slots.tail.length := by simp [hfive, hlen]
  rw [hslots, hidx, List.getElem?_append_left htail, List.getElem?_tail] at hnew
  have hmedian : r.medianRecentSlot ≤ (r.recordSlot v).medianRecentSlot :=
    h.medianRecentSlot_le (Nat.le_succ _) hnew
  rw [maxReasonableSlot, maxReasonableSlot, hlength]
  omega

/-- The window is still growing or full. -/
theorem length_lt_or_eq (r : RecentLeaderSlots) : r.slots.length < 12 ∨ r.slots.length = 12 :=
  Nat.lt_or_eq_of_le r.bounded

theorem maxReasonableSlot_recordSlot {r : RecentLeaderSlots} (h : r.Ordered) {v : Nat}
    (hv : r.Newest v) : r.maxReasonableSlot ≤ (r.recordSlot v).maxReasonableSlot := by
  rcases r.length_lt_or_eq with hlen | hfull
  · exact maxReasonableSlot_grow h hv hlen
  · exact maxReasonableSlot_slide h hv hfull

/-- The estimate survives the next notification: the one entry that may be evicted is never its
only copy. -/
theorem estimate_mem_recordSlot {r : RecentLeaderSlots} (h : r.Ordered) {e : Nat}
    (he : r.estimatedCurrentSlot = .ok e) (v : Nat) : e ∈ (r.recordSlot v).slots := by
  have hmem := estimatedCurrentSlot_mem he
  rcases r.length_lt_or_eq with hlen | hfull
  · rw [slots_recordSlot_of_lt hlen]
    exact List.mem_append_left _ hmem
  · -- the oldest entry goes, so the estimate has to be among the others
    rw [slots_recordSlot_of_full hfull]
    apply List.mem_append_left _
    cases hslots : r.slots with
    | nil => simp [hslots] at hfull
    | cons x xs =>
        rw [hslots] at hmem
        rcases List.mem_cons.1 hmem with rfl | hxs
        · -- the estimate is the oldest entry: then everything up to the median equals it
          have hmedian : r.medianRecentSlot ≤ e :=
            le_estimatedCurrentSlot he r.medianRecentSlot_mem
              r.medianRecentSlot_le_maxReasonableSlot
          have hget := h.getElem?_medianIndex
          have hfive : r.medianIndex = 4 + 1 := by simp [medianIndex, hfull]
          rw [hslots, hfive, List.getElem?_cons_succ] at hget
          have hmid : r.medianRecentSlot ∈ xs := List.mem_of_getElem? hget
          have hfirst : e ≤ r.medianRecentSlot :=
            (List.pairwise_cons.1 (hslots ▸ h)).1 _ hmid
          exact (le_antisymm hfirst hmedian) ▸ hmid
        · exact hxs

/-- An ordered notification does not move the estimate back. -/
theorem estimate_le_estimate_recordSlot {r : RecentLeaderSlots} (h : r.Ordered) {v e e' : Nat}
    (hv : r.Newest v) (he : r.estimatedCurrentSlot = .ok e)
    (he' : (r.recordSlot v).estimatedCurrentSlot = .ok e') : e ≤ e' := by
  have hbound : e ≤ (r.recordSlot v).maxReasonableSlot := by
    calc
      e ≤ r.maxReasonableSlot := estimatedCurrentSlot_le_max he
      _ ≤ (r.recordSlot v).maxReasonableSlot := maxReasonableSlot_recordSlot h hv
  exact le_estimatedCurrentSlot he' (estimate_mem_recordSlot h he v) hbound

end RecentLeaderSlots
end Engine
end TpuSender
