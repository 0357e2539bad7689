import TpuSender.Engine.LeaderTpuCache
import TpuSender.Engine.SlotEstimate

/-!
# SlotWatcher — slots straight from the node, and the send path behind them

`run_slot_watcher` records whatever slot a notification names; the slots are arbitrary `u64`
values.  A send then draws its estimate from the last 12 of them and adds the fan-out to it.

Every sum on that path is a plain one, so slots near the end of the `u64` range can stop it.  An
overflow is the only way to fail (`estimatedCurrentSlot_error`), and `slot_updates_safe_iff` says
exactly which notifications lead to one: a condition on the last 12 slots, counted entry by entry.
-/

namespace TpuSender
namespace Engine

open Library Library.SortedRank

/-! ## Notifications -/

/-- A slot update of the node; the watcher looks at two kinds. -/
inductive SlotUpdate
  | Completed (slot : UInt64)
  | FirstShredReceived (slot : UInt64)
  | other

/-- The slot that is recorded, if any. -/
def SlotUpdate.currentSlot? : SlotUpdate → Option Nat
  -- the slot is full: its successor is current, but not past the end of the range
  | .Completed slot => some (saturatingAdd slot.toNat 1)
  | .FirstShredReceived slot => some slot.toNat
  | .other => none

/-- One turn of the watcher's loop. -/
def watchUpdate (r : RecentLeaderSlots) (update : SlotUpdate) : RecentLeaderSlots :=
  match update.currentSlot? with
  | some currentSlot => r.recordSlot currentSlot
  | none => r

def runSlotWatcher (startSlot : UInt64) (updates : List SlotUpdate) : RecentLeaderSlots :=
  updates.foldl watchUpdate (RecentLeaderSlots.new startSlot.toNat)

/-- The last 12 of the start slot and the slots recorded after it. -/
def recentWindow (startSlot : UInt64) (updates : List SlotUpdate) : List Nat :=
  (startSlot.toNat :: updates.filterMap SlotUpdate.currentSlot?).rtake 12

theorem slots_runSlotWatcher (startSlot : UInt64) (updates : List SlotUpdate) :
    (runSlotWatcher startSlot updates).slots = recentWindow startSlot updates := by
  have hfold : ∀ r : RecentLeaderSlots, updates.foldl watchUpdate r =
      (updates.filterMap SlotUpdate.currentSlot?).foldl RecentLeaderSlots.recordSlot r := by
    induction updates with
    | nil =>
        intro r
        rfl
    | cons update updates ih =>
        intro r
        cases update with
        | Completed slot => exact ih _
        | FirstShredReceived slot => exact ih _
        | other => exact ih r
  rw [runSlotWatcher, hfold]
  exact RecentLeaderSlots.slots_recordAll startSlot.toNat _

/-! ## The bound, counted -/

/-- More entries than half of the others satisfy `p`, so the lower median does. -/
def Majority (slots : List Nat) (p : Nat → Bool) : Prop :=
  (slots.length - 1) / 2 + 1 ≤ slots.countP p

instance (slots : List Nat) (p : Nat → Bool) : Decidable (Majority slots p) :=
  inferInstanceAs (Decidable (_ ≤ _))

theorem median_iff_majority (r : RecentLeaderSlots) {p : Nat → Bool}
    (hp : ∀ x y, x ≤ y → p y = true → p x = true) :
    p r.medianRecentSlot = true ↔ Majority r.slots p :=
  sorted_getElem_iff hp r.medianIndex_lt

/-- The sums fit when a majority of the entries leaves room for them. -/
theorem sumsFit_iff (r : RecentLeaderSlots) :
    r.SumsFit ↔
      Majority r.slots fun y =>
        decide (y + r.slots.length / 2 + MAX_SLOT_SKIP_DISTANCE ≤ u64Max) := by
  rw [← median_iff_majority r]
  · rw [decide_eq_true_iff]
    exact Iff.rfl
  · intro x y hxy hy
    have hle := of_decide_eq_true hy
    exact decide_eq_true (by omega)

/-- An entry is beyond the bound when a majority of the entries is that far behind it. -/
theorem maxReasonableSlot_lt_iff (r : RecentLeaderSlots) (x : Nat) :
    r.maxReasonableSlot < x ↔
      Majority r.slots fun y =>
        decide (y + r.slots.length / 2 + MAX_SLOT_SKIP_DISTANCE < x) := by
  rw [← median_iff_majority r]
  · rw [decide_eq_true_iff]
    exact Iff.rfl
  · intro y z hyz hz
    have hlt := of_decide_eq_true hz
    exact decide_eq_true (by omega)

/-- With the window never empty and the median within its own bound, only a sum can fail. -/
theorem estimatedCurrentSlot_error {r : RecentLeaderSlots} {p : Panic}
    (h : r.estimatedCurrentSlot = .error p) : p = .arithmeticOverflow := by
  by_cases hfit : r.SumsFit
  · rcases RecentLeaderSlots.exists_estimatedCurrentSlot hfit with ⟨e, he⟩
    rw [he] at h
    cases h
  · rw [RecentLeaderSlots.estimatedCurrentSlot_eq, if_neg hfit] at h
    cases h
    rfl

/-! ## The send path -/

/-- A send gets its estimate, the greatest entry within the bound, and its fan-out. -/
def SendPathSafe (r : RecentLeaderSlots) (c : LeaderTpuCache) (fanoutSlots : Nat) : Prop :=
  ∃ estimate sockets,
    r.estimatedCurrentSlot = .ok estimate ∧
      IsGreatest
        {x | x ∈ r.slots ∧
          x ≤ r.medianRecentSlot + (r.slots.length - 1 - r.medianIndex) +
            MAX_SLOT_SKIP_DISTANCE} estimate ∧
      max estimate c.firstSlot + fanoutSlots ≤ u64Max ∧
      c.getUniqueLeaderSockets estimate fanoutSlots = .ok sockets

/-- No sum of the send path leaves the range: a majority of the slots leaves room for the bound,
the start slot for the fan-out, and a slot that does not is beyond the bound. -/
structure FitsRange (startSlot : Nat) (slots : List Nat) (fanoutSlots : Nat) : Prop where
  bound : Majority slots fun y =>
    decide (y + slots.length / 2 + MAX_SLOT_SKIP_DISTANCE ≤ u64Max)
  start : startSlot + fanoutSlots ≤ u64Max
  entries : ∀ x ∈ slots, u64Max < x + fanoutSlots →
    Majority slots fun y => decide (y + slots.length / 2 + MAX_SLOT_SKIP_DISTANCE < x)

theorem sendPathSafe_iff {r : RecentLeaderSlots} {c : LeaderTpuCache} {fanoutSlots : Nat} :
    SendPathSafe r c fanoutSlots ↔ FitsRange c.firstSlot r.slots fanoutSlots := by
  constructor
  · rintro ⟨estimate, _, hestimate, _, hsum, _⟩
    have hfit := (RecentLeaderSlots.estimatedCurrentSlot_eq_ok_iff.1 hestimate).1
    have hfirst := Nat.le_max_right estimate c.firstSlot
    refine ⟨(sumsFit_iff r).1 hfit, (Nat.add_le_add_right hfirst _).trans hsum, ?_⟩
    intro x hx hover
    rw [← maxReasonableSlot_lt_iff]
    by_contra hbound
    -- an entry within the bound is at most the estimate, whose sum is in range
    have hle := RecentLeaderSlots.le_estimatedCurrentSlot hestimate hx (Nat.le_of_not_lt hbound)
    have hmax := hle.trans (Nat.le_max_left estimate c.firstSlot)
    omega
  · intro h
    rcases RecentLeaderSlots.exists_estimatedCurrentSlot ((sumsFit_iff r).2 h.bound) with
      ⟨estimate, hestimate⟩
    have hsum : max estimate c.firstSlot + fanoutSlots ≤ u64Max := by
      rcases Nat.le_total estimate c.firstSlot with hbehind | hahead
      · rw [Nat.max_eq_right hbehind]
        exact h.start
      · rw [Nat.max_eq_left hahead]
        by_contra hover
        have hmem := RecentLeaderSlots.estimatedCurrentSlot_mem hestimate
        have hbeyond := (maxReasonableSlot_lt_iff r estimate).2
          (h.entries estimate hmem (Nat.lt_of_not_le hover))
        have hwithin := RecentLeaderSlots.estimatedCurrentSlot_le_max hestimate
        exact Nat.not_lt_of_le hwithin hbeyond
    rcases LeaderTpuCache.exists_getUniqueLeaderSockets hsum with ⟨sockets, hsockets, _⟩
    refine ⟨estimate, sockets, hestimate, ?_, hsum, hsockets⟩
    rw [r.maxIndex_sub_medianIndex]
    exact (RecentLeaderSlots.estimatedCurrentSlot_eq_ok_iff.1 hestimate).2

/-- After every notification the send path works, exactly when after every notification the last 12
slots leave room for its sums; and nothing but a sum ever stops the estimate. -/
theorem slot_updates_safe_iff (fromStr : String → Option Pubkey) (startSlot : UInt64)
    (updates : List SlotUpdate) (slotsInEpoch : Nat) (leaders : List Pubkey)
    (clusterNodes : List RpcContactInfo) (protocol : Protocol) (fanoutSlots : Nat) :
    ((∀ seen, seen <+: updates →
        SendPathSafe (runSlotWatcher startSlot seen)
          (LeaderTpuCache.new fromStr startSlot.toNat slotsInEpoch leaders clusterNodes protocol)
          fanoutSlots) ↔
      ∀ seen, seen <+: updates →
        FitsRange startSlot.toNat (recentWindow startSlot seen) fanoutSlots) ∧
      ∀ seen p, seen <+: updates →
        (runSlotWatcher startSlot seen).estimatedCurrentSlot = .error p →
        p = .arithmeticOverflow := by
  have hstate : ∀ seen,
      SendPathSafe (runSlotWatcher startSlot seen)
          (LeaderTpuCache.new fromStr startSlot.toNat slotsInEpoch leaders clusterNodes protocol)
          fanoutSlots ↔
        FitsRange startSlot.toNat (recentWindow startSlot seen) fanoutSlots := by
    intro seen
    rw [← slots_runSlotWatcher]
    exact sendPathSafe_iff
  refine ⟨?_, fun _ _ _ herror => estimatedCurrentSlot_error herror⟩
  constructor
  · intro hsafe seen hseen
    exact (hstate seen).1 (hsafe seen hseen)
  · intro hfits seen hseen
    exact (hstate seen).2 (hfits seen hseen)

/-- Two notifications of the last slot of the range, and the next estimate overflows. -/
theorem last_slot_overflows :
    ¬ ∀ (startSlot : UInt64) (updates : List SlotUpdate) (fanoutSlots : Nat),
        1 ≤ fanoutSlots → fanoutSlots ≤ MAX_FANOUT_SLOTS →
        SendPathSafe (runSlotWatcher startSlot updates)
          (LeaderTpuCache.new (fun _ => none) startSlot.toNat 32 [] [] .QUIC) fanoutSlots := by
  intro h
  have hsafe := sendPathSafe_iff.1
    (h 1000 [.Completed 0xFFFFFFFFFFFFFFFF, .Completed 0xFFFFFFFFFFFFFFFF] 1 (by decide)
      (by decide))
  have hbound := hsafe.bound
  revert hbound
  decide

end Engine
end TpuSender
