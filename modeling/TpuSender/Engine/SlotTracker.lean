import TpuSender.Engine.LeaderTpuService
import TpuSender.Engine.SlotEstimate

/-!
# SlotTracker — recorded slots and cache updates, without the refresher in between

An abstraction of the service: only the window and the cache, and as steps only `record_slot` and
`update_all` at the estimate of the moment, with whatever was fetched.  Every run of the service
is a run of the tracker (`service_refines_tracker`).

On notifications that arrive in order, neither the estimate nor the cache's anchor ever moves
back (`time_never_runs_backwards`).
-/

namespace TpuSender
namespace Engine

open Library

structure SlotTracker where
  recentSlots : RecentLeaderSlots
  leaderTpuCache : LeaderTpuCache

inductive TrackerEvent
  | recordSlot (currentSlot : Nat)
  | updateAll (cacheUpdateInfo : LeaderTpuCacheUpdateInfo)

namespace SlotTracker

variable (fromStr : String → Option Pubkey)

def start (startSlot slotsInEpoch : Nat) (leaders : List Pubkey)
    (clusterNodes : List RpcContactInfo) (protocol : Protocol) : SlotTracker :=
  { recentSlots := RecentLeaderSlots.new startSlot
    leaderTpuCache :=
      LeaderTpuCache.new fromStr startSlot slotsInEpoch leaders clusterNodes protocol }

def step (s : SlotTracker) : TrackerEvent → Option SlotTracker
  | .recordSlot currentSlot => some { s with recentSlots := s.recentSlots.recordSlot currentSlot }
  | .updateAll info => do
      let estimate ← s.recentSlots.estimatedCurrentSlot.toOption
      pure { s with leaderTpuCache := (s.leaderTpuCache.updateAll fromStr estimate info).1 }

def machine : Machine SlotTracker TrackerEvent := { next := step fromStr }

theorem machine_next (s : SlotTracker) (ev : TrackerEvent) :
    (machine fromStr).next s ev = step fromStr s ev := rfl

/-- The slots a run records, in order. -/
def recorded (evs : List TrackerEvent) : List Nat :=
  evs.filterMap fun ev =>
    match ev with
    | .recordSlot v => some v
    | .updateAll _ => none

/-! ## The service refines the tracker -/

/-- Forget where the refresher is. -/
def ofService (s : LeaderTpuService) : SlotTracker :=
  { recentSlots := s.recentSlots, leaderTpuCache := s.leaderTpuCache }

theorem service_refines_tracker {s t : LeaderTpuService} {evs : List ServiceEvent}
    (h : (LeaderTpuService.machine fromStr).run s evs = some t) :
    ∃ ms, (machine fromStr).run (ofService s) ms = some (ofService t) := by
  refine (LeaderTpuService.machine fromStr).run_simulation (machine fromStr) ofService ?_ h
  intro u ev v hnext
  rw [LeaderTpuService.machine_next] at hnext
  cases ev with
  | recordSlot slot =>
      rw [LeaderTpuService.step_recordSlot hnext]
      exact ⟨[.recordSlot slot], rfl⟩
  | fetch now rpc =>
      -- a fetch changes nothing the tracker sees
      rcases LeaderTpuService.step_fetch hnext with ⟨estimate, last, _, _, _, rfl⟩
      exact ⟨[], rfl⟩
  | update now =>
      rcases LeaderTpuService.step_update hnext with ⟨readAt, info, estimate, _, hestimate, rfl⟩
      refine ⟨[.updateAll info], ?_⟩
      simp [Machine.run, machine, step, ofService, hestimate, Except.toOption]

/-! ## What a step can do -/

section Steps

variable {fromStr} {s t : SlotTracker}

theorem step_recordSlot {v : Nat} (h : step fromStr s (.recordSlot v) = some t) :
    t = { s with recentSlots := s.recentSlots.recordSlot v } := by
  simpa [step, eq_comm] using h

theorem step_updateAll {info : LeaderTpuCacheUpdateInfo}
    (h : step fromStr s (.updateAll info) = some t) :
    ∃ estimate, s.recentSlots.estimatedCurrentSlot = .ok estimate ∧
      t = { s with leaderTpuCache := (s.leaderTpuCache.updateAll fromStr estimate info).1 } := by
  simp only [step, bind, Option.bind_eq_some_iff, LeaderTpuService.toOption_eq_some_iff, pure,
    Option.some.injEq] at h
  rcases h with ⟨estimate, hestimate, rfl⟩
  exact ⟨estimate, hestimate, rfl⟩

/-- An update moves the anchor to the estimate or leaves it. -/
theorem firstSlot_updateAll (c : LeaderTpuCache) (estimate : Nat)
    (info : LeaderTpuCacheUpdateInfo) :
    (c.updateAll fromStr estimate info).1.firstSlot = estimate ∨
      (c.updateAll fromStr estimate info).1.firstSlot = c.firstSlot := by
  by_cases hleaders : ∃ leaders, info.maybeSlotLeaders = some (.ok leaders)
  · rcases hleaders with ⟨leaders, hleaders⟩
    exact Or.inl (LeaderTpuCache.updateAll_of_leaders fromStr c estimate hleaders).1
  · have hnone : ∀ leaders, info.maybeSlotLeaders ≠ some (.ok leaders) :=
      fun leaders heq => hleaders ⟨leaders, heq⟩
    exact Or.inr (LeaderTpuCache.updateAll_of_no_leaders fromStr c estimate hnone).1

end Steps

/-! ## Ordered runs -/

/-- The recorded slot is at least everything in the window. -/
def RecordsNewest (s : SlotTracker) : TrackerEvent → Prop
  | .recordSlot v => s.recentSlots.Newest v
  | .updateAll _ => True

/-- The window is ordered and the anchor is not ahead of the estimate. -/
structure Behind (s : SlotTracker) : Prop where
  ordered : s.recentSlots.Ordered
  anchor : ∀ e, s.recentSlots.estimatedCurrentSlot = .ok e → s.leaderTpuCache.firstSlot ≤ e

/-- Neither the estimator's bound nor the estimate nor the anchor moves back from `s` to `t`. -/
structure Forward (s t : SlotTracker) : Prop where
  bound : s.recentSlots.maxReasonableSlot ≤ t.recentSlots.maxReasonableSlot
  estimate : ∀ e e', s.recentSlots.estimatedCurrentSlot = .ok e →
    t.recentSlots.estimatedCurrentSlot = .ok e' → e ≤ e'
  anchor : s.leaderTpuCache.firstSlot ≤ t.leaderTpuCache.firstSlot

theorem Forward.refl (s : SlotTracker) : Forward s s := by
  refine ⟨le_rfl, ?_, le_rfl⟩
  intro e e' he he'
  exact (ok_unique he he').le

/-- With a larger bound in range, the smaller one is in range too, so there is an estimate. -/
theorem Forward.exists_estimate {s t : SlotTracker} (h : Forward s t) {e' : Nat}
    (he' : t.recentSlots.estimatedCurrentSlot = .ok e') :
    ∃ e, s.recentSlots.estimatedCurrentSlot = .ok e := by
  have hfit : t.recentSlots.SumsFit :=
    (RecentLeaderSlots.estimatedCurrentSlot_eq_ok_iff.1 he').1
  exact RecentLeaderSlots.exists_estimatedCurrentSlot (le_trans h.bound hfit)

theorem Forward.trans {s t u : SlotTracker} (h₁ : Forward s t) (h₂ : Forward t u) :
    Forward s u := by
  refine ⟨le_trans h₁.bound h₂.bound, ?_, le_trans h₁.anchor h₂.anchor⟩
  intro e e'' he he''
  -- the bounds guarantee an estimate in the middle, through which the two inequalities meet
  rcases h₂.exists_estimate he'' with ⟨e', he'⟩
  exact le_trans (h₁.estimate e e' he he') (h₂.estimate e' e'' he' he'')

theorem forward_step {fromStr : String → Option Pubkey} {s t : SlotTracker} {ev : TrackerEvent}
    (hs : Behind s) (hev : RecordsNewest s ev) (hstep : step fromStr s ev = some t) :
    Forward s t := by
  cases ev with
  | recordSlot v =>
      -- the window moves, the cache stays
      rw [step_recordSlot hstep]
      refine ⟨RecentLeaderSlots.maxReasonableSlot_recordSlot hs.ordered hev, ?_, le_rfl⟩
      intro e e' he he'
      exact RecentLeaderSlots.estimate_le_estimate_recordSlot hs.ordered hev he he'
  | updateAll info =>
      -- the cache moves, the window stays
      rcases step_updateAll hstep with ⟨estimate, hestimate, rfl⟩
      refine ⟨le_rfl, (Forward.refl s).estimate, ?_⟩
      rcases firstSlot_updateAll s.leaderTpuCache estimate info with hmoved | hkept
      · exact (hs.anchor estimate hestimate).trans hmoved.ge
      · exact hkept.ge

theorem behind_step {fromStr : String → Option Pubkey} {s t : SlotTracker} {ev : TrackerEvent}
    (hs : Behind s) (hev : RecordsNewest s ev) (hstep : step fromStr s ev = some t) : Behind t := by
  have hforward := forward_step hs hev hstep
  cases ev with
  | recordSlot v =>
      rw [step_recordSlot hstep] at hforward ⊢
      refine ⟨hs.ordered.recordSlot hev, ?_⟩
      intro e' he'
      -- the anchor was not ahead of the old estimate, and the new one is no smaller
      rcases hforward.exists_estimate he' with ⟨e, he⟩
      exact le_trans (hs.anchor e he) (hforward.estimate e e' he he')
  | updateAll info =>
      rcases step_updateAll hstep with ⟨estimate, hestimate, rfl⟩
      refine ⟨hs.ordered, ?_⟩
      intro e he
      have hsame : estimate = e := ok_unique hestimate he
      rcases firstSlot_updateAll s.leaderTpuCache estimate info with hmoved | hkept
      · exact hmoved.le.trans hsame.le
      · exact hkept.le.trans (hs.anchor e he)

/-- Slots recorded in nondecreasing order are newest when they are recorded. -/
theorem steps_recordsNewest {s : SlotTracker} {evs : List TrackerEvent}
    (hwindow : ∀ x ∈ s.recentSlots.slots, ∀ v ∈ recorded evs, x ≤ v)
    (hordered : (recorded evs).Pairwise (· ≤ ·)) :
    (machine fromStr).Steps RecordsNewest s evs := by
  induction evs generalizing s with
  | nil => trivial
  | cons ev evs ih =>
      intro t ht
      rw [machine_next] at ht
      cases ev with
      | recordSlot v =>
          have hcons : recorded (.recordSlot v :: evs) = v :: recorded evs := rfl
          rw [hcons] at hwindow hordered
          rcases List.pairwise_cons.1 hordered with ⟨hv, hrest⟩
          refine ⟨fun x hx => hwindow x hx v List.mem_cons_self, ?_⟩
          refine ih ?_ hrest
          intro x hx w hw
          rw [step_recordSlot ht] at hx
          rcases RecentLeaderSlots.mem_recordSlot hx with hold | rfl
          · exact hwindow x hold w (List.mem_cons_of_mem v hw)
          · exact hv w hw
      | updateAll info =>
          rcases step_updateAll ht with ⟨estimate, _, rfl⟩
          exact ⟨trivial, ih hwindow hordered⟩

theorem behind_start (startSlot slotsInEpoch : Nat) (leaders : List Pubkey)
    (clusterNodes : List RpcContactInfo) (protocol : Protocol) :
    Behind (start fromStr startSlot slotsInEpoch leaders clusterNodes protocol) := by
  refine ⟨RecentLeaderSlots.ordered_new startSlot, ?_⟩
  intro e he
  have hmem : e ∈ [startSlot] := RecentLeaderSlots.estimatedCurrentSlot_mem he
  have hes : e = startSlot := by simpa using hmem
  exact hes.ge

/-- On slots recorded in nondecreasing order, from the start slot on, and with updates anywhere in
between: between any two moments of the run the estimate does not decrease, nor does the cache's
anchor, and the anchor is never ahead of the estimate. -/
theorem time_never_runs_backwards (startSlot slotsInEpoch : Nat) (leaders : List Pubkey)
    (clusterNodes : List RpcContactInfo) (protocol : Protocol) (ls ms : List TrackerEvent)
    (s t : SlotTracker)
    (hordered : (startSlot :: recorded (ls ++ ms)).Pairwise (· ≤ ·))
    (hs : (machine fromStr).run
      (start fromStr startSlot slotsInEpoch leaders clusterNodes protocol) ls = some s)
    (ht : (machine fromStr).run s ms = some t) (hfit : t.recentSlots.SumsFit) :
    startSlot ≤ s.leaderTpuCache.firstSlot ∧
      s.leaderTpuCache.firstSlot ≤ t.leaderTpuCache.firstSlot ∧
      ∃ e e', s.recentSlots.estimatedCurrentSlot = .ok e ∧
        t.recentSlots.estimatedCurrentSlot = .ok e' ∧ e ≤ e' ∧
        t.leaderTpuCache.firstSlot ≤ e' := by
  have hstart := behind_start fromStr startSlot slotsInEpoch leaders clusterNodes protocol
  have hsteps : (machine fromStr).Steps RecordsNewest
      (start fromStr startSlot slotsInEpoch leaders clusterNodes protocol) (ls ++ ms) := by
    rcases List.pairwise_cons.1 hordered with ⟨hfirst, hrest⟩
    refine steps_recordsNewest fromStr ?_ hrest
    intro x hx v hv
    have hxs : x = startSlot := by simpa [start] using hx
    exact hxs ▸ hfirst v hv
  have hpast : (machine fromStr).Steps RecordsNewest _ ls := Machine.Steps.of_append _ hsteps
  have hfuture : (machine fromStr).Steps RecordsNewest s ms := Machine.Steps.after _ hsteps hs
  -- the same two step lemmas carry both halves of the run
  have hinv : ∀ u ev v, Behind u → RecordsNewest u ev →
      (machine fromStr).next u ev = some v → Behind v :=
    fun u ev v hu hev hnext => behind_step hu hev hnext
  have hrel : ∀ u ev v, Behind u → RecordsNewest u ev →
      (machine fromStr).next u ev = some v → Forward u v :=
    fun u ev v hu hev hnext => forward_step hu hev hnext
  have hbehind : Behind s := (machine fromStr).run_invariant_of_steps hinv hstart hpast hs
  have hbehind' : Behind t := (machine fromStr).run_invariant_of_steps hinv hbehind hfuture ht
  have hto : Forward (start fromStr startSlot slotsInEpoch leaders clusterNodes protocol) s :=
    (machine fromStr).run_rel (fun u _ => Forward.refl u) (fun _ _ _ => Forward.trans) hinv hrel
      hstart hpast hs
  have hon : Forward s t :=
    (machine fromStr).run_rel (fun u _ => Forward.refl u) (fun _ _ _ => Forward.trans) hinv hrel
      hbehind hfuture ht
  rcases RecentLeaderSlots.exists_estimatedCurrentSlot hfit with ⟨e', he'⟩
  rcases hon.exists_estimate he' with ⟨e, he⟩
  exact ⟨hto.anchor, hon.anchor, e, e', he, he', hon.estimate e e' he he', hbehind'.anchor e' he'⟩

/-- A jump far above 48 slots, an update, and the next slot. -/
theorem time_never_runs_backwards_jump :
    ∃ s t, (machine fun _ => none).run (start (fun _ => none) 1000 432000 [] [] .QUIC)
        [.recordSlot 5000] = some s ∧
      (machine fun _ => none).run s
        [.updateAll
            { maybeClusterNodes := none
              maybeEpochInfo := none
              maybeSlotLeaders := some (.ok []) },
          .recordSlot 5001] = some t ∧
      ∃ e e', s.recentSlots.estimatedCurrentSlot = .ok e ∧
        t.recentSlots.estimatedCurrentSlot = .ok e' ∧ e ≤ e' ∧ t.leaderTpuCache.firstSlot ≤ e' := by
  refine ⟨_, _, rfl, rfl, ?_⟩
  exact (time_never_runs_backwards (fun _ => none) 1000 432000 [] [] .QUIC [.recordSlot 5000]
    [.updateAll
        { maybeClusterNodes := none
          maybeEpochInfo := none
          maybeSlotLeaders := some (.ok []) },
      .recordSlot 5001] _ _ (by decide) rfl rfl (by decide)).2.2

end SlotTracker
end Engine
end TpuSender
