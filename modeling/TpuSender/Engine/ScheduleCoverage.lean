import TpuSender.Engine.FanoutCoverage
import TpuSender.Engine.RefreshCycle

/-!
# ScheduleCoverage — a fan-out never runs past the cached leaders

The refresher asks for new leaders when its estimate comes within `MAX_FANOUT_SLOTS` of the last
cached slot, and stores them one answer later.  Senders read the cache all the while: before the
fetch, while the answers are on their way, and after the update.

`schedule_never_runs_out` bounds what all of this costs.  As long as the estimate stays within
`drift` slots of the one that the last finished cycle was built from, a fan-out of at most
`102 - drift` slots finds a cached leader for every slot it probes, at any moment of any run.
-/

namespace TpuSender
namespace Engine

open Library LeaderTpuCache LeaderTpuService

/-! ## The last finished cycle -/

/-- The service and the estimate that the requests of its last finished cycle were built from. -/
structure AnchoredService where
  service : LeaderTpuService
  anchor : Nat

namespace AnchoredService

variable (fromStr : String → Option Pubkey)

/-- A cycle finishes with its update, or with its fetch if that asks for nothing. -/
def nextAnchor (s : AnchoredService) (t : LeaderTpuService) : ServiceEvent → Nat
  | .recordSlot _ => s.anchor
  | .fetch _ _ =>
      match t.phase, s.service.recentSlots.estimatedCurrentSlot with
      | .sleeping, .ok estimate => estimate
      | _, _ => s.anchor
  | .update _ =>
      match s.service.phase with
      | .fetched readAt _ => readAt
      | .sleeping => s.anchor

def step (s : AnchoredService) (ev : ServiceEvent) : Option AnchoredService :=
  (s.service.step fromStr ev).map fun t => { service := t, anchor := s.nextAnchor t ev }

def machine : Machine AnchoredService ServiceEvent := { next := step fromStr }

section Steps

variable {fromStr} {s t : AnchoredService} {ev : ServiceEvent}

theorem step_eq_some_iff :
    step fromStr s ev = some t ↔
      s.service.step fromStr ev = some t.service ∧ t.anchor = s.nextAnchor t.service ev := by
  rw [step, Option.map_eq_some_iff]
  constructor
  · rintro ⟨u, hu, rfl⟩
    exact ⟨hu, rfl⟩
  · rintro ⟨hservice, hanchor⟩
    exact ⟨t.service, hservice, by rw [← hanchor]⟩

/-- The anchor is only observed: every run of the service is one of the anchored service. -/
theorem exists_run {s : AnchoredService} {v : LeaderTpuService} {evs : List ServiceEvent}
    (hrun : (LeaderTpuService.machine fromStr).run s.service evs = some v) :
    ∃ t, (machine fromStr).run s evs = some t ∧ t.service = v := by
  have hlift : ∃ ls t, (machine fromStr).run s ls = some t ∧ True ∧ t.service = v ∧
      ls.filterMap some = evs := by
    refine (machine fromStr).exists_run_of_view (LeaderTpuService.machine fromStr) service ?_
      trivial hrun
    intro u ev w _ hnext
    have hstep : step fromStr u ev = some { service := w, anchor := u.nextAnchor w ev } :=
      step_eq_some_iff.2 ⟨hnext, rfl⟩
    exact ⟨[ev], _, (Machine.run_cons_eq_some _).2 ⟨_, hstep, rfl⟩, trivial, rfl, rfl⟩
  rcases hlift with ⟨ls, t, ht, _, hservice, hls⟩
  rw [List.filterMap_some] at hls
  exact ⟨t, hls ▸ ht, hservice⟩

end Steps

/-! ## The estimate between two cycles -/

/-- The estimate is within `drift` slots of the anchor, on either side. -/
def Steady (drift : Nat) (s : AnchoredService) : Prop :=
  ∀ estimate, s.service.recentSlots.estimatedCurrentSlot = .ok estimate →
    estimate ≤ s.anchor + drift ∧ s.anchor ≤ estimate + drift

theorem steady_of {s : AnchoredService} {drift e : Nat}
    (he : s.service.recentSlots.estimatedCurrentSlot = .ok e)
    (hnear : e ≤ s.anchor + drift ∧ s.anchor ≤ e + drift) : s.Steady drift := by
  intro estimate hestimate
  have hsame : e = estimate := ok_unique he hestimate
  exact hsame ▸ hnear

end AnchoredService

/-- Recorded slots fit, and every request is answered by a healthy node. -/
def ServiceEvent.Healthy : ServiceEvent → Prop
  | .recordSlot currentSlot => SlotFits currentSlot
  | .fetch _ rpcClient => rpcClient.Healthy
  | .update _ => True

/-! ## Answers on their way -/

/-- The answers to requests that were built from `readAt` while the cache was `c`: no leaders only
if those of `c` still reach far enough. -/
structure Replenishes (c : LeaderTpuCache) (readAt : Nat) (info : LeaderTpuCacheUpdateInfo) :
    Prop where
  epochInfo : ∀ epochInfo, info.maybeEpochInfo = some (.ok epochInfo) →
    200 ≤ epochInfo.slotsInEpoch
  slotLeaders :
    (info.maybeSlotLeaders = none ∧ readAt + 102 ≤ c.firstSlot + 200) ∨
      ∃ leaders, info.maybeSlotLeaders = some (.ok leaders) ∧ leaders.length = 200

theorem RpcClient.Healthy.replenishes {rpc : RpcClient} (hrpc : rpc.Healthy) {c : LeaderTpuCache}
    (hlong : 200 ≤ c.slotsInEpoch) {elapsed estimate : Nat} :
    Replenishes c estimate (requestsAt c elapsed rpc estimate (c.firstSlot + 199)) := by
  constructor
  · intro epochInfo hmaybe
    rcases hrpc.epochInfo with ⟨answered, hanswered, hlong'⟩
    by_cases hask : estimate ≥ c.lastEpochInfoSlot - c.slotsInEpoch
    · have hsame : answered = epochInfo := by
        simpa [requestsAt, hask, hanswered] using hmaybe
      exact hsame ▸ hlong'
    · simp [requestsAt, hask] at hmaybe
  · rcases hrpc.slotLeaders estimate (LeaderTpuCache.fanout c.slotsInEpoch) with
      ⟨leaders, hleaders, hlen⟩
    by_cases hask : estimate ≥ c.firstSlot + 199 - MAX_FANOUT_SLOTS
    · right
      refine ⟨leaders, ?_, hlen.trans (fanout_of_le hlong)⟩
      simp [requestsAt, hask, hleaders]
    · have hnone : (requestsAt c elapsed rpc estimate (c.firstSlot + 199)).maybeSlotLeaders =
          none := by
        simp [requestsAt, hask]
      have hbefore := lt_lastSlot_of_no_request hnone
      simp only [MAX_FANOUT_SLOTS] at hbefore
      exact .inl ⟨hnone, by omega⟩

/-! ## The invariant -/

/-- What healthy events keep, in either phase of the refresher: the cache holds 200 leaders and
reaches 102 slots past the anchor. -/
structure Covered (s : AnchoredService) : Prop where
  full : FullCache { s.service with phase := .sleeping }
  reach : s.anchor + 102 ≤ s.service.leaderTpuCache.firstSlot + 200
  answers : ∀ readAt info, s.service.phase = .fetched readAt info →
    Replenishes s.service.leaderTpuCache readAt info

namespace Covered

open AnchoredService

variable {fromStr : String → Option Pubkey} {s t : AnchoredService}

theorem of_recordSlot (h : Covered s) {v : Nat} (hv : SlotFits v)
    (hstep : AnchoredService.step fromStr s (.recordSlot v) = some t) : Covered t := by
  rcases step_eq_some_iff.1 hstep with ⟨hservice, hanchor⟩
  have hrecord : t.service = s.service.recordSlot v := step_recordSlot hservice
  have hsame : t.anchor = s.anchor := hanchor
  refine
    { full := ?_
      reach := ?_
      answers := ?_ }
  · rw [hrecord]
    exact h.full.of_recordSlot hv
  · rw [hrecord, hsame]
    exact h.reach
  · rw [hrecord]
    exact h.answers

/-- A fetch that asks for nothing makes its estimate the anchor; one that asks leaves the anchor
alone, and what it asks for replenishes the cache. -/
theorem of_fetch (h : Covered s) {now : Nat} {rpc : RpcClient} (hrpc : rpc.Healthy)
    (hstep : AnchoredService.step fromStr s (.fetch now rpc) = some t) : Covered t := by
  rcases step_eq_some_iff.1 hstep with ⟨hservice, hanchor⟩
  rcases step_fetch hservice with ⟨estimate, last, _, hestimate, hlast, hfetch⟩
  have hlast' : last = s.service.leaderTpuCache.firstSlot + 199 :=
    ok_unique hlast h.full.lastSlot
  subst hlast'
  have hreplenishes : Replenishes s.service.leaderTpuCache estimate
      (requestsAt s.service.leaderTpuCache (now - s.service.lastClusterRefresh) rpc estimate
        (s.service.leaderTpuCache.firstSlot + 199)) :=
    hrpc.replenishes h.full.slotsInEpoch
  generalize requestsAt s.service.leaderTpuCache (now - s.service.lastClusterRefresh) rpc estimate
    (s.service.leaderTpuCache.firstSlot + 199) = info at hfetch hreplenishes
  -- whatever is asked for, a fetch leaves the cache as it was
  have hcache : t.service.leaderTpuCache = s.service.leaderTpuCache := by
    rw [hfetch]
    rfl
  have hfull : FullCache { t.service with phase := .sleeping } := by
    rw [hfetch]
    exact
      { phase := rfl
        leaders := h.full.leaders
        slotsInEpoch := h.full.slotsInEpoch
        firstSlot := h.full.firstSlot
        window := h.full.window }
  cases hsome : info.hasSome with
  | false =>
      -- no leaders among no requests: the cache still reaches far enough
      have hphase : t.service.phase = .sleeping := by
        simp [hfetch, afterFetch, hsome]
      have hsame : t.anchor = estimate := by
        simpa [nextAnchor, hphase, hestimate] using hanchor
      have hsilent : info.maybeSlotLeaders = none := by
        simp only [LeaderTpuCacheUpdateInfo.hasSome, Bool.or_eq_false_iff] at hsome
        exact Option.not_isSome_iff_eq_none.1 (by simp [hsome.2])
      refine
        { full := hfull
          reach := ?_
          answers := ?_ }
      · rw [hsame, hcache]
        rcases hreplenishes.slotLeaders with ⟨_, hreach⟩ | ⟨leaders, hleaders, _⟩
        · exact hreach
        · exact absurd (hsilent.symm.trans hleaders) (by simp)
      · intro readAt info' hphase'
        exact absurd (hphase.symm.trans hphase') (by simp)
  | true =>
      have hphase : t.service.phase = .fetched estimate info := by
        simp [hfetch, afterFetch, hsome]
      have hsame : t.anchor = s.anchor := by
        simpa [nextAnchor, hphase] using hanchor
      refine
        { full := hfull
          reach := ?_
          answers := ?_ }
      · rw [hsame, hcache]
        exact h.reach
      · intro readAt info' hphase'
        cases hphase.symm.trans hphase'
        rw [hcache]
        exact hreplenishes

/-- An update that stores leaders anchors them at the estimate of that moment, which is not far
from the one they were asked for. -/
theorem of_update (h : Covered s) {now drift : Nat} (hdrift : drift ≤ 98)
    (hsteady : t.Steady drift)
    (hstep : AnchoredService.step fromStr s (.update now) = some t) : Covered t := by
  rcases step_eq_some_iff.1 hstep with ⟨hservice, hanchor⟩
  rcases step_update hservice with ⟨readAt, info, estimate, hphase, hestimate, hupdate⟩
  have hsame : t.anchor = readAt := by
    simpa [nextAnchor, hphase] using hanchor
  have hreplenishes := h.answers readAt info hphase
  have hcache : t.service.leaderTpuCache =
      (s.service.leaderTpuCache.updateAll fromStr estimate info).1 := by
    rw [hupdate]
    rfl
  have hslots : t.service.recentSlots = s.service.recentSlots := by
    rw [hupdate]
    rfl
  have hsleeping : t.service.phase = .sleeping := by
    rw [hupdate]
    rfl
  have hlong : 200 ≤ t.service.leaderTpuCache.slotsInEpoch := by
    rw [hcache]
    by_cases hasked : ∃ epochInfo, info.maybeEpochInfo = some (.ok epochInfo)
    · rcases hasked with ⟨epochInfo, hepoch⟩
      rw [(updateAll_of_epochInfo fromStr _ estimate hepoch).1]
      exact hreplenishes.epochInfo epochInfo hepoch
    · have hnone : ∀ epochInfo, info.maybeEpochInfo ≠ some (.ok epochInfo) :=
        fun epochInfo hepoch => hasked ⟨epochInfo, hepoch⟩
      rw [(updateAll_of_no_epochInfo fromStr _ estimate hnone).1]
      exact h.full.slotsInEpoch
  have hwindow : ∀ slot ∈ t.service.recentSlots.slots, SlotFits slot := hslots ▸ h.full.window
  have hidle : ∀ readAt' info', t.service.phase = .fetched readAt' info' →
      Replenishes t.service.leaderTpuCache readAt' info' := by
    intro readAt' info' hphase'
    exact absurd (hsleeping.symm.trans hphase') (by simp)
  rcases hreplenishes.slotLeaders with ⟨hnone, hreach⟩ | ⟨leaders, hleaders, hlen⟩
  · -- no leaders were asked for: the cache reaches as far as the fetch has found
    have hkept : ∀ leaders, info.maybeSlotLeaders ≠ some (.ok leaders) := by
      simp [hnone]
    rcases updateAll_of_no_leaders fromStr s.service.leaderTpuCache estimate hkept with
      ⟨hfirst, hlist⟩
    rw [← hcache] at hfirst hlist
    refine
      { full :=
          { phase := rfl
            leaders := hlist ▸ h.full.leaders
            slotsInEpoch := hlong
            firstSlot := hfirst ▸ h.full.firstSlot
            window := hwindow }
        reach := ?_
        answers := hidle }
    rw [hsame, hfirst]
    exact hreach
  · -- 200 leaders from the estimate on, which may have drifted back from the fetch's
    rcases updateAll_of_leaders fromStr s.service.leaderTpuCache estimate hleaders with
      ⟨hfirst, hlist⟩
    rw [← hcache] at hfirst hlist
    have hfits : SlotFits estimate :=
      h.full.window estimate (RecentLeaderSlots.estimatedCurrentSlot_mem hestimate)
    have hnear : t.anchor ≤ estimate + drift := (hsteady estimate (hslots ▸ hestimate)).2
    refine
      { full :=
          { phase := rfl
            leaders := hlist ▸ hlen
            slotsInEpoch := hlong
            firstSlot := hfirst ▸ hfits
            window := hwindow }
        reach := ?_
        answers := hidle }
    rw [hfirst]
    omega

theorem step (h : Covered s) {ev : ServiceEvent} {drift : Nat} (hdrift : drift ≤ 98)
    (hev : ev.Healthy) (hsteady : t.Steady drift)
    (hstep : AnchoredService.step fromStr s ev = some t) : Covered t := by
  cases ev with
  | recordSlot v => exact h.of_recordSlot hev hstep
  | fetch now rpc => exact h.of_fetch hev hstep
  | update now => exact h.of_update hdrift hsteady hstep

/-- What a fan-out needs of the cache, from the anchor on. -/
theorem staysInCache (h : Covered s) {drift estimate fanoutSlots : Nat} (hsteady : s.Steady drift)
    (hestimate : s.service.recentSlots.estimatedCurrentSlot = .ok estimate)
    (hfanout : fanoutSlots ≤ MAX_FANOUT_SLOTS) (hsum : fanoutSlots + drift ≤ 102) :
    StaysInCache s.service.leaderTpuCache estimate fanoutSlots := by
  have hnear : estimate ≤ s.anchor + drift := (hsteady estimate hestimate).1
  have hreach := h.reach
  have hfits : s.service.leaderTpuCache.firstSlot + 199 ≤ u64Max := h.full.firstSlot
  have hfits' : estimate + 199 ≤ u64Max :=
    h.full.window estimate (RecentLeaderSlots.estimatedCurrentSlot_mem hestimate)
  have hlen : s.service.leaderTpuCache.leaders.length = 200 := h.full.leaders
  simp only [MAX_FANOUT_SLOTS] at hfanout
  refine ⟨getLeaderSockets_eq (by omega), ?_⟩
  intro slot hslot
  rcases mem_probedSlots.1 hslot with ⟨i, hi, rfl⟩
  exact getSlotLeader_isSome_iff.2 ⟨by omega, by omega⟩

end Covered

/-! ## Over a run -/

theorem covered_ofAnswers {fromStr : String → Option Pubkey} {rpc : RpcClient} {startSlot now : Nat}
    {protocol : Protocol} {s : LeaderTpuService} (hrpc : rpc.Healthy) (hstart : SlotFits startSlot)
    (hnew : LeaderTpuService.ofAnswers fromStr rpc startSlot protocol now = some s) :
    Covered { service := s, anchor := startSlot } := by
  rcases exists_ofAnswers fromStr hrpc hstart protocol now with ⟨u, hu, hfull, hfirst⟩
  have hus : u = s := Option.some.inj (hu.symm.trans hnew)
  subst hus
  refine
    { full :=
        { phase := rfl
          leaders := hfull.leaders
          slotsInEpoch := hfull.slotsInEpoch
          firstSlot := hfull.firstSlot
          window := hfull.window }
      reach := ?_
      answers := ?_ }
  · simp only [hfirst]
    omega
  · intro readAt info hphase
    exact absurd (hfull.phase.symm.trans hphase) (by simp)

/-- With healthy answers, and an estimate that stays within `drift` slots of the last finished
cycle's, a fan-out finds a cached leader for every slot it probes, in every state of every run:
also while answers are on their way. -/
theorem schedule_never_runs_out (fromStr : String → Option Pubkey) {rpc : RpcClient}
    {startSlot now drift fanoutSlots : Nat} {protocol : Protocol} {s t : LeaderTpuService}
    {evs : List ServiceEvent} (hrpc : rpc.Healthy) (hstart : SlotFits startSlot)
    (hnew : LeaderTpuService.ofAnswers fromStr rpc startSlot protocol now = some s)
    (hevs : ∀ ev ∈ evs, ev.Healthy) (hdrift : drift ≤ 98)
    (hsteady : (AnchoredService.machine fromStr).Always (AnchoredService.Steady drift)
      { service := s, anchor := startSlot } evs)
    (hrun : (LeaderTpuService.machine fromStr).run s evs = some t)
    (hfanout : fanoutSlots ≤ MAX_FANOUT_SLOTS) (hsum : fanoutSlots + drift ≤ 102) :
    ∃ estimate, t.recentSlots.estimatedCurrentSlot = .ok estimate ∧
      StaysInCache t.leaderTpuCache estimate fanoutSlots := by
  rcases AnchoredService.exists_run (s := { service := s, anchor := startSlot }) hrun with
    ⟨u, hu, rfl⟩
  have hcovered : Covered u := by
    refine (AnchoredService.machine fromStr).run_invariant_of_always ?_
      (covered_ofAnswers hrpc hstart hnew) hevs hsteady hu
    intro v ev w hv hev hw hnext
    exact hv.step hdrift hev hw hnext
  have hlast : u.Steady drift := hsteady evs (List.prefix_refl evs) u hu
  rcases hcovered.full.exists_estimate with ⟨estimate, hestimate, _⟩
  exact ⟨estimate, hestimate, hcovered.staysInCache hlast hestimate hfanout hsum⟩

open AnchoredService in
set_option maxRecDepth 4000 in
/-- The default fan-out leaves room for 38 slots: one notification before a fetch, one while its
answer is on the way. -/
theorem schedule_never_runs_out_default :
    ∃ s t estimate, LeaderTpuService.ofAnswers (fun _ => none) mainnetRpc 1000 .QUIC 0 = some s ∧
      (LeaderTpuService.machine fun _ => none).run s
          [.recordSlot 1020, .fetch 1 mainnetRpc, .recordSlot 1030, .update 2] = some t ∧
        t.recentSlots.estimatedCurrentSlot = .ok estimate ∧
        StaysInCache t.leaderTpuCache estimate DEFAULT_FANOUT_SLOTS := by
  have hevs : ∀ ev ∈ [ServiceEvent.recordSlot 1020, .fetch 1 mainnetRpc, .recordSlot 1030,
      .update 2], ev.Healthy := by
    intro ev hev
    simp only [List.mem_cons, List.not_mem_nil, or_false] at hev
    rcases hev with rfl | rfl | rfl | rfl
    · exact (by decide : 1020 + 199 ≤ u64Max)
    · exact healthy_mainnetRpc
    · exact (by decide : 1030 + 199 ≤ u64Max)
    · trivial
  rcases exists_ofAnswers (fun _ => none) healthy_mainnetRpc (by decide : 1000 + 199 ≤ u64Max)
    .QUIC 0 with ⟨s, hnew, _, _⟩
  have hsteady : (AnchoredService.machine fun _ => none).Always (AnchoredService.Steady 38)
      { service := s, anchor := 1000 }
      [.recordSlot 1020, .fetch 1 mainnetRpc, .recordSlot 1030, .update 2] := by
    cases hnew
    simp only [Machine.always_cons_iff, Machine.always_nil_iff]
    -- estimate and anchor after each event: 1020 and 1000 up to the update, then 1030 and 1020
    refine ⟨steady_of (e := 1000) rfl (by decide), ?_⟩
    rintro _ ⟨⟩
    refine ⟨steady_of (e := 1020) rfl (by decide), ?_⟩
    rintro _ ⟨⟩
    refine ⟨steady_of (e := 1020) rfl (by decide), ?_⟩
    rintro _ ⟨⟩
    refine ⟨steady_of (e := 1030) rfl (by decide), ?_⟩
    rintro _ ⟨⟩
    exact steady_of (e := 1030) rfl (by decide)
  have hends : ((LeaderTpuService.machine fun _ => none).run s
          [.recordSlot 1020, .fetch 1 mainnetRpc, .recordSlot 1030, .update 2]).map (fun t =>
        t.recentSlots.slots) = some [1000, 1020, 1030] := by
    cases hnew
    rfl
  rcases Option.map_eq_some_iff.1 hends with ⟨t, hrun, _⟩
  rcases schedule_never_runs_out (fun _ => none) healthy_mainnetRpc
    (by decide : 1000 + 199 ≤ u64Max) hnew hevs (by decide) hsteady hrun
    (by decide : DEFAULT_FANOUT_SLOTS ≤ MAX_FANOUT_SLOTS) (by decide) with
    ⟨estimate, hestimate, hstays⟩
  exact ⟨s, t, estimate, hnew, hrun, hestimate, hstays⟩

end Engine
end TpuSender
