import TpuSender.Engine.Alignment
import TpuSender.Library.LastWins

/-!
# FetchHistory — what is in the cache after successful and failed fetches

A cycle asks for up to three things and each answer succeeds or fails by itself.  What the node
answers a fetch is read off the run's labels; the next update stores it, at the estimate that the
update reads.  In every state of a run the three parts of the cache are what the last successful
answer of their own kind said, or what they were at the start; and what failed in one cycle is asked
for again in the next, unless the estimate has gone back in between (`failed_fetches_keep_cache`).
-/

namespace TpuSender
namespace Engine

open Library LeaderTpuService

/-! ## The answers of a run -/

/-- What one cycle has learned, and the estimate it was stored at. -/
structure CycleAnswers where
  estimate : Nat
  info : LeaderTpuCacheUpdateInfo

/-- What the node answers to the requests of a fetch, if there are any. -/
def fetchedAnswers (s : LeaderTpuService) : ServiceEvent → List LeaderTpuCacheUpdateInfo
  | .fetch now rpcClient =>
      match maybeFetchCacheInfo s.leaderTpuCache (now - s.lastClusterRefresh) rpcClient
          s.recentSlots with
      | .ok info => if info.hasSome then [info] else []
      | .error _ => []
  | _ => []

/-- The estimate that an update reads. -/
def updateEstimates (s : LeaderTpuService) : ServiceEvent → List Nat
  | .update _ =>
      match s.recentSlots.estimatedCurrentSlot with
      | .ok estimate => [estimate]
      | .error _ => []
  | _ => []

/-- The answers that wait for their update. -/
def inFlight (s : LeaderTpuService) : List LeaderTpuCacheUpdateInfo :=
  match s.phase with
  | .sleeping => []
  | .fetched _ info => [info]

/-- What the cycles of a run have learned: the answers to its fetches, each with the estimate of the
update behind it. -/
def learnedAnswers (fromStr : String → Option Pubkey) (s : LeaderTpuService)
    (evs : List ServiceEvent) : List CycleAnswers :=
  List.zipWith CycleAnswers.mk ((machine fromStr).history updateEstimates s evs)
    (inFlight s ++ (machine fromStr).history fetchedAnswers s evs)

/-- The answers that a step finds in flight and stores. -/
def storedAnswers (s : LeaderTpuService) : ServiceEvent → List CycleAnswers
  | .update _ =>
      match s.phase, s.recentSlots.estimatedCurrentSlot with
      | .fetched _ info, .ok estimate =>
          [{ estimate := estimate
             info := info }]
      | _, _ => []
  | _ => []

/-- The sockets of a successful cluster-nodes answer. -/
def CycleAnswers.clusterSockets (fromStr : String → Option Pubkey) (protocol : Protocol)
    (answers : CycleAnswers) : Option (Pubkey → Option SocketAddr) :=
  match answers.info.maybeClusterNodes with
  | some (.ok nodes) => some (LeaderTpuCache.extractClusterTpuSockets fromStr protocol nodes)
  | _ => none

/-- The anchor and the leaders of a successful slot-leaders answer. -/
def CycleAnswers.slotLeaders (answers : CycleAnswers) : Option (Nat × List Pubkey) :=
  match answers.info.maybeSlotLeaders with
  | some (.ok leaders) => some (answers.estimate, leaders)
  | _ => none

/-- The epoch length and its slot in a successful epoch-info answer. -/
def CycleAnswers.epochInfo (answers : CycleAnswers) : Option (Nat × Nat) :=
  match answers.info.maybeEpochInfo with
  | some (.ok epochInfo) => some (epochInfo.slotsInEpoch, answers.estimate)
  | _ => none

/-- The cache is put together from the last successful answers; `first` is the cache at the
start. -/
structure FromLastAnswers (fromStr : String → Option Pubkey) (first : LeaderTpuCache)
    (past : List CycleAnswers) (c : LeaderTpuCache) : Prop where
  leaderTpuMap : c.leaderTpuMap =
    (lastOf (CycleAnswers.clusterSockets fromStr first.protocol) past).getD first.leaderTpuMap
  leaders : (c.firstSlot, c.leaders) =
    (lastOf CycleAnswers.slotLeaders past).getD (first.firstSlot, first.leaders)
  epochInfo : (c.slotsInEpoch, c.lastEpochInfoSlot) =
    (lastOf CycleAnswers.epochInfo past).getD (first.slotsInEpoch, first.lastEpochInfoSlot)

section Steps

variable {fromStr : String → Option Pubkey} {s t : LeaderTpuService} {ev : ServiceEvent}

/-! ## What has been fetched is stored -/

theorem step_estimates (h : step fromStr s ev = some t) :
    (storedAnswers s ev).map CycleAnswers.estimate = updateEstimates s ev := by
  cases ev with
  | recordSlot v => rfl
  | fetch now rpc => rfl
  | update now =>
      rcases step_update h with ⟨readAt, info, estimate, hphase, hestimate, rfl⟩
      simp [storedAnswers, updateEstimates, hphase, hestimate]

/-- A fetch with answers puts them in flight, and an update stores the ones in flight. -/
theorem step_answers (h : step fromStr s ev = some t) :
    (storedAnswers s ev).map CycleAnswers.info ++ inFlight t =
      inFlight s ++ fetchedAnswers s ev := by
  cases ev with
  | recordSlot v =>
      rw [step_recordSlot h]
      exact (List.append_nil _).symm
  | fetch now rpc =>
      rcases step_fetch h with ⟨estimate, last, hsleeping, hestimate, hlast, rfl⟩
      have hinfo : maybeFetchCacheInfo s.leaderTpuCache (now - s.lastClusterRefresh) rpc
          s.recentSlots = .ok (requestsAt s.leaderTpuCache (now - s.lastClusterRefresh) rpc estimate
            last) :=
        maybeFetchCacheInfo_eq_ok_iff.2 ⟨estimate, last, hestimate, hlast, rfl⟩
      cases hask : (requestsAt s.leaderTpuCache (now - s.lastClusterRefresh) rpc estimate
          last).hasSome with
      | true => simp [storedAnswers, inFlight, fetchedAnswers, afterFetch, hsleeping, hinfo, hask]
      | false => simp [storedAnswers, inFlight, fetchedAnswers, afterFetch, hsleeping, hinfo, hask]
  | update now =>
      rcases step_update h with ⟨readAt, info, estimate, hphase, hestimate, rfl⟩
      simp [storedAnswers, inFlight, fetchedAnswers, afterUpdate, hphase, hestimate]

/-- What is behind the last pair of a zip does not matter. -/
theorem zipWith_mk_map (past : List CycleAnswers) (later : List LeaderTpuCacheUpdateInfo) :
    List.zipWith CycleAnswers.mk (past.map CycleAnswers.estimate)
      (past.map CycleAnswers.info ++ later) = past := by
  induction past with
  | nil => rfl
  | cons answers past ih => exact congrArg (answers :: ·) ih

/-- The answers to the fetches of a run are what its updates store, in their order, but for the ones
in flight at its end. -/
theorem stored_run {evs : List ServiceEvent} (hrun : (machine fromStr).run s evs = some t) :
    (machine fromStr).history storedAnswers s evs = learnedAnswers fromStr s evs ∧
      (learnedAnswers fromStr s evs).map CycleAnswers.info ++ inFlight t =
        inFlight s ++ (machine fromStr).history fetchedAnswers s evs := by
  have hestimates : ((machine fromStr).history storedAnswers s evs).map CycleAnswers.estimate =
      (machine fromStr).history updateEstimates s evs :=
    (machine fromStr).history_map (fun _ _ _ hnext => step_estimates hnext) s evs
  have hanswers : ((machine fromStr).history storedAnswers s evs).map CycleAnswers.info ++
      inFlight t = inFlight s ++ (machine fromStr).history fetchedAnswers s evs := by
    have hinfos : ((machine fromStr).history storedAnswers s evs).map CycleAnswers.info =
        (machine fromStr).history (fun u ev => (storedAnswers u ev).map CycleAnswers.info) s evs :=
      (machine fromStr).history_map (fun _ _ _ _ => rfl) s evs
    rw [hinfos]
    refine (machine fromStr).run_queue ?_ hrun
    intro u ev v hnext
    exact step_answers hnext
  have hstored : (machine fromStr).history storedAnswers s evs = learnedAnswers fromStr s evs := by
    rw [learnedAnswers, ← hestimates, ← hanswers, zipWith_mk_map]
  exact ⟨hstored, hstored ▸ hanswers⟩

/-! ## The cache is what has been stored -/

/-- One step overwrites each part of the cache with its own successful answer, if it stores one. -/
theorem fromLastAnswers_step (h : step fromStr s ev = some t) :
    t.leaderTpuCache.protocol = s.leaderTpuCache.protocol ∧
      FromLastAnswers fromStr s.leaderTpuCache (storedAnswers s ev) t.leaderTpuCache := by
  cases ev with
  | recordSlot v =>
      rw [step_recordSlot h]
      exact ⟨rfl, rfl, rfl, rfl⟩
  | fetch now rpc =>
      rcases step_fetch h with ⟨estimate, last, _, _, _, rfl⟩
      exact ⟨rfl, rfl, rfl, rfl⟩
  | update now =>
      rcases step_update h with ⟨readAt, info, estimate, hphase, hestimate, rfl⟩
      have hstored : storedAnswers s (.update now) =
          [{ estimate := estimate
             info := info }] := by
        simp only [storedAnswers, hphase, hestimate]
      rw [hstored, leaderTpuCache_afterUpdate]
      refine ⟨LeaderTpuCache.updateAll_protocol .., ?_, ?_, ?_⟩
      · rw [lastOf_singleton, LeaderTpuCache.updateAll_leaderTpuMap, CycleAnswers.clusterSockets]
        rcases info.maybeClusterNodes with _ | _ | nodes <;> rfl
      · rw [lastOf_singleton, LeaderTpuCache.updateAll_leaders, CycleAnswers.slotLeaders]
        rcases info.maybeSlotLeaders with _ | _ | leaders <;> rfl
      · rw [lastOf_singleton, LeaderTpuCache.updateAll_epochInfo, CycleAnswers.epochInfo]
        rcases info.maybeEpochInfo with _ | _ | epochInfo <;> rfl

theorem fromLastAnswers_run {evs : List ServiceEvent}
    (hrun : (machine fromStr).run s evs = some t) :
    FromLastAnswers fromStr s.leaderTpuCache (learnedAnswers fromStr s evs) t.leaderTpuCache := by
  rw [← (stored_run hrun).1]
  have hinv : ∀ u ev v, u.leaderTpuCache.protocol = s.leaderTpuCache.protocol →
      (machine fromStr).next u ev = some v →
      v.leaderTpuCache.protocol = s.leaderTpuCache.protocol := by
    intro u ev v hu hnext
    exact (fromLastAnswers_step hnext).1.trans hu
  refine
    { leaderTpuMap := ?_
      leaders := ?_
      epochInfo := ?_ }
  · refine (machine fromStr).run_lastOf
      (fun u => u.leaderTpuCache.leaderTpuMap) hinv ?_ rfl hrun
    intro u ev v hu hnext
    rw [← hu]
    exact (fromLastAnswers_step hnext).2.leaderTpuMap
  · refine (machine fromStr).run_lastOf
      (fun u => (u.leaderTpuCache.firstSlot, u.leaderTpuCache.leaders)) hinv ?_ rfl hrun
    intro u ev v _ hnext
    exact (fromLastAnswers_step hnext).2.leaders
  · refine (machine fromStr).run_lastOf
      (fun u => (u.leaderTpuCache.slotsInEpoch, u.leaderTpuCache.lastEpochInfoSlot)) hinv ?_ rfl
      hrun
    intro u ev v _ hnext
    exact (fromLastAnswers_step hnext).2.epochInfo

/-! ## What failed is asked for again -/

/-- Whatever of the first requests ended with an error is among the second ones. -/
structure RequestedAgain (info info' : LeaderTpuCacheUpdateInfo) : Prop where
  clusterNodes : ∀ err, info.maybeClusterNodes = some (.error err) →
    info'.maybeClusterNodes.isSome
  epochInfo : ∀ err, info.maybeEpochInfo = some (.error err) → info'.maybeEpochInfo.isSome
  slotLeaders : ∀ err, info.maybeSlotLeaders = some (.error err) → info'.maybeSlotLeaders.isSome

/-- Between two fetches: no other answers than `info` are in flight, and what failed in `info` has
left its part of the state as `s` has it. -/
structure KeepsFailed (info : LeaderTpuCacheUpdateInfo) (s u : LeaderTpuService) : Prop where
  inFlight : ∀ readAt info', u.phase = .fetched readAt info' → info' = info
  clusterNodes : ∀ err, info.maybeClusterNodes = some (.error err) →
    u.lastClusterRefresh = s.lastClusterRefresh
  epochInfo : ∀ err, info.maybeEpochInfo = some (.error err) →
    u.leaderTpuCache.slotsInEpoch = s.leaderTpuCache.slotsInEpoch ∧
      u.leaderTpuCache.lastEpochInfoSlot = s.leaderTpuCache.lastEpochInfoSlot
  slotLeaders : ∀ err, info.maybeSlotLeaders = some (.error err) →
    u.leaderTpuCache.firstSlot = s.leaderTpuCache.firstSlot ∧
      u.leaderTpuCache.leaders = s.leaderTpuCache.leaders

def ServiceEvent.fetches : ServiceEvent → Bool
  | .fetch _ _ => true
  | _ => false

theorem keepsFailed_afterFetch (s : LeaderTpuService) (estimate : Nat)
    (info : LeaderTpuCacheUpdateInfo) : KeepsFailed info s (s.afterFetch estimate info) := by
  refine ⟨?_, fun _ _ => rfl, fun _ _ => ⟨rfl, rfl⟩, fun _ _ => ⟨rfl, rfl⟩⟩
  intro readAt info' hphase
  simp only [afterFetch] at hphase
  split at hphase
  · cases hphase
    rfl
  · cases hphase

theorem KeepsFailed.step {info : LeaderTpuCacheUpdateInfo} {u v : LeaderTpuService}
    (h : KeepsFailed info s u) (hev : ev.fetches = false) (hstep : step fromStr u ev = some v) :
    KeepsFailed info s v := by
  cases ev with
  | fetch now rpc => cases hev
  | recordSlot slot =>
      rw [step_recordSlot hstep]
      exact ⟨h.inFlight, h.clusterNodes, h.epochInfo, h.slotLeaders⟩
  | update now =>
      rcases step_update hstep with ⟨readAt, info', estimate, hphase, _, rfl⟩
      have hsame : info' = info := h.inFlight readAt info' hphase
      subst hsame
      refine
        { inFlight := ?_
          clusterNodes := ?_
          epochInfo := ?_
          slotLeaders := ?_ }
      · intro readAt' info'' hphase'
        cases hphase'
      · intro err herr
        have hflag := LeaderTpuCache.updateAll_clusterRefreshed fromStr u.leaderTpuCache estimate
          info'
        rw [herr] at hflag
        calc
          (u.afterUpdate fromStr now estimate info').lastClusterRefresh
              = if (u.leaderTpuCache.updateAll fromStr estimate info').2.2 then now
                else u.lastClusterRefresh := rfl
          _ = u.lastClusterRefresh := by simp [hflag]
          _ = s.lastClusterRefresh := h.clusterNodes err herr
      · intro err herr
        have hnone : ∀ epochInfo, info'.maybeEpochInfo ≠ some (.ok epochInfo) := by
          intro epochInfo hok
          rw [herr] at hok
          cases hok
        rcases LeaderTpuCache.updateAll_of_no_epochInfo fromStr u.leaderTpuCache estimate hnone
          with ⟨hslots, hlast⟩
        exact ⟨hslots.trans (h.epochInfo err herr).1, hlast.trans (h.epochInfo err herr).2⟩
      · intro err herr
        have hnone : ∀ leaders, info'.maybeSlotLeaders ≠ some (.ok leaders) := by
          intro leaders hok
          rw [herr] at hok
          cases hok
        rcases LeaderTpuCache.updateAll_of_no_leaders fromStr u.leaderTpuCache estimate hnone
          with ⟨hfirst, hleaders⟩
        exact ⟨hfirst.trans (h.slotLeaders err herr).1, hleaders.trans (h.slotLeaders err herr).2⟩

theorem KeepsFailed.run {info : LeaderTpuCacheUpdateInfo} {u v : LeaderTpuService}
    {evs : List ServiceEvent} (h : KeepsFailed info s u)
    (hevs : ∀ ev ∈ evs, ServiceEvent.fetches ev = false)
    (hrun : (machine fromStr).run u evs = some v) : KeepsFailed info s v := by
  have hsteps := Machine.Steps.of_labels (machine fromStr) (s := u) hevs
  refine (machine fromStr).run_invariant_of_steps ?_ h hsteps hrun
  intro u' ev v' hu' hev hnext
  exact hu'.step hev hnext

/-- The thresholds have not moved, so an estimate and a time that have not gone back either lead to
the same requests. -/
theorem KeepsFailed.requestedAgain {now now' estimate estimate' last last' : Nat}
    {rpc rpc' : RpcClient} {v : LeaderTpuService}
    (h : KeepsFailed
      (requestsAt s.leaderTpuCache (now - s.lastClusterRefresh) rpc estimate last) s v)
    (hlast : s.leaderTpuCache.lastSlot = .ok last) (hlast' : v.leaderTpuCache.lastSlot = .ok last')
    (hestimate : estimate ≤ estimate') (hnow : now ≤ now') :
    RequestedAgain (requestsAt s.leaderTpuCache (now - s.lastClusterRefresh) rpc estimate last)
      (requestsAt v.leaderTpuCache (now' - v.lastClusterRefresh) rpc' estimate' last') := by
  refine
    { clusterNodes := ?_
      epochInfo := ?_
      slotLeaders := ?_ }
  · intro err herr
    have hasked : now - s.lastClusterRefresh > CLUSTER_REFRESH_INTERVAL :=
      asksClusterNodes_iff.1 (Option.isSome_of_eq_some herr)
    rw [asksClusterNodes_iff, h.clusterNodes err herr]
    exact Nat.lt_of_lt_of_le hasked (Nat.sub_le_sub_right hnow _)
  · intro err herr
    have hasked : estimate ≥
        s.leaderTpuCache.lastEpochInfoSlot - s.leaderTpuCache.slotsInEpoch :=
      asksEpochInfo_iff.1 (Option.isSome_of_eq_some herr)
    rw [asksEpochInfo_iff, (h.epochInfo err herr).1, (h.epochInfo err herr).2]
    exact hasked.trans hestimate
  · intro err herr
    have hasked : estimate ≥ last - MAX_FANOUT_SLOTS :=
      asksSlotLeaders_iff.1 (Option.isSome_of_eq_some herr)
    have hsame : last' = last := by
      rw [LeaderTpuCache.lastSlot, (h.slotLeaders err herr).1, (h.slotLeaders err herr).2] at hlast'
      exact ok_unique hlast' hlast
    rw [asksSlotLeaders_iff, hsame]
    exact hasked.trans hestimate

end Steps

/-- In every state of a run the parts of the cache come from the last successful answers of their
kind, and nothing that a fetch was answered has been lost: it has been stored by the next update, or
still waits for it.  From there on, what fails in a cycle is asked for again in the next one, if the
estimate and the clock have not gone back by then. -/
theorem failed_fetches_keep_cache (fromStr : String → Option Pubkey) {s t : LeaderTpuService}
    {evs : List ServiceEvent} (hrun : (machine fromStr).run s evs = some t) :
    FromLastAnswers fromStr s.leaderTpuCache (learnedAnswers fromStr s evs) t.leaderTpuCache ∧
      (learnedAnswers fromStr s evs).map CycleAnswers.info ++ inFlight t =
        inFlight s ++ (machine fromStr).history fetchedAnswers s evs ∧
      ∀ (now now' : Nat) (rpc rpc' : RpcClient) (mid : List ServiceEvent)
        (u v w : LeaderTpuService) (estimate estimate' : Nat),
        (machine fromStr).next t (.fetch now rpc) = some u →
        (∀ ev ∈ mid, ServiceEvent.fetches ev = false) → (machine fromStr).run u mid = some v →
        (machine fromStr).next v (.fetch now' rpc') = some w →
        t.recentSlots.estimatedCurrentSlot = .ok estimate →
        v.recentSlots.estimatedCurrentSlot = .ok estimate' →
        estimate ≤ estimate' → now ≤ now' →
        ∃ info info',
          maybeFetchCacheInfo t.leaderTpuCache (now - t.lastClusterRefresh) rpc t.recentSlots =
            .ok info ∧
          maybeFetchCacheInfo v.leaderTpuCache (now' - v.lastClusterRefresh) rpc' v.recentSlots =
            .ok info' ∧
          RequestedAgain info info' := by
  refine ⟨fromLastAnswers_run hrun, (stored_run hrun).2, ?_⟩
  intro now now' rpc rpc' mid u v w estimate estimate' hfetch hmid hmidRun hfetch' hestimate
    hestimate' hle hnow
  rw [machine_next] at hfetch hfetch'
  rcases step_fetch hfetch with ⟨e, last, _, he, hlast, rfl⟩
  rcases step_fetch hfetch' with ⟨e', last', _, he', hlast', _⟩
  -- the estimates the two fetches read are the ones of the statement
  cases ok_unique he hestimate
  cases ok_unique he' hestimate'
  have hkeeps := (keepsFailed_afterFetch t estimate _).run hmid hmidRun
  exact ⟨_, _, maybeFetchCacheInfo_eq_ok_iff.2 ⟨estimate, last, hestimate, hlast, rfl⟩,
    maybeFetchCacheInfo_eq_ok_iff.2 ⟨estimate', last', hestimate', hlast', rfl⟩,
    hkeeps.requestedAgain hlast hlast' hle hnow⟩

/-- A node that answers nothing. -/
def failingRpc : RpcClient :=
  { getClusterNodes := .error (.Other "timed out")
    getEpochInfo := .error (.Other "timed out")
    getSlotLeaders := fun _ _ => .error (.Other "timed out") }

/-- A node that answers the epoch info only. -/
def epochInfoRpc : RpcClient := { failingRpc with getEpochInfo := .ok { slotsInEpoch := 64 } }

/-- A cycle at `now` that learns the epoch info and nothing else. -/
def mixedCycle (now : Nat) : List ServiceEvent := [.fetch now epochInfoRpc, .update now]

/-- Six minutes after the start, and six minutes later again: the sockets and the leaders stay as
they were and are asked for once more. -/
theorem failed_fetches_keep_cache_mixed :
    ∃ (s t v : LeaderTpuService) (info info' : LeaderTpuCacheUpdateInfo),
      LeaderTpuService.ofAnswers (fun _ => none) warmupRpc 1000 .QUIC 0 = some s ∧
      (machine fun _ => none).run s (mixedCycle 360000000000) = some t ∧
      (machine fun _ => none).run t (mixedCycle 720000000000) = some v ∧
      t.leaderTpuCache.leaderTpuMap = s.leaderTpuCache.leaderTpuMap ∧
      (t.leaderTpuCache.slotsInEpoch, t.leaderTpuCache.lastEpochInfoSlot) = (64, 1000) ∧
      info.maybeClusterNodes = some (.error (.Other "timed out")) ∧
      info.maybeSlotLeaders = some (.error (.Other "timed out")) ∧
      info'.maybeClusterNodes.isSome ∧ info'.maybeSlotLeaders.isSome := by
  rcases Option.isSome_iff_exists.1
    (rfl : (LeaderTpuService.ofAnswers (fun _ => none) warmupRpc 1000 .QUIC 0).isSome) with
    ⟨s, hnew⟩
  have hends : ((machine fun _ => none).run s (mixedCycle 360000000000)).isSome := by
    cases hnew
    rfl
  rcases Option.isSome_iff_exists.1 hends with ⟨t, hfirst⟩
  have hagain : ∃ u v w,
      (machine fun _ => none).next t (.fetch 720000000000 epochInfoRpc) = some u ∧
      (machine fun _ => none).run u [.update 720000000000] = some v ∧
      (machine fun _ => none).next v (.fetch 721000000000 epochInfoRpc) = some w ∧
      t.recentSlots.estimatedCurrentSlot = .ok 1000 ∧
      v.recentSlots.estimatedCurrentSlot = .ok 1000 := by
    cases hnew
    cases hfirst
    exact ⟨_, _, _, rfl, rfl, rfl, rfl, rfl⟩
  rcases hagain with ⟨u, v, w, hfetch, hupdate, hfetch', hestimate, hestimate'⟩
  rcases failed_fetches_keep_cache (fun _ => none) hfirst with ⟨hfrom, _, hrequests⟩
  rcases hrequests _ _ _ _ _ u v w _ _ hfetch (by simp [ServiceEvent.fetches]) hupdate hfetch'
    hestimate hestimate' le_rfl (by decide) with ⟨info, info', hinfo, _, hrequested⟩
  have hfailed : info.maybeClusterNodes = some (.error (.Other "timed out")) ∧
      info.maybeSlotLeaders = some (.error (.Other "timed out")) := by
    cases hnew
    cases hfirst
    cases hinfo
    exact ⟨rfl, rfl⟩
  refine ⟨s, t, v, info, info', hnew, hfirst, ?_, ?_, ?_, hfailed.1, hfailed.2,
    hrequested.clusterNodes _ hfailed.1, hrequested.slotLeaders _ hfailed.2⟩
  · exact (Machine.run_cons_eq_some _).2 ⟨u, hfetch, hupdate⟩
  · rw [hfrom.leaderTpuMap]
    cases hnew
    rfl
  · rw [hfrom.epochInfo]
    cases hnew
    rfl

end Engine
end TpuSender
