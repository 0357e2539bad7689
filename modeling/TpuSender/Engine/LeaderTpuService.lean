import TpuSender.Engine.LeaderTpuCache
import TpuSender.Engine.RecentLeaderSlots
import TpuSender.Library.Machine

/-!
# LeaderTpuService — the slot watcher and the cache refresher as one machine

The service runs two loops over shared state.  `run_slot_watcher` records slots as notifications
arrive.  `run_cache_refresher` sleeps, asks the RPC node for what looks out of date
(`maybeFetchCacheInfo`) and folds the answers into the cache (`update_all`).  The refresher awaits
the RPC calls, so notifications land between its two halves.

`LeaderTpuService.next` takes one label at a time:

* `recordSlot v` — the watcher records `v`;
* `fetch now rpc` — the refresher reads the estimate and the cache and sends its requests; `rpc`
  is what the node answers to them;
* `update now` — the answers are in; the refresher takes the write lock, reads the estimate again
  and updates the cache.

A step that would panic is not enabled: both loops live in one task, which a panic ends.
-/

namespace TpuSender
namespace Engine

open Library

/-! ## Requests to the RPC node -/

/-- What the RPC node answers during one cycle. -/
structure RpcClient where
  getClusterNodes : ClientResult (List RpcContactInfo)
  getEpochInfo : ClientResult EpochInfo
  getSlotLeaders : Nat → Nat → ClientResult (List Pubkey)

/-- Milliseconds between two slots. -/
def DEFAULT_MS_PER_SLOT : Nat := 400

/-- Nanoseconds after which the cluster's sockets are asked for again: 5 min. -/
def CLUSTER_REFRESH_INTERVAL : Nat := 5 * 60 * 1000000000

/-- Ask for whatever looks out of date; `elapsed` is the time since the last cluster refresh. -/
def maybeFetchCacheInfo (leaderTpuCache : LeaderTpuCache) (elapsed : Nat) (rpcClient : RpcClient)
    (recentSlots : RecentLeaderSlots) : Except Panic LeaderTpuCacheUpdateInfo := do
  let maybeClusterNodes :=
    if elapsed > CLUSTER_REFRESH_INTERVAL then some rpcClient.getClusterNodes else none
  -- the estimate that the requests below are built from
  let estimatedCurrentSlot ← recentSlots.estimatedCurrentSlot
  let (lastSlot, lastEpochInfoSlot, slotsInEpoch) ← leaderTpuCache.slotInfo
  -- the epoch is subtracted from the slot of the last epoch info, not added to it
  let maybeEpochInfo :=
    if estimatedCurrentSlot ≥ saturatingSub lastEpochInfoSlot slotsInEpoch then
      some rpcClient.getEpochInfo
    else
      none
  -- only the upper end of the cached range is looked at
  let maybeSlotLeaders :=
    if estimatedCurrentSlot ≥ saturatingSub lastSlot MAX_FANOUT_SLOTS then
      some (rpcClient.getSlotLeaders estimatedCurrentSlot (LeaderTpuCache.fanout slotsInEpoch))
    else
      none
  pure
    { maybeClusterNodes := maybeClusterNodes
      maybeEpochInfo := maybeEpochInfo
      maybeSlotLeaders := maybeSlotLeaders }

/-- The requests of a cycle whose estimate is `estimate` and whose cache ends at `last`. -/
def requestsAt (c : LeaderTpuCache) (elapsed : Nat) (rpc : RpcClient) (estimate last : Nat) :
    LeaderTpuCacheUpdateInfo :=
  { maybeClusterNodes :=
      if elapsed > CLUSTER_REFRESH_INTERVAL then some rpc.getClusterNodes else none
    maybeEpochInfo :=
      if estimate ≥ c.lastEpochInfoSlot - c.slotsInEpoch then some rpc.getEpochInfo else none
    maybeSlotLeaders :=
      if estimate ≥ last - MAX_FANOUT_SLOTS then
        some (rpc.getSlotLeaders estimate (LeaderTpuCache.fanout c.slotsInEpoch))
      else
        none }

theorem maybeFetchCacheInfo_eq_ok_iff {c : LeaderTpuCache} {elapsed : Nat} {rpc : RpcClient}
    {r : RecentLeaderSlots} {info : LeaderTpuCacheUpdateInfo} :
    maybeFetchCacheInfo c elapsed rpc r = .ok info ↔
      ∃ estimate last, r.estimatedCurrentSlot = .ok estimate ∧ c.lastSlot = .ok last ∧
        info = requestsAt c elapsed rpc estimate last := by
  cases hest : r.estimatedCurrentSlot with
  | error p => simp [maybeFetchCacheInfo, hest, bind, Except.bind]
  | ok estimate =>
      cases hlast : c.lastSlot with
      | error p =>
          simp [maybeFetchCacheInfo, LeaderTpuCache.slotInfo, hest, hlast, bind, Except.bind]
      | ok last =>
          have hfetch : maybeFetchCacheInfo c elapsed rpc r =
              .ok (requestsAt c elapsed rpc estimate last) := by
            simp [maybeFetchCacheInfo, LeaderTpuCache.slotInfo, requestsAt, saturatingSub, hest,
              hlast, bind, Except.bind, pure, Except.pure]
          rw [hfetch]
          constructor
          · intro h
            cases h
            exact ⟨estimate, last, rfl, rfl, rfl⟩
          · rintro ⟨estimate', last', hestimate, hlast', rfl⟩
            cases hestimate
            cases hlast'
            rfl

/-! ## What is asked for, and when -/

section Requests

variable {c : LeaderTpuCache} {elapsed estimate last : Nat} {rpc : RpcClient}

theorem asksClusterNodes_iff :
    (requestsAt c elapsed rpc estimate last).maybeClusterNodes.isSome ↔
      elapsed > CLUSTER_REFRESH_INTERVAL := by
  by_cases hask : elapsed > CLUSTER_REFRESH_INTERVAL <;> simp [requestsAt, hask]

theorem asksEpochInfo_iff :
    (requestsAt c elapsed rpc estimate last).maybeEpochInfo.isSome ↔
      estimate ≥ c.lastEpochInfoSlot - c.slotsInEpoch := by
  by_cases hask : estimate ≥ c.lastEpochInfoSlot - c.slotsInEpoch <;> simp [requestsAt, hask]

theorem asksSlotLeaders_iff :
    (requestsAt c elapsed rpc estimate last).maybeSlotLeaders.isSome ↔
      estimate ≥ last - MAX_FANOUT_SLOTS := by
  by_cases hask : estimate ≥ last - MAX_FANOUT_SLOTS <;> simp [requestsAt, hask]

end Requests

/-! ## The machine -/

/-- Where the refresher is.  `readAt` is the estimate its requests were built from; the source
keeps it in a local of `maybe_fetch_cache_info` only, and no step below reads it. -/
inductive RefresherPhase
  | sleeping
  | fetched (readAt : Nat) (cacheUpdateInfo : LeaderTpuCacheUpdateInfo)

structure LeaderTpuService where
  recentSlots : RecentLeaderSlots
  leaderTpuCache : LeaderTpuCache
  lastClusterRefresh : Nat
  sleepMs : Nat
  phase : RefresherPhase

inductive ServiceEvent
  | recordSlot (currentSlot : Nat)
  | fetch (now : Nat) (rpcClient : RpcClient)
  | update (now : Nat)

namespace LeaderTpuService

variable (fromStr : String → Option Pubkey)

/-- The service that `new` makes of its answers, if none failed: one recorded slot, and a cache
fetched from that slot on.  How `new` gets them is in `ServiceStartup`.  The first sockets count as
refreshed when the refresher starts, though they were fetched before the websocket connected. -/
def ofAnswers (rpcClient : RpcClient) (startSlot : Nat) (protocol : Protocol) (now : Nat) :
    Option LeaderTpuService := do
  let epochInfo ← rpcClient.getEpochInfo.toOption
  let slotsInEpoch := epochInfo.slotsInEpoch
  let leaders ← (rpcClient.getSlotLeaders startSlot (LeaderTpuCache.fanout slotsInEpoch)).toOption
  let clusterNodes ← rpcClient.getClusterNodes.toOption
  pure
    { recentSlots := RecentLeaderSlots.new startSlot
      leaderTpuCache :=
        LeaderTpuCache.new fromStr startSlot slotsInEpoch leaders clusterNodes protocol
      lastClusterRefresh := now
      sleepMs := DEFAULT_MS_PER_SLOT
      phase := .sleeping }

def recordSlot (s : LeaderTpuService) (currentSlot : Nat) : LeaderTpuService :=
  { s with recentSlots := s.recentSlots.recordSlot currentSlot }

/-- The cycle's first half, ended by `if cache_update_info.has_some()`. -/
def afterFetch (s : LeaderTpuService) (estimate : Nat) (info : LeaderTpuCacheUpdateInfo) :
    LeaderTpuService :=
  { s with
    sleepMs := DEFAULT_MS_PER_SLOT
    phase := if info.hasSome then .fetched estimate info else .sleeping }

/-- The cycle's second half, under the write lock. -/
def afterUpdate (s : LeaderTpuService) (now estimate : Nat) (info : LeaderTpuCacheUpdateInfo) :
    LeaderTpuService :=
  let (leaderTpuCache, hasError, clusterRefreshed) :=
    s.leaderTpuCache.updateAll fromStr estimate info
  { s with
    leaderTpuCache := leaderTpuCache
    -- after an error the next cycle starts sooner
    sleepMs := if hasError then 100 else s.sleepMs
    lastClusterRefresh := if clusterRefreshed then now else s.lastClusterRefresh
    phase := .sleeping }

def step (s : LeaderTpuService) : ServiceEvent → Option LeaderTpuService
  | .recordSlot currentSlot => some (s.recordSlot currentSlot)
  | .fetch now rpcClient =>
      match s.phase with
      | .sleeping => do
          let estimate ← s.recentSlots.estimatedCurrentSlot.toOption
          let info ← (maybeFetchCacheInfo s.leaderTpuCache (now - s.lastClusterRefresh) rpcClient
            s.recentSlots).toOption
          pure (s.afterFetch estimate info)
      | .fetched _ _ => none
  | .update now =>
      match s.phase with
      | .sleeping => none
      | .fetched _ info => do
          -- the estimate is read again: it need not be the one of the fetch
          let estimate ← s.recentSlots.estimatedCurrentSlot.toOption
          pure (s.afterUpdate fromStr now estimate info)

/-- The service as a machine. -/
def machine : Machine LeaderTpuService ServiceEvent := { next := step fromStr }

theorem machine_next (s : LeaderTpuService) (ev : ServiceEvent) :
    (machine fromStr).next s ev = step fromStr s ev := rfl

/-! ## What a step can do -/

section Steps

variable {fromStr} {s t : LeaderTpuService}

theorem toOption_eq_some_iff {α : Type} {x : Except Panic α} {a : α} :
    x.toOption = some a ↔ x = .ok a := by
  cases x <;> simp [Except.toOption]

theorem step_recordSlot {v : Nat} (h : step fromStr s (.recordSlot v) = some t) :
    t = s.recordSlot v := by
  simpa [step, eq_comm] using h

theorem step_fetch {now : Nat} {rpc : RpcClient}
    (h : step fromStr s (.fetch now rpc) = some t) :
    ∃ estimate last,
      s.phase = .sleeping ∧ s.recentSlots.estimatedCurrentSlot = .ok estimate ∧
        s.leaderTpuCache.lastSlot = .ok last ∧
        t = s.afterFetch estimate
          (requestsAt s.leaderTpuCache (now - s.lastClusterRefresh) rpc estimate last) := by
  cases hphase : s.phase with
  | fetched readAt info => simp [step, hphase] at h
  | sleeping =>
      simp only [step, hphase, bind, Option.bind_eq_some_iff, toOption_eq_some_iff,
        maybeFetchCacheInfo_eq_ok_iff, pure, Option.some.injEq] at h
      rcases h with ⟨estimate, hestimate, info, ⟨estimate', last, hestimate', hlast, rfl⟩, rfl⟩
      -- the estimate kept in the phase and the one of the requests are read in the same step
      have hsame : estimate' = estimate := ok_unique hestimate' hestimate
      exact ⟨estimate, last, rfl, hestimate, hlast, by rw [hsame]⟩

theorem step_update {now : Nat} (h : step fromStr s (.update now) = some t) :
    ∃ readAt info estimate,
      s.phase = .fetched readAt info ∧ s.recentSlots.estimatedCurrentSlot = .ok estimate ∧
        t = s.afterUpdate fromStr now estimate info := by
  cases hphase : s.phase with
  | sleeping => simp [step, hphase] at h
  | fetched readAt info =>
      simp only [step, hphase, bind, Option.bind_eq_some_iff, toOption_eq_some_iff, pure,
        Option.some.injEq] at h
      rcases h with ⟨estimate, hestimate, rfl⟩
      exact ⟨readAt, info, estimate, rfl, hestimate, rfl⟩

/-- A fetch leaves the cache and the window alone. -/
@[simp] theorem leaderTpuCache_afterFetch (estimate : Nat) (info : LeaderTpuCacheUpdateInfo) :
    (s.afterFetch estimate info).leaderTpuCache = s.leaderTpuCache := rfl

@[simp] theorem recentSlots_afterFetch (estimate : Nat) (info : LeaderTpuCacheUpdateInfo) :
    (s.afterFetch estimate info).recentSlots = s.recentSlots := rfl

@[simp] theorem leaderTpuCache_afterUpdate (now estimate : Nat)
    (info : LeaderTpuCacheUpdateInfo) :
    (s.afterUpdate fromStr now estimate info).leaderTpuCache =
      (s.leaderTpuCache.updateAll fromStr estimate info).1 := rfl

@[simp] theorem recentSlots_afterUpdate (now estimate : Nat) (info : LeaderTpuCacheUpdateInfo) :
    (s.afterUpdate fromStr now estimate info).recentSlots = s.recentSlots := rfl

@[simp] theorem phase_afterUpdate (now estimate : Nat) (info : LeaderTpuCacheUpdateInfo) :
    (s.afterUpdate fromStr now estimate info).phase = .sleeping := rfl

@[simp] theorem leaderTpuCache_recordSlot (v : Nat) :
    (s.recordSlot v).leaderTpuCache = s.leaderTpuCache := rfl

@[simp] theorem recentSlots_recordSlot (v : Nat) :
    (s.recordSlot v).recentSlots = s.recentSlots.recordSlot v := rfl

@[simp] theorem phase_recordSlot (v : Nat) : (s.recordSlot v).phase = s.phase := rfl

end Steps

end LeaderTpuService
end Engine
end TpuSender
