import TpuSender.Engine.LeaderTpuService
import TpuSender.Engine.SlotEstimate

/-!
# RefreshCycle — whole cycles of the refresher

When no notification arrives between a fetch and its update, a cycle is one step.  This module
runs such quiet cycles among recorded slots and asks what the cache holds right after one:

* the upper end of the cache always reaches the estimate, and the fan-out always starts at a slot
  with a cached leader (`leader_cached_after_cycle`);
* the lower end need not reach down to it: the estimate can fall behind the cache, and the refetch
  test looks at the upper end only (`current_leader_not_cached`).

It also settles what a cycle asks for after a refresh in which everything succeeded: the epoch
info, every time (`refresh_never_settles`).
-/

namespace TpuSender
namespace Engine

open Library LeaderTpuService

/-! ## Quiet cycles -/

inductive CycleEvent
  | recordSlot (currentSlot : Nat)
  | cycle (now updatedAt : Nat) (rpcClient : RpcClient)

/-- One turn of the refresher's loop with no notification inside it. -/
def quietCycle (fromStr : String → Option Pubkey) (s : LeaderTpuService) (now updatedAt : Nat)
    (rpcClient : RpcClient) : Option LeaderTpuService := do
  let t ← step fromStr s (.fetch now rpcClient)
  match t.phase with
  | .sleeping => pure t
  | .fetched _ _ => step fromStr t (.update updatedAt)

def quietStep (fromStr : String → Option Pubkey) (s : LeaderTpuService) :
    CycleEvent → Option LeaderTpuService
  | .recordSlot currentSlot => some (s.recordSlot currentSlot)
  | .cycle now updatedAt rpcClient => quietCycle fromStr s now updatedAt rpcClient

def quietMachine (fromStr : String → Option Pubkey) : Machine LeaderTpuService CycleEvent :=
  { next := quietStep fromStr }

section Quiet

variable {fromStr : String → Option Pubkey} {s t : LeaderTpuService}

/-- A quiet cycle is a fetch and at most one update of the service. -/
theorem quiet_refines_service {evs : List CycleEvent}
    (h : (quietMachine fromStr).run s evs = some t) :
    ∃ ms, (LeaderTpuService.machine fromStr).run s ms = some t := by
  refine (quietMachine fromStr).run_simulation (LeaderTpuService.machine fromStr) id ?_ h
  intro u ev v hnext
  cases ev with
  | recordSlot slot =>
      have hstep : step fromStr u (.recordSlot slot) = some v := hnext
      exact ⟨[.recordSlot slot], (Machine.run_cons_eq_some _).2 ⟨v, hstep, rfl⟩⟩
  | cycle now updatedAt rpc =>
      have hcycle : quietCycle fromStr u now updatedAt rpc = some v := hnext
      simp only [quietCycle, bind, Option.bind_eq_some_iff] at hcycle
      rcases hcycle with ⟨w, hfetch, hrest⟩
      cases hphase : w.phase with
      | sleeping =>
          simp only [hphase, pure, Option.some.injEq] at hrest
          subst hrest
          exact ⟨[.fetch now rpc], (Machine.run_cons_eq_some _).2 ⟨_, hfetch, rfl⟩⟩
      | fetched readAt info =>
          simp only [hphase] at hrest
          refine ⟨[.fetch now rpc, .update updatedAt], ?_⟩
          exact (Machine.run_cons_eq_some _).2
            ⟨w, hfetch, (Machine.run_cons_eq_some _).2 ⟨v, hrest, rfl⟩⟩

/-- A quiet cycle updates the cache at the estimate its requests were built from; with nothing to
fetch the update is the identity. -/
theorem quietCycle_spec {now updatedAt : Nat} {rpc : RpcClient}
    (h : quietCycle fromStr s now updatedAt rpc = some t) :
    ∃ estimate last,
      s.recentSlots.estimatedCurrentSlot = .ok estimate ∧ s.leaderTpuCache.lastSlot = .ok last ∧
        t.recentSlots = s.recentSlots ∧ t.phase = .sleeping ∧
        t.leaderTpuCache = (s.leaderTpuCache.updateAll fromStr estimate
          (requestsAt s.leaderTpuCache (now - s.lastClusterRefresh) rpc estimate last)).1 := by
  simp only [quietCycle, bind, Option.bind_eq_some_iff] at h
  rcases h with ⟨u, hfetch, hrest⟩
  rcases step_fetch hfetch with ⟨estimate, last, _, hestimate, hlast, rfl⟩
  refine ⟨estimate, last, hestimate, hlast, ?_⟩
  -- the window is the same in both halves, and so is the estimate
  by_cases hsome : (requestsAt s.leaderTpuCache (now - s.lastClusterRefresh) rpc estimate
      last).hasSome = true
  · simp only [afterFetch, hsome, if_true] at hrest
    rcases step_update hrest with ⟨readAt, info, estimate', hphase, hestimate', rfl⟩
    cases hphase
    have hsame : estimate' = estimate := ok_unique hestimate' hestimate
    subst hsame
    exact ⟨rfl, rfl, rfl⟩
  · simp only [afterFetch, hsome, if_false, Bool.false_eq_true, pure, Option.some.injEq] at hrest
    subst hrest
    refine ⟨rfl, rfl, ?_⟩
    exact (LeaderTpuCache.updateAll_of_not_hasSome fromStr s.leaderTpuCache estimate
      (Bool.not_eq_true _ ▸ hsome)).symm

/-- While an estimate and a last cached slot exist, the sleeping refresher can make its turn. -/
theorem exists_quietCycle (fromStr : String → Option Pubkey) {estimate last : Nat}
    (hphase : s.phase = .sleeping) (hestimate : s.recentSlots.estimatedCurrentSlot = .ok estimate)
    (hlast : s.leaderTpuCache.lastSlot = .ok last) (now updatedAt : Nat) (rpc : RpcClient) :
    ∃ t, quietCycle fromStr s now updatedAt rpc = some t := by
  have hinfo : maybeFetchCacheInfo s.leaderTpuCache (now - s.lastClusterRefresh) rpc s.recentSlots =
      .ok (requestsAt s.leaderTpuCache (now - s.lastClusterRefresh) rpc estimate last) :=
    maybeFetchCacheInfo_eq_ok_iff.2 ⟨estimate, last, hestimate, hlast, rfl⟩
  generalize requestsAt s.leaderTpuCache (now - s.lastClusterRefresh) rpc estimate last = info
    at hinfo
  have hfetch : step fromStr s (.fetch now rpc) = some (s.afterFetch estimate info) := by
    simp [step, hphase, hestimate, hinfo, Except.toOption]
  cases hsome : info.hasSome with
  | false =>
      have hsleep : (s.afterFetch estimate info).phase = .sleeping := by
        simp [afterFetch, hsome]
      refine ⟨s.afterFetch estimate info, ?_⟩
      simp only [quietCycle, hfetch, bind, Option.bind_some, hsleep, pure]
  | true =>
      have hfetched : (s.afterFetch estimate info).phase = .fetched estimate info := by
        simp [afterFetch, hsome]
      have hupdate : step fromStr (s.afterFetch estimate info) (.update updatedAt) =
          some ((s.afterFetch estimate info).afterUpdate fromStr updatedAt estimate info) := by
        simp [step, hfetched, hestimate, Except.toOption]
      refine ⟨(s.afterFetch estimate info).afterUpdate fromStr updatedAt estimate info, ?_⟩
      simp only [quietCycle, hfetch, bind, Option.bind_some, hfetched, hupdate]

end Quiet

/-! ## A healthy node -/

/-- Every request succeeds, an epoch has at least the 200 slots of a fan-out, and as many leaders
come back as were asked for. -/
structure RpcClient.Healthy (rpc : RpcClient) : Prop where
  clusterNodes : ∃ nodes, rpc.getClusterNodes = .ok nodes
  epochInfo : ∃ epochInfo, rpc.getEpochInfo = .ok epochInfo ∧ 200 ≤ epochInfo.slotsInEpoch
  slotLeaders : ∀ start n, ∃ leaders, rpc.getSlotLeaders start n = .ok leaders ∧ leaders.length = n

/-- The epoch length that an update leaves is the old one or the one just answered. -/
theorem RpcClient.Healthy.slotsInEpoch_updateAll {rpc : RpcClient} (hrpc : rpc.Healthy)
    (fromStr : String → Option Pubkey) {c : LeaderTpuCache} {elapsed estimate last : Nat}
    (hlong : 200 ≤ c.slotsInEpoch) :
    200 ≤ (c.updateAll fromStr estimate
      (requestsAt c elapsed rpc estimate last)).1.slotsInEpoch := by
  rcases hrpc.epochInfo with ⟨epochInfo, hepoch, hanswered⟩
  by_cases hask : estimate ≥ c.lastEpochInfoSlot - c.slotsInEpoch
  · have hmaybe : (requestsAt c elapsed rpc estimate last).maybeEpochInfo =
        some (.ok epochInfo) := by
      simp [requestsAt, hask, hepoch]
    rw [(LeaderTpuCache.updateAll_of_epochInfo fromStr c estimate hmaybe).1]
    exact hanswered
  · have hmaybe : ∀ epochInfo, (requestsAt c elapsed rpc estimate last).maybeEpochInfo ≠
        some (.ok epochInfo) := by
      intro epochInfo
      simp [requestsAt, hask]
    rw [(LeaderTpuCache.updateAll_of_no_epochInfo fromStr c estimate hmaybe).1]
    exact hlong

/-- The slot is far enough below the end of the `u64` range for every sum of the engine. -/
def SlotFits (slot : Nat) : Prop := slot + 199 ≤ u64Max

def CycleEvent.Healthy : CycleEvent → Prop
  | .recordSlot currentSlot => SlotFits currentSlot
  | .cycle _ _ rpcClient => rpcClient.Healthy

/-- What healthy cycles keep: the cache holds the leaders of 200 slots. -/
structure FullCache (s : LeaderTpuService) : Prop where
  phase : s.phase = .sleeping
  leaders : s.leaderTpuCache.leaders.length = 200
  slotsInEpoch : 200 ≤ s.leaderTpuCache.slotsInEpoch
  firstSlot : SlotFits s.leaderTpuCache.firstSlot
  window : ∀ slot ∈ s.recentSlots.slots, SlotFits slot

theorem fanout_of_le {slotsInEpoch : Nat} (h : 200 ≤ slotsInEpoch) :
    LeaderTpuCache.fanout slotsInEpoch = 200 :=
  Nat.min_eq_left h

namespace FullCache

variable {fromStr : String → Option Pubkey} {s t : LeaderTpuService}

theorem lastSlot (h : FullCache s) :
    s.leaderTpuCache.lastSlot = .ok (s.leaderTpuCache.firstSlot + 199) := by
  apply LeaderTpuCache.lastSlot_eq_ok_iff.2
  rw [h.leaders]
  exact ⟨h.firstSlot, rfl⟩

theorem exists_estimate (h : FullCache s) :
    ∃ estimate, s.recentSlots.estimatedCurrentSlot = .ok estimate ∧ SlotFits estimate := by
  have hfit : s.recentSlots.SumsFit := by
    -- the sums add at most 6 + 48 to a recorded slot
    have hmedian : s.recentSlots.medianRecentSlot + 199 ≤ u64Max :=
      h.window _ s.recentSlots.medianRecentSlot_mem
    have hlen : s.recentSlots.slots.length ≤ 12 := s.recentSlots.bounded
    simp only [RecentLeaderSlots.SumsFit, RecentLeaderSlots.maxReasonableSlot,
      MAX_SLOT_SKIP_DISTANCE]
    omega
  rcases RecentLeaderSlots.exists_estimatedCurrentSlot hfit with ⟨estimate, hestimate⟩
  exact ⟨estimate, hestimate, h.window _ (RecentLeaderSlots.estimatedCurrentSlot_mem hestimate)⟩

theorem of_recordSlot (h : FullCache s) {v : Nat} (hv : SlotFits v) :
    FullCache (s.recordSlot v) := by
  refine
    { phase := h.phase
      leaders := h.leaders
      slotsInEpoch := h.slotsInEpoch
      firstSlot := h.firstSlot
      window := ?_ }
  intro slot hslot
  rcases RecentLeaderSlots.mem_recordSlot hslot with hold | hnew
  · exact h.window slot hold
  · exact hnew ▸ hv

/-- A cycle moves the cache to the estimate, or leaves it where it reaches 100 slots further than
the estimate. -/
theorem of_quietCycle (h : FullCache s) {now updatedAt : Nat} {rpc : RpcClient} (hrpc : rpc.Healthy)
    (hcycle : quietCycle fromStr s now updatedAt rpc = some t) :
    FullCache t ∧ t.recentSlots = s.recentSlots ∧
      ∃ estimate, s.recentSlots.estimatedCurrentSlot = .ok estimate ∧
        (s.leaderTpuCache.firstSlot + 99 ≤ estimate ∧ t.leaderTpuCache.firstSlot = estimate ∨
          estimate < s.leaderTpuCache.firstSlot + 99 ∧
            t.leaderTpuCache.firstSlot = s.leaderTpuCache.firstSlot) := by
  rcases quietCycle_spec hcycle with ⟨estimate, last, hestimate, hlast, hslots, hphase, hcache⟩
  have hlast' : last = s.leaderTpuCache.firstSlot + 199 := ok_unique hlast h.lastSlot
  have hfits : SlotFits estimate :=
    h.window estimate (RecentLeaderSlots.estimatedCurrentSlot_mem hestimate)
  have hwindow : ∀ slot ∈ t.recentSlots.slots, SlotFits slot := hslots ▸ h.window
  have hslotsInEpoch : 200 ≤ t.leaderTpuCache.slotsInEpoch :=
    hcache ▸ hrpc.slotsInEpoch_updateAll fromStr h.slotsInEpoch
  rcases hrpc.slotLeaders estimate (LeaderTpuCache.fanout s.leaderTpuCache.slotsInEpoch) with
    ⟨leaders, hleaders, hlen⟩
  -- the refetch test is the whole case distinction
  by_cases hnear : last - MAX_FANOUT_SLOTS ≤ estimate
  · have hmaybe : (requestsAt s.leaderTpuCache (now - s.lastClusterRefresh) rpc estimate
        last).maybeSlotLeaders = some (.ok leaders) := by
      simp [requestsAt, hnear, hleaders]
    rcases LeaderTpuCache.updateAll_of_leaders fromStr s.leaderTpuCache estimate hmaybe with
      ⟨hfirst, hlist⟩
    rw [← hcache] at hfirst hlist
    have hreach : s.leaderTpuCache.firstSlot + 99 ≤ estimate := by
      have hfan : MAX_FANOUT_SLOTS = 100 := rfl
      omega
    refine ⟨?_, hslots, estimate, hestimate, .inl ⟨hreach, hfirst⟩⟩
    exact
      { phase := hphase
        leaders := by rw [hlist, hlen, fanout_of_le h.slotsInEpoch]
        slotsInEpoch := hslotsInEpoch
        firstSlot := hfirst ▸ hfits
        window := hwindow }
  · have hmaybe : ∀ leaders, (requestsAt s.leaderTpuCache (now - s.lastClusterRefresh) rpc estimate
        last).maybeSlotLeaders ≠ some (.ok leaders) := by
      intro leaders
      simp [requestsAt, hnear]
    rcases LeaderTpuCache.updateAll_of_no_leaders fromStr s.leaderTpuCache estimate hmaybe with
      ⟨hfirst, hlist⟩
    rw [← hcache] at hfirst hlist
    have hbelow : estimate < s.leaderTpuCache.firstSlot + 99 := by
      have hfan : MAX_FANOUT_SLOTS = 100 := rfl
      omega
    refine ⟨?_, hslots, estimate, hestimate, .inr ⟨hbelow, hfirst⟩⟩
    exact
      { phase := hphase
        leaders := hlist ▸ h.leaders
        slotsInEpoch := hslotsInEpoch
        firstSlot := hfirst ▸ h.firstSlot
        window := hwindow }

/-- Healthy events are always enabled. -/
theorem exists_next (fromStr : String → Option Pubkey) (h : FullCache s) {ev : CycleEvent}
    (hev : ev.Healthy) :
    ∃ t, (quietMachine fromStr).next s ev = some t ∧ FullCache t := by
  cases ev with
  | recordSlot v => exact ⟨s.recordSlot v, rfl, h.of_recordSlot hev⟩
  | cycle now updatedAt rpc =>
      rcases h.exists_estimate with ⟨estimate, hestimate, _⟩
      rcases exists_quietCycle fromStr h.phase hestimate h.lastSlot now updatedAt rpc with
        ⟨t, ht⟩
      exact ⟨t, ht, (h.of_quietCycle hev ht).1⟩

theorem next (h : FullCache s) {ev : CycleEvent} (hev : ev.Healthy)
    (hnext : (quietMachine fromStr).next s ev = some t) : FullCache t := by
  rcases h.exists_next fromStr hev with ⟨u, hu, hfull⟩
  have hut : u = t := by simpa using hu.symm.trans hnext
  exact hut ▸ hfull

end FullCache

theorem exists_ofAnswers (fromStr : String → Option Pubkey) {rpc : RpcClient} {startSlot : Nat}
    (hrpc : rpc.Healthy) (hstart : SlotFits startSlot) (protocol : Protocol) (now : Nat) :
    ∃ s, LeaderTpuService.ofAnswers fromStr rpc startSlot protocol now = some s ∧ FullCache s ∧
      s.leaderTpuCache.firstSlot = startSlot := by
  rcases hrpc.clusterNodes with ⟨nodes, hnodes⟩
  rcases hrpc.epochInfo with ⟨epochInfo, hepoch, hlong⟩
  rcases hrpc.slotLeaders startSlot (LeaderTpuCache.fanout epochInfo.slotsInEpoch) with
    ⟨leaders, hleaders, hlen⟩
  have hnew : LeaderTpuService.ofAnswers fromStr rpc startSlot protocol now = some
      { recentSlots := RecentLeaderSlots.new startSlot
        leaderTpuCache :=
          LeaderTpuCache.new fromStr startSlot epochInfo.slotsInEpoch leaders nodes protocol
        lastClusterRefresh := now
        sleepMs := DEFAULT_MS_PER_SLOT
        phase := .sleeping } := by
    simp [LeaderTpuService.ofAnswers, hnodes, hepoch, hleaders, Except.toOption]
  refine ⟨_, hnew, ?_, rfl⟩
  refine
    { phase := rfl
      leaders := hlen.trans (fanout_of_le hlong)
      slotsInEpoch := hlong
      firstSlot := hstart
      window := ?_ }
  intro slot hslot
  have heq : slot = startSlot := by simpa using hslot
  exact heq ▸ hstart

/-! ## What a fan-out finds right after a cycle -/

/-- `slot` is in the cached range, and a fan-out asked for at `estimate` starts with its leader. -/
structure StartsAt (c : LeaderTpuCache) (estimate slot : Nat) : Prop where
  range : ∃ last, c.lastSlot = .ok last ∧ c.firstSlot ≤ slot ∧ slot ≤ last
  leader : ∃ k, c.getSlotLeader slot = some k ∧
    ∀ fanoutSlots, 1 ≤ fanoutSlots → slot + fanoutSlots ≤ u64Max →
      c.getLeaderSockets estimate fanoutSlots =
        .ok ((c.leaderTpuMap k).toList ++
          (LeaderTpuCache.probedSlots (slot + 4) (fanoutSlots - 4)).filterMap c.slotSocket)

theorem FullCache.startsAt {s : LeaderTpuService} (h : FullCache s) {estimate : Nat}
    (hestimate : estimate ≤ s.leaderTpuCache.firstSlot + 199) :
    StartsAt s.leaderTpuCache estimate (max estimate s.leaderTpuCache.firstSlot) := by
  have hfirst : s.leaderTpuCache.firstSlot ≤ max estimate s.leaderTpuCache.firstSlot :=
    Nat.le_max_right _ _
  have hlast : max estimate s.leaderTpuCache.firstSlot ≤ s.leaderTpuCache.firstSlot + 199 :=
    Nat.max_le.2 ⟨hestimate, Nat.le_add_right _ _⟩
  have hsome :
      (s.leaderTpuCache.getSlotLeader (max estimate s.leaderTpuCache.firstSlot)).isSome := by
    refine LeaderTpuCache.getSlotLeader_isSome_iff.2 ⟨hfirst, ?_⟩
    rw [h.leaders]
    exact Nat.lt_succ_of_le hlast
  rcases Option.isSome_iff_exists.1 hsome with ⟨k, hk⟩
  refine ⟨⟨_, h.lastSlot, hfirst, hlast⟩, k, hk, ?_⟩
  intro fanoutSlots hpos hfit
  have hhead : s.leaderTpuCache.slotSocket (max estimate s.leaderTpuCache.firstSlot) =
      s.leaderTpuCache.leaderTpuMap k := by
    simp [LeaderTpuCache.slotSocket, hk]
  rw [LeaderTpuCache.getLeaderSockets_eq hfit, LeaderTpuCache.probedSlots_eq_cons hpos]
  cases hsocket : s.leaderTpuCache.leaderTpuMap k with
  | none => simp [hhead, hsocket]
  | some socket => simp [hhead, hsocket]

theorem FullCache.startsAt_iff {s : LeaderTpuService} (h : FullCache s) {estimate : Nat}
    (hestimate : estimate ≤ s.leaderTpuCache.firstSlot + 199) :
    StartsAt s.leaderTpuCache estimate estimate ↔ s.leaderTpuCache.firstSlot ≤ estimate := by
  constructor
  · intro hstarts
    rcases hstarts.range with ⟨_, _, hfirst, _⟩
    exact hfirst
  · intro hfirst
    simpa [Nat.max_eq_left hfirst] using h.startsAt hestimate

/-! ## Where the anchor of a run stands -/

/-- The condition on a step: a cycle that moves the cache moves it to an estimate of at most
`bound`. -/
def MovesUpTo (bound : Nat) (s : LeaderTpuService) : CycleEvent → Prop
  | .recordSlot _ => True
  | .cycle _ _ _ => ∀ estimate, s.recentSlots.estimatedCurrentSlot = .ok estimate →
      s.leaderTpuCache.firstSlot + 99 ≤ estimate → estimate ≤ bound

/-- The anchor only ever moves up, so it stays within the bound exactly when its start and the move
do. -/
theorem firstSlot_le_step_iff {fromStr : String → Option Pubkey} {s t : LeaderTpuService}
    {bound : Nat} {ev : CycleEvent} (hev : ev.Healthy) (hs : FullCache s)
    (hnext : (quietMachine fromStr).next s ev = some t) :
    t.leaderTpuCache.firstSlot ≤ bound ↔
      s.leaderTpuCache.firstSlot ≤ bound ∧ MovesUpTo bound s ev := by
  cases ev with
  | recordSlot v =>
      have hrec : some (s.recordSlot v) = some t := hnext
      cases hrec
      exact ⟨fun hfirst => ⟨hfirst, trivial⟩, fun hboth => hboth.1⟩
  | cycle now updatedAt rpc =>
      rcases hs.of_quietCycle hev hnext with
        ⟨_, _, estimate, hestimate, ⟨hreach, hmoved⟩ | ⟨hbelow, hkept⟩⟩
      · -- the cache moves to the estimate, which is then all that counts
        rw [hmoved]
        constructor
        · intro hle
          refine ⟨by omega, ?_⟩
          intro estimate' hestimate' _
          cases hestimate.symm.trans hestimate'
          exact hle
        · rintro ⟨_, hmoves⟩
          exact hmoves estimate hestimate hreach
      · -- the cache stays, and the condition asks for nothing
        rw [hkept]
        refine ⟨fun hfirst => ⟨hfirst, ?_⟩, fun hboth => hboth.1⟩
        intro estimate' hestimate' hreach
        cases hestimate.symm.trans hestimate'
        omega

theorem firstSlot_le_run_iff {fromStr : String → Option Pubkey} {s t : LeaderTpuService}
    {bound : Nat} {evs : List CycleEvent} (hevs : ∀ ev ∈ evs, ev.Healthy) (hs : FullCache s)
    (hrun : (quietMachine fromStr).run s evs = some t) :
    t.leaderTpuCache.firstSlot ≤ bound ↔
      s.leaderTpuCache.firstSlot ≤ bound ∧
        (quietMachine fromStr).Steps (MovesUpTo bound) s evs := by
  refine (quietMachine fromStr).run_iff_steps (I := FullCache) (F := CycleEvent.Healthy)
    (P := fun u => u.leaderTpuCache.firstSlot ≤ bound) ?_ ?_ hs hevs hrun
  · intro u ev v hu hev hnext
    exact hu.next hev hnext
  · intro u ev v hu hev hnext
    exact firstSlot_le_step_iff hev hu hnext

/-- No healthy run from `new` gets stuck, and right after each of its cycles the upper end of the
cache covers the estimate: a fan-out starts at a slot whose leader is cached.  That slot is the
estimate itself exactly when neither the start nor a cycle that moved the cache saw a later slot. -/
theorem leader_cached_after_cycle (fromStr : String → Option Pubkey) (rpc rpc' : RpcClient)
    (startSlot now now' updatedAt : Nat) (protocol : Protocol) (evs : List CycleEvent)
    (hrpc : rpc.Healthy) (hstart : SlotFits startSlot) (hevs : ∀ ev ∈ evs, ev.Healthy)
    (hrpc' : rpc'.Healthy) :
    ∃ s u t estimate,
      LeaderTpuService.ofAnswers fromStr rpc startSlot protocol now = some s ∧
        (quietMachine fromStr).run s evs = some u ∧
        quietCycle fromStr u now' updatedAt rpc' = some t ∧
        t.recentSlots.estimatedCurrentSlot = .ok estimate ∧
        StartsAt t.leaderTpuCache estimate (max estimate t.leaderTpuCache.firstSlot) ∧
        (StartsAt t.leaderTpuCache estimate estimate ↔
          startSlot ≤ estimate ∧ (quietMachine fromStr).Steps (MovesUpTo estimate) s evs) := by
  rcases exists_ofAnswers fromStr hrpc hstart protocol now with ⟨s, hnew, hfull, hfirst⟩
  have hrun : ∃ u, (quietMachine fromStr).run s evs = some u ∧ FullCache u := by
    refine (quietMachine fromStr).exists_run ?_ hfull hevs
    intro v ev hv hev
    exact hv.exists_next fromStr hev
  rcases hrun with ⟨u, hu, hufull⟩
  rcases hufull.exists_estimate with ⟨estimate, hestimate, _⟩
  rcases exists_quietCycle fromStr hufull.phase hestimate hufull.lastSlot now' updatedAt rpc' with
    ⟨t, ht⟩
  rcases hufull.of_quietCycle hrpc' ht with ⟨htfull, hslots, estimate', hestimate', hmoved⟩
  cases hestimate'.symm.trans hestimate
  have hupper : estimate ≤ t.leaderTpuCache.firstSlot + 199 := by
    rcases hmoved with ⟨_, heq⟩ | ⟨hlt, heq⟩
    · exact heq ▸ Nat.le_add_right _ _
    · omega
  -- the last cycle itself leaves a cache that begins at the estimate or where it began before
  have hlast : t.leaderTpuCache.firstSlot ≤ estimate ↔ u.leaderTpuCache.firstSlot ≤ estimate := by
    rcases hmoved with ⟨hreach, heq⟩ | ⟨_, heq⟩
    · exact iff_of_true heq.le (by omega)
    · rw [heq]
  refine ⟨s, u, t, estimate, hnew, hu, ht, hslots ▸ hestimate, htfull.startsAt hupper, ?_⟩
  rw [htfull.startsAt_iff hupper, hlast, firstSlot_le_run_iff hevs hfull hu, hfirst]

/-- A node of a cluster past its warm-up. -/
def mainnetRpc : RpcClient :=
  { getClusterNodes := .ok []
    getEpochInfo := .ok { slotsInEpoch := 432000 }
    getSlotLeaders := fun start n => .ok ((List.range' start n).map fun slot =>
      BitVec.ofNat 256 (slot / 4)) }

theorem healthy_mainnetRpc : mainnetRpc.Healthy :=
  { clusterNodes := ⟨[], rfl⟩
    epochInfo := ⟨{ slotsInEpoch := 432000 }, rfl, by decide⟩
    slotLeaders := fun _ _ => ⟨_, rfl, by simp⟩ }

/-- Start at slot 1000 and hear of slot 1040 before the first of two cycles. -/
theorem leader_cached_after_cycle_jump :
    ∃ s u t estimate,
      LeaderTpuService.ofAnswers (fun _ => none) mainnetRpc 1000 .QUIC 0 = some s ∧
        (quietMachine fun _ => none).run s [.recordSlot 1040, .cycle 1 2 mainnetRpc] = some u ∧
        quietCycle (fun _ => none) u 3 4 mainnetRpc = some t ∧
        t.recentSlots.estimatedCurrentSlot = .ok estimate ∧
        StartsAt t.leaderTpuCache estimate (max estimate t.leaderTpuCache.firstSlot) := by
  have hevs : ∀ ev ∈ [CycleEvent.recordSlot 1040, .cycle 1 2 mainnetRpc], ev.Healthy := by
    intro ev hev
    rcases List.mem_cons.1 hev with rfl | hev
    · exact (by decide : 1040 + 199 ≤ u64Max)
    · have hcycle : ev = .cycle 1 2 mainnetRpc := by simpa using hev
      exact hcycle ▸ healthy_mainnetRpc
  rcases leader_cached_after_cycle (fun _ => none) mainnetRpc mainnetRpc 1000 0 3 4 .QUIC
    [.recordSlot 1040, .cycle 1 2 mainnetRpc] healthy_mainnetRpc (by decide : 1000 + 199 ≤ u64Max)
    hevs healthy_mainnetRpc with ⟨s, u, t, estimate, hnew, hu, ht, hestimate, hstarts, _⟩
  exact ⟨s, u, t, estimate, hnew, hu, ht, hestimate, hstarts⟩

/-- Start at slot 1000 and hear of slot 900, the estimate falls to 900, and the next cycle keeps a
cache that begins at slot 1000. -/
theorem current_leader_not_cached :
    ¬ ∀ evs : List CycleEvent, (∀ ev ∈ evs, ev.Healthy) →
        ∀ s u t estimate,
          LeaderTpuService.ofAnswers (fun _ => none) mainnetRpc 1000 .QUIC 0 = some s →
          (quietMachine fun _ => none).run s evs = some u →
          quietCycle (fun _ => none) u 1 2 mainnetRpc = some t →
          t.recentSlots.estimatedCurrentSlot = .ok estimate →
          t.leaderTpuCache.firstSlot ≤ estimate ∧
            (t.leaderTpuCache.getSlotLeader estimate).isSome := by
  intro h
  have hevs : ∀ ev ∈ [CycleEvent.recordSlot 900], ev.Healthy := by
    intro ev hev
    have hrec : ev = .recordSlot 900 := by simpa using hev
    exact hrec ▸ (by decide : 900 + 199 ≤ u64Max)
  rcases exists_ofAnswers (fun _ => none) healthy_mainnetRpc (by decide : 1000 + 199 ≤ u64Max)
    .QUIC 0 with ⟨s, hnew, hfull, hfirst⟩
  have hufull : FullCache (s.recordSlot 900) := hfull.of_recordSlot (hevs _ List.mem_cons_self)
  have hslots : s.recentSlots = RecentLeaderSlots.new 1000 := by
    cases hnew
    rfl
  have hestimate : (s.recordSlot 900).recentSlots.estimatedCurrentSlot = .ok 900 := by
    rw [recentSlots_recordSlot, hslots]
    rfl
  rcases exists_quietCycle (fun _ => none) hufull.phase hestimate hufull.lastSlot 1 2 mainnetRpc
    with ⟨t, ht⟩
  rcases hufull.of_quietCycle healthy_mainnetRpc ht with ⟨_, hkeep, estimate, hsame, hmoved⟩
  have h900 : estimate = 900 := ok_unique hsame hestimate
  have hbad := (h [.recordSlot 900] hevs s _ t 900 hnew rfl ht (hkeep ▸ hestimate)).1
  -- 900 + 100 does not reach the end of the cache, so nothing was fetched
  rcases hmoved with ⟨hreach, _⟩ | ⟨_, hkept⟩
  · have hfirst' : (s.recordSlot 900).leaderTpuCache.firstSlot = 1000 := hfirst
    omega
  · have hfirst' : (s.recordSlot 900).leaderTpuCache.firstSlot = 1000 := hfirst
    omega

/-! ## What a cycle asks for after a refresh in which everything succeeded -/

section AfterRefresh

variable (fromStr : String → Option Pubkey)

/-- The cache after an update at `estimate` with all three answers. -/
def refreshed (c : LeaderTpuCache) (estimate : Nat) (epochInfo : EpochInfo) (leaders : List Pubkey)
    (nodes : List RpcContactInfo) : LeaderTpuCache :=
  (c.updateAll fromStr estimate
    { maybeClusterNodes := some (.ok nodes)
      maybeEpochInfo := some (.ok epochInfo)
      maybeSlotLeaders := some (.ok leaders) }).1

/-- Within 99 slots and five minutes of the refresh at `estimate` nothing is requested. -/
def Settles (c : LeaderTpuCache) (estimate : Nat) : Prop :=
  ∀ (rpc : RpcClient) (r : RecentLeaderSlots) (elapsed later : Nat),
    r.estimatedCurrentSlot = .ok later → estimate ≤ later → later < estimate + 99 →
      elapsed < CLUSTER_REFRESH_INTERVAL →
      ∃ info, maybeFetchCacheInfo c elapsed rpc r = .ok info ∧ info.hasSome = false

theorem refreshed_fields (c : LeaderTpuCache) (estimate : Nat) (epochInfo : EpochInfo)
    (leaders : List Pubkey) (nodes : List RpcContactInfo) :
    (refreshed fromStr c estimate epochInfo leaders nodes).firstSlot = estimate ∧
      (refreshed fromStr c estimate epochInfo leaders nodes).leaders = leaders ∧
      (refreshed fromStr c estimate epochInfo leaders nodes).slotsInEpoch = epochInfo.slotsInEpoch ∧
      (refreshed fromStr c estimate epochInfo leaders nodes).lastEpochInfoSlot = estimate :=
  ⟨rfl, rfl, rfl, rfl⟩

/-- At a later estimate the epoch info is asked for, however close: the test subtracts the epoch
from the slot at which it was learned.  The leaders are asked for from the 99th slot on. -/
theorem requests_of_refreshed (c : LeaderTpuCache) {estimate : Nat} {epochInfo : EpochInfo}
    {leaders : List Pubkey} (nodes : List RpcContactInfo) (rpc : RpcClient)
    (hlong : 200 ≤ epochInfo.slotsInEpoch)
    (hlen : leaders.length = LeaderTpuCache.fanout epochInfo.slotsInEpoch)
    (hfit : SlotFits estimate) {r : RecentLeaderSlots} {elapsed later : Nat}
    (hlater : r.estimatedCurrentSlot = .ok later) (hle : estimate ≤ later)
    (hfresh : elapsed ≤ CLUSTER_REFRESH_INTERVAL) :
    maybeFetchCacheInfo (refreshed fromStr c estimate epochInfo leaders nodes) elapsed rpc r =
      .ok
        { maybeClusterNodes := none
          maybeEpochInfo := some rpc.getEpochInfo
          maybeSlotLeaders :=
            if estimate + 99 ≤ later then some (rpc.getSlotLeaders later 200) else none } := by
  have hlast : (refreshed fromStr c estimate epochInfo leaders nodes).lastSlot =
      .ok (estimate + 199) := by
    apply LeaderTpuCache.lastSlot_eq_ok_iff.2
    rcases refreshed_fields fromStr c estimate epochInfo leaders nodes with ⟨hfirst, hlist, _, _⟩
    rw [hfirst, hlist, hlen, fanout_of_le hlong]
    exact ⟨hfit, rfl⟩
  refine maybeFetchCacheInfo_eq_ok_iff.2 ⟨later, estimate + 199, hlater, hlast, ?_⟩
  rcases refreshed_fields fromStr c estimate epochInfo leaders nodes with ⟨_, _, hslots, hepoch⟩
  have hnodes : ¬ elapsed > CLUSTER_REFRESH_INTERVAL := Nat.not_lt.2 hfresh
  -- a difference of natural numbers: the test holds at once
  have hask : later ≥ estimate - epochInfo.slotsInEpoch := (Nat.sub_le _ _).trans hle
  have hreach : estimate + 199 - MAX_FANOUT_SLOTS = estimate + 99 := rfl
  simp [requestsAt, hslots, hepoch, hnodes, hask, hreach, fanout_of_le hlong]

/-- A refresh never settles: the epoch info is asked for again by every later cycle, at any distance
from the refresh, and alone until the leaders run out or the sockets are five minutes old. -/
theorem refresh_never_settles (c : LeaderTpuCache) (estimate : Nat) (epochInfo : EpochInfo)
    (leaders : List Pubkey) (nodes : List RpcContactInfo)
    (hlong : 200 ≤ epochInfo.slotsInEpoch)
    (hlen : leaders.length = LeaderTpuCache.fanout epochInfo.slotsInEpoch)
    (hfit : SlotFits estimate) :
    ¬ Settles (refreshed fromStr c estimate epochInfo leaders nodes) estimate ∧
      ∀ (rpc : RpcClient) (r : RecentLeaderSlots) (elapsed later : Nat),
        r.estimatedCurrentSlot = .ok later → estimate ≤ later →
          elapsed ≤ CLUSTER_REFRESH_INTERVAL →
          maybeFetchCacheInfo (refreshed fromStr c estimate epochInfo leaders nodes) elapsed rpc r =
            .ok
              { maybeClusterNodes := none
                maybeEpochInfo := some rpc.getEpochInfo
                maybeSlotLeaders :=
                  if estimate + 99 ≤ later then some (rpc.getSlotLeaders later 200)
                  else none } := by
  refine ⟨?_, ?_⟩
  · intro hsettles
    have hnow : (RecentLeaderSlots.new estimate).estimatedCurrentSlot = .ok estimate := by
      apply RecentLeaderSlots.estimatedCurrentSlot_new
      have hskip : MAX_SLOT_SKIP_DISTANCE = 48 := rfl
      have hroom : estimate + 199 ≤ u64Max := hfit
      omega
    rcases hsettles mainnetRpc (RecentLeaderSlots.new estimate) 0 estimate hnow (Nat.le_refl _)
      (by omega) (by decide) with ⟨info, hinfo, hnone⟩
    rw [requests_of_refreshed fromStr c nodes mainnetRpc hlong hlen hfit hnow (Nat.le_refl _)
      (Nat.zero_le _)] at hinfo
    cases hinfo
    simp [LeaderTpuCacheUpdateInfo.hasSome] at hnone
  · intro rpc r elapsed later hlater hle hfresh
    exact requests_of_refreshed fromStr c nodes rpc hlong hlen hfit hlater hle hfresh

end AfterRefresh

/-- A cache refreshed at slot 1000 in an epoch of 432000 slots. -/
def refreshedAt1000 : LeaderTpuCache :=
  refreshed (fun _ => none) (LeaderTpuCache.new (fun _ => none) 0 432000 [] [] .QUIC) 1000
    { slotsInEpoch := 432000 } (List.replicate 200 0) []

theorem refresh_never_settles_at_1000 : ¬ Settles refreshedAt1000 1000 :=
  (refresh_never_settles (fun _ => none) (LeaderTpuCache.new (fun _ => none) 0 432000 [] [] .QUIC)
    1000 { slotsInEpoch := 432000 } (List.replicate 200 0) [] (by decide) List.length_replicate
    (by decide : 1000 + 199 ≤ u64Max)).1

/-- At slot 1000, right after a refresh at slot 1000, the epoch info is asked for again. -/
theorem epoch_info_requested_again :
    ¬ ∀ (c : LeaderTpuCache) (estimate : Nat) (epochInfo : EpochInfo) (leaders : List Pubkey)
        (nodes : List RpcContactInfo), 200 ≤ epochInfo.slotsInEpoch →
        leaders.length = LeaderTpuCache.fanout epochInfo.slotsInEpoch → SlotFits estimate →
        Settles (refreshed (fun _ => none) c estimate epochInfo leaders nodes) estimate := by
  intro h
  have hsettles : Settles refreshedAt1000 1000 :=
    h (LeaderTpuCache.new (fun _ => none) 0 432000 [] [] .QUIC) 1000 { slotsInEpoch := 432000 }
      (List.replicate 200 0) [] (by decide) List.length_replicate (by decide : 1000 + 199 ≤ u64Max)
  rcases hsettles mainnetRpc (RecentLeaderSlots.new 1000) 0 1000 rfl (by decide) (by decide)
    (by decide) with ⟨info, hinfo, hnone⟩
  have hlen : (List.replicate 200 (0 : Pubkey)).length = LeaderTpuCache.fanout 432000 :=
    List.length_replicate
  have hasks := requests_of_refreshed (fun _ => none)
    (LeaderTpuCache.new (fun _ => none) 0 432000 [] [] .QUIC) [] mainnetRpc
    (by decide : 200 ≤ (EpochInfo.mk 432000).slotsInEpoch) hlen (by decide : 1000 + 199 ≤ u64Max)
    (rfl : (RecentLeaderSlots.new 1000).estimatedCurrentSlot = .ok 1000) (Nat.le_refl _)
    (Nat.zero_le _)
  rw [refreshedAt1000, hasks] at hinfo
  cases hinfo
  simp [LeaderTpuCacheUpdateInfo.hasSome] at hnone

end Engine
end TpuSender
