import TpuSender.Engine.Alignment
import TpuSender.Library.BlockScan

/-!
# FanoutCoverage — which leaders a fan-out meets in the cache

Three questions about `get_leader_sockets`, which probes every fourth slot of its range.

Does it stay inside the cache?  After a cycle that left the slot leaders alone, yes, for every
fan-out and for estimates that have moved on a little (`refetch_margin`).

Does it miss a leader of its range?  It begins at the estimate, which need not be the first slot of
a leader, so the last leader's slots can fall between two probes.  `fan_out_complete_iff` says
exactly when nothing is lost.

What does a larger fan-out change?  It probes more slots at the end and nothing else, so what it
adds to the unique sockets stands behind those of the smaller one (`larger_fanout_appends`).
-/

namespace TpuSender
namespace Engine

open Library LeaderTpuCache

/-- Default number of slots used to build TPU socket fanout set. -/
def DEFAULT_FANOUT_SLOTS : Nat := 64

/-- `config.fanout_slots.clamp(1, MAX_FANOUT_SLOTS)`. -/
def clampFanoutSlots (configFanoutSlots : Nat) : Nat :=
  max 1 (min configFanoutSlots MAX_FANOUT_SLOTS)

/-! ## Inside the cache -/

/-- The fan-out runs and finds a cached leader for each slot it probes. -/
structure StaysInCache (c : LeaderTpuCache) (estimate fanoutSlots : Nat) : Prop where
  runs : c.getLeaderSockets estimate fanoutSlots =
    .ok ((probedSlots (max estimate c.firstSlot) fanoutSlots).filterMap c.slotSocket)
  cached : ∀ slot ∈ probedSlots (max estimate c.firstSlot) fanoutSlots,
    (c.getSlotLeader slot).isSome

/-- A range that ends with the cache stays in it. -/
theorem staysInCache_of_le {c : LeaderTpuCache} {estimate fanoutSlots : Nat}
    (hlast : c.firstSlot + c.leaders.length ≤ u64Max)
    (hend : max estimate c.firstSlot + fanoutSlots ≤ c.firstSlot + c.leaders.length) :
    StaysInCache c estimate fanoutSlots := by
  refine ⟨getLeaderSockets_eq (hend.trans hlast), ?_⟩
  intro slot hslot
  rcases mem_probedSlots.1 hslot with ⟨i, hi, rfl⟩
  refine getSlotLeader_isSome_iff.2 ⟨?_, ?_⟩
  · exact (Nat.le_max_right estimate c.firstSlot).trans (Nat.le_add_right _ _)
  · exact Nat.lt_of_lt_of_le (Nat.add_lt_add_left hi _) hend

/-- The estimate of a cycle that does not ask for slot leaders is more than `MAX_FANOUT_SLOTS`
before the last cached slot. -/
theorem lt_lastSlot_of_no_request {c : LeaderTpuCache} {elapsed estimate last : Nat}
    {rpc : RpcClient} (h : (requestsAt c elapsed rpc estimate last).maybeSlotLeaders = none) :
    estimate + MAX_FANOUT_SLOTS < last := by
  have hsilent : ¬ (requestsAt c elapsed rpc estimate last).maybeSlotLeaders.isSome := by
    simp [h]
  have hbefore : ¬ estimate ≥ last - MAX_FANOUT_SLOTS := mt asksSlotLeaders_iff.2 hsilent
  omega

/-- As long as the slot leaders are not asked for again, no fan-out overruns the cache, from the
estimate of the cycle or from a later one that makes up for it with a smaller fan-out. -/
theorem refetch_margin {c : LeaderTpuCache} (hfull : MAX_FANOUT_SLOTS ≤ c.leaders.length)
    (hlast : c.firstSlot + c.leaders.length ≤ u64Max) {elapsed : Nat} {rpc : RpcClient}
    {recentSlots : RecentLeaderSlots} {info : LeaderTpuCacheUpdateInfo}
    (hfetch : maybeFetchCacheInfo c elapsed rpc recentSlots = .ok info)
    (hskipped : info.maybeSlotLeaders = none) :
    ∃ estimate, recentSlots.estimatedCurrentSlot = .ok estimate ∧
      (∀ estimate' fanoutSlots, 1 ≤ fanoutSlots → fanoutSlots ≤ MAX_FANOUT_SLOTS →
        estimate' + fanoutSlots ≤ estimate + 102 → StaysInCache c estimate' fanoutSlots) ∧
      (∀ configFanoutSlots, StaysInCache c estimate (clampFanoutSlots configFanoutSlots)) ∧
      ∀ estimate', estimate' ≤ estimate + 38 → StaysInCache c estimate' DEFAULT_FANOUT_SLOTS := by
  rcases maybeFetchCacheInfo_eq_ok_iff.1 hfetch with ⟨estimate, last, hestimate, hlastSlot, rfl⟩
  have hbefore := lt_lastSlot_of_no_request hskipped
  rcases lastSlot_eq_ok_iff.1 hlastSlot with ⟨_, rfl⟩
  have hmargin : ∀ estimate' fanoutSlots, fanoutSlots ≤ MAX_FANOUT_SLOTS →
      estimate' + fanoutSlots ≤ estimate + 102 → StaysInCache c estimate' fanoutSlots := by
    intro estimate' fanoutSlots hfanout hsum
    apply staysInCache_of_le hlast
    -- an estimate behind the anchor is clamped to it, and the cache is at least one fan-out long
    rcases Nat.le_total estimate' c.firstSlot with hbehind | hahead
    · rw [Nat.max_eq_right hbehind]
      exact Nat.add_le_add_left (hfanout.trans hfull) _
    · rw [Nat.max_eq_left hahead]
      simp only [MAX_FANOUT_SLOTS] at hbefore hfull
      omega
  refine ⟨estimate, hestimate, ?_, ?_, ?_⟩
  · intro estimate' fanoutSlots _ hfanout hsum
    exact hmargin estimate' fanoutSlots hfanout hsum
  · intro configFanoutSlots
    have hclamp : clampFanoutSlots configFanoutSlots ≤ MAX_FANOUT_SLOTS :=
      Nat.max_le.2 ⟨by decide, Nat.min_le_right _ _⟩
    refine hmargin estimate _ hclamp (Nat.add_le_add_left ?_ estimate)
    exact hclamp.trans (by decide)
  · intro estimate' hestimate'
    exact hmargin estimate' DEFAULT_FANOUT_SLOTS (by decide) (by
      simp only [DEFAULT_FANOUT_SLOTS]
      omega)

/-- A cache of 200 leaders from slot 1000 on, each with a port of its own. -/
def wideCache : LeaderTpuCache :=
  { protocol := .QUIC
    firstSlot := 1000
    leaders := List.replicate 200 0
    leaderTpuMap := fun leader => some (.V4 0 (UInt16.ofNat leader.toNat))
    slotsInEpoch := 432000
    lastEpochInfoSlot := 1000 }

theorem refetch_margin_wide :
    ∃ estimate, (RecentLeaderSlots.new 1000).estimatedCurrentSlot = .ok estimate ∧
      StaysInCache wideCache estimate (clampFanoutSlots 500) ∧
      StaysInCache wideCache (estimate + 38) DEFAULT_FANOUT_SLOTS := by
  have hlength : wideCache.leaders.length = 200 := List.length_replicate
  have hlast : wideCache.lastSlot = .ok 1199 := by
    rw [lastSlot_eq_ok_iff, hlength]
    decide
  have hfetch : maybeFetchCacheInfo wideCache 0 warmupRpc (RecentLeaderSlots.new 1000) =
      .ok (requestsAt wideCache 0 warmupRpc 1000 1199) :=
    maybeFetchCacheInfo_eq_ok_iff.2
      ⟨1000, 1199, RecentLeaderSlots.estimatedCurrentSlot_new (by decide), hlast, rfl⟩
  have hfull : MAX_FANOUT_SLOTS ≤ wideCache.leaders.length := by
    rw [hlength]
    decide
  have hend : wideCache.firstSlot + wideCache.leaders.length ≤ u64Max := by
    rw [hlength]
    decide
  rcases refetch_margin hfull hend hfetch rfl with ⟨estimate, hestimate, _, hclamped, hdefault⟩
  exact ⟨estimate, hestimate, hclamped 500, hdefault (estimate + 38) (Nat.le_refl _)⟩

/-! ## Every leader of the range -/

/-- The leader of a slot leads the whole block of `NUM_CONSECUTIVE_LEADER_SLOTS` around it. -/
def BlockConstant (sched : Nat → Pubkey) : Prop :=
  ∀ s t, s / NUM_CONSECUTIVE_LEADER_SLOTS = t / NUM_CONSECUTIVE_LEADER_SLOTS → sched s = sched t

/-- The end of what a fan-out from `currentSlot` can see. -/
def fanoutEnd (c : LeaderTpuCache) (currentSlot fanoutSlots : Nat) : Nat :=
  min (currentSlot + fanoutSlots) (c.firstSlot + c.leaders.length)

/-- The last slot that could be seen adds nothing: there is none, or its leader's slots are probed,
or its leader has no socket, or an earlier leader has the same one. -/
def TailCovered (c : LeaderTpuCache) (currentSlot stop : Nat) : Prop :=
  stop ≤ currentSlot ∨
    currentSlot % NUM_CONSECUTIVE_LEADER_SLOTS ≤ (stop - 1) % NUM_CONSECUTIVE_LEADER_SLOTS ∨
    c.slotSocket (stop - 1) = none ∨
    ∃ slot, currentSlot ≤ slot ∧
      slot / NUM_CONSECUTIVE_LEADER_SLOTS < (stop - 1) / NUM_CONSECUTIVE_LEADER_SLOTS ∧
      c.slotSocket slot = c.slotSocket (stop - 1)

theorem slotSocket_eq_some_iff {c : LeaderTpuCache} {slot : Nat} {socket : SocketAddr} :
    c.slotSocket slot = some socket ↔
      ∃ leader, c.getSlotLeader slot = some leader ∧ c.leaderTpuMap leader = some socket :=
  Option.bind_eq_some_iff

theorem lt_of_slotSocket {c : LeaderTpuCache} {slot : Nat} {socket : SocketAddr}
    (h : c.slotSocket slot = some socket) : slot < c.firstSlot + c.leaders.length := by
  rcases slotSocket_eq_some_iff.1 h with ⟨leader, hleader, _⟩
  have hsome : (c.getSlotLeader slot).isSome := by
    simp [hleader]
  exact (getSlotLeader_isSome_iff.1 hsome).2

/-- In an aligned cache the sockets are constant on the cached part of a block. -/
theorem slotSocket_eq_of_block {sched : Nat → Pubkey} (hsched : BlockConstant sched)
    {c : LeaderTpuCache} (haligned : Aligned sched c) {s t : Nat}
    (hs : (c.getSlotLeader s).isSome) (ht : (c.getSlotLeader t).isSome)
    (hblock : s / NUM_CONSECUTIVE_LEADER_SLOTS = t / NUM_CONSECUTIVE_LEADER_SLOTS) :
    c.slotSocket s = c.slotSocket t := by
  rcases Option.isSome_iff_exists.1 hs with ⟨k, hk⟩
  rcases Option.isSome_iff_exists.1 ht with ⟨l, hl⟩
  have hsame : k = l := by
    calc
      k = sched s := haligned s k hk
      _ = sched t := hsched s t hblock
      _ = l := (haligned t l hl).symm
  rw [slotSocket, slotSocket, hk, hl, hsame]

/-- A socket is found by the fan-out exactly when the scan of the cached range meets it. -/
theorem exists_probed_iff {c : LeaderTpuCache} {currentSlot fanoutSlots : Nat}
    {socket : SocketAddr} :
    (∃ slot ∈ probedSlots currentSlot fanoutSlots, c.slotSocket slot = some socket) ↔
      ∃ slot, Scanned NUM_CONSECUTIVE_LEADER_SLOTS currentSlot
        (fanoutEnd c currentSlot fanoutSlots) slot ∧ c.slotSocket slot = some socket := by
  constructor
  · rintro ⟨slot, hslot, hsocket⟩
    rcases mem_probedSlots.1 hslot with ⟨i, hi, rfl⟩
    refine ⟨_, ⟨i, rfl, ?_⟩, hsocket⟩
    exact Nat.lt_min.2 ⟨Nat.add_lt_add_left hi currentSlot, lt_of_slotSocket hsocket⟩
  · rintro ⟨slot, ⟨i, rfl, hlt⟩, hsocket⟩
    have hrange := (Nat.lt_min.1 hlt).1
    exact ⟨_, mem_probedSlots.2 ⟨i, Nat.lt_of_add_lt_add_left hrange, rfl⟩, hsocket⟩

/-- With leaders in aligned blocks of four, the fan-out returns sockets of leaders of its range
only, and misses none of them exactly when the end of the range adds nothing. -/
theorem fan_out_complete_iff {sched : Nat → Pubkey} (hsched : BlockConstant sched)
    {c : LeaderTpuCache} (haligned : Aligned sched c) {estimate fanoutSlots : Nat}
    (hrange : max estimate c.firstSlot + fanoutSlots ≤ u64Max) :
    ∃ sockets, c.getUniqueLeaderSockets estimate fanoutSlots = .ok sockets ∧
      (∀ socket ∈ sockets, ∃ slot leader, max estimate c.firstSlot ≤ slot ∧
        slot < max estimate c.firstSlot + fanoutSlots ∧
        c.getSlotLeader slot = some leader ∧ c.leaderTpuMap leader = some socket) ∧
      ((∀ slot leader socket, max estimate c.firstSlot ≤ slot →
          slot < max estimate c.firstSlot + fanoutSlots →
          c.getSlotLeader slot = some leader → c.leaderTpuMap leader = some socket →
          socket ∈ sockets) ↔
        TailCovered c (max estimate c.firstSlot)
          (fanoutEnd c (max estimate c.firstSlot) fanoutSlots)) := by
  rcases exists_getUniqueLeaderSockets hrange with ⟨sockets, hsockets, hmem⟩
  refine ⟨sockets, hsockets, ?_, ?_⟩
  · intro socket hsocket
    rcases (hmem socket).1 hsocket with ⟨slot, hslot, hfound⟩
    rcases mem_probedSlots.1 hslot with ⟨i, hi, rfl⟩
    rcases slotSocket_eq_some_iff.1 hfound with ⟨leader, hleader, hmap⟩
    exact ⟨_, leader, Nat.le_add_right _ _, Nat.add_lt_add_left hi _, hleader, hmap⟩
  · have hcached : ∀ slot, max estimate c.firstSlot ≤ slot →
        slot < fanoutEnd c (max estimate c.firstSlot) fanoutSlots →
        (c.getSlotLeader slot).isSome := by
      intro slot hslot hend
      have hfirst := (Nat.le_max_right estimate c.firstSlot).trans hslot
      exact getSlotLeader_isSome_iff.2 ⟨hfirst, (Nat.lt_min.1 hend).2⟩
    have hblocks : ∀ s t, max estimate c.firstSlot ≤ s →
        s < fanoutEnd c (max estimate c.firstSlot) fanoutSlots →
        max estimate c.firstSlot ≤ t →
        t < fanoutEnd c (max estimate c.firstSlot) fanoutSlots →
        s / NUM_CONSECUTIVE_LEADER_SLOTS = t / NUM_CONSECUTIVE_LEADER_SLOTS →
        c.slotSocket s = c.slotSocket t := by
      intro s t hs hs' ht ht' hblock
      exact slotSocket_eq_of_block hsched haligned (hcached s hs hs') (hcached t ht ht') hblock
    apply Iff.trans _ (scan_complete_iff (by decide) hblocks)
    constructor
    · intro hcomplete slot socket hslot hend hfound
      rcases slotSocket_eq_some_iff.1 hfound with ⟨leader, hleader, hmap⟩
      have hsocket := hcomplete slot leader socket hslot (Nat.lt_min.1 hend).1 hleader hmap
      exact exists_probed_iff.1 ((hmem socket).1 hsocket)
    · intro hcomplete slot leader socket hslot hend hleader hmap
      have hfound := slotSocket_eq_some_iff.2 ⟨leader, hleader, hmap⟩
      have hend' := Nat.lt_min.2 ⟨hend, lt_of_slotSocket hfound⟩
      exact (hmem socket).2 (exists_probed_iff.2 (hcomplete slot socket hslot hend' hfound))

theorem blockConstant_warmupSched : BlockConstant warmupSched := by
  intro s t hblock
  exact congrArg (BitVec.ofNat 256) hblock

/-- The last slot of one leader and the first of the next. -/
def seamCache : LeaderTpuCache :=
  { wideCache with
    firstSlot := 3
    leaders := [warmupSched 3, warmupSched 4] }

theorem aligned_seamCache : Aligned warmupSched seamCache := by
  rw [aligned_iff]
  intro i k hget
  rcases i with _ | _ | i
  · simpa [seamCache, eq_comm] using hget
  · simpa [seamCache, eq_comm] using hget
  · simp [seamCache] at hget

/-- From slot 4 on the seam is no obstacle. -/
theorem fan_out_complete_iff_seam :
    ∃ sockets, seamCache.getUniqueLeaderSockets 4 5 = .ok sockets ∧
      ∀ slot leader socket, 4 ≤ slot → slot < 9 → seamCache.getSlotLeader slot = some leader →
        seamCache.leaderTpuMap leader = some socket → socket ∈ sockets := by
  rcases fan_out_complete_iff blockConstant_warmupSched aligned_seamCache
    (by decide : max 4 seamCache.firstSlot + 5 ≤ u64Max) with ⟨sockets, hsockets, _, hcomplete⟩
  exact ⟨sockets, hsockets, hcomplete.2 (.inr (.inl (by decide)))⟩

/-- A fan-out of two slots from slot 3 asks for the leader of slot 3 only. -/
theorem leader_missed :
    ¬ ∀ (sched : Nat → Pubkey) (c : LeaderTpuCache) (estimate fanoutSlots : Nat)
        (sockets : List SocketAddr),
        BlockConstant sched → Aligned sched c → 1 ≤ fanoutSlots → fanoutSlots ≤ 100 →
        max estimate c.firstSlot + fanoutSlots ≤ u64Max →
        c.getUniqueLeaderSockets estimate fanoutSlots = .ok sockets →
        ∀ slot leader socket, max estimate c.firstSlot ≤ slot →
          slot < max estimate c.firstSlot + fanoutSlots →
          c.getSlotLeader slot = some leader → c.leaderTpuMap leader = some socket →
          socket ∈ sockets := by
  intro h
  have hmissed := h warmupSched seamCache 3 2 [.V4 0 0] blockConstant_warmupSched
    aligned_seamCache (by decide) (by decide) (by decide) rfl 4 (warmupSched 4) (.V4 0 1)
    (by decide) (by decide) rfl rfl
  revert hmissed
  decide

/-! ## Larger fan-outs -/

/-- The sockets of a fan-out without repetitions: as many as slots are probed at most, and each one
where it comes up first in `all`. -/
structure UniqueSockets (fanoutSlots : Nat) (all sockets : List SocketAddr) : Prop where
  nodup : sockets.Nodup
  length_le : sockets.length ≤ (fanoutSlots + 3) / 4
  firstOccurrences : FirstOccurrences all sockets

theorem probedSlots_mono (currentSlot : Nat) {fanoutSlots fanoutSlots' : Nat}
    (hle : fanoutSlots ≤ fanoutSlots') :
    probedSlots currentSlot fanoutSlots <+: probedSlots currentSlot fanoutSlots' := by
  have hcount : (fanoutSlots + 3) / 4 ≤ (fanoutSlots' + 3) / 4 :=
    Nat.div_le_div_right (Nat.add_le_add_right hle 3)
  rcases Nat.le.dest hcount with ⟨more, hmore⟩
  refine ⟨List.range' (currentSlot + 4 * ((fanoutSlots + 3) / 4)) more 4, ?_⟩
  calc
    _ = List.range' currentSlot ((fanoutSlots + 3) / 4 + more) 4 := List.range'_append
    _ = probedSlots currentSlot fanoutSlots' := by
        rw [hmore]
        rfl

theorem uniqueSockets_foldl (c : LeaderTpuCache) (currentSlot fanoutSlots : Nat) :
    UniqueSockets fanoutSlots ((probedSlots currentSlot fanoutSlots).filterMap c.slotSocket)
      (((probedSlots currentSlot fanoutSlots).filterMap c.slotSocket).foldl pushUnseen
        ([], [])).1 := by
  have hfirst := firstOccurrences_foldl_pushUnseen
    ((probedSlots currentSlot fanoutSlots).filterMap c.slotSocket)
  refine
    { nodup := hfirst.nodup
      length_le := ?_
      firstOccurrences := hfirst }
  calc
    _ ≤ ((probedSlots currentSlot fanoutSlots).filterMap c.slotSocket).length := hfirst.length_le
    _ ≤ (probedSlots currentSlot fanoutSlots).length := List.length_filterMap_le _ _
    _ = (fanoutSlots + 3) / 4 := List.length_range'

/-- A fan-out whose range ends outside of `u64` panics, whatever is cached. -/
theorem getUniqueLeaderSockets_of_lt {c : LeaderTpuCache} {estimate fanoutSlots : Nat}
    (h : u64Max < max estimate c.firstSlot + fanoutSlots) :
    c.getUniqueLeaderSockets estimate fanoutSlots = .error .arithmeticOverflow := by
  simp [getUniqueLeaderSockets, getLeaderSockets, checkedAdd_of_lt h, bind, Except.bind]

/-- A fan-out that does not panic ends inside the range, and returns the sockets of its slots. -/
theorem getUniqueLeaderSockets_eq_ok {c : LeaderTpuCache} {estimate fanoutSlots : Nat}
    {sockets : List SocketAddr} (h : c.getUniqueLeaderSockets estimate fanoutSlots = .ok sockets) :
    UniqueSockets fanoutSlots
      ((probedSlots (max estimate c.firstSlot) fanoutSlots).filterMap c.slotSocket) sockets := by
  by_cases hrange : max estimate c.firstSlot + fanoutSlots ≤ u64Max
  · rw [getUniqueLeaderSockets_eq hrange] at h
    cases h
    exact uniqueSockets_foldl c (max estimate c.firstSlot) fanoutSlots
  · rw [getUniqueLeaderSockets_of_lt (Nat.lt_of_not_le hrange)] at h
    cases h

/-- Of two fan-outs from one estimate the larger one returns the sockets of the smaller one first,
and both return each socket of their range once, in the order in which it comes up. -/
theorem larger_fanout_appends {c : LeaderTpuCache} {estimate fanoutSlots fanoutSlots' : Nat}
    (hle : fanoutSlots ≤ fanoutSlots')
    (hrange : max estimate c.firstSlot + fanoutSlots' ≤ u64Max) :
    ∃ all all' sockets sockets',
      c.getLeaderSockets estimate fanoutSlots = .ok all ∧
        c.getUniqueLeaderSockets estimate fanoutSlots = .ok sockets ∧
        UniqueSockets fanoutSlots all sockets ∧
        c.getLeaderSockets estimate fanoutSlots' = .ok all' ∧
        c.getUniqueLeaderSockets estimate fanoutSlots' = .ok sockets' ∧
        UniqueSockets fanoutSlots' all' sockets' ∧
        sockets <+: sockets' := by
  have hrange' : max estimate c.firstSlot + fanoutSlots ≤ u64Max :=
    (Nat.add_le_add_left hle _).trans hrange
  have hunique := uniqueSockets_foldl c (max estimate c.firstSlot) fanoutSlots
  have hunique' := uniqueSockets_foldl c (max estimate c.firstSlot) fanoutSlots'
  refine ⟨_, _, _, _, getLeaderSockets_eq hrange', getUniqueLeaderSockets_eq hrange', hunique,
    getLeaderSockets_eq hrange, getUniqueLeaderSockets_eq hrange, hunique', ?_⟩
  apply hunique.firstOccurrences.mono hunique'.firstOccurrences
  exact (probedSlots_mono _ hle).filterMap c.slotSocket

/-- Leaders 1 and 3 listen on one socket, leader 0 has none. -/
def sharedCache : LeaderTpuCache :=
  { wideCache with
    firstSlot := 0
    leaders := [1, 2, 0, 3].flatMap (List.replicate NUM_CONSECUTIVE_LEADER_SLOTS)
    leaderTpuMap := fun leader =>
      if leader = 0 then none else some (.V4 0 (UInt16.ofNat (leader.toNat % 2))) }

theorem larger_fanout_appends_shared :
    sharedCache.getUniqueLeaderSockets 0 4 = .ok [.V4 0 1] ∧
      sharedCache.getUniqueLeaderSockets 0 64 = .ok [.V4 0 1, .V4 0 0] ∧
      [SocketAddr.V4 0 1] <+: [.V4 0 1, .V4 0 0] := by
  have hfirst : sharedCache.getUniqueLeaderSockets 0 4 = .ok [.V4 0 1] := rfl
  have hall : sharedCache.getUniqueLeaderSockets 0 64 = .ok [.V4 0 1, .V4 0 0] := rfl
  rcases larger_fanout_appends (by decide : 4 ≤ 64)
    (by decide : max 0 sharedCache.firstSlot + 64 ≤ u64Max) with
    ⟨_, _, sockets, sockets', _, hsockets, _, _, hsockets', _, hmore⟩
  cases ok_unique hsockets hfirst
  cases ok_unique hsockets' hall
  exact ⟨hfirst, hall, hmore⟩

end Engine
end TpuSender
