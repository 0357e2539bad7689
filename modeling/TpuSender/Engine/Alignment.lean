import TpuSender.Engine.LeaderTpuService

/-!
# Alignment — does `leaders[i]` lead slot `firstSlot + i`?

The refresher asks for the leaders from the estimate on and, when the answers are in, stores them
under the estimate *of that moment*.  A notification that moves the estimate in between makes the
two differ, and the cache is off by the difference.

`schedule_alignment` says exactly which runs keep the cache aligned with the cluster's schedule:
those in which every stored answer reads the same from both estimates.  Runs in which no
notification moves the estimate between a fetch and its update are among them.
-/

namespace TpuSender
namespace Engine

open Library LeaderTpuService

/-! ## The schedule and its answers -/

/-- The node answers `get_slot_leaders(start, n)` with the schedule of `n` slots from `start` on. -/
def RpcClient.Follows (rpc : RpcClient) (sched : Nat → Pubkey) : Prop :=
  ∀ start n, rpc.getSlotLeaders start n = .ok ((List.range' start n).map sched)

/-- Every request of the run is answered by a node that follows the schedule. -/
def ServiceEvent.Follows (sched : Nat → Pubkey) : ServiceEvent → Prop
  | .fetch _ rpc => rpc.Follows sched
  | .recordSlot _ => True
  | .update _ => True

/-- Every leader read from the cache is the leader of the slot it is read for. -/
def Aligned (sched : Nat → Pubkey) (c : LeaderTpuCache) : Prop :=
  ∀ slot k, c.getSlotLeader slot = some k → k = sched slot

/-- `n` slots lead the same whether counted from `a` or from `b`. -/
def SameLeaders (sched : Nat → Pubkey) (a b n : Nat) : Prop :=
  ∀ i, i < n → sched (a + i) = sched (b + i)

/-- The condition on a step: when leaders fetched at the estimate `readAt` are stored, the schedule
reads the same from `readAt` and from the estimate of that moment. -/
def StoresSameLeaders (sched : Nat → Pubkey) (s : LeaderTpuService) : ServiceEvent → Prop
  | .update _ => ∀ readAt info leaders estimate,
      s.phase = .fetched readAt info → info.maybeSlotLeaders = some (.ok leaders) →
      s.recentSlots.estimatedCurrentSlot = .ok estimate →
      SameLeaders sched readAt estimate leaders.length
  | _ => True

/-- Fetched leaders are stored at the estimate they were fetched at. -/
def UpdatesAtReadEstimate (s : LeaderTpuService) : ServiceEvent → Prop
  | .update _ => ∀ readAt info leaders estimate,
      s.phase = .fetched readAt info → info.maybeSlotLeaders = some (.ok leaders) →
      s.recentSlots.estimatedCurrentSlot = .ok estimate → estimate = readAt
  | _ => True

theorem storesSameLeaders_of_updatesAtReadEstimate (sched : Nat → Pubkey)
    (s : LeaderTpuService) (ev : ServiceEvent) :
    UpdatesAtReadEstimate s ev → StoresSameLeaders sched s ev := by
  intro h
  cases ev with
  | recordSlot v => trivial
  | fetch now rpc => trivial
  | update now =>
      intro readAt info leaders estimate hphase hleaders hestimate i _
      have heq : estimate = readAt := h readAt info leaders estimate hphase hleaders hestimate
      rw [heq]

/-! ## Aligned caches -/

theorem aligned_iff {sched : Nat → Pubkey} {c : LeaderTpuCache} :
    Aligned sched c ↔ ∀ i k, c.leaders[i]? = some k → k = sched (c.firstSlot + i) := by
  constructor
  · intro h i k hget
    exact h _ k (LeaderTpuCache.getSlotLeader_eq_some_iff.2 ⟨i, rfl, hget⟩)
  · intro h slot k hslot
    rcases LeaderTpuCache.getSlotLeader_eq_some_iff.1 hslot with ⟨i, rfl, hget⟩
    exact h i k hget

theorem getElem?_schedule {sched : Nat → Pubkey} {start n i : Nat} {k : Pubkey}
    (h : ((List.range' start n).map sched)[i]? = some k) : i < n ∧ k = sched (start + i) := by
  have hlt : i < n := by
    have hi := (List.getElem?_eq_some_iff.1 h).1
    simpa using hi
  have hget : ((List.range' start n).map sched)[i]? = some (sched (start + i)) := by
    simp [hlt]
  exact ⟨hlt, by simpa using h.symm.trans hget⟩

/-- Leaders fetched from `readAt` and stored at `estimate` are aligned exactly when the schedule
reads the same from both. -/
theorem aligned_updateAll_iff {sched : Nat → Pubkey} {fromStr : String → Option Pubkey}
    {c : LeaderTpuCache} {estimate readAt n : Nat} {info : LeaderTpuCacheUpdateInfo}
    (hinfo : info.maybeSlotLeaders = some (.ok ((List.range' readAt n).map sched))) :
    Aligned sched (c.updateAll fromStr estimate info).1 ↔ SameLeaders sched readAt estimate n := by
  rcases LeaderTpuCache.updateAll_of_leaders fromStr c estimate hinfo with ⟨hfirst, hlist⟩
  rw [aligned_iff, hfirst, hlist]
  constructor
  · intro h i hi
    exact h i (sched (readAt + i)) (by simp [hi])
  · intro h i k hget
    rcases getElem?_schedule hget with ⟨hi, rfl⟩
    exact h i hi

/-- An update without fetched leaders keeps the leaders and their anchor. -/
theorem aligned_updateAll_of_no_leaders {sched : Nat → Pubkey}
    {fromStr : String → Option Pubkey} {c : LeaderTpuCache} {estimate : Nat}
    {info : LeaderTpuCacheUpdateInfo}
    (hinfo : ∀ leaders, info.maybeSlotLeaders ≠ some (.ok leaders)) (h : Aligned sched c) :
    Aligned sched (c.updateAll fromStr estimate info).1 := by
  rcases LeaderTpuCache.updateAll_of_no_leaders fromStr c estimate hinfo with ⟨hfirst, hlist⟩
  rw [aligned_iff] at h ⊢
  rw [hfirst, hlist]
  exact h

/-! ## What the refresher carries between its halves -/

/-- Leaders in flight are the schedule from the estimate at which they were asked for. -/
def CarriesSchedule (sched : Nat → Pubkey) (s : LeaderTpuService) : Prop :=
  ∀ readAt info leaders, s.phase = .fetched readAt info →
    info.maybeSlotLeaders = some (.ok leaders) →
    ∃ n, leaders = (List.range' readAt n).map sched

section Steps

variable {fromStr : String → Option Pubkey} {sched : Nat → Pubkey} {s t : LeaderTpuService}
  {ev : ServiceEvent}

theorem carriesSchedule_step (hev : ev.Follows sched) (h : CarriesSchedule sched s)
    (hstep : step fromStr s ev = some t) : CarriesSchedule sched t := by
  cases ev with
  | recordSlot v =>
      rw [step_recordSlot hstep]
      exact h
  | fetch now rpc =>
      rcases step_fetch hstep with ⟨estimate, last, _, _, _, rfl⟩
      intro readAt info leaders hphase hleaders
      simp only [afterFetch] at hphase
      split at hphase
      · cases hphase
        -- the request was answered from the estimate, by a node that follows the schedule
        have hanswer := hev estimate (LeaderTpuCache.fanout s.leaderTpuCache.slotsInEpoch)
        simp only [requestsAt] at hleaders
        split at hleaders
        · refine ⟨LeaderTpuCache.fanout s.leaderTpuCache.slotsInEpoch, ?_⟩
          simpa [hanswer, eq_comm] using hleaders
        · cases hleaders
      · cases hphase
  | update now =>
      -- after an update nothing is in flight
      rcases step_update hstep with ⟨readAt, info, estimate, _, _, rfl⟩
      intro readAt' info' leaders' hphase
      cases hphase

/-- A step keeps the cache aligned exactly when it stores leaders at an estimate from which the
schedule reads the same. -/
theorem aligned_step_iff (hcarries : CarriesSchedule sched s)
    (haligned : Aligned sched s.leaderTpuCache) (hstep : step fromStr s ev = some t) :
    Aligned sched t.leaderTpuCache ↔ StoresSameLeaders sched s ev := by
  cases ev with
  | recordSlot v =>
      rw [step_recordSlot hstep]
      exact iff_of_true haligned trivial
  | fetch now rpc =>
      rcases step_fetch hstep with ⟨estimate, last, _, _, _, rfl⟩
      exact iff_of_true haligned trivial
  | update now =>
      rcases step_update hstep with ⟨readAt, info, estimate, hphase, hestimate, rfl⟩
      by_cases hleaders : ∃ leaders, info.maybeSlotLeaders = some (.ok leaders)
      · rcases hleaders with ⟨leaders, hleaders⟩
        rcases hcarries readAt info leaders hphase hleaders with ⟨n, rfl⟩
        rw [leaderTpuCache_afterUpdate, aligned_updateAll_iff hleaders]
        constructor
        · -- whatever the condition speaks of is what this step has read
          intro hsame readAt' info' leaders' estimate' hphase' hleaders' hestimate'
          cases hphase.symm.trans hphase'
          cases hestimate.symm.trans hestimate'
          cases hleaders.symm.trans hleaders'
          simpa using hsame
        · intro hstores
          simpa using hstores readAt info _ estimate hphase hleaders hestimate
      · -- without leaders the update moves neither the anchor nor the list
        have hnone : ∀ leaders, info.maybeSlotLeaders ≠ some (.ok leaders) :=
          fun leaders heq => hleaders ⟨leaders, heq⟩
        apply iff_of_true (aligned_updateAll_of_no_leaders hnone haligned)
        intro readAt' info' leaders' estimate' hphase' hleaders' _
        cases hphase.symm.trans hphase'
        exact absurd hleaders' (hnone leaders')

end Steps

/-! ## Runs from `LeaderTpuService::new` -/

theorem aligned_ofAnswers {fromStr : String → Option Pubkey} {sched : Nat → Pubkey} {rpc : RpcClient}
    {startSlot now : Nat} {protocol : Protocol} {s : LeaderTpuService}
    (hrpc : rpc.Follows sched)
    (hnew : LeaderTpuService.ofAnswers fromStr rpc startSlot protocol now = some s) :
    CarriesSchedule sched s ∧ Aligned sched s.leaderTpuCache := by
  simp only [LeaderTpuService.ofAnswers, hrpc startSlot, bind, Option.bind_eq_some_iff, pure,
    Option.some.injEq] at hnew
  rcases hnew with ⟨epochInfo, _, leaders, hleaders, nodes, _, rfl⟩
  constructor
  · intro readAt info leaders' hphase
    cases hphase
  · rw [aligned_iff]
    intro i k hget
    have hlist : leaders =
        (List.range' startSlot (LeaderTpuCache.fanout epochInfo.slotsInEpoch)).map sched := by
      simpa [Except.toOption, eq_comm] using hleaders
    subst hlist
    exact (getElem?_schedule hget).2

/-- Right after a fetch, with no notification in between, the update finds the same estimate. -/
theorem updatesAtReadEstimate_of_fetch (fromStr : String → Option Pubkey)
    {s t : LeaderTpuService} {now now' : Nat} {rpc : RpcClient}
    (hstep : step fromStr s (.fetch now rpc) = some t) :
    UpdatesAtReadEstimate t (.update now') := by
  rcases step_fetch hstep with ⟨estimate, last, _, hestimate, _, rfl⟩
  intro readAt info leaders estimate' hphase _ hestimate'
  have hsame : estimate = estimate' := ok_unique hestimate hestimate'
  simp only [afterFetch] at hphase
  split at hphase
  · cases hphase
    exact hsame.symm
  · cases hphase

/-- The cache is aligned in every state of a run exactly when every step that stores leaders stores
them at an estimate from which the schedule reads the same as from the estimate they were fetched
at; storing them at that very estimate is enough. -/
theorem schedule_alignment (fromStr : String → Option Pubkey) (sched : Nat → Pubkey)
    (rpc : RpcClient) (startSlot now : Nat) (protocol : Protocol) (s : LeaderTpuService)
    (evs : List ServiceEvent) (hrpc : rpc.Follows sched)
    (hnew : LeaderTpuService.ofAnswers fromStr rpc startSlot protocol now = some s)
    (hevs : ∀ ev ∈ evs, ev.Follows sched) :
    ((machine fromStr).Always (fun u => Aligned sched u.leaderTpuCache) s evs ↔
        (machine fromStr).Steps (StoresSameLeaders sched) s evs) ∧
      ((machine fromStr).Steps UpdatesAtReadEstimate s evs →
        (machine fromStr).Always (fun u => Aligned sched u.leaderTpuCache) s evs) := by
  rcases aligned_ofAnswers hrpc hnew with ⟨hcarries, haligned⟩
  have hiff : (machine fromStr).Always (fun u => Aligned sched u.leaderTpuCache) s evs ↔
      (machine fromStr).Steps (StoresSameLeaders sched) s evs := by
    -- the leaders in flight are the invariant; the alignment itself goes with the condition
    refine (machine fromStr).always_iff_steps (I := CarriesSchedule sched)
      (F := ServiceEvent.Follows sched) ?_ ?_ hcarries haligned hevs
    · intro u ev v hu hev hnext
      exact carriesSchedule_step hev hu hnext
    · intro u ev v hu _ hal hnext
      exact aligned_step_iff hu hal hnext
  refine ⟨hiff, ?_⟩
  intro hread
  exact hiff.2 (Machine.Steps.mono _ (storesSameLeaders_of_updatesAtReadEstimate sched) hread)

/-! ## A cluster in a warm-up epoch -/

/-- Leaders of four slots each. -/
def warmupSched (slot : Nat) : Pubkey := BitVec.ofNat 256 (slot / 4)

/-- A node of a cluster in a warm-up epoch of 32 slots. -/
def warmupRpc : RpcClient :=
  { getClusterNodes := .ok []
    getEpochInfo := .ok { slotsInEpoch := 32 }
    getSlotLeaders := fun start n => .ok ((List.range' start n).map warmupSched) }

/-- A quiet cycle keeps the cache aligned. -/
theorem schedule_alignment_quiet :
    ∃ s, LeaderTpuService.ofAnswers (fun _ => none) warmupRpc 1000 .QUIC 0 = some s ∧
      (machine fun _ => none).Always (fun u => Aligned warmupSched u.leaderTpuCache) s
        [.fetch 0 warmupRpc, .update 0] := by
  refine ⟨_, rfl, (schedule_alignment (fun _ => none) warmupSched warmupRpc 1000 0 .QUIC _
    [.fetch 0 warmupRpc, .update 0] (fun _ _ => rfl) rfl ?_).2 ?_⟩
  · intro ev hev
    rcases List.mem_cons.1 hev with rfl | hev
    · exact fun _ _ => rfl
    · have hupdate : ev = .update 0 := by simpa using hev
      subst hupdate
      trivial
  · intro t ht
    rw [machine_next] at ht
    refine ⟨trivial, ?_⟩
    intro u _
    exact ⟨updatesAtReadEstimate_of_fetch (fun _ => none) ht, trivial⟩

/-- Start at slot 1000, fetch, hear of slot 1004, update: slot 1004 is then served by the leader of
slot 1000. -/
theorem schedule_misaligned :
    ¬ ∀ evs : List ServiceEvent, (∀ ev ∈ evs, ev.Follows warmupSched) →
        ∀ s t, LeaderTpuService.ofAnswers (fun _ => none) warmupRpc 1000 .QUIC 0 = some s →
          (machine fun _ => none).run s evs = some t →
          ∀ slot k, t.leaderTpuCache.getSlotLeader slot = some k → k = warmupSched slot := by
  intro h
  have hfollows : ∀ ev ∈ [ServiceEvent.fetch 0 warmupRpc, .recordSlot 1004, .update 0],
      ev.Follows warmupSched := by
    intro ev hev
    rcases List.mem_cons.1 hev with rfl | hev
    · exact fun _ _ => rfl
    · rcases List.mem_cons.1 hev with rfl | hev
      · trivial
      · have hupdate : ev = .update 0 := by simpa using hev
        subst hupdate
        trivial
  -- the list fetched from slot 1000 is now stored from slot 1004 on
  have hbad := h _ hfollows _ _ rfl rfl 1004 (warmupSched 1000) (by decide)
  revert hbad
  decide

end Engine
end TpuSender
