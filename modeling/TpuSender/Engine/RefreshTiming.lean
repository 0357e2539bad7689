import TpuSender.Engine.FetchHistory
import Mathlib.Data.List.Chain

/-!
# RefreshTiming — how often the refresher asks, and how old the sockets get

The refresher sleeps 400 ms between two cycles, and 100 ms after a cycle with an error.  The
cluster's sockets are asked for only when the last refresh is more than five minutes old.

`TimedService` puts a clock next to the service: a fetch comes when the sleep is over, at the
earliest.  Times are nanoseconds.  From below this bounds the requests (`refresh_rate_bounded`).
If fetches and updates are at most `delay` late and the node answers, it bounds the age of the
sockets from above (`sockets_stay_fresh`).
-/

namespace TpuSender
namespace Engine

open Library

/-- Nanoseconds in a millisecond. -/
def MILLISECOND : Nat := 1000000

structure TimedService where
  service : LeaderTpuService
  clock : Nat
  /-- When the sleep of the refresher is over. -/
  wakeAt : Nat

/-- What an observer sees of a cycle, and when. -/
inductive CycleMark
  | fetched (now : Nat)
  | updated (now : Nat) (hasError clusterRefreshed : Bool)
  deriving DecidableEq

namespace CycleMark

def time : CycleMark → Nat
  | .fetched now => now
  | .updated now _ _ => now

def isFetch : CycleMark → Bool
  | .fetched _ => true
  | .updated _ _ _ => false

def hasError : CycleMark → Bool
  | .fetched _ => false
  | .updated _ hasError _ => hasError

/-- When the sockets were refreshed, if this is what happened. -/
def refreshTime : CycleMark → Option Nat
  | .updated now _ true => some now
  | _ => none

/-- The sleep that follows, if it is the last thing the cycle does. -/
def pause (mark : CycleMark) : Nat :=
  (if mark.hasError then 100 else 400) * MILLISECOND

theorem pause_add (mark : CycleMark) :
    mark.pause + 300 * MILLISECOND * (if mark.hasError then 1 else 0) = 400 * MILLISECOND := by
  rw [pause]
  cases mark.hasError <;> rfl

/-- What may follow on a mark: the update on its fetch, the next fetch on a sleep. -/
def Follows (before : CycleMark) : CycleMark → Prop
  | .fetched now => before.time + before.pause ≤ now
  | .updated now _ _ => before.isFetch = true ∧ before.time ≤ now

theorem Follows.time_le {before after : CycleMark} (h : before.Follows after) :
    before.time + (if after.isFetch then before.pause else 0) ≤ after.time := by
  cases after with
  | fetched now => exact h
  | updated now hasError refreshed => exact h.2

/-- A service starts with sockets that are new. -/
def started (now : Nat) : CycleMark := .updated now false true

end CycleMark

/-- Two refreshes of the sockets are more than five minutes apart. -/
def RefreshGap (before after : Nat) : Prop := before + CLUSTER_REFRESH_INTERVAL < after

namespace TimedService

/-! ## The service with a clock -/

/-- The refresher starts with a sleep.  Its start is the time of the first sockets too, though they
were fetched a little earlier. -/
def start (service : LeaderTpuService) (now : Nat) : TimedService :=
  { service := service
    clock := now
    wakeAt := now + service.sleepMs * MILLISECOND }

/-- The top of the loop. -/
def sleep (service : LeaderTpuService) (now : Nat) : TimedService := start service now

variable (fromStr : String → Option Pubkey)

def step (s : TimedService) : ServiceEvent → Option TimedService
  | .recordSlot currentSlot => some { s with service := s.service.recordSlot currentSlot }
  | .fetch now rpcClient =>
      if s.wakeAt ≤ now then do
        let service ← s.service.step fromStr (.fetch now rpcClient)
        match service.phase with
        | .sleeping => pure (sleep service now)
        | .fetched _ _ => pure { s with service := service, clock := now }
      else
        none
  | .update now =>
      if s.clock ≤ now then do
        let service ← s.service.step fromStr (.update now)
        pure (sleep service now)
      else
        none

def machine : Machine TimedService ServiceEvent := { next := step fromStr }

/-- The marks of a step; an update's are what `update_all` returns. -/
def marks (s : TimedService) : ServiceEvent → List CycleMark
  | .recordSlot _ => []
  | .fetch now _ => [.fetched now]
  | .update now =>
      match s.service.phase, s.service.recentSlots.estimatedCurrentSlot with
      | .fetched _ info, .ok estimate =>
          let (_, hasError, clusterRefreshed) :=
            s.service.leaderTpuCache.updateAll fromStr estimate info
          [.updated now hasError clusterRefreshed]
      | _, _ => []

/-! ## What a step can do -/

section Steps

variable {fromStr} {s t : TimedService}

theorem step_recordSlot {v : Nat} (h : step fromStr s (.recordSlot v) = some t) :
    t = { s with service := s.service.recordSlot v } := by
  simpa [step, eq_comm] using h

/-- A fetch ends the sleep; it starts the next one at once if nothing was asked for. -/
theorem step_fetch {now : Nat} {rpc : RpcClient}
    (h : step fromStr s (.fetch now rpc) = some t) :
    s.wakeAt ≤ now ∧ s.service.phase = .sleeping ∧ t.clock = now ∧
      t.service.lastClusterRefresh = s.service.lastClusterRefresh ∧
      ((t.service.phase = .sleeping ∧ t.wakeAt = now + DEFAULT_MS_PER_SLOT * MILLISECOND ∧
          now - s.service.lastClusterRefresh ≤ CLUSTER_REFRESH_INTERVAL) ∨
        ∃ readAt info, t.service.phase = .fetched readAt info ∧
          t.service.sleepMs = DEFAULT_MS_PER_SLOT ∧
          info.maybeClusterNodes =
            if now - s.service.lastClusterRefresh > CLUSTER_REFRESH_INTERVAL then
              some rpc.getClusterNodes
            else
              none) := by
  by_cases hwake : s.wakeAt ≤ now
  · simp only [step, if_pos hwake, bind, Option.bind_eq_some_iff] at h
    rcases h with ⟨service, hstep, h⟩
    rcases LeaderTpuService.step_fetch hstep with
      ⟨estimate, last, hsleeping, hestimate, hlast, rfl⟩
    cases hask : (requestsAt s.service.leaderTpuCache (now - s.service.lastClusterRefresh) rpc
        estimate last).hasSome with
    | true =>
        simp only [LeaderTpuService.afterFetch, hask, if_true, pure, Option.some.injEq] at h
        subst h
        exact ⟨hwake, hsleeping, rfl, rfl, .inr ⟨_, _, rfl, rfl, rfl⟩⟩
    | false =>
        simp only [LeaderTpuService.afterFetch, hask, Bool.false_eq_true, if_false, pure,
          Option.some.injEq] at h
        subst h
        refine ⟨hwake, hsleeping, rfl, rfl, .inl ⟨rfl, rfl, ?_⟩⟩
        -- nothing was asked for, the sockets neither
        by_contra hold
        have hasks : (requestsAt s.service.leaderTpuCache (now - s.service.lastClusterRefresh) rpc
            estimate last).maybeClusterNodes.isSome :=
          asksClusterNodes_iff.2 (Nat.lt_of_not_le hold)
        simp [LeaderTpuCacheUpdateInfo.hasSome, hasks] at hask
  · simp [step, hwake] at h

theorem step_update {now : Nat} (h : step fromStr s (.update now) = some t) :
    s.clock ≤ now ∧
      ∃ readAt info estimate,
        s.service.phase = .fetched readAt info ∧
          s.service.recentSlots.estimatedCurrentSlot = .ok estimate ∧
          t = sleep (s.service.afterUpdate fromStr now estimate info) now := by
  by_cases hclock : s.clock ≤ now
  · simp only [step, if_pos hclock, bind, Option.bind_eq_some_iff] at h
    rcases h with ⟨service, hstep, h⟩
    rcases LeaderTpuService.step_update hstep with
      ⟨readAt, info, estimate, hphase, hestimate, rfl⟩
    cases h
    exact ⟨hclock, readAt, info, estimate, hphase, hestimate, rfl⟩
  · simp [step, hclock] at h

/-- Without its times, a step is a step of the service. -/
theorem step_service {ev : ServiceEvent} (h : step fromStr s ev = some t) :
    s.service.step fromStr ev = some t.service := by
  cases ev with
  | recordSlot v =>
      rw [step_recordSlot h]
      rfl
  | fetch now rpc =>
      by_cases hwake : s.wakeAt ≤ now
      · simp only [step, if_pos hwake, bind, Option.bind_eq_some_iff] at h
        rcases h with ⟨service, hservice, h⟩
        split at h
        all_goals
          cases h
          exact hservice
      · simp [step, hwake] at h
  | update now =>
      by_cases hclock : s.clock ≤ now
      · simp only [step, if_pos hclock, bind, Option.bind_eq_some_iff] at h
        rcases h with ⟨service, hservice, h⟩
        cases h
        exact hservice
      · simp [step, hclock] at h

/-- What an update leaves behind goes by its two flags. -/
theorem afterUpdate_flags (fromStr : String → Option Pubkey) (service : LeaderTpuService)
    (now estimate : Nat) (info : LeaderTpuCacheUpdateInfo) :
    (service.afterUpdate fromStr now estimate info).sleepMs =
        (if (service.leaderTpuCache.updateAll fromStr estimate info).2.1 then 100
          else service.sleepMs) ∧
      (service.afterUpdate fromStr now estimate info).lastClusterRefresh =
        if (service.leaderTpuCache.updateAll fromStr estimate info).2.2 then now
          else service.lastClusterRefresh :=
  ⟨rfl, rfl⟩

theorem leaderTpuCache_of_fetch {now : Nat} {rpc : RpcClient}
    (h : step fromStr s (.fetch now rpc) = some t) :
    t.service.leaderTpuCache = s.service.leaderTpuCache := by
  by_cases hwake : s.wakeAt ≤ now
  · simp only [step, if_pos hwake, bind, Option.bind_eq_some_iff] at h
    rcases h with ⟨service, hstep, h⟩
    rcases LeaderTpuService.step_fetch hstep with ⟨_, _, _, _, _, rfl⟩
    split at h
    all_goals
      cases h
      rfl
  · simp [step, hwake] at h

end Steps

/-! ## The rate of the requests -/

section Totals

variable {mark : CycleMark} {seen : List CycleMark} {before : Nat} {times : List Nat} {clock : Nat}

/-- The sleeps before the fetches add up; an error pays 300 ms back. -/
theorem fetches_le (hcycles : (mark :: seen).IsChain CycleMark.Follows)
    (htimes : ∀ m ∈ mark :: seen, m.time ≤ clock) :
    mark.time + 400 * MILLISECOND * seen.countP CycleMark.isFetch ≤
      clock + 300 * MILLISECOND * (mark :: seen).countP CycleMark.hasError := by
  induction seen generalizing mark with
  | nil =>
      have hmark := htimes mark List.mem_cons_self
      exact hmark.trans (Nat.le_add_right _ _)
  | cons next seen ih =>
      rcases List.isChain_cons_cons.1 hcycles with ⟨hnext, hrest⟩
      have hlater := ih hrest (fun m hm => htimes m (List.mem_cons_of_mem mark hm))
      have hslept := hnext.time_le
      -- the sleep after `mark` is 300 ms shorter if `mark` is an error
      have hshorter := mark.pause_add
      have herrors : (mark :: next :: seen).countP CycleMark.hasError =
          (next :: seen).countP CycleMark.hasError + (if mark.hasError then 1 else 0) :=
        List.countP_cons
      rw [herrors, List.countP_cons, Nat.mul_add, Nat.mul_add]
      by_cases hfetch : next.isFetch = true
      · rw [if_pos hfetch] at hslept ⊢
        omega
      · rw [if_neg hfetch] at hslept ⊢
        omega

theorem fetches_le_of_pauses (hcycles : (mark :: seen).IsChain CycleMark.Follows)
    (htimes : ∀ m ∈ mark :: seen, m.time ≤ clock) :
    mark.time + 100 * MILLISECOND * seen.countP CycleMark.isFetch ≤ clock := by
  induction seen generalizing mark with
  | nil => exact htimes mark List.mem_cons_self
  | cons next seen ih =>
      rcases List.isChain_cons_cons.1 hcycles with ⟨hnext, hrest⟩
      have hlater := ih hrest (fun m hm => htimes m (List.mem_cons_of_mem mark hm))
      have hslept := hnext.time_le
      have hshortest : 100 * MILLISECOND ≤ mark.pause := by
        rw [CycleMark.pause]
        split <;> decide
      rw [List.countP_cons, Nat.mul_add]
      by_cases hfetch : next.isFetch = true
      · rw [if_pos hfetch] at hslept ⊢
        omega
      · rw [if_neg hfetch] at hslept ⊢
        omega

/-- Refreshes that are far apart are few. -/
theorem refreshes_le (hgaps : (before :: times).Pairwise RefreshGap)
    (htimes : ∀ now ∈ before :: times, now ≤ clock) :
    before + (CLUSTER_REFRESH_INTERVAL + 1) * times.length ≤ clock := by
  induction times generalizing before with
  | nil => exact htimes before List.mem_cons_self
  | cons next times ih =>
      rcases List.pairwise_cons.1 hgaps with ⟨hbefore, hrest⟩
      have hgap : before + CLUSTER_REFRESH_INTERVAL < next := hbefore next List.mem_cons_self
      have hlater := ih hrest (fun now hnow => htimes now (List.mem_cons_of_mem before hnow))
      rw [List.length_cons, Nat.mul_add_one]
      omega

end Totals

section Rate

variable {fromStr : String → Option Pubkey} {s t : TimedService} {past : List CycleMark}

/-- A sleep separates two cycles and five minutes separate two refreshes, and the refresher is where
the last mark says. -/
structure Paced (past : List CycleMark) (s : TimedService) : Prop where
  cycles : past.IsChain CycleMark.Follows
  refreshes : (past.filterMap CycleMark.refreshTime).Pairwise RefreshGap
  times : ∀ mark ∈ past, mark.time ≤ s.clock
  refreshed : ∀ now ∈ past.filterMap CycleMark.refreshTime, now ≤ s.service.lastClusterRefresh
  clock : s.service.lastClusterRefresh ≤ s.clock
  sleeping : s.service.phase = .sleeping →
    s.clock ≤ s.wakeAt ∧ ∀ mark ∈ past.getLast?, mark.time + mark.pause ≤ s.wakeAt
  fetched : ∀ readAt info, s.service.phase = .fetched readAt info →
    past.getLast? = some (.fetched s.clock) ∧ s.service.sleepMs = DEFAULT_MS_PER_SLOT ∧
      (info.maybeClusterNodes.isSome →
        s.service.lastClusterRefresh + CLUSTER_REFRESH_INTERVAL < s.clock)

theorem paced_start {service : LeaderTpuService} {now : Nat} (hphase : service.phase = .sleeping)
    (hsleep : service.sleepMs = DEFAULT_MS_PER_SLOT) (hlast : service.lastClusterRefresh = now) :
    Paced [CycleMark.started now] (start service now) := by
  refine
    { cycles := List.isChain_singleton _
      refreshes := List.pairwise_singleton _ _
      times := ?_
      refreshed := ?_
      clock := hlast.le
      sleeping := ?_
      fetched := ?_ }
  · intro mark hmark
    rw [List.mem_singleton.1 hmark]
    exact le_rfl
  · intro earlier hearlier
    rw [List.mem_singleton.1 hearlier]
    exact hlast.ge
  · intro _
    refine ⟨Nat.le_add_right _ _, ?_⟩
    intro mark hmark
    cases hmark
    rw [start, hsleep]
    exact le_rfl
  · intro readAt info hfetched
    rw [start, hphase] at hfetched
    cases hfetched

/-- A mark that follows on the last one prolongs the chain. -/
theorem follows_append {mark : CycleMark} (hpast : past.IsChain CycleMark.Follows)
    (hmark : ∀ before ∈ past.getLast?, before.Follows mark) :
    (past ++ [mark]).IsChain CycleMark.Follows := by
  apply hpast.append (List.isChain_singleton mark)
  intro before hbefore after hafter
  cases hafter
  exact hmark before hbefore

theorem times_append {mark : CycleMark} {clock clock' : Nat}
    (hpast : ∀ m ∈ past, m.time ≤ clock) (hclock : clock ≤ clock') (hmark : mark.time ≤ clock') :
    ∀ m ∈ past ++ [mark], m.time ≤ clock' := by
  intro m hm
  rcases List.mem_append.1 hm with hm | hm
  · exact (hpast m hm).trans hclock
  · rw [List.mem_singleton.1 hm]
    exact hmark

theorem refreshes_append {times : List Nat} {now : Nat} (hpast : times.Pairwise RefreshGap)
    (hlong : ∀ before ∈ times, RefreshGap before now) :
    (times ++ [now]).Pairwise RefreshGap := by
  refine List.pairwise_append.2 ⟨hpast, List.pairwise_singleton _ _, ?_⟩
  intro before hbefore after hafter
  rw [List.mem_singleton.1 hafter]
  exact hlong before hbefore

theorem marks_update {readAt estimate : Nat} {info : LeaderTpuCacheUpdateInfo}
    (hphase : s.service.phase = .fetched readAt info)
    (hestimate : s.service.recentSlots.estimatedCurrentSlot = .ok estimate) (now : Nat) :
    marks fromStr s (.update now) =
      [.updated now (s.service.leaderTpuCache.updateAll fromStr estimate info).2.1
        (s.service.leaderTpuCache.updateAll fromStr estimate info).2.2] := by
  simp only [marks, hphase, hestimate]

theorem Paced.fetch (h : Paced past s) {now : Nat} {rpc : RpcClient}
    (hstep : step fromStr s (.fetch now rpc) = some t) : Paced (past ++ [.fetched now]) t := by
  rcases step_fetch hstep with ⟨hwake, hsleeping, hclock, hlast, hnext⟩
  rcases h.sleeping hsleeping with ⟨hclock_le, hpause⟩
  have hrefreshes : (past ++ [CycleMark.fetched now]).filterMap CycleMark.refreshTime =
      past.filterMap CycleMark.refreshTime := by
    simp [CycleMark.refreshTime]
  refine
    { cycles := follows_append h.cycles fun mark hmark => (hpause mark hmark).trans hwake
      refreshes := ?_
      times := ?_
      refreshed := ?_
      clock := ?_
      sleeping := ?_
      fetched := ?_ }
  · rw [hrefreshes]
    exact h.refreshes
  · rw [hclock]
    exact times_append h.times (hclock_le.trans hwake) le_rfl
  · rw [hrefreshes, hlast]
    exact h.refreshed
  · rw [hclock, hlast]
    exact h.clock.trans (hclock_le.trans hwake)
  · intro hphase
    rcases hnext with ⟨_, hsleep, _⟩ | ⟨_, _, hfetched, _⟩
    · rw [hclock, hsleep]
      refine ⟨Nat.le_add_right _ _, ?_⟩
      intro mark hmark
      rw [List.getLast?_concat] at hmark
      cases hmark
      exact le_rfl
    · rw [hphase] at hfetched
      cases hfetched
  · intro readAt info hphase
    rcases hnext with ⟨hslept, _⟩ | ⟨_, _, hfetched, hsleepMs, hasked⟩
    · rw [hphase] at hslept
      cases hslept
    · rw [hphase] at hfetched
      cases hfetched
      rw [hclock, hlast]
      refine ⟨List.getLast?_concat, hsleepMs, ?_⟩
      intro hsome
      -- asked for only when the last refresh is long past
      rw [hasked] at hsome
      by_cases hold : now - s.service.lastClusterRefresh > CLUSTER_REFRESH_INTERVAL
      · omega
      · simp [hold] at hsome

theorem Paced.update (h : Paced past s) {now : Nat}
    (hstep : step fromStr s (.update now) = some t) :
    Paced (past ++ marks fromStr s (.update now)) t := by
  rcases step_update hstep with ⟨hclock, readAt, info, estimate, hphase, hestimate, rfl⟩
  rcases h.fetched readAt info hphase with ⟨hfetched, hsleepMs, hasked⟩
  rcases afterUpdate_flags fromStr s.service now estimate info with ⟨hsleep, hlast⟩
  have hrefresh : (s.service.leaderTpuCache.updateAll fromStr estimate info).2.2 = true →
      s.service.lastClusterRefresh + CLUSTER_REFRESH_INTERVAL < s.clock := by
    intro hrefreshed
    apply hasked
    rw [LeaderTpuCache.updateAll_clusterRefreshed] at hrefreshed
    cases hnodes : info.maybeClusterNodes with
    | none => simp [hnodes] at hrefreshed
    | some nodes => rfl
  rw [marks_update hphase hestimate now]
  -- from here on only the two flags of the update count
  generalize (s.service.leaderTpuCache.updateAll fromStr estimate info).2.1 = hasError at hsleep ⊢
  generalize (s.service.leaderTpuCache.updateAll fromStr estimate info).2.2 = refreshed
    at hlast hrefresh ⊢
  have hrefreshes :
      (past ++ [CycleMark.updated now hasError refreshed]).filterMap CycleMark.refreshTime =
        past.filterMap CycleMark.refreshTime ++ (if refreshed then [now] else []) := by
    cases refreshed <;> simp [CycleMark.refreshTime]
  refine
    { cycles := ?_
      refreshes := ?_
      times := times_append h.times hclock le_rfl
      refreshed := ?_
      clock := ?_
      sleeping := ?_
      fetched := ?_ }
  · apply follows_append h.cycles
    -- the last mark is the fetch of this cycle
    intro mark hmark
    rw [hfetched] at hmark
    cases hmark
    exact ⟨rfl, hclock⟩
  · rw [hrefreshes]
    cases refreshed with
    | false => simpa using h.refreshes
    | true =>
        -- all refreshes so far are as old as the last one, which is why the sockets were asked for
        apply refreshes_append h.refreshes
        intro before hbefore
        have hold := h.refreshed before hbefore
        have hlong := hrefresh rfl
        rw [RefreshGap]
        omega
  · rw [hrefreshes]
    change ∀ earlier ∈ _,
      earlier ≤ (s.service.afterUpdate fromStr now estimate info).lastClusterRefresh
    rw [hlast]
    intro earlier hearlier
    cases refreshed with
    | false => exact h.refreshed earlier (by simpa using hearlier)
    | true =>
        rcases List.mem_append.1 hearlier with hpast | hnow
        · exact (h.refreshed earlier hpast).trans (h.clock.trans hclock)
        · exact (List.mem_singleton.1 hnow).le
  · change (s.service.afterUpdate fromStr now estimate info).lastClusterRefresh ≤ now
    rw [hlast]
    split
    · exact le_rfl
    · exact h.clock.trans hclock
  · intro _
    refine ⟨Nat.le_add_right _ _, ?_⟩
    intro mark hmark
    rw [List.getLast?_concat] at hmark
    cases hmark
    have hwake : (sleep (s.service.afterUpdate fromStr now estimate info) now).wakeAt =
        now + (if hasError then 100 else 400) * MILLISECOND := by
      rw [sleep, start, hsleep, hsleepMs, DEFAULT_MS_PER_SLOT]
    exact hwake.ge
  · intro readAt info hphase
    cases hphase

theorem Paced.step (h : Paced past s) {ev : ServiceEvent}
    (hstep : step fromStr s ev = some t) : Paced (past ++ marks fromStr s ev) t := by
  cases ev with
  | recordSlot v =>
      rw [step_recordSlot hstep, marks, List.append_nil]
      exact
        { cycles := h.cycles
          refreshes := h.refreshes
          times := h.times
          refreshed := h.refreshed
          clock := h.clock
          sleeping := h.sleeping
          fetched := h.fetched }
  | fetch now rpc => exact h.fetch hstep
  | update now => exact h.update hstep

/-- The refresher of a new service is asleep, and its sockets are new. -/
theorem fields_ofAnswers {rpc : RpcClient} {startSlot now : Nat} {protocol : Protocol}
    {service : LeaderTpuService}
    (hnew : LeaderTpuService.ofAnswers fromStr rpc startSlot protocol now = some service) :
    service.phase = .sleeping ∧ service.sleepMs = DEFAULT_MS_PER_SLOT ∧
      service.lastClusterRefresh = now := by
  simp only [LeaderTpuService.ofAnswers, bind, Option.bind_eq_some_iff, pure,
    Option.some.injEq] at hnew
  rcases hnew with ⟨epochInfo, _, leaders, _, clusterNodes, _, rfl⟩
  exact ⟨rfl, rfl, rfl⟩

end Rate

/-- However the node answers: a cycle begins at least 400 ms after the one before it, or 100 ms
after one with an error, and between any two refreshes of the sockets lie more than five minutes.
So there are few of either. -/
theorem refresh_rate_bounded {fromStr : String → Option Pubkey} {rpc : RpcClient}
    {startSlot now : Nat} {protocol : Protocol} {service : LeaderTpuService}
    (hnew : LeaderTpuService.ofAnswers fromStr rpc startSlot protocol now = some service)
    {evs : List ServiceEvent} {t : TimedService}
    (hrun : (machine fromStr).run (start service now) evs = some t) :
    ∃ seen, seen = (machine fromStr).history (marks fromStr) (start service now) evs ∧
      (CycleMark.started now :: seen).IsChain CycleMark.Follows ∧
      (now :: seen.filterMap CycleMark.refreshTime).Pairwise RefreshGap ∧
      (∀ mark ∈ seen, mark.time ≤ t.clock) ∧
      now + 400 * MILLISECOND * seen.countP CycleMark.isFetch ≤
        t.clock + 300 * MILLISECOND * seen.countP CycleMark.hasError ∧
      now + 100 * MILLISECOND * seen.countP CycleMark.isFetch ≤ t.clock ∧
      now + (CLUSTER_REFRESH_INTERVAL + 1) * (seen.filterMap CycleMark.refreshTime).length ≤
        t.clock := by
  rcases fields_ofAnswers hnew with ⟨hphase, hsleep, hlast⟩
  have hpaced : Paced ([CycleMark.started now] ++
      (machine fromStr).history (marks fromStr) (start service now) evs) t :=
    (machine fromStr).run_history_invariant (fun _ _ _ _ hs _ hnext => hs.step hnext)
      (paced_start hphase hsleep hlast) (Machine.Steps.of_labels _ fun _ _ => trivial) hrun
  have herrors := fetches_le hpaced.cycles hpaced.times
  have hrefreshes := refreshes_le hpaced.refreshes
    (fun earlier hearlier => (hpaced.refreshed earlier hearlier).trans hpaced.clock)
  rw [List.countP_cons_of_neg Bool.false_ne_true] at herrors
  exact ⟨_, rfl, hpaced.cycles, hpaced.refreshes,
    fun mark hmark => hpaced.times mark (List.mem_cons_of_mem _ hmark), herrors,
    fetches_le_of_pauses hpaced.cycles hpaced.times, hrefreshes⟩

/-- The node fails when the sockets are due, and answers 100 ms later. -/
def retriedRefresh : List ServiceEvent :=
  [.fetch (301000 * MILLISECOND) failingRpc, .update (301010 * MILLISECOND),
    .fetch (301110 * MILLISECOND) warmupRpc, .update (301120 * MILLISECOND)]

theorem refresh_rate_bounded_retried :
    ∃ service t seen,
      LeaderTpuService.ofAnswers (fun _ => none) warmupRpc 1000 .QUIC 0 = some service ∧
        (machine fun _ => none).run (start service 0) retriedRefresh = some t ∧
        seen = [.fetched (301000 * MILLISECOND), .updated (301010 * MILLISECOND) true false,
          .fetched (301110 * MILLISECOND), .updated (301120 * MILLISECOND) false true] ∧
        (CycleMark.started 0 :: seen).IsChain CycleMark.Follows ∧
        (0 :: seen.filterMap CycleMark.refreshTime).Pairwise RefreshGap ∧
        0 + 400 * MILLISECOND * seen.countP CycleMark.isFetch ≤
          t.clock + 300 * MILLISECOND * seen.countP CycleMark.hasError := by
  have hnew : (LeaderTpuService.ofAnswers (fun _ => none) warmupRpc 1000 .QUIC 0).isSome := rfl
  rcases Option.isSome_iff_exists.1 hnew with ⟨service, hnew⟩
  have hrun : ((machine fun _ => none).run (start service 0) retriedRefresh).isSome := by
    cases hnew
    rfl
  rcases Option.isSome_iff_exists.1 hrun with ⟨t, hrun⟩
  rcases refresh_rate_bounded hnew hrun with ⟨seen, hseen, hcycles, hrefreshes, _, htotal, _⟩
  refine ⟨service, t, seen, hnew, hrun, ?_, hcycles, hrefreshes, htotal⟩
  cases hnew
  exact hseen

/-! ## The age of the sockets -/

/-- Nobody is more than `delay` late, and the node knows the cluster. -/
def Timely (delay : Nat) (s : TimedService) : ServiceEvent → Prop
  | .recordSlot _ => True
  | .fetch now rpcClient =>
      now ≤ s.wakeAt + delay ∧ ∃ nodes, rpcClient.getClusterNodes = .ok nodes
  | .update now => now ≤ s.clock + delay

/-- The oldest that sockets can be at the end of a sleep. -/
def maxAge (delay : Nat) : Nat :=
  CLUSTER_REFRESH_INTERVAL + DEFAULT_MS_PER_SLOT * MILLISECOND + delay

/-- When sockets were stored, and which. -/
def refreshes (fromStr : String → Option Pubkey) (s : TimedService) (ev : ServiceEvent) :
    List (Nat × (Pubkey → Option SocketAddr)) :=
  match ev with
  | .update now =>
      (storedAnswers s.service ev).filterMap fun answers =>
        (answers.clusterSockets fromStr s.service.leaderTpuCache.protocol).map fun map => (now, map)
  | _ => []

section Age

variable {fromStr : String → Option Pubkey} {s t : TimedService} {delay : Nat}

/-- Either the sockets are young, or new ones are on their way. -/
structure Fresh (delay : Nat) (s : TimedService) : Prop where
  sleeping : s.service.phase = .sleeping →
    s.clock ≤ s.wakeAt ∧ s.wakeAt ≤ s.service.lastClusterRefresh + maxAge delay
  fetched : ∀ readAt info, s.service.phase = .fetched readAt info →
    s.service.sleepMs = DEFAULT_MS_PER_SLOT ∧
      s.clock ≤ s.service.lastClusterRefresh + maxAge delay + delay ∧
      (s.clock ≤ s.service.lastClusterRefresh + CLUSTER_REFRESH_INTERVAL ∨
        ∃ nodes, info.maybeClusterNodes = some (.ok nodes))

theorem fresh_start {service : LeaderTpuService} {now : Nat} (hphase : service.phase = .sleeping)
    (hsleep : service.sleepMs = DEFAULT_MS_PER_SLOT) (hlast : service.lastClusterRefresh = now) :
    Fresh delay (start service now) := by
  refine
    { sleeping := ?_
      fetched := ?_ }
  · intro _
    simp only [start, hsleep, hlast, maxAge]
    omega
  · intro readAt info hfetched
    rw [start, hphase] at hfetched
    cases hfetched

theorem Fresh.step (h : Fresh delay s) {ev : ServiceEvent} (htimely : Timely delay s ev)
    (hstep : step fromStr s ev = some t) : Fresh delay t := by
  cases ev with
  | recordSlot v =>
      rw [step_recordSlot hstep]
      exact ⟨h.sleeping, h.fetched⟩
  | fetch now rpc =>
      rcases htimely with ⟨hlate, nodes, hnodes⟩
      rcases step_fetch hstep with ⟨hwake, hsleeping, hclock, hlast, hnext⟩
      rcases h.sleeping hsleeping with ⟨hbefore, hage⟩
      refine
        { sleeping := ?_
          fetched := ?_ }
      · intro hphase
        rcases hnext with ⟨_, hsleep, hyoung⟩ | ⟨_, _, hfetched, _⟩
        · rw [hclock, hlast, hsleep, maxAge]
          omega
        · rw [hphase] at hfetched
          cases hfetched
      · intro readAt info hphase
        rcases hnext with ⟨hslept, _⟩ | ⟨_, _, hfetched, hsleepMs, hasked⟩
        · rw [hphase] at hslept
          cases hslept
        · rw [hphase] at hfetched
          cases hfetched
          rw [hclock, hlast]
          refine ⟨hsleepMs, by omega, ?_⟩
          by_cases hold : now - s.service.lastClusterRefresh > CLUSTER_REFRESH_INTERVAL
          · rw [if_pos hold, hnodes] at hasked
            exact .inr ⟨nodes, hasked⟩
          · exact .inl (by omega)
  | update now =>
      rcases step_update hstep with ⟨hclock, readAt, info, estimate, hphase, _, rfl⟩
      rcases h.fetched readAt info hphase with ⟨hsleepMs, _, hyoung⟩
      rcases afterUpdate_flags fromStr s.service now estimate info with
        ⟨hsleep, hlast⟩
      have hnap : (s.service.afterUpdate fromStr now estimate info).sleepMs ≤
          DEFAULT_MS_PER_SLOT := by
        rw [hsleep, hsleepMs]
        split <;> decide
      have hwake := Nat.mul_le_mul_right MILLISECOND hnap
      have hlate : now ≤ s.clock + delay := htimely
      refine
        { sleeping := ?_
          fetched := nofun }
      intro _
      refine ⟨Nat.le_add_right _ _, ?_⟩
      change now + _ * MILLISECOND ≤
        (s.service.afterUpdate fromStr now estimate info).lastClusterRefresh + maxAge delay
      rw [hlast, maxAge]
      by_cases hrefreshed :
          (s.service.leaderTpuCache.updateAll fromStr estimate info).2.2 = true
      · rw [if_pos hrefreshed]
        omega
      · -- without a refresh the sockets were young when the cycle began
        rw [if_neg hrefreshed]
        rcases hyoung with hyoung | ⟨nodes, hnodes⟩
        · omega
        · rw [LeaderTpuCache.updateAll_clusterRefreshed, hnodes] at hrefreshed
          exact absurd rfl hrefreshed

theorem Fresh.clock_le (h : Fresh delay s) :
    s.clock ≤ s.service.lastClusterRefresh + maxAge delay + delay := by
  cases hphase : s.service.phase with
  | sleeping =>
      rcases h.sleeping hphase with ⟨hbefore, hage⟩
      exact (hbefore.trans hage).trans (Nat.le_add_right _ _)
  | fetched readAt info => exact (h.fetched readAt info hphase).2.1

theorem Fresh.next_clock_le (h : Fresh delay s) {ev : ServiceEvent} (htimely : Timely delay s ev)
    (hstep : (machine fromStr).next s ev = some t) :
    t.clock ≤ s.service.lastClusterRefresh + maxAge delay + 2 * delay := by
  have hclock := h.clock_le
  cases ev with
  | recordSlot v =>
      rw [@step_recordSlot fromStr s t v hstep]
      exact hclock.trans (by omega)
  | fetch now rpc =>
      rcases step_fetch hstep with ⟨_, hsleeping, hnow, _⟩
      have hlate : now ≤ s.wakeAt + delay := htimely.1
      have hage := (h.sleeping hsleeping).2
      omega
  | update now =>
      rcases step_update hstep with ⟨_, _, _, _, _, _, rfl⟩
      have hlate : now ≤ s.clock + delay := htimely
      change now ≤ _
      omega

/-- Sockets and the time of their refresh change together. -/
theorem refreshes_step {ev : ServiceEvent} (hstep : step fromStr s ev = some t) :
    (t.service.lastClusterRefresh, t.service.leaderTpuCache.leaderTpuMap) =
      (lastOf some (refreshes fromStr s ev)).getD
        (s.service.lastClusterRefresh, s.service.leaderTpuCache.leaderTpuMap) := by
  cases ev with
  | recordSlot v =>
      rw [step_recordSlot hstep]
      rfl
  | fetch now rpc =>
      rw [(step_fetch hstep).2.2.2.1, leaderTpuCache_of_fetch hstep]
      rfl
  | update now =>
      rcases step_update hstep with ⟨_, readAt, info, estimate, hphase, hestimate, rfl⟩
      rcases afterUpdate_flags fromStr s.service now estimate info with ⟨_, hlast⟩
      have hstored : storedAnswers s.service (.update now) =
          [{ estimate := estimate
             info := info }] := by
        simp only [storedAnswers, hphase, hestimate]
      change ((s.service.afterUpdate fromStr now estimate info).lastClusterRefresh,
        (s.service.afterUpdate fromStr now estimate info).leaderTpuCache.leaderTpuMap) = _
      rw [hlast, LeaderTpuService.leaderTpuCache_afterUpdate,
        LeaderTpuCache.updateAll_clusterRefreshed, LeaderTpuCache.updateAll_leaderTpuMap,
        refreshes, hstored, lastOf_filterMap, lastOf_singleton, CycleAnswers.clusterSockets]
      rcases info.maybeClusterNodes with _ | _ | nodes <;> rfl

end Age

/-- While nobody is late and the node knows the cluster, the sockets in use are never older than
five minutes, one sleep and three delays; and their age is counted from when they were stored. -/
theorem sockets_stay_fresh {fromStr : String → Option Pubkey} {rpc : RpcClient}
    {startSlot now delay : Nat} {protocol : Protocol} {service : LeaderTpuService}
    (hnew : LeaderTpuService.ofAnswers fromStr rpc startSlot protocol now = some service)
    {evs : List ServiceEvent} {t : TimedService}
    (htimely : (machine fromStr).Steps (Timely delay) (start service now) evs)
    (hrun : (machine fromStr).run (start service now) evs = some t) :
    (t.service.lastClusterRefresh, t.service.leaderTpuCache.leaderTpuMap) =
        (lastOf some ((machine fromStr).history (refreshes fromStr) (start service now) evs)).getD
          (now, service.leaderTpuCache.leaderTpuMap) ∧
      t.clock ≤ t.service.lastClusterRefresh + maxAge delay + delay ∧
      ∀ ev u, Timely delay t ev → (machine fromStr).next t ev = some u →
        u.clock ≤ t.service.lastClusterRefresh + maxAge delay + 2 * delay := by
  rcases fields_ofAnswers hnew with ⟨hphase, hsleep, hlast⟩
  have hfresh : Fresh delay t := (machine fromStr).run_invariant_of_steps
    (fun _ _ _ hs hev hnext => hs.step hev hnext) (fresh_start hphase hsleep hlast) htimely hrun
  have hsockets := (machine fromStr).run_lastOf (I := fun _ => True)
    (fun u => (u.service.lastClusterRefresh, u.service.leaderTpuCache.leaderTpuMap))
    (fun _ _ _ _ _ => trivial) (fun _ _ _ _ hnext => refreshes_step hnext) trivial hrun
  rw [show (start service now).service.lastClusterRefresh = now from hlast] at hsockets
  exact ⟨hsockets, hfresh.clock_le, fun _ _ hev hnext => hfresh.next_clock_le hev hnext⟩

/-- A run of one cycle that comes 5 ms late. -/
def lateCycle : List ServiceEvent :=
  [.fetch (405 * MILLISECOND) warmupRpc, .update (410 * MILLISECOND)]

theorem sockets_stay_fresh_late :
    ∃ service t,
      LeaderTpuService.ofAnswers (fun _ => none) warmupRpc 1000 .QUIC 0 = some service ∧
        (machine fun _ => none).run (start service 0) lateCycle = some t ∧
        t.clock ≤ t.service.lastClusterRefresh + maxAge (5 * MILLISECOND) + 5 * MILLISECOND := by
  have hnew : (LeaderTpuService.ofAnswers (fun _ => none) warmupRpc 1000 .QUIC 0).isSome := rfl
  rcases Option.isSome_iff_exists.1 hnew with ⟨service, hnew⟩
  have hrun : ((machine fun _ => none).run (start service 0) lateCycle).isSome := by
    cases hnew
    rfl
  rcases Option.isSome_iff_exists.1 hrun with ⟨t, hrun⟩
  have htimely : (machine fun _ => none).Steps (Timely (5 * MILLISECOND)) (start service 0)
      lateCycle := by
    intro u hu
    cases hnew
    cases hu
    refine ⟨⟨by decide, [], rfl⟩, ?_⟩
    intro v _
    exact ⟨(by decide : 410 * MILLISECOND ≤ 405 * MILLISECOND + 5 * MILLISECOND), trivial⟩
  exact ⟨service, t, hnew, hrun, (sockets_stay_fresh hnew htimely hrun).2.1⟩

end TimedService
end Engine
end TpuSender
