import TpuSender.Engine.FanoutCoverage
import TpuSender.Engine.FetchHistory
import TpuSender.Engine.ServiceTask
import TpuSender.Engine.SlotTracker

/-!
# ServiceLifecycle — how the task of the leader service ends, and what happens if it does not

After the flag is set the task takes at most four more steps, not counting the notifications that
keep coming (`shutdown_terminates`).  Once nobody watches the slots any more, the estimate stays
what it is for ever (`deaf_service_stands_still`).  Only the flag, the websocket and an overflow
end the task (`task_end_reasons`).
-/

namespace TpuSender
namespace Engine

open Library

/-- The leaders a send goes to. -/
def LeaderTpuService.uniqueLeaderTpuSockets (s : LeaderTpuService) (fanoutSlots : Nat) :
    Except Panic (List SocketAddr) := do
  let currentSlot ← s.recentSlots.estimatedCurrentSlot
  s.leaderTpuCache.getUniqueLeaderSockets currentSlot fanoutSlots

namespace ServiceTask

/-! ## Shutdown -/

def watcherRest : WatcherPhase → Nat
  | .subscribing => 2
  | .polling => 2
  | .streamEnded => 2
  | .closing => 1
  | .done => 0

def refresherRest : RefresherLoop → RefresherPhase → Nat
  | .starting, _ => 1
  | .looping, .sleeping => 2
  | .looping, .fetched _ _ => 1
  | .done, _ => 0

/-- With the flag set, the steps that are left, not counting notifications. -/
def rest (s : ServiceTask) : Nat :=
  match s.outcome with
  | none => watcherRest s.watcher + refresherRest s.refresher s.service.phase
  | some _ => 0

/-- With the flag set, the updates that are left. -/
def updatesLeft (s : ServiceTask) : Nat :=
  match s.outcome, s.refresher with
  | none, .looping => 1
  | _, _ => 0

section Shutdown

variable {fromStr : String → Option Pubkey} {s t : ServiceTask} {ev : TaskEvent}

theorem exit_step (hs : s.exit = true) (h : s.step fromStr ev = some t) : t.exit = true := by
  cases moves_of_step h with
  | storeExit => rfl
  | _ => simpa using hs

theorem exit_eq_of_step (hev : ev ≠ .storeExit) (h : s.step fromStr ev = some t) :
    t.exit = s.exit := by
  cases moves_of_step h with
  | storeExit => exact absurd rfl hev
  | _ => simp

/-- When both loops are over there is nothing left anyway. -/
theorem rest_joinBoth (s : ServiceTask) : s.joinBoth.rest = s.rest := by
  unfold joinBoth
  split
  next hdone =>
    cases houtcome : s.outcome with
    | none => simp [rest, houtcome, hdone.1, hdone.2, watcherRest, refresherRest]
    | some outcome => simp [rest, houtcome]
  next => rfl

theorem rest_refresherTop (hs : s.exit = true) (halive : s.outcome = none) :
    s.refresherTop.rest = watcherRest s.watcher := by
  rw [refresherTop, rest_joinBoth, hs]
  simp [rest, halive, refresherRest]

theorem rest_watcherTop (hs : s.exit = true) (halive : s.outcome = none) (next : WatcherPhase) :
    (s.watcherTop next).rest = 1 + refresherRest s.refresher s.service.phase := by
  simp [rest, watcherTop, halive, hs, watcherRest]

theorem rest_endWith (s : ServiceTask) (outcome : TaskEnd) : (s.endWith outcome).rest = 0 := rfl

theorem rest_step (hs : s.exit = true) (h : s.step fromStr ev = some t) :
    t.rest + (if ev.own then 1 else 0) ≤ s.rest := by
  -- while the task runs, each of its loops pays for its own steps
  have hrest : s.outcome = none →
      s.rest = watcherRest s.watcher + refresherRest s.refresher s.service.phase := by
    intro halive
    simp only [rest, halive]
  cases moves_of_step h with
  | storeExit => exact le_rfl
  | subscribed halive hwatcher =>
      rw [rest_watcherTop hs halive, hrest halive, hwatcher]
      simp [TaskEvent.own, watcherRest, Nat.add_right_comm]
  | refused halive hwatcher =>
      rw [rest_endWith, hrest halive, hwatcher, watcherRest, Nat.zero_add]
      exact (Nat.le_succ 1).trans (Nat.le_add_right 2 _)
  | recorded update currentSlot halive hwatcher hslot => exact le_rfl
  | ignored update halive hwatcher hslot => exact le_rfl
  | pollOver ended halive hwatcher =>
      rw [rest_watcherTop hs halive, hrest halive, hwatcher]
      simp [TaskEvent.own, watcherRest, Nat.add_right_comm]
  | spin ended halive hwatcher =>
      rw [rest_watcherTop hs halive, hrest halive, hwatcher]
      simp [TaskEvent.own, watcherRest, Nat.add_right_comm]
  | closed halive hwatcher =>
      rw [rest_joinBoth, hrest halive, hwatcher]
      simp [rest, halive, TaskEvent.own, watcherRest, Nat.add_comm]
  | closeFailed halive hwatcher =>
      rw [rest_endWith, hrest halive, hwatcher]
      simp [TaskEvent.own, watcherRest]
  | begin halive hrefresher =>
      rw [rest_refresherTop hs halive, hrest halive, hrefresher]
      simp [TaskEvent.own, refresherRest]
  | fetchPanicked now rpcClient halive hrefresher hphase hstep =>
      rw [rest_endWith, hrest halive, hrefresher, hphase]
      simp [TaskEvent.own, refresherRest]
  | fetchedNothing now rpcClient service halive hrefresher hstep hphase =>
      rcases LeaderTpuService.step_fetch hstep with ⟨_, _, hsleeping, _, _, _⟩
      rw [rest_refresherTop (s := { s with service := service }) hs halive, hrest halive,
        hrefresher, hsleeping]
      simp [TaskEvent.own, refresherRest]
  | fetched now rpcClient service readAt info halive hrefresher hsleeping hstep hphase =>
      rw [hrest halive, hrefresher, hsleeping]
      simp [rest, halive, hphase, TaskEvent.own, refresherRest]
  | updatePanicked now readAt info halive hrefresher hphase hstep =>
      rw [rest_endWith, hrest halive, hrefresher, hphase]
      simp [TaskEvent.own, refresherRest]
  | updated now service halive hrefresher hstep =>
      rcases LeaderTpuService.step_update hstep with ⟨readAt, info, _, hphase, _, _⟩
      rw [rest_refresherTop (s := { s with service := service }) hs halive, hrest halive,
        hrefresher, hphase]
      simp [TaskEvent.own, refresherRest]

theorem rest_le (s : ServiceTask) : s.rest ≤ 4 := by
  cases houtcome : s.outcome with
  | some outcome => simp [rest, houtcome]
  | none =>
      have hwatcher : watcherRest s.watcher ≤ 2 := by
        cases s.watcher <;> decide
      have hrefresher : refresherRest s.refresher s.service.phase ≤ 2 := by
        cases s.refresher <;> cases s.service.phase <;> simp [refresherRest]
      simp only [rest, houtcome]
      exact Nat.add_le_add hwatcher hrefresher

theorem updatesLeft_joinBoth (s : ServiceTask) : s.joinBoth.updatesLeft = s.updatesLeft := by
  unfold joinBoth
  split
  next hdone =>
    cases houtcome : s.outcome with
    | none => simp [updatesLeft, houtcome, hdone.2]
    | some outcome => simp [updatesLeft, houtcome]
  next => rfl

/-- With the flag set, the top of the refresher's loop is its end. -/
theorem updatesLeft_refresherTop (hs : s.exit = true) : s.refresherTop.updatesLeft = 0 := by
  rw [refresherTop, updatesLeft_joinBoth, hs]
  cases s.outcome <;> rfl

theorem updatesLeft_step (hs : s.exit = true) (h : s.step fromStr ev = some t) :
    t.updatesLeft + (if ev.isUpdate then 1 else 0) ≤ s.updatesLeft := by
  cases moves_of_step h with
  | storeExit => exact le_rfl
  | subscribed halive hwatcher => exact le_rfl
  | refused halive hwatcher => exact Nat.zero_le _
  | recorded update currentSlot halive hwatcher hslot => exact le_rfl
  | ignored update halive hwatcher hslot => exact le_rfl
  | pollOver ended halive hwatcher => exact le_rfl
  | spin ended halive hwatcher => exact le_rfl
  | closed halive hwatcher =>
      rw [updatesLeft_joinBoth]
      exact le_rfl
  | closeFailed halive hwatcher => exact Nat.zero_le _
  | begin halive hrefresher =>
      rw [updatesLeft_refresherTop hs]
      exact Nat.zero_le _
  | fetchPanicked now rpcClient halive hrefresher hphase hstep => exact Nat.zero_le _
  | fetchedNothing now rpcClient service halive hrefresher hstep hphase =>
      rw [updatesLeft_refresherTop (s := { s with service := service }) hs]
      exact Nat.zero_le _
  | fetched now rpcClient service readAt info halive hrefresher hsleeping hstep hphase =>
      exact le_rfl
  | updatePanicked now readAt info halive hrefresher hphase hstep =>
      simp [updatesLeft, halive, hrefresher, endWith, TaskEvent.isUpdate]
  | updated now service halive hrefresher hstep =>
      rw [updatesLeft_refresherTop (s := { s with service := service }) hs]
      simp [updatesLeft, halive, hrefresher, TaskEvent.isUpdate]

theorem updatesLeft_le (s : ServiceTask) : s.updatesLeft ≤ 1 := by
  unfold updatesLeft
  split
  · exact le_rfl
  · exact Nat.zero_le 1

/-- The task can go on by itself, whatever the node and the websocket answer. -/
inductive CanMove (fromStr : String → Option Pubkey) (s : ServiceTask) : Prop
  | subscribe (h : ∀ ok, (s.step fromStr (.subscribe ok)).isSome)
  | pollOver (h : ∀ ended, (s.step fromStr (.pollOver ended)).isSome)
  | close (h : ∀ ok, (s.step fromStr (.close ok)).isSome)
  | begin (h : (s.step fromStr .begin).isSome)
  | fetch (h : ∀ now rpcClient, (s.step fromStr (.fetch now rpcClient)).isSome)
  | update (h : ∀ now, (s.step fromStr (.update now)).isSome)

/-- A task in which both loops are over has ended. -/
def Joined (s : ServiceTask) : Prop :=
  s.watcher = .done → s.refresher = .done → s.outcome ≠ none

theorem joined_joinBoth (s : ServiceTask) : s.joinBoth.Joined := by
  intro hwatcher hrefresher
  unfold joinBoth at *
  split at hwatcher
  next hdone =>
    rw [if_pos hdone]
    exact nofun
  next hdone =>
    rw [if_neg hdone] at hrefresher
    exact absurd ⟨hwatcher, hrefresher⟩ hdone

theorem joined_watcherTop {next : WatcherPhase} (hnext : next ≠ .done) :
    (s.watcherTop next).Joined := by
  intro hwatcher _
  simp only [watcherTop] at hwatcher
  split at hwatcher
  · cases hwatcher
  · exact absurd hwatcher hnext

theorem Joined.step (hs : s.Joined) (h : s.step fromStr ev = some t) : t.Joined := by
  cases moves_of_step h with
  | storeExit => exact hs
  | subscribed halive hwatcher => exact joined_watcherTop nofun
  | refused halive hwatcher => exact fun _ _ => nofun
  | recorded update currentSlot halive hwatcher hslot => exact hs
  | ignored update halive hwatcher hslot => exact hs
  | pollOver ended halive hwatcher =>
      cases ended with
      | true => exact joined_watcherTop nofun
      | false => exact joined_watcherTop nofun
  | spin ended halive hwatcher => exact joined_watcherTop nofun
  | closed halive hwatcher => exact joined_joinBoth _
  | closeFailed halive hwatcher => exact fun _ _ => nofun
  | begin halive hrefresher => exact joined_joinBoth _
  | fetchPanicked now rpcClient halive hrefresher hphase hstep => exact fun _ _ => nofun
  | fetchedNothing now rpcClient service halive hrefresher hstep hphase => exact joined_joinBoth _
  | fetched now rpcClient service readAt info halive hrefresher hsleeping hstep hphase => exact hs
  | updatePanicked now readAt info halive hrefresher hphase hstep => exact fun _ _ => nofun
  | updated now service halive hrefresher hstep => exact joined_joinBoth _

theorem canMove_of_joined (hs : s.Joined) (halive : s.outcome = none) : CanMove fromStr s := by
  cases hwatcher : s.watcher with
  | subscribing => exact .subscribe fun ok => by simp [step, halive, taskStep, hwatcher]
  | polling => exact .pollOver fun ended => by simp [step, halive, taskStep, hwatcher]
  | streamEnded => exact .pollOver fun ended => by simp [step, halive, taskStep, hwatcher]
  | closing => exact .close fun ok => by simp [step, halive, taskStep, hwatcher]
  | done =>
      cases hrefresher : s.refresher with
      | starting => exact .begin (by simp [step, halive, taskStep, hrefresher])
      | done => exact absurd halive (hs hwatcher hrefresher)
      | looping =>
          cases hphase : s.service.phase with
          | sleeping =>
              refine .fetch fun now rpcClient => ?_
              simp only [step, halive, taskStep, hrefresher, hphase]
              cases s.service.step fromStr (.fetch now rpcClient) with
              | none => rfl
              | some service =>
                  -- the step is taken whether there is something to update or not
                  simp only
                  cases service.phase <;> rfl
          | fetched readAt info =>
              refine .update fun now => ?_
              simp only [step, halive, taskStep, hrefresher, hphase]
              cases s.service.step fromStr (.update now) <;> rfl

/-- A run of notifications that all come within 10 ms of each other. -/
theorem run_notifications (hwatcher : s.watcher = .polling) (halive : s.outcome = none)
    (updates : List SlotUpdate) :
    ∃ t, (machine fromStr).run s (updates.map TaskEvent.notification) = some t ∧
      t.watcher = .polling ∧ t.outcome = none := by
  refine (machine fromStr).exists_run (I := fun u => u.watcher = .polling ∧ u.outcome = none)
    (F := fun ev => ∃ update, ev = .notification update) ?_ ⟨hwatcher, halive⟩ (by simp)
  rintro s _ ⟨hpolling, houtcome⟩ ⟨update, rfl⟩
  cases hslot : update.currentSlot? with
  | some currentSlot =>
      refine ⟨{ s with service := s.service.recordSlot currentSlot }, ?_, hpolling, houtcome⟩
      simp [machine, step, houtcome, taskStep, hpolling, hslot]
  | none =>
      refine ⟨s, ?_, hpolling, houtcome⟩
      simp [machine, step, houtcome, taskStep, hpolling, hslot]

/-- However the task was started and whatever it has done, once the flag is set it has at most four
steps to go, and the cache is written at most once more; only an unbroken row of notifications,
between which the flag is not looked at, can put these steps off. -/
theorem shutdown_terminates (fromStr : String → Option Pubkey) (service : LeaderTpuService)
    (exit websocket : Bool) {before after : List TaskEvent} {s t : ServiceTask}
    (hbefore : (machine fromStr).run (start service exit websocket) before = some s)
    (hexit : s.exit = true) (hafter : (machine fromStr).run s after = some t) :
    after.countP TaskEvent.own ≤ 4 ∧ after.countP TaskEvent.isUpdate ≤ 1 ∧
      (t.outcome = none → CanMove fromStr t) ∧
      ∀ updates : List SlotUpdate, t.outcome = none → t.watcher = .polling →
        ∃ u, (machine fromStr).run t (updates.map TaskEvent.notification) = some u ∧
          u.outcome = none := by
  have hexits : ∀ s ev t, s.exit = true → (machine fromStr).next s ev = some t → t.exit = true :=
    fun _ _ _ hs hnext => exit_step hs hnext
  have hown := (machine fromStr).run_countP_le (m := rest) (p := TaskEvent.own) hexits
    (fun _ _ _ hs _ hnext => rest_step hs hnext) hexit hafter
  have hupdates := (machine fromStr).run_countP_le (m := updatesLeft) (p := TaskEvent.isUpdate)
    hexits (fun _ _ _ hs _ hnext => updatesLeft_step hs hnext) hexit hafter
  have hjoined : ∀ s ev t, s.Joined → (machine fromStr).next s ev = some t → t.Joined :=
    fun _ _ _ hs hnext => hs.step hnext
  have hstart : (start service exit websocket).Joined := fun _ hrefresher => by cases hrefresher
  have ht : t.Joined := (machine fromStr).run_invariant hjoined
    ((machine fromStr).run_invariant hjoined hstart hbefore) hafter
  refine ⟨?_, ?_, fun halive => canMove_of_joined ht halive, ?_⟩
  · exact (Nat.le_add_left _ _).trans (hown.trans (rest_le s))
  · exact (Nat.le_add_left _ _).trans (hupdates.trans (updatesLeft_le s))
  · intro updates halive hwatcher
    rcases run_notifications hwatcher halive updates with ⟨u, hu, _, houtcome⟩
    exact ⟨u, hu, houtcome⟩

/-- A service that starts at slot 1000, and is shut down while it waits for its answers. -/
theorem shutdown_terminates_while_fetching :
    ∃ service s t,
      LeaderTpuService.ofAnswers (fun _ => none) warmupRpc 1000 .QUIC 0 = some service ∧
        (machine fun _ => none).run (start service false true)
          [.subscribe true, .begin, .fetch 0 failingRpc, .storeExit] = some s ∧
        s.exit = true ∧
        (machine fun _ => none).run s [.update 1, .pollOver false, .close true] = some t ∧
        [TaskEvent.update 1, .pollOver false, .close true].countP TaskEvent.own ≤ 4 ∧
        t.outcome = some .ok := by
  have hnew : (LeaderTpuService.ofAnswers (fun _ => none) warmupRpc 1000 .QUIC 0).isSome := rfl
  rcases Option.isSome_iff_exists.1 hnew with ⟨service, hnew⟩
  have hbefore : ∃ s, (machine fun _ => none).run (start service false true)
      [.subscribe true, .begin, .fetch 0 failingRpc, .storeExit] = some s ∧ s.exit = true := by
    cases hnew
    exact ⟨_, rfl, rfl⟩
  rcases hbefore with ⟨s, hbefore, hexit⟩
  have hafter : ∃ t, (machine fun _ => none).run s
      [.update 1, .pollOver false, .close true] = some t ∧ t.outcome = some .ok := by
    cases hnew
    cases hbefore
    exact ⟨_, rfl, rfl⟩
  rcases hafter with ⟨t, hafter, houtcome⟩
  exact ⟨service, s, t, hnew, hbefore, hexit, hafter,
    (shutdown_terminates _ service false true hbefore hexit hafter).1, houtcome⟩

end Shutdown

/-! ## How the task ends -/

/-- The two sums of a cycle whose overflow ends the task. -/
def Overflows (s : LeaderTpuService) : Prop :=
  s.recentSlots.estimatedCurrentSlot = .error .arithmeticOverflow ∨
    s.leaderTpuCache.lastSlot = .error .arithmeticOverflow

section Ends

variable {fromStr : String → Option Pubkey} {s t : ServiceTask} {ev : TaskEvent}

theorem overflows_of_estimate {s : LeaderTpuService}
    (h : s.recentSlots.estimatedCurrentSlot.toOption = none) : Overflows s := by
  cases hestimate : s.recentSlots.estimatedCurrentSlot with
  | ok estimate => simp [hestimate, Except.toOption] at h
  | error panic => exact .inl (by rw [hestimate, estimatedCurrentSlot_error hestimate])

theorem overflows_of_fetch {s : LeaderTpuService} {now : Nat} {rpc : RpcClient}
    (hphase : s.phase = .sleeping) (h : s.step fromStr (.fetch now rpc) = none) :
    Overflows s := by
  cases hestimate : s.recentSlots.estimatedCurrentSlot.toOption with
  | none => exact overflows_of_estimate hestimate
  | some estimate =>
      have hok := LeaderTpuService.toOption_eq_some_iff.1 hestimate
      by_cases hfits : s.leaderTpuCache.firstSlot + (s.leaderTpuCache.leaders.length - 1) ≤ u64Max
      · -- with both sums in range the requests are sent
        have hinfo : maybeFetchCacheInfo s.leaderTpuCache (now - s.lastClusterRefresh) rpc
            s.recentSlots = .ok _ :=
          maybeFetchCacheInfo_eq_ok_iff.2
            ⟨estimate, _, hok, LeaderTpuCache.lastSlot_eq_ok_iff.2 ⟨hfits, rfl⟩, rfl⟩
        simp [LeaderTpuService.step, hphase, hok, hinfo, Except.toOption] at h
      · exact .inr (checkedAdd_of_lt (Nat.lt_of_not_le hfits))

theorem overflows_of_update {s : LeaderTpuService} {now readAt : Nat}
    {info : LeaderTpuCacheUpdateInfo} (hphase : s.phase = .fetched readAt info)
    (h : s.step fromStr (.update now) = none) : Overflows s := by
  cases hestimate : s.recentSlots.estimatedCurrentSlot.toOption with
  | none => exact overflows_of_estimate hestimate
  | some estimate => simp [LeaderTpuService.step, hphase, hestimate] at h

/-- The two loops are joined by setting the outcome, and only when the refresher is over. -/
theorem outcome_joinBoth (s : ServiceTask) :
    s.joinBoth.outcome = s.outcome ∨
      s.joinBoth.outcome = some .ok ∧ s.joinBoth.refresher = .done := by
  unfold joinBoth
  split
  next hdone => exact .inr ⟨rfl, hdone.2⟩
  next => exact .inl rfl

/-- What gave the task its outcome. -/
inductive EndsWith (s : ServiceTask) (ev : TaskEvent) (t : ServiceTask) : Prop
  | unchanged (h : t.outcome = s.outcome)
  | joined (h : t.outcome = some .ok) (hrefresher : t.refresher = .done)
  | failed (h : t.outcome = some .err) (hev : ev = .subscribe false ∨ ev = .close false)
  | overflowed (h : t.outcome = some .panicked) (hservice : Overflows t.service)

theorem endsWith_joinBoth (hsame : t.outcome = s.outcome) : EndsWith s ev t.joinBoth := by
  rcases outcome_joinBoth t with houtcome | ⟨hok, hdone⟩
  · exact .unchanged (houtcome.trans hsame)
  · exact .joined hok hdone

theorem endsWith_step (h : s.step fromStr ev = some t) : EndsWith s ev t := by
  cases moves_of_step h with
  | refused halive hwatcher => exact .failed rfl (.inl rfl)
  | closeFailed halive hwatcher => exact .failed rfl (.inr rfl)
  | closed halive hwatcher => exact endsWith_joinBoth rfl
  | begin halive hrefresher => exact endsWith_joinBoth rfl
  | fetchPanicked now rpcClient halive hrefresher hphase hstep =>
      exact .overflowed rfl (overflows_of_fetch hphase hstep)
  | fetchedNothing now rpcClient service halive hrefresher hstep hphase =>
      exact endsWith_joinBoth rfl
  | updatePanicked now readAt info halive hrefresher hphase hstep =>
      exact .overflowed rfl (overflows_of_update hphase hstep)
  | updated now service halive hrefresher hstep => exact endsWith_joinBoth rfl
  | _ => exact .unchanged rfl

/-- Where the flag has been set for sure. -/
structure EndsOnFlag (s : ServiceTask) : Prop where
  done : s.refresher = .done → s.exit = true
  ok : s.outcome = some .ok → s.exit = true

theorem endsOnFlag_start (service : LeaderTpuService) (exit websocket : Bool) :
    (start service exit websocket).EndsOnFlag :=
  { done := nofun
    ok := nofun }

/-- The refresher is over only when it has seen the flag, and nothing takes the flag back. -/
theorem doneAfterExit_step (hs : s.refresher = .done → s.exit = true)
    (h : s.step fromStr ev = some t) : t.refresher = .done → t.exit = true := by
  cases moves_of_step h with
  | storeExit => exact fun _ => rfl
  | closed halive hwatcher =>
      rw [refresher_joinBoth, exit_joinBoth]
      exact hs
  | begin halive hrefresher => exact exit_of_refresherTop
  | fetchedNothing now rpcClient service halive hrefresher hstep hphase =>
      exact exit_of_refresherTop
  | updated now service halive hrefresher hstep => exact exit_of_refresherTop
  | _ => exact hs

theorem EndsOnFlag.step (hs : s.EndsOnFlag) (h : s.step fromStr ev = some t) : t.EndsOnFlag := by
  have hdone := doneAfterExit_step hs.done h
  refine ⟨hdone, fun hok => ?_⟩
  rcases endsWith_step h with hsame | ⟨_, hrefresher⟩ | ⟨houtcome, _⟩ | ⟨houtcome, _⟩
  · exact exit_step (hs.ok (hsame.symm.trans hok)) h
  · exact hdone hrefresher
  · rw [houtcome] at hok
    cases hok
  · rw [houtcome] at hok
    cases hok

end Ends

/-- Nobody listens to the notifications any more. -/
def Deaf (s : ServiceTask) : Prop :=
  s.outcome ≠ none ∨ s.watcher = .streamEnded ∨ s.watcher = .closing ∨ s.watcher = .done

/-- What a service that hears of no slots can still do to its cache. -/
structure StandsStill (s t : LeaderTpuService) : Prop where
  recentSlots : t.recentSlots = s.recentSlots
  firstSlot : t.leaderTpuCache.firstSlot = s.leaderTpuCache.firstSlot ∨
    s.recentSlots.estimatedCurrentSlot = .ok t.leaderTpuCache.firstSlot

section DeafService

variable {fromStr : String → Option Pubkey} {s t : ServiceTask} {ev : TaskEvent}

theorem StandsStill.refl (s : LeaderTpuService) : StandsStill s s :=
  ⟨rfl, .inl rfl⟩

theorem StandsStill.trans {s t u : LeaderTpuService} (h₁ : StandsStill s t)
    (h₂ : StandsStill t u) : StandsStill s u := by
  refine ⟨h₂.recentSlots.trans h₁.recentSlots, ?_⟩
  rcases h₂.firstSlot with hsame | hmoved
  · rw [hsame]
    exact h₁.firstSlot
  · rw [h₁.recentSlots] at hmoved
    exact .inr hmoved

theorem standsStill_fetch {s t : LeaderTpuService} {now : Nat} {rpc : RpcClient}
    (h : s.step fromStr (.fetch now rpc) = some t) : StandsStill s t := by
  rcases LeaderTpuService.step_fetch h with ⟨_, _, _, _, _, rfl⟩
  exact ⟨rfl, .inl rfl⟩

theorem standsStill_update {s t : LeaderTpuService} {now : Nat}
    (h : s.step fromStr (.update now) = some t) : StandsStill s t := by
  rcases LeaderTpuService.step_update h with ⟨_, info, estimate, _, hestimate, rfl⟩
  refine ⟨rfl, ?_⟩
  rcases SlotTracker.firstSlot_updateAll s.leaderTpuCache estimate info with hmoved | hsame
  · rw [LeaderTpuService.leaderTpuCache_afterUpdate, hmoved]
    exact .inr hestimate
  · exact .inl hsame

theorem deaf_watcherTop {next : WatcherPhase} (hs : s.exit = true ∨ next = .streamEnded) :
    (s.watcherTop next).Deaf := by
  by_cases hexit : s.exit = true
  · exact .inr (.inr (.inl (by simp [watcherTop, hexit])))
  · rcases hs with hset | rfl
    · exact absurd hset hexit
    · exact .inr (.inl (by simp [watcherTop, hexit]))

/-- While the task runs, it is the watcher that no longer listens. -/
theorem Deaf.watcher (hs : s.Deaf) (halive : s.outcome = none) :
    s.watcher = .streamEnded ∨ s.watcher = .closing ∨ s.watcher = .done := by
  rcases hs with hended | hwatcher
  · exact absurd halive hended
  · exact hwatcher

theorem Deaf.not_listening (hs : s.Deaf) (halive : s.outcome = none) :
    s.watcher ≠ .subscribing ∧ s.watcher ≠ .polling := by
  rcases hs.watcher halive with hwatcher | hwatcher | hwatcher <;> simp [hwatcher]

theorem deaf_step (hs : s.Deaf) (h : s.step fromStr ev = some t) :
    t.Deaf ∧ StandsStill s.service t.service := by
  cases moves_of_step h with
  | storeExit => exact ⟨hs, .refl _⟩
  | subscribed halive hwatcher => exact absurd hwatcher (hs.not_listening halive).1
  | refused halive hwatcher => exact absurd hwatcher (hs.not_listening halive).1
  | recorded update currentSlot halive hwatcher hslot =>
      exact absurd hwatcher (hs.not_listening halive).2
  | ignored update halive hwatcher hslot => exact ⟨hs, .refl _⟩
  | pollOver ended halive hwatcher => exact absurd hwatcher (hs.not_listening halive).2
  | spin ended halive hwatcher => exact ⟨deaf_watcherTop (.inr rfl), .refl _⟩
  | closed halive hwatcher =>
      rw [service_joinBoth]
      exact ⟨.inr (.inr (.inr (watcher_joinBoth _))), .refl _⟩
  | closeFailed halive hwatcher => exact ⟨.inl nofun, .refl _⟩
  | begin halive hrefresher =>
      rw [service_refresherTop]
      refine ⟨.inr ?_, .refl _⟩
      rw [watcher_refresherTop]
      exact hs.watcher halive
  | fetchPanicked now rpcClient halive hrefresher hphase hstep => exact ⟨.inl nofun, .refl _⟩
  | fetchedNothing now rpcClient service halive hrefresher hstep hphase =>
      rw [service_refresherTop]
      refine ⟨.inr ?_, standsStill_fetch hstep⟩
      rw [watcher_refresherTop]
      exact hs.watcher halive
  | fetched now rpcClient service readAt info halive hrefresher hsleeping hstep hphase =>
      exact ⟨hs, standsStill_fetch hstep⟩
  | updatePanicked now readAt info halive hrefresher hphase hstep => exact ⟨.inl nofun, .refl _⟩
  | updated now service halive hrefresher hstep =>
      rw [service_refresherTop]
      refine ⟨.inr ?_, standsStill_update hstep⟩
      rw [watcher_refresherTop]
      exact hs.watcher halive

theorem deaf_run {evs : List TaskEvent} (hs : s.Deaf)
    (hrun : (machine fromStr).run s evs = some t) :
    t.Deaf ∧ StandsStill s.service t.service := by
  refine (machine fromStr).run_invariant
    (I := fun u => u.Deaf ∧ StandsStill s.service u.service) ?_ ⟨hs, .refl _⟩ hrun
  intro u ev v hu hnext
  have hstep := deaf_step hu.1 hnext
  exact ⟨hstep.1, hu.2.trans hstep.2⟩

end DeafService

/-- What a fan-out from a slot comes to: the sockets of the probed slots, as long as the end of the
range is a `u64`. -/
structure FansOutFrom (s : LeaderTpuService) (currentSlot : Nat) : Prop where
  inRange : ∀ fanoutSlots, currentSlot + fanoutSlots ≤ u64Max →
    ∃ sockets, s.uniqueLeaderTpuSockets fanoutSlots = .ok sockets ∧
      UniqueSockets fanoutSlots
        ((LeaderTpuCache.probedSlots currentSlot fanoutSlots).filterMap
          s.leaderTpuCache.slotSocket) sockets
  beyond : ∀ fanoutSlots, u64Max < currentSlot + fanoutSlots →
    s.uniqueLeaderTpuSockets fanoutSlots = .error .arithmeticOverflow

theorem fansOutFrom_estimate {s : LeaderTpuService} {estimate : Nat}
    (h : s.recentSlots.estimatedCurrentSlot = .ok estimate) :
    FansOutFrom s (max estimate s.leaderTpuCache.firstSlot) := by
  have hsockets : ∀ fanoutSlots, s.uniqueLeaderTpuSockets fanoutSlots =
      s.leaderTpuCache.getUniqueLeaderSockets estimate fanoutSlots := by
    intro fanoutSlots
    rw [LeaderTpuService.uniqueLeaderTpuSockets, h]
    rfl
  refine
    { inRange := ?_
      beyond := ?_ }
  · intro fanoutSlots hrange
    exact ⟨_, (hsockets fanoutSlots).trans (LeaderTpuCache.getUniqueLeaderSockets_eq hrange),
      uniqueSockets_foldl _ _ _⟩
  · intro fanoutSlots hover
    exact (hsockets fanoutSlots).trans (getUniqueLeaderSockets_of_lt hover)

end ServiceTask
end Engine
end TpuSender
