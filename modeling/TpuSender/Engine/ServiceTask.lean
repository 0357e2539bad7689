import TpuSender.Engine.LeaderTpuService
import TpuSender.Engine.SlotWatcher

/-!
# ServiceTask — the task that runs the leader service, from its start to its end

`LeaderTpuService::run` joins the slot watcher and the cache refresher in one task.  Either of them
ends the whole task with an error or a panic of its own; both look at the exit flag, but only at
the top of their loops.

`ServiceTask.step` adds to the steps of `LeaderTpuService` the subscription, the end of the
notifications, the exit flag and the end of the task.  Every run of the task is a run of the
service (`run_service`).
-/

namespace TpuSender
namespace Engine

open Library

/-! ## The task -/

/-- Where `run_slot_watcher` is. -/
inductive WatcherPhase
  | subscribing
  | polling
  /-- No notification comes any more, and the loop goes on all the same. -/
  | streamEnded
  | closing
  | done
  deriving DecidableEq

/-- Where `run_cache_refresher` is; inside the loop the phase of the service tells. -/
inductive RefresherLoop
  | starting
  | looping
  | done
  deriving DecidableEq

/-- What `t_handle.await` comes to. -/
inductive TaskEnd
  | ok
  | err
  | panicked
  deriving DecidableEq

structure ServiceTask where
  service : LeaderTpuService
  exit : Bool
  watcher : WatcherPhase
  refresher : RefresherLoop
  outcome : Option TaskEnd

inductive TaskEvent
  /-- `shutdown`, or the client is dropped. -/
  | storeExit
  | subscribe (ok : Bool)
  /-- A notification within 10 ms of the one before. -/
  | notification (update : SlotUpdate)
  /-- The 10 ms are over, or the stream has ended. -/
  | pollOver (ended : Bool)
  | close (ok : Bool)
  | begin
  | fetch (now : Nat) (rpcClient : RpcClient)
  | update (now : Nat)

/-- Neither the flag being set nor a notification brings the end nearer. -/
def TaskEvent.own : TaskEvent → Bool
  | .storeExit => false
  | .notification _ => false
  | _ => true

def TaskEvent.isUpdate : TaskEvent → Bool
  | .update _ => true
  | _ => false

namespace ServiceTask

/-- The task as it is spawned; with an empty websocket URL there is nothing to watch. -/
def start (service : LeaderTpuService) (exit websocket : Bool) : ServiceTask :=
  { service := service
    exit := exit
    watcher := if websocket then .subscribing else .done
    refresher := .starting
    outcome := none }

/-- `try_join!` is over without an error when both are. -/
def joinBoth (s : ServiceTask) : ServiceTask :=
  if s.watcher = .done ∧ s.refresher = .done then { s with outcome := some .ok } else s

/-- The top of the watcher's loop. -/
def watcherTop (s : ServiceTask) (next : WatcherPhase) : ServiceTask :=
  { s with watcher := if s.exit then .closing else next }

/-- The top of the refresher's loop. -/
def refresherTop (s : ServiceTask) : ServiceTask :=
  joinBoth { s with refresher := if s.exit then .done else .looping }

/-- An error or a panic of one of the two drops the other where it is. -/
def endWith (s : ServiceTask) (outcome : TaskEnd) : ServiceTask :=
  { s with outcome := some outcome }

variable (fromStr : String → Option Pubkey)

/-- A step of the running task. -/
def taskStep (s : ServiceTask) : TaskEvent → Option ServiceTask
  | .storeExit => none
  | .subscribe ok =>
      match s.watcher with
      | .subscribing => some (if ok then s.watcherTop .polling else s.endWith .err)
      | _ => none
  | .notification update =>
      match s.watcher with
      -- the flag is not looked at between two notifications
      | .polling =>
          match update.currentSlot? with
          | some currentSlot => some { s with service := s.service.recordSlot currentSlot }
          | none => some s
      | _ => none
  | .pollOver ended =>
      match s.watcher with
      | .polling => some (s.watcherTop (if ended then .streamEnded else .polling))
      | .streamEnded => some (s.watcherTop .streamEnded)
      | _ => none
  | .close ok =>
      match s.watcher with
      | .closing => some (if ok then joinBoth { s with watcher := .done } else s.endWith .err)
      | _ => none
  | .begin =>
      match s.refresher with
      | .starting => some s.refresherTop
      | _ => none
  | .fetch now rpcClient =>
      match s.refresher, s.service.phase with
      | .looping, .sleeping =>
          match s.service.step fromStr (.fetch now rpcClient) with
          | none => some (s.endWith .panicked)
          | some service =>
              match service.phase with
              -- nothing was asked for
              | .sleeping => some (refresherTop { s with service := service })
              | .fetched _ _ => some { s with service := service }
      | _, _ => none
  | .update now =>
      match s.refresher, s.service.phase with
      | .looping, .fetched _ _ =>
          match s.service.step fromStr (.update now) with
          | none => some (s.endWith .panicked)
          | some service => some (refresherTop { s with service := service })
      | _, _ => none

def step (s : ServiceTask) : TaskEvent → Option ServiceTask
  | .storeExit => some { s with exit := true }
  | ev =>
      match s.outcome with
      | none => s.taskStep fromStr ev
      | some _ => none

def machine : Machine ServiceTask TaskEvent := { next := step fromStr }

/-! ## What a step can do -/

/-- One rule for each way in which the task can go on. -/
inductive Moves (s : ServiceTask) : TaskEvent → ServiceTask → Prop
  | storeExit : Moves s .storeExit { s with exit := true }
  | subscribed (halive : s.outcome = none) (hwatcher : s.watcher = .subscribing) :
      Moves s (.subscribe true) (s.watcherTop .polling)
  | refused (halive : s.outcome = none) (hwatcher : s.watcher = .subscribing) :
      Moves s (.subscribe false) (s.endWith .err)
  | recorded (update : SlotUpdate) (currentSlot : Nat) (halive : s.outcome = none)
      (hwatcher : s.watcher = .polling) (hslot : update.currentSlot? = some currentSlot) :
      Moves s (.notification update) { s with service := s.service.recordSlot currentSlot }
  | ignored (update : SlotUpdate) (halive : s.outcome = none) (hwatcher : s.watcher = .polling)
      (hslot : update.currentSlot? = none) : Moves s (.notification update) s
  | pollOver (ended : Bool) (halive : s.outcome = none) (hwatcher : s.watcher = .polling) :
      Moves s (.pollOver ended) (s.watcherTop (if ended then .streamEnded else .polling))
  | spin (ended : Bool) (halive : s.outcome = none) (hwatcher : s.watcher = .streamEnded) :
      Moves s (.pollOver ended) (s.watcherTop .streamEnded)
  | closed (halive : s.outcome = none) (hwatcher : s.watcher = .closing) :
      Moves s (.close true) (joinBoth { s with watcher := .done })
  | closeFailed (halive : s.outcome = none) (hwatcher : s.watcher = .closing) :
      Moves s (.close false) (s.endWith .err)
  | begin (halive : s.outcome = none) (hrefresher : s.refresher = .starting) :
      Moves s .begin s.refresherTop
  | fetchPanicked (now : Nat) (rpcClient : RpcClient) (halive : s.outcome = none)
      (hrefresher : s.refresher = .looping) (hphase : s.service.phase = .sleeping)
      (hstep : s.service.step fromStr (.fetch now rpcClient) = none) :
      Moves s (.fetch now rpcClient) (s.endWith .panicked)
  | fetchedNothing (now : Nat) (rpcClient : RpcClient) (service : LeaderTpuService)
      (halive : s.outcome = none) (hrefresher : s.refresher = .looping)
      (hstep : s.service.step fromStr (.fetch now rpcClient) = some service)
      (hphase : service.phase = .sleeping) :
      Moves s (.fetch now rpcClient) (refresherTop { s with service := service })
  | fetched (now : Nat) (rpcClient : RpcClient) (service : LeaderTpuService) (readAt : Nat)
      (info : LeaderTpuCacheUpdateInfo) (halive : s.outcome = none)
      (hrefresher : s.refresher = .looping) (hsleeping : s.service.phase = .sleeping)
      (hstep : s.service.step fromStr (.fetch now rpcClient) = some service)
      (hphase : service.phase = .fetched readAt info) :
      Moves s (.fetch now rpcClient) { s with service := service }
  | updatePanicked (now readAt : Nat) (info : LeaderTpuCacheUpdateInfo)
      (halive : s.outcome = none) (hrefresher : s.refresher = .looping)
      (hphase : s.service.phase = .fetched readAt info)
      (hstep : s.service.step fromStr (.update now) = none) :
      Moves s (.update now) (s.endWith .panicked)
  | updated (now : Nat) (service : LeaderTpuService) (halive : s.outcome = none)
      (hrefresher : s.refresher = .looping)
      (hstep : s.service.step fromStr (.update now) = some service) :
      Moves s (.update now) (refresherTop { s with service := service })

section Steps

variable {fromStr} {s t : ServiceTask} {ev : TaskEvent}

theorem moves_of_taskStep (halive : s.outcome = none) (h : s.taskStep fromStr ev = some t) :
    Moves fromStr s ev t := by
  cases ev with
  | storeExit => cases h
  | subscribe ok =>
      cases hwatcher : s.watcher <;> simp only [taskStep, hwatcher, reduceCtorEq] at h
      cases ok with
      | true =>
          cases h
          exact .subscribed halive hwatcher
      | false =>
          cases h
          exact .refused halive hwatcher
  | notification update =>
      cases hwatcher : s.watcher <;> simp only [taskStep, hwatcher, reduceCtorEq] at h
      cases hslot : update.currentSlot? with
      | some currentSlot =>
          rw [hslot, ← hwatcher] at h
          cases h
          exact .recorded update currentSlot halive hwatcher hslot
      | none =>
          rw [hslot] at h
          cases h
          exact .ignored update halive hwatcher hslot
  | pollOver ended =>
      cases hwatcher : s.watcher <;> simp only [taskStep, hwatcher, reduceCtorEq] at h
      · cases h
        exact .pollOver ended halive hwatcher
      · cases h
        exact .spin ended halive hwatcher
  | close ok =>
      cases hwatcher : s.watcher <;> simp only [taskStep, hwatcher, reduceCtorEq] at h
      cases ok with
      | true =>
          cases h
          exact .closed halive hwatcher
      | false =>
          cases h
          exact .closeFailed halive hwatcher
  | begin =>
      cases hrefresher : s.refresher <;> simp only [taskStep, hrefresher, reduceCtorEq] at h
      cases h
      exact .begin halive hrefresher
  | fetch now rpcClient =>
      cases hrefresher : s.refresher <;> simp only [taskStep, hrefresher, reduceCtorEq] at h
      cases hsleeping : s.service.phase with
      | fetched readAt info => simp [hsleeping] at h
      | sleeping =>
          cases hstep : s.service.step fromStr (.fetch now rpcClient) with
          | none =>
              simp only [hsleeping, hstep, Option.some.injEq] at h
              subst h
              exact .fetchPanicked now rpcClient halive hrefresher hsleeping hstep
          | some service =>
              cases hphase : service.phase with
              | sleeping =>
                  simp only [hsleeping, hstep, hphase, Option.some.injEq] at h
                  subst h
                  exact .fetchedNothing now rpcClient service halive hrefresher hstep hphase
              | fetched readAt info =>
                  simp only [hsleeping, hstep, hphase, Option.some.injEq] at h
                  subst h
                  rw [← hrefresher]
                  exact .fetched now rpcClient service readAt info halive hrefresher hsleeping
                    hstep hphase
  | update now =>
      cases hrefresher : s.refresher <;> simp only [taskStep, hrefresher, reduceCtorEq] at h
      cases hfetched : s.service.phase with
      | sleeping => simp [hfetched] at h
      | fetched readAt info =>
          cases hstep : s.service.step fromStr (.update now) with
          | none =>
              simp only [hfetched, hstep, Option.some.injEq] at h
              subst h
              exact .updatePanicked now readAt info halive hrefresher hfetched hstep
          | some service =>
              simp only [hfetched, hstep, Option.some.injEq] at h
              subst h
              exact .updated now service halive hrefresher hstep

theorem moves_of_step (h : s.step fromStr ev = some t) : Moves fromStr s ev t := by
  cases ev with
  | storeExit =>
      cases h
      exact .storeExit
  | _ =>
      cases houtcome : s.outcome with
      | some outcome => simp [step, houtcome] at h
      | none =>
          simp only [step, houtcome] at h
          exact moves_of_taskStep houtcome h

/-- Joining the two loops and looking at the flag changes neither the service nor the flag. -/
@[simp] theorem service_joinBoth (s : ServiceTask) : s.joinBoth.service = s.service := by
  unfold joinBoth
  split <;> rfl

@[simp] theorem exit_joinBoth (s : ServiceTask) : s.joinBoth.exit = s.exit := by
  unfold joinBoth
  split <;> rfl

@[simp] theorem watcher_joinBoth (s : ServiceTask) : s.joinBoth.watcher = s.watcher := by
  unfold joinBoth
  split <;> rfl

@[simp] theorem refresher_joinBoth (s : ServiceTask) : s.joinBoth.refresher = s.refresher := by
  unfold joinBoth
  split <;> rfl

@[simp] theorem service_watcherTop (s : ServiceTask) (next : WatcherPhase) :
    (s.watcherTop next).service = s.service := rfl

@[simp] theorem exit_watcherTop (s : ServiceTask) (next : WatcherPhase) :
    (s.watcherTop next).exit = s.exit := rfl

@[simp] theorem service_refresherTop (s : ServiceTask) : s.refresherTop.service = s.service :=
  service_joinBoth _

@[simp] theorem exit_refresherTop (s : ServiceTask) : s.refresherTop.exit = s.exit :=
  exit_joinBoth _

@[simp] theorem watcher_refresherTop (s : ServiceTask) : s.refresherTop.watcher = s.watcher :=
  watcher_joinBoth _

theorem exit_of_refresherTop (h : s.refresherTop.refresher = .done) :
    s.refresherTop.exit = true := by
  rw [refresherTop, refresher_joinBoth] at h
  rw [exit_refresherTop]
  by_contra hexit
  simp [hexit] at h

@[simp] theorem service_endWith (s : ServiceTask) (outcome : TaskEnd) :
    (s.endWith outcome).service = s.service := rfl

@[simp] theorem exit_endWith (s : ServiceTask) (outcome : TaskEnd) :
    (s.endWith outcome).exit = s.exit := rfl

end Steps

/-! ## The service inside the task -/

/-- The step that the service takes, if it takes one. -/
def serviceEvents (s : ServiceTask) : TaskEvent → List ServiceEvent
  | .notification update => (update.currentSlot?.map ServiceEvent.recordSlot).toList
  | .fetch now rpcClient =>
      if (s.service.step fromStr (.fetch now rpcClient)).isSome then [.fetch now rpcClient] else []
  | .update now => if (s.service.step fromStr (.update now)).isSome then [.update now] else []
  | _ => []

section Service

variable {fromStr} {s t : ServiceTask} {ev : TaskEvent}

theorem service_step (h : s.step fromStr ev = some t) :
    (LeaderTpuService.machine fromStr).run s.service (serviceEvents fromStr s ev) =
      some t.service := by
  cases moves_of_step h with
  | recorded update currentSlot _ _ hslot => simp [serviceEvents, hslot, Machine.run,
      LeaderTpuService.machine, LeaderTpuService.step]
  | ignored update _ _ hslot => simp [serviceEvents, hslot]
  | fetchPanicked now rpcClient _ _ _ hstep => simp [serviceEvents, hstep]
  | fetchedNothing now rpcClient service _ _ hstep hphase =>
      simp [serviceEvents, hstep, Machine.run, LeaderTpuService.machine]
  | fetched now rpcClient service readAt info _ _ _ hstep hphase =>
      simp [serviceEvents, hstep, Machine.run, LeaderTpuService.machine]
  | updatePanicked now readAt info _ _ _ hstep => simp [serviceEvents, hstep]
  | updated now service _ _ hstep =>
      simp [serviceEvents, hstep, Machine.run, LeaderTpuService.machine]
  | _ => simp [serviceEvents]

/-- What a run of the task does to the service is a run of the service. -/
theorem run_service {evs : List TaskEvent} (hrun : (machine fromStr).run s evs = some t) :
    (LeaderTpuService.machine fromStr).run s.service
      ((machine fromStr).history (serviceEvents fromStr) s evs) = some t.service :=
  (machine fromStr).run_projection (LeaderTpuService.machine fromStr) (·.service)
    (fun _ _ _ hnext => service_step hnext) hrun

/-- Once the task has ended, nothing but the flag changes. -/
theorem ended_step {outcome : TaskEnd} (hs : s.outcome = some outcome)
    (h : s.step fromStr ev = some t) : t.outcome = some outcome ∧ t.service = s.service := by
  cases ev with
  | storeExit =>
      cases h
      exact ⟨hs, rfl⟩
  | _ => simp [step, hs] at h

end Service

end ServiceTask
end Engine
end TpuSender
