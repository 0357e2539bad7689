import TpuSender.Engine.RefreshTiming
import TpuSender.Server.ServerWrites

/-!
# TimedServer — how old the addresses are that transactions are sent to

The running server with a clock.  Every step has a time, and the refresher reads the clock for its
fetches and updates.  The requests are not tied to the clock: a send may take as long as it likes.

If no step comes more than `delay` after the refresher should have taken its own, and the node
answers for the cluster, then whatever is written on a client's stream goes to an address that was
stored at most five minutes, one sleep and three delays before the attempt fanned out
(`writes_go_to_fresh_sockets`).
-/

namespace TpuSender
namespace Server

open Library Engine Quik

/-- A step and its time. -/
structure TimedEvent (R Conn : Type) where
  now : Nat
  event : ServerEvent R Conn

/-- The step that the leader service takes. -/
def ServerEvent.service? {R Conn : Type} : ServerEvent R Conn → Option ServiceEvent
  | .service e => some e
  | _ => none

theorem service?_eq_some {R Conn : Type} {ev : ServerEvent R Conn} {e : ServiceEvent}
    (h : ev.service? = some e) : ev = .service e := by
  cases ev with
  | service e' => exact congrArg ServerEvent.service (Option.some.inj h)
  | _ => cases h

/-- The service reads its clock at `now`, if it does. -/
def readsAt (now : Nat) : ServiceEvent → Bool
  | .recordSlot _ => true
  | .fetch read _ => read = now
  | .update read => read = now

structure TimedServer {R E Conn : Type} (σ : Setup R E Conn) where
  server : ServerState σ
  now : Nat
  /-- When the refresher has taken its last step. -/
  clock : Nat
  /-- When the sleep of the refresher is over. -/
  wakeAt : Nat

namespace TimedServer

variable {R E Conn : Type} [DecidableEq R] {σ : Setup R E Conn}

/-- The leader service and its refresher's times. -/
def refresher (s : TimedServer σ) : TimedService :=
  { service := s.server.service
    clock := s.clock
    wakeAt := s.wakeAt }

def setRefresher (s : TimedServer σ) (refresher : TimedService) : TimedServer σ :=
  { s with
    server := { s.server with service := refresher.service }
    clock := refresher.clock
    wakeAt := refresher.wakeAt }

/-- A server that has just got its requests, at the time its leader service starts. -/
def start (σ : Setup R E Conn) (service : LeaderTpuService) (now : Nat) : TimedServer σ :=
  { server := ServerState.start σ service
    now := now
    clock := (TimedService.start service now).clock
    wakeAt := (TimedService.start service now).wakeAt }

def step (s : TimedServer σ) (ev : TimedEvent R Conn) : Option (TimedServer σ) :=
  if s.now ≤ ev.now then
    match ev.event.service? with
    | some e =>
        if readsAt ev.now e then do
          let refresher ← s.refresher.step σ.fromStr e
          pure { s.setRefresher refresher with now := ev.now }
        else none
    | none => do
        let server ← s.server.step ev.event
        pure { s with server := server, now := ev.now }
  else none

def machine (σ : Setup R E Conn) : Machine (TimedServer σ) (TimedEvent R Conn) := { next := step }

/-! ## What a step can do -/

section Steps

variable {s t : TimedServer σ} {ev : TimedEvent R Conn}

/-- The refresher takes the step at the time that it reads, or the server takes it and leaves the
leader service alone. -/
theorem step_cases (h : s.step ev = some t) :
    (∃ e, ev.event = .service e ∧ readsAt ev.now e = true ∧
        s.refresher.step σ.fromStr e = some t.refresher ∧
        t.server = { s.server with service := t.server.service }) ∨
      ev.event.service? = none ∧ s.server.step ev.event = some t.server ∧
        t.refresher = s.refresher := by
  by_cases htime : s.now ≤ ev.now
  · cases hservice : ev.event.service? with
    | some e =>
        by_cases hreads : readsAt ev.now e = true
        · simp only [step, htime, hservice, hreads, if_true, bind, Option.bind_eq_some_iff, pure,
            Option.some.injEq] at h
          rcases h with ⟨refresher, hrefresher, rfl⟩
          exact .inl ⟨e, service?_eq_some hservice, hreads, hrefresher, rfl⟩
        · simp [step, htime, hservice, hreads] at h
    | none =>
        simp only [step, htime, hservice, if_true, bind, Option.bind_eq_some_iff, pure,
          Option.some.injEq] at h
        rcases h with ⟨server, hserver, rfl⟩
        refine .inr ⟨rfl, hserver, ?_⟩
        -- the requests leave the leader service alone
        have hsame : server.service = s.server.service := by
          rcases ServerState.step_parts hserver with
            ⟨e, service, hevent, _, _⟩ | ⟨_, _, _, _, _, _, _, _, _, rfl⟩ | ⟨_, _, _, _, rfl⟩
          · rw [hevent] at hservice
            cases hservice
          · rfl
          · rfl
        simp only [refresher, hsame]
  · simp [step, htime] at h

/-- Without its times, a step is a step of the server. -/
theorem step_server (h : s.step ev = some t) : s.server.step ev.event = some t.server := by
  rcases step_cases h with ⟨e, hevent, _, hrefresher, hserver⟩ | ⟨_, hserver, _⟩
  · have hservice : s.server.service.step σ.fromStr e = some t.server.service :=
      TimedService.step_service hrefresher
    rw [hserver]
    simp [hevent, ServerState.step, hservice]
  · exact hserver

theorem run_server {evs : List (TimedEvent R Conn)} (hrun : (machine σ).run s evs = some t) :
    (ServerState.machine σ).run s.server (evs.map TimedEvent.event) = some t.server := by
  have hview : (ServerState.machine σ).run s.server (evs.filterMap fun ev => some ev.event) =
      some t.server := by
    refine (machine σ).run_view (ServerState.machine σ) TimedServer.server ?_ hrun
    intro u ev v hnext
    exact (Machine.run_cons_eq_some _).2 ⟨v.server, step_server hnext, rfl⟩
  simpa using hview

end Steps

/-! ## The age of the sockets -/

/-- When the refresher takes its next step. -/
def deadline (s : TimedServer σ) : Nat :=
  match s.server.service.phase with
  | .sleeping => s.wakeAt
  | .fetched _ _ => s.clock

/-- The node knows the cluster. -/
def Answered : ServerEvent R Conn → Prop
  | .service (.fetch _ rpcClient) => ∃ nodes, rpcClient.getClusterNodes = .ok nodes
  | _ => True

/-- The refresher is never more than `delay` late, whoever takes the step. -/
def Timely (delay : Nat) (s : TimedServer σ) (ev : TimedEvent R Conn) : Prop :=
  ev.now ≤ s.deadline + delay ∧ Answered ev.event

/-- When the service has stored sockets, and which. -/
def refreshes (s : TimedServer σ) (ev : TimedEvent R Conn) :
    List (Nat × (Pubkey → Option SocketAddr)) :=
  match ev.event.service? with
  | some e => TimedService.refreshes σ.fromStr s.refresher e
  | none => []

section Age

variable {s t : TimedServer σ} {ev : TimedEvent R Conn} {delay : Nat}

omit [DecidableEq R] in
/-- A step of the service that is timely for the server is timely for the refresher. -/
theorem Timely.refresher {e : ServiceEvent} (htimely : Timely delay s ev)
    (hevent : ev.event = .service e) (hreads : readsAt ev.now e = true)
    {refresher : TimedService} (hstep : s.refresher.step σ.fromStr e = some refresher) :
    TimedService.Timely delay s.refresher e := by
  rcases htimely with ⟨hlate, hanswered⟩
  cases e with
  | recordSlot v => trivial
  | fetch now rpc =>
      have hnow : now = ev.now := by simpa [readsAt] using hreads
      have hsleeping : s.server.service.phase = .sleeping :=
        (TimedService.step_fetch hstep).2.1
      rw [hevent] at hanswered
      simp only [deadline, hsleeping] at hlate
      exact ⟨hnow ▸ hlate, hanswered⟩
  | update now =>
      have hnow : now = ev.now := by simpa [readsAt] using hreads
      rcases TimedService.step_update hstep with ⟨_, readAt, info, _, hphase, _, _⟩
      have hfetched : s.server.service.phase = .fetched readAt info := hphase
      simp only [deadline, hfetched] at hlate
      change now ≤ s.clock + delay
      exact hnow ▸ hlate

theorem fresh_step (h : TimedService.Fresh delay s.refresher) (htimely : Timely delay s ev)
    (hstep : s.step ev = some t) : TimedService.Fresh delay t.refresher := by
  rcases step_cases hstep with ⟨e, hevent, hreads, hrefresher, _⟩ | ⟨_, _, hsame⟩
  · exact h.step (htimely.refresher hevent hreads hrefresher) hrefresher
  · exact hsame ▸ h

omit [DecidableEq R] in
/-- Whoever takes the step, the sockets in use are no older than that. -/
theorem age_le (h : TimedService.Fresh delay s.refresher) (htimely : Timely delay s ev) :
    ev.now ≤ s.server.service.lastClusterRefresh + TimedService.maxAge delay + 2 * delay := by
  have hlate : ev.now ≤ s.deadline + delay := htimely.1
  cases hphase : s.server.service.phase with
  | sleeping =>
      have hwake : s.wakeAt ≤ s.server.service.lastClusterRefresh + TimedService.maxAge delay :=
        (h.sleeping hphase).2
      simp only [deadline, hphase] at hlate
      omega
  | fetched readAt info =>
      have hclock : s.clock ≤
          s.server.service.lastClusterRefresh + TimedService.maxAge delay + delay :=
        (h.fetched readAt info hphase).2.1
      simp only [deadline, hphase] at hlate
      omega

theorem refreshes_step (hstep : s.step ev = some t) :
    (t.server.service.lastClusterRefresh, t.server.service.leaderTpuCache.leaderTpuMap) =
      (lastOf some (refreshes s ev)).getD
        (s.server.service.lastClusterRefresh, s.server.service.leaderTpuCache.leaderTpuMap) := by
  rcases step_cases hstep with ⟨e, hevent, _, hrefresher, _⟩ | ⟨hnone, _, hsame⟩
  · have hobserved : refreshes s ev = TimedService.refreshes σ.fromStr s.refresher e := by
      rw [refreshes, hevent]
      rfl
    rw [hobserved]
    exact TimedService.refreshes_step hrefresher
  · have hservice : t.server.service = s.server.service := congrArg TimedService.service hsame
    rw [refreshes, hnone, hservice]
    rfl

end Age

/-- The sockets that the service has after the steps `evs`, and when it stored them. -/
def storedAfter (σ : Setup R E Conn) (service : LeaderTpuService) (started : Nat)
    (evs : List (TimedEvent R Conn)) : Nat × (Pubkey → Option SocketAddr) :=
  (lastOf some ((machine σ).history refreshes (start σ service started) evs)).getD
    (started, service.leaderTpuCache.leaderTpuMap)

/-- While the refresher is never more than `delay` late and the node knows the cluster, whatever is
written on a client's stream goes to the socket that the last stored cluster answer, or the start,
gives the leader of a slot in the fan-out's range; and that answer was stored at most five minutes,
one sleep and three delays before the attempt fanned out. -/
theorem writes_go_to_fresh_sockets {σ : Setup R E Conn} {rpc : RpcClient}
    {startSlot started delay : Nat} {protocol : Protocol} {service : LeaderTpuService}
    (hnew : LeaderTpuService.ofAnswers σ.fromStr rpc startSlot protocol started = some service)
    {evs : List (TimedEvent R Conn)} {t : TimedServer σ}
    (htimely : (machine σ).Steps (Timely delay) (start σ service started) evs)
    (hrun : (machine σ).run (start σ service started) evs = some t) {c : ClientId} {r : R}
    {b : Fin (σ.batchCount r)} {a : Fin MAX_RETRIES} {connection : Conn} {data : List UInt8}
    {outcome : StreamWrite}
    (hdone : ServerState.HasDone c ⟨r, b, a⟩ (.wrote connection data outcome) t.server) :
    ∃ before now pool after s currentSlot slot k storedAt sockets,
      evs = before ++ ⟨now, .fanOut r pool⟩ :: after ∧
        (machine σ).run (start σ service started) before = some s ∧
        (s.server.requests r).phase = .estimated b a currentSlot ∧
        slot ∈ LeaderTpuCache.probedSlots
          (max currentSlot s.server.service.leaderTpuCache.firstSlot) σ.fanoutSlots ∧
        s.server.service.leaderTpuCache.getSlotLeader slot = some k ∧
        storedAfter σ service started before = (storedAt, sockets) ∧ sockets k = some c.addr ∧
        now ≤ storedAt + TimedService.maxAge delay + 2 * delay := by
  -- the attempt's fan-out, first without the times
  rcases ServerState.exists_fanOut (run_server hrun) hdone with
    ⟨seen, pool, later, u, currentSlot, leaders, hsplit, hseen, hfans⟩
  rcases List.map_eq_append_iff.1 hsplit with ⟨before, rest, rfl, rfl, hrest⟩
  rcases List.map_eq_cons_iff.1 hrest with ⟨⟨now, event⟩, after, rfl, hevent, rfl⟩
  cases hevent
  rcases (Machine.run_append_eq_some _).1 hrun with ⟨s, hbefore, _⟩
  have hs : s.server = u := Option.some.inj ((run_server hbefore).symm.trans hseen)
  subst hs
  -- then what the refresher has kept up to it
  rcases TimedService.fields_ofAnswers hnew with ⟨hphase, hsleep, hlast⟩
  have hfresh : TimedService.Fresh delay s.refresher := by
    refine (machine σ).run_invariant_of_steps
      (I := fun v : TimedServer σ => TimedService.Fresh delay v.refresher) ?_
      (TimedService.fresh_start hphase hsleep hlast)
      (Machine.Steps.of_append (machine σ) htimely) hbefore
    intro v ev w hv hev hnext
    exact fresh_step hv hev hnext
  have hstored : (s.server.service.lastClusterRefresh,
      s.server.service.leaderTpuCache.leaderTpuMap) = storedAfter σ service started before := by
    have hlastOf := (machine σ).run_lastOf (I := fun _ => True)
      (fun v => (v.server.service.lastClusterRefresh, v.server.service.leaderTpuCache.leaderTpuMap))
      (fun _ _ _ _ _ => trivial) (fun _ _ _ _ hnext => refreshes_step hnext) trivial hbefore
    rw [show (start σ service started).server.service.lastClusterRefresh = started from hlast]
      at hlastOf
    exact hlastOf
  have hnow : Timely delay s ⟨now, .fanOut r pool⟩ := by
    have hafter := Machine.Steps.after (machine σ) htimely hbefore
    rcases (Machine.run_append_eq_some _).1 hrun with ⟨s', hbefore', hrest⟩
    cases hbefore.symm.trans hbefore'
    rcases (Machine.run_cons_eq_some _).1 hrest with ⟨v, hv, _⟩
    exact (hafter v hv).1
  rcases hfans.exists_leader with ⟨slot, k, hslot, hleader, hmap⟩
  exact ⟨before, now, pool, after, s, currentSlot, slot, k, _, _, rfl, hbefore, hfans.phase, hslot,
    hleader, hstored.symm, hmap, age_le hfresh hnow⟩

/-- A node that knows one leader. -/
def loneLeaderRpc : RpcClient :=
  { getClusterNodes := .ok [⟨"leader", none, some (.V4 0 8009)⟩]
    getEpochInfo := .ok { slotsInEpoch := 432000 }
    getSlotLeaders := fun _ n => .ok (List.replicate n 1) }

/-- The first caller's transaction is written 4 ns after the start. -/
def firstWrite : List (TimedEvent Bool Nat) :=
  [⟨1, .estimate true⟩, ⟨2, .fanOut true fun _ => 0⟩,
    ⟨3, .call true 0 (.lock ⟨.ok (.connected 7), .error .EndpointStopping⟩)⟩,
    ⟨4, .call true 0 (.write .written)⟩]

theorem writes_go_to_fresh_sockets_first_write :
    ∃ service,
      LeaderTpuService.ofAnswers (fun _ => some 1) loneLeaderRpc 0 .QUIC 0 = some service ∧
        ∃ before now pool after, firstWrite = before ++ ⟨now, .fanOut true pool⟩ :: after ∧
          now ≤ (storedAfter ServerState.twoCallers service 0 before).1 +
            TimedService.maxAge 5 + 2 * 5 := by
  have hnew : (LeaderTpuService.ofAnswers (fun _ => some 1) loneLeaderRpc 0 .QUIC 0).isSome := rfl
  rcases Option.isSome_iff_exists.1 hnew with ⟨service, hnew⟩
  have hends : ((machine ServerState.twoCallers).run (start ServerState.twoCallers service 0)
      firstWrite).map (fun t => ((t.server.clients ⟨.V4 0 8009, 0⟩).calls
        ⟨true, ⟨0, by decide⟩, ⟨0, by decide⟩⟩).log) =
      some [.wrote 7 [1] .written, .chose (.made 7)] := by
    cases hnew
    rfl
  rcases Option.map_eq_some_iff.1 hends with ⟨t, hrun, hlog⟩
  have htimely : (machine ServerState.twoCallers).Steps (Timely 5)
      (start ServerState.twoCallers service 0) firstWrite := by
    cases hnew
    intro u hu
    cases hu
    refine ⟨⟨by decide, trivial⟩, ?_⟩
    intro u hu
    cases hu
    refine ⟨⟨by decide, trivial⟩, ?_⟩
    intro u hu
    cases hu
    refine ⟨⟨by decide, trivial⟩, ?_⟩
    intro u hu
    cases hu
    exact ⟨⟨by decide, trivial⟩, trivial⟩
  rcases writes_go_to_fresh_sockets hnew htimely hrun
    (.call (hlog ▸ List.mem_cons_self)) with
    ⟨before, now, pool, after, _, _, _, _, storedAt, _, hsplit, _, _, _, _, hstored, _, hnow⟩
  exact ⟨service, hnew, before, now, pool, after, hsplit, by rw [hstored]; exact hnow⟩

end TimedServer
end Server
end TpuSender
