import TpuSender.Engine.Alignment
import TpuSender.Server.ServerWrites

/-!
# ScheduledWrites — transactions go to the leaders of the schedule

`ServerWrites` says that a write goes to the socket of a leader that was cached for a slot of the
fan-out's range.  Whether that is the slot's leader depends on the refresher, whose answers may be
stored at another estimate than they were asked for.

`writes_reach_scheduled_leaders` puts the two together on the running server: if every stored list
of leaders reads the same from both estimates, then whatever is written goes to a socket of the
leader that the cluster's schedule names for a slot of the range.
-/

namespace TpuSender
namespace Server

open Library Engine Quik

/-- Every request of the leader service is answered by a node that follows the schedule. -/
def ServerEvent.Follows {R Conn : Type} (sched : Nat → Pubkey) : ServerEvent R Conn → Prop
  | .service e => e.Follows sched
  | _ => True

namespace ServerState

variable {R E Conn : Type} [DecidableEq R] {σ : Setup R E Conn}

/-- The condition on a step of the server: what it stores reads the same from both estimates. -/
def StoresSchedule (sched : Nat → Pubkey) (s : ServerState σ) : ServerEvent R Conn → Prop
  | .service e => StoresSameLeaders sched s.service e
  | _ => True

/-- The leader service holds the schedule: in its cache, and in the answers on their way. -/
structure OnSchedule (sched : Nat → Pubkey) (s : ServerState σ) : Prop where
  carries : CarriesSchedule sched s.service
  aligned : Aligned sched s.service.leaderTpuCache

section Schedule

variable {sched : Nat → Pubkey} {s t : ServerState σ} {ev : ServerEvent R Conn}

omit [DecidableEq R] in
theorem onSchedule_start {rpc : RpcClient} {startSlot now : Nat} {protocol : Protocol}
    {service : LeaderTpuService} (hrpc : rpc.Follows sched)
    (hnew : LeaderTpuService.ofAnswers σ.fromStr rpc startSlot protocol now = some service) :
    OnSchedule sched (start σ service) := by
  rcases aligned_ofAnswers hrpc hnew with ⟨hcarries, haligned⟩
  exact ⟨hcarries, haligned⟩

/-- The steps of the service that meet the condition keep the schedule; those of the requests do not
touch it. -/
theorem OnSchedule.step (h : OnSchedule sched s) (hfollows : ev.Follows sched)
    (hstores : StoresSchedule sched s ev) (hstep : s.step ev = some t) : OnSchedule sched t := by
  rcases step_parts hstep with
    ⟨e, service, rfl, hservice, rfl⟩ | ⟨_, _, _, _, _, _, rfl, _, _, rfl⟩ | ⟨_, _, _, _, rfl⟩
  · have hcarries : CarriesSchedule sched service :=
      carriesSchedule_step hfollows h.carries hservice
    have haligned : Aligned sched service.leaderTpuCache :=
      (aligned_step_iff h.carries h.aligned hservice).2 hstores
    exact ⟨hcarries, haligned⟩
  · exact ⟨h.carries, h.aligned⟩
  · exact ⟨h.carries, h.aligned⟩

theorem OnSchedule.run {evs : List (ServerEvent R Conn)} (h : OnSchedule sched s)
    (hfollows : ∀ ev ∈ evs, ev.Follows sched)
    (hstores : (machine σ).Steps (StoresSchedule sched) s evs)
    (hrun : (machine σ).run s evs = some t) : OnSchedule sched t := by
  have hboth : (machine σ).Steps (fun u ev => StoresSchedule sched u ev ∧ ev.Follows sched) s evs :=
    Machine.Steps.and (machine σ) hstores (Machine.Steps.of_labels (machine σ) hfollows)
  refine (machine σ).run_invariant_of_steps ?_ h hboth hrun
  intro u ev v hu hev hnext
  exact hu.step hev.2 hev.1 hnext

end Schedule

/-- If all answers follow the schedule and every stored list of leaders reads the same from the
estimate it was fetched at and from the one it is stored at, then in every interleaving whatever is
written on a client's stream goes to a socket that the cluster has given for the leader that the
schedule names for a slot of the attempt's fan-out. -/
theorem writes_reach_scheduled_leaders (sched : Nat → Pubkey) {rpc : RpcClient}
    {startSlot started : Nat} {protocol : Protocol} {service : LeaderTpuService}
    (hrpc : rpc.Follows sched)
    (hnew : LeaderTpuService.ofAnswers σ.fromStr rpc startSlot protocol started = some service)
    {evs : List (ServerEvent R Conn)} {t : ServerState σ}
    (hfollows : ∀ ev ∈ evs, ev.Follows sched)
    (hstores : (machine σ).Steps (StoresSchedule sched) (start σ service) evs)
    (hrun : (machine σ).run (start σ service) evs = some t) {c : ClientId} {r : R}
    {b : Fin (σ.batchCount r)} {a : Fin MAX_RETRIES} {connection : Conn} {data : List UInt8}
    {outcome : StreamWrite} (hdone : HasDone c ⟨r, b, a⟩ (.wrote connection data outcome) t) :
    ∃ before pool after s currentSlot slot, evs = before ++ .fanOut r pool :: after ∧
      (machine σ).run (start σ service) before = some s ∧
      (s.requests r).phase = .estimated b a currentSlot ∧
      slot ∈ LeaderTpuCache.probedSlots (max currentSlot s.service.leaderTpuCache.firstSlot)
        σ.fanoutSlots ∧
      Learned σ.fromStr service.leaderTpuCache (answersAfter σ service before) (sched slot)
        c.addr := by
  rcases exists_fanOut hrun hdone with
    ⟨before, pool, after, s, currentSlot, leaders, rfl, hbefore, hfans⟩
  have hschedule : OnSchedule sched s := by
    refine (onSchedule_start hrpc hnew).run ?_ (Machine.Steps.of_append (machine σ) hstores) hbefore
    intro ev hev
    exact hfollows ev (List.mem_append_left _ hev)
  rcases hfans.exists_leader with ⟨slot, k, hslot, hleader, hmap⟩
  -- the cached leader of the slot is the scheduled one
  have hk : k = sched slot := hschedule.aligned slot k hleader
  subst hk
  have hfrom := fromLastAnswers_run (run_service hbefore)
  exact ⟨before, pool, after, s, currentSlot, slot, rfl, hbefore, hfans.phase, hslot,
    learned_of_leaderTpuMap hfrom hmap⟩

/-- Leader 1 has the first four slots. -/
def twoLeaders (slot : Nat) : Pubkey := if slot < 4 then 1 else 2

/-- A node that follows the schedule and knows one entry of the cluster. -/
def twoLeadersRpc : RpcClient :=
  { getClusterNodes := .ok [⟨"leader", none, some (.V4 0 8009)⟩]
    getEpochInfo := .ok { slotsInEpoch := 432000 }
    getSlotLeaders := fun start n => .ok ((List.range' start n).map twoLeaders) }

/-- The service goes through a cycle between the first caller's estimate and its fan-out. -/
def cycleBetween : List (ServerEvent Bool Nat) :=
  [.estimate true, .service (.fetch 1 twoLeadersRpc), .service (.update 2), .fanOut true fun _ => 0,
    .call true 0 (.lock ⟨.ok (.connected 7), .error .EndpointStopping⟩),
    .call true 0 (.write .written)]

set_option maxRecDepth 4000 in
theorem writes_reach_scheduled_leaders_two_callers :
    ∃ service t,
      LeaderTpuService.ofAnswers (fun _ => some 1) twoLeadersRpc 0 .QUIC 0 = some service ∧
      (machine twoCallers).run (start twoCallers service) cycleBetween = some t ∧
      ∃ before slot, Learned (fun _ => some 1) service.leaderTpuCache
        (answersAfter twoCallers service before) (twoLeaders slot) (.V4 0 8009) := by
  have hnew : (LeaderTpuService.ofAnswers (fun _ => some 1) twoLeadersRpc 0 .QUIC 0).isSome := rfl
  rcases Option.isSome_iff_exists.1 hnew with ⟨service, hnew⟩
  have hfollows : ∀ ev ∈ cycleBetween, ev.Follows twoLeaders := by
    intro ev hev
    simp only [cycleBetween, List.mem_cons, List.not_mem_nil, or_false] at hev
    rcases hev with rfl | rfl | rfl | rfl | rfl | rfl
    · trivial
    · exact fun _ _ => rfl
    · trivial
    · trivial
    · trivial
    · trivial
  have hstores : (machine twoCallers).Steps (StoresSchedule twoLeaders) (start twoCallers service)
      cycleBetween := by
    intro u _
    refine ⟨trivial, ?_⟩
    intro v hfetch
    refine ⟨trivial, ?_⟩
    intro w _
    refine ⟨?_, fun _ _ => ⟨trivial, fun _ _ => ⟨trivial, fun _ _ => ⟨trivial, trivial⟩⟩⟩⟩
    -- no notification comes between the fetch and its update
    rcases step_service hfetch with ⟨after, hafter, rfl⟩
    have hsame : UpdatesAtReadEstimate after (.update 2) :=
      updatesAtReadEstimate_of_fetch twoCallers.fromStr hafter
    exact storesSameLeaders_of_updatesAtReadEstimate twoLeaders after (.update 2) hsame
  have hends : ((machine twoCallers).run (start twoCallers service) cycleBetween).map
      (fun t => ((t.clients ⟨.V4 0 8009, 0⟩).calls
        ⟨true, ⟨0, by decide⟩, ⟨0, by decide⟩⟩).log.head?) =
        some (some (.wrote 7 [1] .written)) := by
    cases hnew
    rfl
  rcases Option.map_eq_some_iff.1 hends with ⟨t, hrun, hlog⟩
  rcases writes_reach_scheduled_leaders (σ := twoCallers) twoLeaders (fun _ _ => rfl) hnew hfollows
    hstores hrun (.call (List.mem_of_mem_head? hlog)) with
    ⟨before, _, _, _, _, slot, _, _, _, _, hlearned⟩
  exact ⟨service, t, hnew, hrun, before, slot, hlearned⟩

end ServerState
end Server
end TpuSender
