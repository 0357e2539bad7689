import TpuSender.Engine.ClusterSockets
import TpuSender.Engine.FetchHistory
import TpuSender.Quik.CallBudget
import TpuSender.Server.ServerRefinement

/-!
# ServerWrites — what reaches the leaders

Two sides of the running server's promise, in every interleaving.

* A successful response means that each of the request's transactions was written on a leader's
  stream during one of its attempts, except an empty one that is the first of its batch
  (`success_delivers_among_others`).
* Whatever is written on a client's stream is a decoded transaction of the request that the send
  belongs to; and when the attempt began, the client's address was the cached socket of the leader
  of a slot in the fan-out's range, learned from a cluster-nodes answer (`writes_reach_leaders`).
-/

namespace TpuSender
namespace Server

open Library Engine Quik

/-- The transactions of a request, as they were submitted. -/
def Request.transactions : Request → List (List UInt8)
  | .sendTxn txn => [txn]
  | .sendBatch txns => txns

namespace ServerState

variable {R E Conn : Type} {σ : Setup R E Conn}

/-! ## Success means delivery -/

/-- In one of the attempts a leader's stream took exactly `data`. -/
def Delivered (past : List (AttemptReport Conn)) (data : List UInt8) : Prop :=
  ∃ report ∈ past, ∃ addr outcome connection, (addr, outcome) ∈ report.sends ∧
    Op.wrote connection data .written ∈ outcome.ops

section Delivery

variable {network : Nat → Network Conn} {past : List (AttemptReport Conn)}

/-- A call that succeeds has delivered its buffers, the first one unless it is empty. -/
theorem delivered_of_success (hnetwork : ExplainsAll σ network past) {k : Nat}
    {buffers : List (List UInt8)} (hk : (past.map AttemptReport.buffers)[k]? = some buffers)
    (hok : trySendWireTransactionBatch σ.api σ.stableId (network k) buffers = some (.ok ()))
    {p : Nat} {data : List UInt8} (hplace : buffers[p]? = some data) (hp : p = 0 → data ≠ []) :
    Delivered past data := by
  rw [List.getElem?_map, Option.map_eq_some_iff] at hk
  rcases hk with ⟨report, hreport, hbuffers⟩
  have hexplains := hnetwork k report hreport
  rcases trySendWireTransactionBatch_ok hok with ⟨addr, haddr, hresult⟩
  rw [hexplains.leaders] at haddr
  rcases List.mem_map.1 haddr with ⟨⟨addr', outcome⟩, hmem, rfl⟩
  have hsend := hexplains.sends addr' outcome hmem
  rw [hbuffers] at hsend
  rcases wroteAt_of_ok hresult hplace hp with ⟨n, connection, hwrote, _⟩
  exact ⟨report, List.mem_of_getElem? hreport, addr', outcome, connection, hmem,
    hsend ▸ List.mem_of_getElem? hwrote⟩

end Delivery

/-- In every interleaving, a success of `/send_txn` means that a transaction which decodes to at
least one byte was written to a leader, and a success of `/send_batch` that each transaction that
decodes was, unless it is empty and the first of its batch. -/
theorem success_delivers_among_others [DecidableEq R] (σ : Setup R E Conn)
    (service : LeaderTpuService) (evs : List (ServerEvent R Conn)) (t : ServerState σ)
    (hrun : (machine σ).run (start σ service) evs = some t) (r : R) (response : TransactionResponse)
    (hphase : (t.requests r).phase = .answered response) (hstatus : response.status = "success") :
    (∀ txn data, σ.requests r = .sendTxn txn → σ.decode txn = some data → data ≠ [] →
        Delivered ((machine σ).history (reports r) (start σ service) evs) data) ∧
      ∀ txns i data, σ.requests r = .sendBatch txns →
        (txns.filterMap σ.decode)[i]? = some data → i % 10 ≠ 0 ∨ data ≠ [] →
        Delivered ((machine σ).history (reports r) (start σ service) evs) data := by
  have hserved := served_run hrun r
  rcases hserved.exists_network with ⟨network, hnetwork⟩
  have halone := hserved.answered hnetwork hphase
  constructor
  · intro txn data hrequest hdecode hdata
    simp only [Setup.handleAlone, hrequest, Prod.mk.injEq] at halone
    rcases retryTransaction_success halone.1 hstatus with ⟨k, hk, hok⟩
    rw [hdecode, Option.getD_some, Nat.zero_add] at hok
    rw [hdecode, Option.getD_some] at hk
    rw [trySendWireTransaction_eq_batch] at hok
    refine delivered_of_success hnetwork ?_ hok (p := 0) rfl fun _ => hdata
    rw [← halone.2, List.getElem?_map]
    exact congrArg (Option.map fun payload => [payload]) hk
  · intro txns i data hrequest hdata hwritten
    simp only [Setup.handleAlone, hrequest, Prod.mk.injEq] at halone
    rcases exists_chunk_of_getElem? (by decide : 0 < 10) hdata with ⟨hbatch, hplace⟩
    rcases exists_successful_call halone.1 hstatus hbatch with ⟨call, hcall, hok, _⟩
    have hp : i % 10 = 0 → data ≠ [] := fun hmod => hwritten.resolve_left fun hne => hne hmod
    exact delivered_of_success hnetwork (halone.2 ▸ hcall) hok hplace hp

theorem success_delivers_among_others_two_callers :
    ∃ t, (machine twoCallers).run (start twoCallers loneLeader) sharedLeader = some t ∧
      (t.requests true).phase = .answered (success 1) ∧
      Delivered ((machine twoCallers).history (reports true) (start twoCallers loneLeader)
        sharedLeader) [1] :=
  ⟨_, rfl, rfl, (success_delivers_among_others twoCallers loneLeader sharedLeader _ rfl true
    (success 1) rfl rfl).1 [1] [1] rfl rfl (by decide)⟩

/-! ## Nothing but submitted transactions -/

section Writes

variable {s t : ServerState σ} {c : ClientId} {id : CallId σ.batchCount}

/-- The attempt `id` is sending, and `c` is the client of one of its leaders. -/
def SendsTo (c : ClientId) (id : CallId σ.batchCount) (s : ServerState σ) : Prop :=
  ∃ sends send, (s.requests id.request).phase = .sending id.batchIndex id.batchAttempt sends ∧
    send ∈ sends ∧ send.client = c

/-- For attempt `id` the operation `op` has been done on client `c`: by the call for the first
buffer, or by a send that is still under way for one of the others. -/
inductive HasDone (c : ClientId) (id : CallId σ.batchCount) (op : Op Conn) (s : ServerState σ) :
    Prop
  | call (h : op ∈ ((s.clients c).calls id).log)
  | send (sends : List Send) (send : Send)
      (hphase : (s.requests id.request).phase = .sending id.batchIndex id.batchAttempt sends)
      (hsend : send ∈ sends) (hclient : send.client = c) (h : op ∈ (s.outcomeOf id send).ops)

/-- What an attempt sends, and does not leave out, was submitted. -/
theorem submitted_of_buffer {first : List UInt8} {rest : List (List UInt8)}
    (hbuffers : σ.buffers id = first :: rest) {data : List UInt8}
    (hdata : data ∈ rest ∨ data = first ∧ first ≠ []) :
    ∃ txn ∈ (σ.requests id.request).transactions, σ.decode txn = some data := by
  cases hrequest : σ.requests id.request with
  | sendTxn txn =>
      have hone : σ.buffers id = [(σ.decode txn).getD []] :=
        Setup.buffers_of_sendTxn hrequest id.batchIndex id.batchAttempt
      rw [hone, List.cons.injEq] at hbuffers
      rcases hbuffers with ⟨hfirst, hrest⟩
      rcases hdata with hmem | ⟨rfl, hne⟩
      · rw [← hrest] at hmem
        cases hmem
      · refine ⟨txn, List.mem_singleton.2 rfl, ?_⟩
        cases hdecode : σ.decode txn with
        | some decoded => rw [← hfirst, hdecode, Option.getD_some]
        | none =>
            -- what does not decode would be sent as an empty buffer
            rw [hdecode, Option.getD_none] at hfirst
            exact absurd hfirst.symm hne
  | sendBatch txns =>
      have hbatch : σ.buffers id ∈ (σ.requests id.request).batches σ.decode := List.get_mem _ _
      rw [hrequest] at hbatch
      have hmem : data ∈ σ.buffers id := by
        rw [hbuffers]
        rcases hdata with hmem | ⟨rfl, _⟩
        · exact List.mem_cons_of_mem first hmem
        · exact List.mem_cons_self
      have hall : data ∈ txns.filterMap σ.decode := by
        have hflat := List.mem_flatten_of_mem hbatch hmem
        rwa [Request.batches, decodedBatches, flatten_chunks (by decide)] at hflat
      exact List.mem_filterMap.1 hall

/-- The operations of a send write the first buffer, unless it is empty, and the others. -/
theorem wrote_of_mem_sendOutcome {call : Call Conn} {buffers : List (List UInt8)}
    {outcomes : List StreamWrite} (hwrites : WritesOnly (buffers.headD []) call)
    {connection : Conn} {data : List UInt8} {outcome : StreamWrite}
    (h : Op.wrote connection data outcome ∈ (sendOutcome call buffers outcomes).ops) :
    ∃ first rest, buffers = first :: rest ∧ (data ∈ rest ∨ data = first ∧ first ≠ []) := by
  cases buffers with
  | nil => simp [sendOutcome] at h
  | cons first rest =>
      refine ⟨first, rest, rfl, ?_⟩
      have hcall : Op.wrote connection data outcome ∈ call.log.reverse →
          data = first ∧ first ≠ [] :=
        fun hmem => hwrites.wrote connection data outcome (List.mem_reverse.1 hmem)
      cases hprogress : call.progress with
      | returned result =>
          cases result with
          | error err =>
              simp only [sendOutcome, hprogress] at h
              exact .inr (hcall h)
          | ok c =>
              simp only [sendOutcome, hprogress] at h
              rcases List.mem_append.1 h with hmem | hmem
              · exact .inr (hcall hmem)
              · exact .inl (mem_of_mem_writeRest hmem)
      | looping =>
          simp only [sendOutcome, hprogress] at h
          exact .inr (hcall h)
      | writing c =>
          simp only [sendOutcome, hprogress] at h
          exact .inr (hcall h)
      | panicked =>
          simp only [sendOutcome, hprogress] at h
          exact .inr (hcall h)
      | noEndpoint =>
          simp only [sendOutcome, hprogress] at h
          exact .inr (hcall h)
      | abandoned =>
          simp only [sendOutcome, hprogress] at h
          exact .inr (hcall h)

section Runs

variable [DecidableEq R] {service : LeaderTpuService} {evs : List (ServerEvent R Conn)}

theorem writesOnly_run (hrun : (machine σ).run (start σ service) evs = some t) (c : ClientId)
    (id : CallId σ.batchCount) :
    WritesOnly ((σ.buffers id).headD []) ((t.clients c).calls id) := by
  refine (ClientState.machine (CallId σ.batchCount) σ.stableId).run_invariant
    (I := fun client => ∀ id, WritesOnly ((σ.buffers id).headD []) (client.calls id)) ?_ ?_
    (run_client c hrun) id
  · intro client ev client' hclient hnext
    exact ClientState.calls_step (I := fun id call => WritesOnly ((σ.buffers id).headD []) call)
      (fun _ _ choice h _ => h.afterChoice choice)
      (fun _ _ _ outcome h hwriting => h.writeStep hwriting outcome)
      (fun _ _ h _ => ⟨h.data_eq, h.wrote, nofun⟩) hclient hnext
  · intro id
    exact writesOnly_start _

/-! ## Where an attempt's clients come from -/

/-- A client's call is moved by a send of its attempt. -/
theorem sendsTo_of_step {ev : ServerEvent R Conn} (hstep : s.step ev = some t)
    (hmoved : (t.clients c).calls id ≠ (s.clients c).calls id) : SendsTo c id s := by
  rcases step_parts hstep with
    ⟨e, service, rfl, _, rfl⟩ | ⟨r, k, act, id', send, client, rfl, hcurrent, hclient, rfl⟩ |
    ⟨_, _, r, request, rfl⟩
  · exact absurd rfl hmoved
  · by_cases hc : c = send.client
    · subst hc
      have hothers := (ClientState.step_event hclient).2
      by_cases hid : id = id'
      · subst hid
        rcases currentSend_eq_some_iff.1 hcurrent with ⟨b, a, sends, hphase, _, hsend, rfl⟩
        exact ⟨sends, send, hphase, List.mem_of_getElem? hsend, rfl⟩
      · have hsame := hothers id hid
        simp [hsame] at hmoved
    · simp [Function.update_of_ne hc] at hmoved
  · exact absurd rfl hmoved

/-- In the fan-out of the attempt, `c` is the client picked for one of its leaders. -/
structure FansOutTo (c : ClientId) (r : R) (b : Fin (σ.batchCount r)) (a : Fin MAX_RETRIES)
    (pool : SocketAddr → Nat) (currentSlot : Nat) (leaders : List SocketAddr)
    (s : ServerState σ) : Prop where
  phase : (s.requests r).phase = .estimated b a currentSlot
  sockets : s.service.leaderTpuCache.getUniqueLeaderSockets currentSlot σ.fanoutSlots = .ok leaders
  mem : c.addr ∈ leaders
  poolIndex : c.poolIndex = pool c.addr

omit [DecidableEq R] in
/-- The client's address is the cached socket of the leader of some probed slot. -/
theorem FansOutTo.exists_leader {r : R} {b : Fin (σ.batchCount r)} {a : Fin MAX_RETRIES}
    {pool : SocketAddr → Nat} {currentSlot : Nat} {leaders : List SocketAddr}
    (h : FansOutTo c r b a pool currentSlot leaders s) :
    ∃ slot k, slot ∈ LeaderTpuCache.probedSlots
        (max currentSlot s.service.leaderTpuCache.firstSlot) σ.fanoutSlots ∧
      s.service.leaderTpuCache.getSlotLeader slot = some k ∧
      s.service.leaderTpuCache.leaderTpuMap k = some c.addr := by
  have hunique := (getUniqueLeaderSockets_eq_ok h.sockets).firstOccurrences
  rcases List.mem_filterMap.1 ((hunique.mem_iff c.addr).1 h.mem) with ⟨slot, hslot, hsocket⟩
  rcases slotSocket_eq_some_iff.1 hsocket with ⟨k, hleader, hmap⟩
  exact ⟨slot, k, hslot, hleader, hmap⟩

/-- An attempt begins to send to a client where it fans out. -/
theorem fansOutTo_of_step {r : R} {b : Fin (σ.batchCount r)} {a : Fin MAX_RETRIES}
    {ev : ServerEvent R Conn} (hstep : s.step ev = some t) (hs : ¬ SendsTo c ⟨r, b, a⟩ s)
    (ht : SendsTo c ⟨r, b, a⟩ t) :
    ∃ pool currentSlot leaders, ev = .fanOut r pool ∧
      FansOutTo c r b a pool currentSlot leaders s := by
  rcases ht with ⟨sends, send, hphase, hsend, hclient⟩
  by_cases hr : ev.request = some r
  · cases ev with
    | service e => cases hr
    | call r' k act => cases hr
    | estimate r' =>
        cases hr
        rcases step_estimate hstep with ⟨b', a', currentSlot, _, _, rfl⟩
        rw [requests_setRequest_self] at hphase
        cases hphase
    | fanOut r' pool =>
        cases hr
        rcases step_fanOut hstep with ⟨b', a', currentSlot, leaders, hestimated, hleaders, rfl⟩
        rw [requests_setPhase_self] at hphase
        cases hphase
        rcases List.mem_map.1 hsend with ⟨addr, haddr, rfl⟩
        subst hclient
        exact ⟨pool, currentSlot, leaders, rfl, hestimated, hleaders, haddr, rfl⟩
    | writeRest r' k outcome =>
        cases hr
        rcases step_writeRest hstep with
          ⟨b', a', sends', send', connection, hsending, _, hk, _, _, rfl⟩
        rw [requests_setPhase_self] at hphase
        cases hphase
        -- the clients of the attempt were the same before
        refine absurd ?_ hs
        rcases List.mem_or_eq_of_mem_set hsend with hmem | rfl
        · exact ⟨sends', send, hsending, hmem, hclient⟩
        · exact ⟨sends', send', hsending, List.mem_of_getElem? hk, hclient⟩
    | join r' =>
        cases hr
        rcases step_join hstep with ⟨b', a', sends', results, _, _, rfl⟩
        rw [requests_setRequest_self] at hphase
        rcases phase_afterAttempt r (s.requests r) b' a' (aggregate σ.api results) with
          ⟨_, _, hready⟩ | ⟨_, _, hsleeping⟩ | ⟨_, hanswered⟩
        · cases hready.symm.trans hphase
        · cases hsleeping.symm.trans hphase
        · cases hanswered.symm.trans hphase
    | wake r' =>
        cases hr
        rcases step_wake hstep with ⟨b', a', _, rfl⟩
        rw [requests_setPhase_self] at hphase
        cases hphase
    | drop r' =>
        cases hr
        rcases step_drop hstep with ⟨_, _, rfl⟩
        rw [requests_setPhase_self] at hphase
        cases hphase
  · refine absurd ⟨sends, send, ?_, hsend, hclient⟩ hs
    rw [← requests_eq_of_step hstep hr]
    exact hphase

/-- Whatever has been done for an attempt on a client is preceded by the attempt's fan-out to it. -/
theorem exists_fanOut (hrun : (machine σ).run (start σ service) evs = some t) {r : R}
    {b : Fin (σ.batchCount r)} {a : Fin MAX_RETRIES} {op : Op Conn}
    (hdone : HasDone c ⟨r, b, a⟩ op t) :
    ∃ before pool after s currentSlot leaders, evs = before ++ .fanOut r pool :: after ∧
      (machine σ).run (start σ service) before = some s ∧
      FansOutTo c r b a pool currentSlot leaders s := by
  -- some state up to the last one sends to the client
  have hsends : ∃ before after s, evs = before ++ after ∧
      (machine σ).run (start σ service) before = some s ∧ SendsTo c ⟨r, b, a⟩ s := by
    cases hdone with
    | send sends send hphase hsend hclient h =>
        exact ⟨evs, [], t, (List.append_nil evs).symm, hrun, sends, send, hphase, hsend, hclient⟩
    | call h =>
        rcases (machine σ).exists_turn
          (Q := fun s =>
            (s.clients c).calls ⟨r, b, a⟩ ≠ Call.start ((σ.buffers ⟨r, b, a⟩).headD []))
          (fun hne => hne rfl) (fun heq => by rw [heq] at h; cases h) hrun with
          ⟨before, ev, after, s, u, rfl, hbefore, hnext, hs, hu⟩
        have hmoved : (u.clients c).calls ⟨r, b, a⟩ ≠ (s.clients c).calls ⟨r, b, a⟩ := by
          intro heq
          exact hs (heq ▸ hu)
        exact ⟨before, ev :: after, s, rfl, hbefore, sendsTo_of_step hnext hmoved⟩
  rcases hsends with ⟨before, after, u, rfl, hbefore, hu⟩
  have hstart : ¬ SendsTo c ⟨r, b, a⟩ (start σ service) := by
    rintro ⟨sends, send, hphase, _, _⟩
    by_cases hpos : 0 < σ.batchCount r <;> simp [start, RequestState.start, hpos] at hphase
  rcases (machine σ).exists_turn hstart hu hbefore with
    ⟨first, ev, last, s, v, rfl, hfirst, hnext, hs, hv⟩
  rcases fansOutTo_of_step hnext hs hv with ⟨pool, currentSlot, leaders, rfl, hfans⟩
  exact ⟨first, pool, last ++ after, s, currentSlot, leaders, by simp, hfirst, hfans⟩

/-! ## Where the addresses come from -/

/-- `socket` belongs to leader `k`: an entry of a cluster-nodes answer says so, or the cache that
the service started with. -/
inductive Learned (fromStr : String → Option Pubkey) (first : LeaderTpuCache)
    (past : List CycleAnswers) (k : Pubkey) (socket : SocketAddr) : Prop
  | atStart (h : first.leaderTpuMap k = some socket)
  | answered (answers : CycleAnswers) (hmem : answers ∈ past) (nodes : List RpcContactInfo)
      (hnodes : answers.info.maybeClusterNodes = some (.ok nodes)) (entry : RpcContactInfo)
      (hentry : entry ∈ nodes) (hkey : fromStr entry.pubkey = some k)
      (husable : UsableSocket entry first.protocol socket)

theorem learned_of_leaderTpuMap {fromStr : String → Option Pubkey} {first cache : LeaderTpuCache}
    {past : List CycleAnswers} (h : FromLastAnswers fromStr first past cache) {k : Pubkey}
    {socket : SocketAddr} (hsocket : cache.leaderTpuMap k = some socket) :
    Learned fromStr first past k socket := by
  rw [h.leaderTpuMap] at hsocket
  cases hlast : lastOf (CycleAnswers.clusterSockets fromStr first.protocol) past with
  | none =>
      rw [hlast, Option.getD_none] at hsocket
      exact .atStart hsocket
  | some sockets =>
      rw [hlast, Option.getD_some] at hsocket
      rcases lastOf_eq_some_iff.1 hlast with ⟨earlier, answers, later, rfl, hanswers, _⟩
      cases hnodes : answers.info.maybeClusterNodes with
      | none => simp [CycleAnswers.clusterSockets, hnodes] at hanswers
      | some result =>
          cases result with
          | error err => simp [CycleAnswers.clusterSockets, hnodes] at hanswers
          | ok nodes =>
              simp only [CycleAnswers.clusterSockets, hnodes, Option.some.injEq] at hanswers
              rw [← hanswers, extractClusterTpuSockets_eq] at hsocket
              rcases lastOf_eq_some_iff.1 hsocket with ⟨before, entry, after, rfl, hfound, _⟩
              rcases socketFor_eq_some_iff.1 hfound with ⟨hkey, husable⟩
              exact .answered answers (by simp) _ hnodes entry (by simp) hkey husable

/-- What the leader service has learned after the steps `evs`. -/
def answersAfter (σ : Setup R E Conn) (service : LeaderTpuService)
    (evs : List (ServerEvent R Conn)) : List CycleAnswers :=
  learnedAnswers σ.fromStr service ((machine σ).history serviceEvents (start σ service) evs)

/-- In every interleaving, whatever is written on a client's stream is what a transaction of the
request decodes to; and before that the attempt fanned out to the client's address, which was then
the socket cached for the leader of a slot in the fan-out's range. -/
theorem writes_reach_leaders (σ : Setup R E Conn) (service : LeaderTpuService)
    (evs : List (ServerEvent R Conn)) (t : ServerState σ)
    (hrun : (machine σ).run (start σ service) evs = some t) (c : ClientId) (r : R)
    (b : Fin (σ.batchCount r)) (a : Fin MAX_RETRIES) (connection : Conn) (data : List UInt8)
    (outcome : StreamWrite) (hdone : HasDone c ⟨r, b, a⟩ (.wrote connection data outcome) t) :
    (∃ txn ∈ (σ.requests r).transactions, σ.decode txn = some data) ∧
      ∃ before pool after s currentSlot slot k,
        evs = before ++ .fanOut r pool :: after ∧
          (machine σ).run (start σ service) before = some s ∧
          (s.requests r).phase = .estimated b a currentSlot ∧
          slot ∈ LeaderTpuCache.probedSlots (max currentSlot s.service.leaderTpuCache.firstSlot)
            σ.fanoutSlots ∧
          s.service.leaderTpuCache.getSlotLeader slot = some k ∧
          s.service.leaderTpuCache.leaderTpuMap k = some c.addr ∧
          Learned σ.fromStr service.leaderTpuCache (answersAfter σ service before) k c.addr := by
  constructor
  · have hwrites := writesOnly_run hrun c ⟨r, b, a⟩
    have hplace : ∃ first rest, σ.buffers ⟨r, b, a⟩ = first :: rest ∧
        (data ∈ rest ∨ data = first ∧ first ≠ []) := by
      cases hdone with
      | send sends send hphase hsend hclient h =>
          rw [outcomeOf, callOf, hclient] at h
          exact wrote_of_mem_sendOutcome hwrites h
      | call h =>
          rcases hwrites.wrote connection data outcome h with ⟨rfl, hne⟩
          cases hbuffers : σ.buffers ⟨r, b, a⟩ with
          | nil =>
              rw [hbuffers] at hne
              exact absurd rfl hne
          | cons first rest =>
              rw [hbuffers] at hne
              exact ⟨first, rest, rfl, .inr ⟨rfl, hne⟩⟩
    rcases hplace with ⟨first, rest, hbuffers, hdata⟩
    exact submitted_of_buffer hbuffers hdata
  · rcases exists_fanOut hrun hdone with
      ⟨before, pool, after, s, currentSlot, leaders, rfl, hbefore, hfans⟩
    rcases hfans.exists_leader with ⟨slot, k, hslot, hleader, hmap⟩
    have hfrom := fromLastAnswers_run (run_service hbefore)
    exact ⟨before, pool, after, s, currentSlot, slot, k, rfl, hbefore, hfans.phase, hslot, hleader,
      hmap, learned_of_leaderTpuMap hfrom hmap⟩

end Runs

end Writes

theorem writes_reach_leaders_two_callers :
    ∃ t, (machine twoCallers).run (start twoCallers loneLeader) sharedLeader = some t ∧
      (∃ txn ∈ (twoCallers.requests true).transactions, twoCallers.decode txn = some [1]) ∧
      ∃ before pool after s slot k, sharedLeader = before ++ .fanOut true pool :: after ∧
        (machine twoCallers).run (start twoCallers loneLeader) before = some s ∧
        s.service.leaderTpuCache.getSlotLeader slot = some k ∧
        s.service.leaderTpuCache.leaderTpuMap k = some (.V4 0 8009) := by
  have hrun : ∃ t, (machine twoCallers).run (start twoCallers loneLeader) sharedLeader = some t ∧
      HasDone ⟨.V4 0 8009, 0⟩ ⟨true, ⟨0, by decide⟩, ⟨0, by decide⟩⟩ (.wrote 7 [1] .written) t :=
    ⟨_, rfl, .call List.mem_cons_self⟩
  rcases hrun with ⟨t, hrun, hdone⟩
  rcases writes_reach_leaders twoCallers loneLeader sharedLeader t hrun _ _ _ _ _ _ _ hdone with
    ⟨htxn, before, pool, after, s, _, slot, k, hsplit, hbefore, _, _, hleader, hmap, _⟩
  exact ⟨t, hrun, htxn, before, pool, after, s, slot, k, hsplit, hbefore, hleader, hmap⟩

end ServerState

end Server
end TpuSender
