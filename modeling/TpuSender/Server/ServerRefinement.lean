import TpuSender.Engine.FanoutCoverage
import TpuSender.Server.Delivery
import TpuSender.Server.ServerMachine

/-!
# ServerRefinement — a request among others is a request alone

On the running server the sends of one request share connections with those of all others, and the
leaders change between its attempts.  `reports` writes down what each finished attempt of a request
did: its buffers, and for every leader the operations of the send and their result.

`requests_served_as_alone` says that the handlers of `Handlers` explain all of it: there is a
network, fixed beforehand for each call, on which the request, handled alone, makes the reported
calls, performs the reported operations and ends with the same response.
-/

namespace TpuSender
namespace Server

open Library Engine Quik

/-! ## What an attempt has done -/

/-- The sends of a finished attempt: the leaders in order, each with what its send has done. -/
structure AttemptReport (Conn : Type) where
  buffers : List (List UInt8)
  sends : List (SocketAddr × SendOutcome Conn)

/-- On `network` the sends do what is reported. -/
structure Explains {Conn : Type} (stableId : Conn → Nat) (network : Network Conn)
    (report : AttemptReport Conn) : Prop where
  leaders : network.leaders = report.sends.map Prod.fst
  sends : ∀ addr outcome, (addr, outcome) ∈ report.sends →
    sendBatch stableId report.buffers (network.runs addr) = outcome

section Reports

variable {E Conn : Type} {stableId : Conn → Nat}

/-- Results that are the same for every leader are the same for all of them. -/
theorem mapM_congr_of_mem {α β : Type} {f g : α → Option β} {l : List α}
    (h : ∀ a ∈ l, f a = g a) : l.mapM f = l.mapM g := by
  induction l with
  | nil => rfl
  | cons a l ih =>
      have hrest : l.mapM f = l.mapM g := ih fun b hb => h b (List.mem_cons_of_mem a hb)
      rw [List.mapM_cons, List.mapM_cons, h a List.mem_cons_self, hrest]

theorem isSome_of_mapM_eq_some {α β : Type} {f : α → Option β} {l : List α} {results : List β}
    (h : l.mapM f = some results) {a : α} (ha : a ∈ l) : (f a).isSome := by
  induction l generalizing results with
  | nil => cases ha
  | cons b l ih =>
      rw [List.mapM_cons] at h
      simp only [bind, Option.bind_eq_some_iff] at h
      rcases h with ⟨head, hhead, tail, htail, _⟩
      rcases List.mem_cons.1 ha with rfl | hmem
      · exact Option.isSome_of_eq_some hhead
      · exact ih htail hmem

/-- The result of the attempt is the one that the reported sends come to. -/
theorem Explains.result {network : Network Conn} {report : AttemptReport Conn}
    (h : Explains stableId network report) (api : TransportError E) :
    trySendWireTransactionBatch api stableId network report.buffers =
      (report.sends.mapM fun send => transportResult api send.2).map (aggregate api) := by
  have hsends : network.leaders.mapM (fun addr => transportResult api
        (sendWireTransactionBatchToAddr stableId network report.buffers addr)) =
      report.sends.mapM fun send => transportResult api send.2 := by
    rw [h.leaders, List.mapM_map]
    refine mapM_congr_of_mem ?_
    rintro ⟨addr, outcome⟩ hmem
    exact congrArg (transportResult api) (h.sends addr outcome hmem)
  rw [trySendWireTransactionBatch, hsends]
  exact (Option.map_eq_bind).symm

theorem trySendWireTransaction_eq_batch (api : TransportError E) (network : Network Conn)
    (data : List UInt8) :
    trySendWireTransaction api stableId network data =
      trySendWireTransactionBatch api stableId network [data] := by
  simp only [trySendWireTransaction, trySendWireTransactionBatch, sendWireTransactionToAddr,
    sendWireTransactionBatchToAddr, sendBatch_singleton]

end Reports

/-! ## The request alone -/

section Loop

variable {E : Type} (api : TransportError E)
  (send : Nat → List (List UInt8) → Option (Except E Unit))

/-- The response and the calls of the loop over the batches, when the loop of batch `batchIndex` is
left as the pair tells and `batches` are behind it. -/
def behindBatch (batchIndex : Nat) (batches : List (List (List UInt8))) :
    List (Event (List (List UInt8))) × BatchEnd E →
      Option TransactionResponse × List (List (List UInt8))
  | (events, .pending) => (none, payloads events)
  | (events, .respond response) => (some response, payloads events)
  | (events, .next overallAttempt lastError) =>
      let rest := processBatches api send (batchIndex + 1) batches overallAttempt lastError
      (rest.response, payloads events ++ rest.calls)

theorem processBatches_cons (batchIndex : Nat) (batch : List (List UInt8))
    (batches : List (List (List UInt8))) (overallAttempt : Nat) (lastError : Option E) :
    ((processBatches api send batchIndex (batch :: batches) overallAttempt lastError).response,
        (processBatches api send batchIndex (batch :: batches) overallAttempt lastError).calls) =
      behindBatch api send batchIndex batches
        (retryBatch api send batchIndex batch MAX_RETRIES 0 overallAttempt lastError) := by
  rw [processBatches]
  rcases retryBatch api send batchIndex batch MAX_RETRIES 0 overallAttempt lastError with
    ⟨events, _ | _ | _⟩
  · rfl
  · simp [behindBatch, Handled.calls]
  · rfl

/-- A call in front of the events is a call in front of all calls. -/
theorem behindBatch_send (batchIndex : Nat) (batches : List (List (List UInt8)))
    (batch : List (List UInt8)) (events : List (Event (List (List UInt8)))) (fin : BatchEnd E) :
    behindBatch api send batchIndex batches (.send batch :: events, fin) =
      ((behindBatch api send batchIndex batches (events, fin)).1,
        batch :: (behindBatch api send batchIndex batches (events, fin)).2) := by
  cases fin with
  | pending => rfl
  | next overallAttempt lastError => rfl
  | respond response => rfl

theorem behindBatch_sleep (batchIndex : Nat) (batches : List (List (List UInt8))) (ms : Nat)
    (events : List (Event (List (List UInt8)))) (fin : BatchEnd E) :
    behindBatch api send batchIndex batches (.sleep ms :: events, fin) =
      behindBatch api send batchIndex batches (events, fin) := by
  cases fin with
  | pending => rfl
  | next overallAttempt lastError => rfl
  | respond response => rfl

end Loop

namespace Setup

variable {R E Conn : Type} (σ : Setup R E Conn) (network : Nat → Network Conn) (r : R)

/-- Handling the request with nobody else around: its response, and the buffers of its calls. -/
def handleAlone : Option TransactionResponse × List (List (List UInt8)) :=
  match σ.requests r with
  | .sendTxn txn =>
      let handled := sendTxn σ.api σ.stableId σ.decode network txn
      (handled.response, handled.calls.map fun payload => [payload])
  | .sendBatch txns =>
      let handled := sendTxns σ.api σ.stableId σ.decode network txns
      (handled.response, handled.calls)

/-- The rest of `handleAlone` from attempt `a` at batch `b` on, with `made` calls behind it. -/
def loopFrom (b : Fin (σ.batchCount r)) (a : Fin MAX_RETRIES) (made : Nat) (lastError : Option E) :
    Option TransactionResponse × List (List (List UInt8)) :=
  match σ.requests r with
  | .sendTxn txn =>
      let handled := retryTransaction σ.api σ.decode
        (fun call payload => trySendWireTransaction σ.api σ.stableId (network call) payload) txn
        (MAX_RETRIES - a) made lastError
      (handled.response, handled.calls.map fun payload => [payload])
  | .sendBatch _ =>
      let send := fun call batch =>
        trySendWireTransactionBatch σ.api σ.stableId (network call) batch
      behindBatch σ.api send b ((σ.batches r).drop (b + 1))
        (retryBatch σ.api send b (σ.buffers ⟨r, b, a⟩) (MAX_RETRIES - a) a made lastError)

/-- The rest of `handleAlone` for a request of the server with `made` calls behind it. -/
def resume (made : Nat) (request : RequestState E (σ.batchCount r)) :
    Option TransactionResponse × List (List (List UInt8)) :=
  match request.phase with
  | .ready b a => σ.loopFrom network r b a made request.lastError
  | .estimated b a _ => σ.loopFrom network r b a made request.lastError
  | .sending b a _ => σ.loopFrom network r b a made request.lastError
  | .sleeping b a => σ.loopFrom network r b a made request.lastError
  | .answered response => (some response, [])
  | .dropped => (none, [])

variable {σ network r}

theorem buffers_of_sendTxn {txn : List UInt8} (h : σ.requests r = .sendTxn txn)
    (b : Fin (σ.batchCount r)) (a : Fin MAX_RETRIES) :
    σ.buffers ⟨r, b, a⟩ = [(σ.decode txn).getD []] := by
  have hmem : σ.buffers ⟨r, b, a⟩ ∈ (σ.requests r).batches σ.decode := List.get_mem _ _
  simpa [h, Request.batches] using hmem

theorem drop_batches (b : Fin (σ.batchCount r)) (a : Fin MAX_RETRIES) :
    (σ.batches r).drop b = σ.buffers ⟨r, b, a⟩ :: (σ.batches r).drop (b + 1) :=
  List.drop_eq_getElem_cons b.isLt

/-- The first turn of the loop. -/
theorem resume_start : σ.resume network r 0 (RequestState.start E (σ.batchCount r)) =
    σ.handleAlone network r := by
  cases hrequest : σ.requests r with
  | sendTxn txn =>
      have hone : σ.batchCount r = 1 := by
        simp [batchCount, batches, hrequest, Request.batches]
      simp only [resume, RequestState.start, hone, Nat.lt_one_iff, dite_true, loopFrom, handleAlone,
        hrequest]
      rfl
  | sendBatch txns =>
      have hbatches : σ.batches r = decodedBatches σ.decode txns := by
        rw [batches, hrequest]
        rfl
      by_cases hpos : 0 < σ.batchCount r
      · have hall : decodedBatches σ.decode txns =
            σ.buffers ⟨r, ⟨0, hpos⟩, ⟨0, by decide⟩⟩ :: (σ.batches r).drop 1 :=
          hbatches.symm.trans (drop_batches ⟨0, hpos⟩ ⟨0, by decide⟩)
        simp only [resume, RequestState.start, hpos, dite_true, loopFrom, handleAlone, hrequest,
          sendTxns, handleTransactionsBatched, hall]
        exact (processBatches_cons _ _ _ _ _ _ _).symm
      · have hnil : decodedBatches σ.decode txns = [] := by
          rw [← hbatches]
          exact List.length_eq_zero_iff.1 (Nat.eq_zero_of_not_pos hpos)
        simp [resume, RequestState.start, hpos, handleAlone, hrequest, sendTxns,
          handleTransactionsBatched, hnil, processBatches, Handled.calls]

/-- An attempt that comes to `result` is one call in front of the rest of the loop. -/
theorem loopFrom_eq {b : Fin (σ.batchCount r)} {a : Fin MAX_RETRIES} {made : Nat}
    {request : RequestState E (σ.batchCount r)} {result : Except E Unit}
    (hmade : request.overallAttempt = made + 1)
    (hsend : trySendWireTransactionBatch σ.api σ.stableId (network made) (σ.buffers ⟨r, b, a⟩) =
      some result) :
    σ.loopFrom network r b a made request.lastError =
      ((σ.resume network r (made + 1) (ServerState.afterAttempt σ r request b a result)).1,
        σ.buffers ⟨r, b, a⟩ ::
          (σ.resume network r (made + 1) (ServerState.afterAttempt σ r request b a result)).2) := by
  -- both retry loops recurse on the attempts that are left
  have hmore : MAX_RETRIES - a.val = MAX_RETRIES - (a.val + 1) + 1 := by
    have ha := a.isLt
    omega
  cases hrequest : σ.requests r with
  | sendTxn txn =>
      have hcall : trySendWireTransaction σ.api σ.stableId (network made)
          ((σ.decode txn).getD []) = some result := by
        rw [trySendWireTransaction_eq_batch, ← buffers_of_sendTxn hrequest b a]
        exact hsend
      rw [buffers_of_sendTxn hrequest b a]
      cases result with
      | ok done =>
          simp [loopFrom, hrequest, hmore, retryTransaction, hcall, ServerState.afterAttempt,
            resume, hmade, Handled.calls]
      | error err =>
          by_cases hlast : a.val + 1 < MAX_RETRIES
          · simp [loopFrom, hrequest, hmore, retryTransaction, hcall, ServerState.afterAttempt,
              resume, hlast, Handled.calls]
          · have hzero : MAX_RETRIES - (a.val + 1) = 0 := by omega
            simp [loopFrom, hrequest, hmore, hzero, retryTransaction, hcall,
              ServerState.afterAttempt, resume, hlast, hmade, Handled.calls]
  | sendBatch txns =>
      cases result with
      | ok done =>
          by_cases hnext : b.val + 1 < σ.batchCount r
          · -- the next batch starts with its first attempt
            have hbatches : (σ.batches r).drop (b + 1) =
                σ.buffers ⟨r, ⟨b + 1, hnext⟩, ⟨0, by decide⟩⟩ :: (σ.batches r).drop (b + 1 + 1) :=
              drop_batches ⟨b + 1, hnext⟩ ⟨0, by decide⟩
            have hcons := processBatches_cons σ.api
              (fun call batch => trySendWireTransactionBatch σ.api σ.stableId (network call) batch)
              (b + 1) (σ.buffers ⟨r, ⟨b + 1, hnext⟩, ⟨0, by decide⟩⟩)
              ((σ.batches r).drop (b + 1 + 1)) (made + 1) request.lastError
            simp only [loopFrom, hrequest, hmore, retryBatch, hsend, ServerState.afterAttempt,
              resume, hnext, dite_true, behindBatch, hbatches]
            exact congrArg (fun rest => (rest.1, _ :: rest.2)) hcons
          · have hnil : (σ.batches r).drop (b + 1) = [] :=
              List.drop_eq_nil_of_le (Nat.not_lt.1 hnext)
            simp [loopFrom, hrequest, hmore, retryBatch, hsend, ServerState.afterAttempt,
              resume, hnext, hnil, behindBatch, processBatches, Handled.calls, hmade]
      | error err =>
          by_cases hlast : a.val + 1 < MAX_RETRIES
          · -- the next attempt sends the same buffers
            simp only [loopFrom, hrequest, hmore, retryBatch, hsend, ServerState.afterAttempt,
              resume, hlast, if_true, dite_true, behindBatch_send, behindBatch_sleep]
            rfl
          · simp [loopFrom, hrequest, hmore, retryBatch, hsend, ServerState.afterAttempt,
              resume, hlast, hmade, behindBatch]

end Setup

/-! ## What the server keeps -/

namespace ServerState

variable {R E Conn : Type} {σ : Setup R E Conn}

/-- What the sends of an attempt have done. -/
def report (s : ServerState σ) (id : CallId σ.batchCount) (sends : List Send) :
    AttemptReport Conn :=
  { buffers := σ.buffers id
    sends := sends.map fun send => (send.client.addr, s.outcomeOf id send) }

/-- The attempt that ends with the step, if it is one of request `r`. -/
def reports [DecidableEq R] (r : R) (s : ServerState σ) :
    ServerEvent R Conn → List (AttemptReport Conn)
  | .join r' =>
      if r' = r then
        match (s.requests r).phase with
        | .sending b a sends => [s.report ⟨r, b, a⟩ sends]
        | _ => []
      else []
  | _ => []

/-- Every call is one of the source's loop, and no attempt sends to a leader twice. -/
structure Orderly (s : ServerState σ) : Prop where
  follows : ∀ c id, ClientState.Follows σ.stableId ((σ.buffers id).headD [])
    ((s.clients c).calls id)
  nodup : ∀ r b a sends, (s.requests r).phase = .sending b a sends →
    (sends.map fun send => send.client.addr).Nodup

/-- Replacing an entry does not show where only what it keeps is looked at. -/
theorem map_set_of_eq {α β : Type} {f : α → β} {l : List α} {k : Nat} {x y : α}
    (hk : l[k]? = some x) (hf : f y = f x) : (l.set k y).map f = l.map f := by
  rcases List.getElem?_eq_some_iff.1 hk with ⟨hlt, rfl⟩
  rw [List.map_set, hf, ← List.getElem_map f (h := by simpa using hlt), List.set_getElem_self]

theorem orderly_start (σ : Setup R E Conn) (service : LeaderTpuService) :
    Orderly (start σ service) := by
  refine ⟨fun _ _ => ⟨[], rfl⟩, ?_⟩
  intro r b a sends hphase
  by_cases hpos : 0 < σ.batchCount r <;> simp [start, RequestState.start, hpos] at hphase

/-- After an attempt comes another one, a pause, or the answer. -/
theorem phase_afterAttempt (r : R) (request : RequestState E (σ.batchCount r))
    (b : Fin (σ.batchCount r)) (a : Fin MAX_RETRIES) (result : Except E Unit) :
    (∃ b' a', (afterAttempt σ r request b a result).phase = .ready b' a') ∨
      (∃ b' a', (afterAttempt σ r request b a result).phase = .sleeping b' a') ∨
      ∃ response, (afterAttempt σ r request b a result).phase = .answered response := by
  cases hrequest : σ.requests r with
  | sendTxn txn =>
      cases result with
      | ok done => exact .inr (.inr ⟨_, by simp only [afterAttempt, hrequest]; rfl⟩)
      | error err =>
          by_cases hlast : a.val + 1 < MAX_RETRIES
          · exact .inl ⟨b, ⟨a + 1, hlast⟩, by simp [afterAttempt, hrequest, hlast]⟩
          · exact .inr (.inr ⟨_, by simp only [afterAttempt, hrequest, hlast, dite_false]; rfl⟩)
  | sendBatch txns =>
      cases result with
      | ok done =>
          by_cases hnext : b.val + 1 < σ.batchCount r
          · exact .inl ⟨⟨b + 1, hnext⟩, ⟨0, by decide⟩, by simp [afterAttempt, hrequest, hnext]⟩
          · exact .inr (.inr ⟨_, by simp only [afterAttempt, hrequest, hnext, dite_false]; rfl⟩)
      | error err =>
          by_cases hlast : a.val + 1 < MAX_RETRIES
          · exact .inr (.inl ⟨b, ⟨a + 1, hlast⟩, by simp [afterAttempt, hrequest, hlast]⟩)
          · exact .inr (.inr ⟨_, by simp only [afterAttempt, hrequest, hlast, dite_false]; rfl⟩)

/-- The loop's counter goes up where an attempt starts. -/
theorem overallAttempt_afterAttempt (r : R) (request : RequestState E (σ.batchCount r))
    (b : Fin (σ.batchCount r)) (a : Fin MAX_RETRIES) (result : Except E Unit) :
    (afterAttempt σ r request b a result).overallAttempt = request.overallAttempt := by
  cases hrequest : σ.requests r <;> cases result <;> simp only [afterAttempt, hrequest]

section Steps

variable [DecidableEq R] {s t : ServerState σ} {ev : ServerEvent R Conn}

/-- A request that moves by itself keeps the order if its new sends go to distinct leaders. -/
theorem Orderly.setRequest {r : R} {request : RequestState E (σ.batchCount r)} (h : Orderly s)
    (hnodup : ∀ b a sends, request.phase = .sending b a sends →
      (sends.map fun send => send.client.addr).Nodup) :
    Orderly (s.setRequest r request) := by
  refine ⟨h.follows, ?_⟩
  exact (Function.forall_update_iff s.requests fun r' (request' : RequestState E _) =>
    ∀ b a sends, request'.phase = .sending b a sends →
      (sends.map fun send => send.client.addr).Nodup).2 ⟨hnodup, fun r' _ => h.nodup r'⟩

theorem Orderly.step (h : Orderly s) (hstep : s.step ev = some t) : Orderly t := by
  cases ev with
  | service e =>
      rcases step_service hstep with ⟨service, _, rfl⟩
      exact ⟨h.follows, h.nodup⟩
  | call r k act =>
      rcases step_call hstep with ⟨b, a, sends, send, client, _, _, _, hclient, rfl⟩
      refine ⟨?_, h.nodup⟩
      exact (Function.forall_update_iff s.clients
        fun _ (c : ClientState (CallId σ.batchCount) Conn) =>
          ∀ id, ClientState.Follows σ.stableId ((σ.buffers id).headD []) (c.calls id)).2
          ⟨fun id => ClientState.follows_step (h.follows send.client) hclient id,
            fun c _ => h.follows c⟩
  | estimate r =>
      rcases step_estimate hstep with ⟨b, a, currentSlot, _, _, rfl⟩
      exact h.setRequest nofun
  | fanOut r pool =>
      rcases step_fanOut hstep with ⟨b, a, currentSlot, leaders, _, hleaders, rfl⟩
      refine h.setRequest ?_
      rintro b' a' sends ⟨⟩
      have hsame : (fun send : Send => send.client.addr) ∘
          (fun addr => (⟨⟨addr, pool addr⟩, []⟩ : Send)) = id := rfl
      rw [List.map_map, hsame, List.map_id]
      exact (getUniqueLeaderSockets_eq_ok hleaders).nodup
  | writeRest r k outcome =>
      rcases step_writeRest hstep with ⟨b, a, sends, send, connection, hphase, _, hsend, _, _, rfl⟩
      refine h.setRequest ?_
      rintro b' a' sends' ⟨⟩
      rw [map_set_of_eq hsend (rfl : send.client.addr = send.client.addr)]
      exact h.nodup r b a sends hphase
  | join r =>
      rcases step_join hstep with ⟨b, a, sends, results, _, _, rfl⟩
      refine h.setRequest ?_
      intro b' a' sends' hphase
      rcases phase_afterAttempt r (s.requests r) b a (aggregate σ.api results) with
        ⟨_, _, hready⟩ | ⟨_, _, hsleeping⟩ | ⟨_, hanswered⟩
      · cases hready.symm.trans hphase
      · cases hsleeping.symm.trans hphase
      · cases hanswered.symm.trans hphase
  | wake r =>
      rcases step_wake hstep with ⟨b, a, _, rfl⟩
      exact h.setRequest nofun
  | drop r =>
      rcases step_drop hstep with ⟨_, _, rfl⟩
      exact h.setRequest nofun

/-! ## One step of a request -/

/-- Values that are found one by one for distinct keys are the values of a function. -/
theorem exists_fun_of_nodup {α β γ : Type} [Nonempty γ] [DecidableEq β] {key : α → β}
    {P : α → γ → Prop} {l : List α} (hnodup : (l.map key).Nodup) (h : ∀ a ∈ l, ∃ c, P a c) :
    ∃ f : β → γ, ∀ a ∈ l, P a (f (key a)) := by
  induction l with
  | nil => exact ⟨fun _ => Classical.arbitrary γ, nofun⟩
  | cons a l ih =>
      rw [List.map_cons, List.nodup_cons] at hnodup
      rcases ih hnodup.2 fun b hb => h b (List.mem_cons_of_mem a hb) with ⟨f, hf⟩
      rcases h a List.mem_cons_self with ⟨c, hc⟩
      refine ⟨Function.update f (key a) c, ?_⟩
      intro b hb
      by_cases hkey : key b = key a
      · -- a second entry with the key of the first would repeat it
        rcases List.mem_cons.1 hb with rfl | hb
        · rwa [Function.update_self]
        · exact absurd (hkey ▸ List.mem_map_of_mem hb) hnodup.1
      · rcases List.mem_cons.1 hb with rfl | hb
        · exact absurd rfl hkey
        · rw [Function.update_of_ne hkey]
          exact hf b hb

omit [DecidableEq R] in
/-- When an attempt ends, some network does what its sends have done. -/
theorem Orderly.explained (h : Orderly s) {r : R} {b : Fin (σ.batchCount r)} {a : Fin MAX_RETRIES}
    {sends : List Send} {results : List (Except E Unit)}
    (hphase : (s.requests r).phase = .sending b a sends)
    (hjoined : s.joined ⟨r, b, a⟩ sends = some results) :
    ∃ network : Network Conn, Explains σ.stableId network (s.report ⟨r, b, a⟩ sends) := by
  have hrun : ∀ send ∈ sends, ∃ run : BatchRun Conn,
      sendBatch σ.stableId (σ.buffers ⟨r, b, a⟩) run = s.outcomeOf ⟨r, b, a⟩ send := by
    intro send hsend
    have hresult : (s.outcomeOf ⟨r, b, a⟩ send).result.isSome := by
      have hsome := isSome_of_mapM_eq_some hjoined hsend
      rwa [transportResult, Option.isSome_map] at hsome
    exact ClientState.exists_run_of_result (h.follows send.client ⟨r, b, a⟩) hresult
  have : Nonempty (BatchRun Conn) := ⟨⟨[], []⟩⟩
  rcases exists_fun_of_nodup (h.nodup r b a sends hphase) hrun with ⟨runs, hruns⟩
  refine ⟨⟨sends.map fun send => send.client.addr, runs⟩, ?_, ?_⟩
  · rw [report, List.map_map]
    rfl
  · intro addr outcome hmem
    rcases List.mem_map.1 hmem with ⟨send, hsend, heq⟩
    cases heq
    exact hruns send hsend

end Steps

/-! ## The calls of a request so far -/

/-- What the loop's counter says after `made` finished attempts. -/
def HasMade {n : Nat} (made : Nat) (request : RequestState E n) : Prop :=
  match request.phase with
  | .ready _ _ => request.overallAttempt = made
  | .estimated _ _ _ => request.overallAttempt = made + 1
  | .sending _ _ _ => request.overallAttempt = made + 1
  | .sleeping _ _ => request.overallAttempt = made
  | .answered _ => True
  | .dropped => True

/-- Networks for the calls of a request, one for each report. -/
def ExplainsAll (σ : Setup R E Conn) (network : Nat → Network Conn)
    (past : List (AttemptReport Conn)) : Prop :=
  ∀ k report, past[k]? = some report → Explains σ.stableId (network k) report

/-- The attempts in `past` are the first calls of request `r` alone, and the rest of them is what
the request has before it. -/
structure Served (r : R) (past : List (AttemptReport Conn)) (s : ServerState σ) : Prop where
  explained : ∀ report ∈ past, ∃ network, Explains σ.stableId network report
  made : HasMade past.length (s.requests r)
  calls : ∀ network, ExplainsAll σ network past →
    past.map AttemptReport.buffers <+: (σ.handleAlone network r).2
  alone : (s.requests r).phase ≠ .dropped → ∀ network, ExplainsAll σ network past →
    σ.handleAlone network r =
      ((σ.resume network r past.length (s.requests r)).1,
        past.map AttemptReport.buffers ++ (σ.resume network r past.length (s.requests r)).2)

section Serving

variable {s t : ServerState σ} {r : R} {past : List (AttemptReport Conn)}

theorem served_start (σ : Setup R E Conn) (service : LeaderTpuService) (r : R) :
    Served r [] (start σ service) := by
  refine
    { explained := nofun
      made := ?_
      calls := fun _ _ => List.nil_prefix
      alone := ?_ }
  · by_cases hpos : 0 < σ.batchCount r <;> simp [start, RequestState.start, hpos, HasMade]
  · intro _ network _
    rw [start, List.length_nil, Setup.resume_start]
    rfl

/-- A step that leaves the request alone. -/
theorem Served.of_eq (h : Served r past s) (hsame : t.requests r = s.requests r) :
    Served r past t :=
  { explained := h.explained
    made := hsame ▸ h.made
    calls := h.calls
    alone := hsame ▸ h.alone }

/-- A step of the request that is not the end of an attempt. -/
theorem Served.of_resume (h : Served r past s) (hphase : (s.requests r).phase ≠ .dropped)
    (hmade : HasMade past.length (t.requests r))
    (hresume : ∀ network, σ.resume network r past.length (t.requests r) =
      σ.resume network r past.length (s.requests r)) : Served r past t := by
  refine
    { explained := h.explained
      made := hmade
      calls := h.calls
      alone := ?_ }
  intro _ network hnetwork
  rw [hresume network]
  exact h.alone hphase network hnetwork

/-- A step to another phase of the same attempt. -/
theorem Served.of_setPhase [DecidableEq R] (h : Served r past s) {phase : Phase (σ.batchCount r)}
    (hphase : (s.requests r).phase ≠ .dropped)
    (hmade : HasMade past.length { s.requests r with phase := phase })
    (hresume : ∀ network, σ.resume network r past.length { s.requests r with phase := phase } =
      σ.resume network r past.length (s.requests r)) : Served r past (s.setPhase r phase) := by
  refine h.of_resume hphase ?_ ?_
  · rwa [requests_setPhase_self]
  · intro network
    rw [requests_setPhase_self]
    exact hresume network

theorem hasMade_afterAttempt {made : Nat} {request : RequestState E (σ.batchCount r)}
    (hmade : request.overallAttempt = made + 1) (b : Fin (σ.batchCount r)) (a : Fin MAX_RETRIES)
    (result : Except E Unit) : HasMade (made + 1) (afterAttempt σ r request b a result) := by
  have hsame := (overallAttempt_afterAttempt r request b a result).trans hmade
  rcases phase_afterAttempt r request b a result with
    ⟨_, _, hready⟩ | ⟨_, _, hsleeping⟩ | ⟨_, hanswered⟩
  · simpa only [HasMade, hready] using hsame
  · simpa only [HasMade, hsleeping] using hsame
  · simp only [HasMade, hanswered]

/-- The end of an attempt is one more call. -/
theorem Served.join [DecidableEq R] (h : Served r past s) (horderly : Orderly s)
    {b : Fin (σ.batchCount r)} {a : Fin MAX_RETRIES} {sends : List Send}
    {results : List (Except E Unit)} (hphase : (s.requests r).phase = .sending b a sends)
    (hjoined : s.joined ⟨r, b, a⟩ sends = some results) :
    Served r (past ++ [s.report ⟨r, b, a⟩ sends])
      (s.setRequest r (afterAttempt σ r (s.requests r) b a (aggregate σ.api results))) := by
  have hmade : (s.requests r).overallAttempt = past.length + 1 := by
    have hmade := h.made
    rwa [HasMade, hphase] at hmade
  have hself : (s.setRequest r
      (afterAttempt σ r (s.requests r) b a (aggregate σ.api results))).requests r =
        afterAttempt σ r (s.requests r) b a (aggregate σ.api results) :=
    Function.update_self ..
  have hcalls : ∀ network, ExplainsAll σ network (past ++ [s.report ⟨r, b, a⟩ sends]) →
      σ.handleAlone network r =
        ((σ.resume network r (past.length + 1)
            (afterAttempt σ r (s.requests r) b a (aggregate σ.api results))).1,
          (past ++ [s.report ⟨r, b, a⟩ sends]).map AttemptReport.buffers ++
            (σ.resume network r (past.length + 1)
              (afterAttempt σ r (s.requests r) b a (aggregate σ.api results))).2) := by
    intro network hnetwork
    have hpast : ExplainsAll σ network past := by
      intro k report hk
      have hlt := (List.getElem?_eq_some_iff.1 hk).1
      exact hnetwork k report (by rwa [List.getElem?_append_left hlt])
    have hlast : Explains σ.stableId (network past.length) (s.report ⟨r, b, a⟩ sends) :=
      hnetwork past.length _ (by simp)
    -- on the network of the last report the request alone makes this attempt as its next call
    have hsend : trySendWireTransactionBatch σ.api σ.stableId (network past.length)
        (σ.buffers ⟨r, b, a⟩) = some (aggregate σ.api results) := by
      have hresult := hlast.result σ.api
      rw [report, List.mapM_map] at hresult
      exact hresult.trans (congrArg (Option.map (aggregate σ.api)) hjoined)
    have hloop : σ.resume network r past.length (s.requests r) =
        σ.loopFrom network r b a past.length (s.requests r).lastError := by
      rw [Setup.resume, hphase]
    rw [h.alone (by rw [hphase]; exact nofun) network hpast, hloop,
      Setup.loopFrom_eq hmade hsend, List.map_append, List.append_assoc]
    rfl
  refine
    { explained := ?_
      made := ?_
      calls := ?_
      alone := ?_ }
  · intro report hmem
    rcases List.mem_append.1 hmem with hpast | hlast
    · exact h.explained report hpast
    · rw [List.mem_singleton.1 hlast]
      exact horderly.explained hphase hjoined
  · rw [hself, List.length_append, List.length_singleton]
    exact hasMade_afterAttempt hmade b a _
  · intro network hnetwork
    rw [hcalls network hnetwork]
    exact List.prefix_append _ _
  · intro _ network hnetwork
    rw [hself, List.length_append, List.length_singleton]
    exact hcalls network hnetwork

theorem reports_of_not_join [DecidableEq R] {ev : ServerEvent R Conn} (h : ev ≠ .join r) :
    reports r s ev = [] := by
  cases ev with
  | join r' =>
      have hr : r' ≠ r := fun heq => h (congrArg _ heq)
      simp [reports, hr]
  | _ => rfl

/-- A step of the request that is not the end of an attempt: only the phase tells it from the state
before, and what is left of the loop is the same. -/
theorem Served.move [DecidableEq R] (h : Served r past s) {ev : ServerEvent R Conn}
    (hr : ev.request = some r) (hjoin : ev ≠ .join r) (hstep : s.step ev = some t) :
    Served r past t := by
  have hmade := h.made
  cases ev with
  | service e => cases hr
  | call r' k act => cases hr
  | estimate r' =>
      cases hr
      rcases step_estimate hstep with ⟨b, a, currentSlot, hphase, _, rfl⟩
      rw [HasMade, hphase] at hmade
      refine h.of_resume (by rw [hphase]; exact nofun) ?_ ?_
      · rw [requests_setRequest_self]
        exact congrArg (· + 1) hmade
      · intro network
        rw [requests_setRequest_self, Setup.resume, Setup.resume, hphase]
  | fanOut r' pool =>
      cases hr
      rcases step_fanOut hstep with ⟨b, a, currentSlot, leaders, hphase, _, rfl⟩
      rw [HasMade, hphase] at hmade
      refine h.of_setPhase (by rw [hphase]; exact nofun) hmade ?_
      intro network
      rw [Setup.resume, Setup.resume, hphase]
  | writeRest r' k outcome =>
      cases hr
      rcases step_writeRest hstep with ⟨b, a, sends, send, connection, hphase, _, _, _, _, rfl⟩
      rw [HasMade, hphase] at hmade
      refine h.of_setPhase (by rw [hphase]; exact nofun) hmade ?_
      intro network
      rw [Setup.resume, Setup.resume, hphase]
  | join r' =>
      cases hr
      exact absurd rfl hjoin
  | wake r' =>
      cases hr
      rcases step_wake hstep with ⟨b, a, hphase, rfl⟩
      rw [HasMade, hphase] at hmade
      refine h.of_setPhase (by rw [hphase]; exact nofun) hmade ?_
      intro network
      rw [Setup.resume, Setup.resume, hphase]
  | drop r' =>
      cases hr
      rcases step_drop hstep with ⟨_, _, rfl⟩
      -- the calls made so far remain, and nothing is said about the rest of the loop
      refine
        { explained := h.explained
          made := ?_
          calls := h.calls
          alone := ?_ }
      · rw [requests_setPhase_self]
        trivial
      · intro halive
        rw [requests_setPhase_self] at halive
        exact absurd rfl halive

theorem Served.step [DecidableEq R] (h : Served r past s) (horderly : Orderly s)
    {ev : ServerEvent R Conn} (hstep : s.step ev = some t) :
    Served r (past ++ reports r s ev) t := by
  by_cases hjoin : ev = .join r
  · subst hjoin
    rcases step_join hstep with ⟨b, a, sends, results, hphase, hjoined, rfl⟩
    simpa only [reports, if_true, hphase] using h.join horderly hphase hjoined
  · rw [reports_of_not_join hjoin, List.append_nil]
    by_cases hr : ev.request = some r
    · exact h.move hr hjoin hstep
    · exact h.of_eq (requests_eq_of_step hstep hr)

theorem served_run [DecidableEq R] {σ : Setup R E Conn} {service : LeaderTpuService}
    {evs : List (ServerEvent R Conn)} {t : ServerState σ}
    (hrun : (machine σ).run (start σ service) evs = some t) (r : R) :
    Served r ((machine σ).history (reports r) (start σ service) evs) t := by
  have hboth : Served r ((machine σ).history (reports r) (start σ service) evs) t ∧ Orderly t := by
    refine (machine σ).run_history_invariant
      (I := fun past s => Served r past s ∧ Orderly s) (C := fun _ _ => True) ?_
      ⟨served_start σ service r, orderly_start σ service⟩
      (Machine.Steps.of_labels (machine σ) fun _ _ => trivial) hrun
    rintro past s ev u ⟨hs, horderly⟩ _ hnext
    exact ⟨hs.step horderly hnext, horderly.step hnext⟩
  exact hboth.1

theorem Served.exists_network (h : Served r past t) :
    ∃ network : Nat → Network Conn, ExplainsAll σ network past := by
  have hnetworks : ∀ k : Nat, ∃ network : Network Conn, ∀ report, past[k]? = some report →
      Explains σ.stableId network report := by
    intro k
    cases hk : past[k]? with
    | none => exact ⟨⟨[], fun _ => ⟨[], []⟩⟩, nofun⟩
    | some report =>
        rcases h.explained report (List.mem_of_getElem? hk) with ⟨network, hnetwork⟩
        refine ⟨network, ?_⟩
        rintro report' ⟨⟩
        exact hnetwork
  choose network hnetwork using hnetworks
  exact ⟨network, hnetwork⟩

theorem Served.answered (h : Served r past t) {network : Nat → Network Conn}
    (hnetwork : ExplainsAll σ network past) {response : TransactionResponse}
    (hphase : (t.requests r).phase = .answered response) :
    σ.handleAlone network r = (some response, past.map AttemptReport.buffers) := by
  have halone := h.alone (by rw [hphase]; exact nofun) network hnetwork
  rw [Setup.resume, hphase, List.append_nil] at halone
  exact halone

/-- In every interleaving, what a request has done is what it does when it is handled alone on some
networks, one for each attempt: the same calls in the same order, at the same leaders, with the same
operations and results, and the same response in the end. -/
theorem requests_served_as_alone [DecidableEq R] (σ : Setup R E Conn) (service : LeaderTpuService)
    (evs : List (ServerEvent R Conn)) (t : ServerState σ)
    (hrun : (machine σ).run (start σ service) evs = some t) (r : R) :
    ∃ network : Nat → Network Conn,
      ExplainsAll σ network ((machine σ).history (reports r) (start σ service) evs) ∧
        ((machine σ).history (reports r) (start σ service) evs).map AttemptReport.buffers <+:
          (σ.handleAlone network r).2 ∧
        ∀ response, (t.requests r).phase = .answered response →
          σ.handleAlone network r = (some response,
            ((machine σ).history (reports r) (start σ service) evs).map AttemptReport.buffers) := by
  have hserved := served_run hrun r
  rcases hserved.exists_network with ⟨network, hnetwork⟩
  exact ⟨network, hnetwork, hserved.calls network hnetwork, fun _ => hserved.answered hnetwork⟩

theorem requests_served_as_alone_two_callers :
    ∃ t, (machine twoCallers).run (start twoCallers loneLeader) sharedLeader = some t ∧
      (t.requests true).phase = .answered (success 1) ∧
      ∃ network : Nat → Network Nat,
        twoCallers.handleAlone network true = (some (success 1), [[[1]]]) := by
  refine ⟨_, rfl, rfl, ?_⟩
  rcases requests_served_as_alone twoCallers loneLeader sharedLeader _ rfl true with
    ⟨network, _, _, hanswered⟩
  exact ⟨network, hanswered (success 1) rfl⟩

end Serving

end ServerState

end Server
end TpuSender
