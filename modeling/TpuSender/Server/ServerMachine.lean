import TpuSender.Engine.LeaderTpuService
import TpuSender.Quik.SharedConnection
import TpuSender.Server.Handlers
import Mathlib.Algebra.BigOperators.Group.Finset.Sigma
import Mathlib.Data.Fintype.BigOperators

/-!
# ServerMachine — the leader service, the clients and all requests together

Requests are handled concurrently.  Each runs its retry loop; an attempt reads the estimate, then
the unique leader sockets, sends to all of them and joins the results.  The sends of all requests
meet on the clients that the connection cache keeps, one or more for each address, and the leader
service goes on beside them.

`ServerState.step` takes one label at a time:

* `service ev` — a step of the leader service;
* `estimate r` and `fanOut r pool` — request `r` starts an attempt: `unique_leader_tpu_sockets`
  reads the estimate first and the cache afterwards, and the connection cache picks a client for
  each socket;
* `call r k act` — the `k`-th send of the attempt takes a step on its client;
* `writeRest r k outcome` — the `k`-th send, its first buffer sent, writes the next one;
* `join r` — all sends have ended, and the loop goes on with what they came to;
* `wake r` — the pause after a failed batch is over;
* `drop r` — the caller has gone, or one of the sends has panicked for want of an endpoint, and the
  request is dropped where it is.

The loop's counters are bounded in the types of the phases, so a request cannot be at an attempt
past the last one or at a batch that it does not have.

The connection cache also warms the clients that it makes, with sends of an empty buffer that no
request waits for.  They are not among the labels: here a client's connection comes from the
requests alone.
-/

namespace TpuSender
namespace Server

open Library Engine Quik

/-! ## What a run is given -/

inductive Request
  | sendTxn (txn : List UInt8)
  | sendBatch (txns : List (List UInt8))

/-- The batches a request sends, one after the other. -/
def Request.batches (decode : List UInt8 → Option (List UInt8)) :
    Request → List (List (List UInt8))
  -- a transaction that does not decode is sent as an empty one
  | .sendTxn txn => [[(decode txn).getD []]]
  | .sendBatch txns => decodedBatches decode txns

/-- What a run of the server does not change. -/
structure Setup (R E Conn : Type) where
  api : TransportError E
  stableId : Conn → Nat
  decode : List UInt8 → Option (List UInt8)
  fromStr : String → Option Pubkey
  fanoutSlots : Nat
  requests : R → Request

/-- One attempt at one batch of one request: the call that this attempt makes on a client. -/
structure CallId {R : Type} (batchCount : R → Nat) where
  request : R
  batchIndex : Fin (batchCount request)
  batchAttempt : Fin MAX_RETRIES
  deriving DecidableEq

/-- A client of the connection cache. -/
structure ClientId where
  addr : SocketAddr
  /-- Which of the clients for the address. -/
  poolIndex : Nat
  deriving DecidableEq, Repr

namespace CallId

variable {R : Type} {batchCount : R → Nat}

def equiv (batchCount : R → Nat) :
    (Σ r, Fin (batchCount r) × Fin MAX_RETRIES) ≃ CallId batchCount where
  toFun x := ⟨x.1, x.2.1, x.2.2⟩
  invFun id := ⟨id.request, id.batchIndex, id.batchAttempt⟩
  left_inv _ := rfl
  right_inv _ := rfl

instance [Fintype R] : Fintype (CallId batchCount) := Fintype.ofEquiv _ (equiv batchCount)

theorem card [Fintype R] : Fintype.card (CallId batchCount) = ∑ r, batchCount r * MAX_RETRIES := by
  rw [Fintype.card_congr (equiv batchCount).symm, Fintype.card_sigma]
  simp

end CallId

namespace Setup

variable {R E Conn : Type} (σ : Setup R E Conn)

def batches (r : R) : List (List (List UInt8)) := (σ.requests r).batches σ.decode

def batchCount (r : R) : Nat := (σ.batches r).length

/-- The buffers that an attempt sends to every leader. -/
def buffers (id : CallId σ.batchCount) : List (List UInt8) :=
  (σ.batches id.request).get id.batchIndex

/-- A batch has at most ten buffers. -/
theorem length_buffers_le (id : CallId σ.batchCount) : (σ.buffers id).length ≤ 10 := by
  have hmem : σ.buffers id ∈ (σ.requests id.request).batches σ.decode := List.get_mem _ _
  cases hrequest : σ.requests id.request with
  | sendTxn txn =>
      have hone : σ.buffers id = [(σ.decode txn).getD []] := by
        simpa [hrequest, Request.batches] using hmem
      simp [hone]
  | sendBatch txns =>
      rw [hrequest] at hmem
      exact (length_of_mem_chunks (by decide) hmem).2

end Setup

/-! ## One send of an attempt -/

/-- A send to one leader: its client, and how the writes behind the first buffer have ended. -/
structure Send where
  client : ClientId
  outcomes : List StreamWrite
  deriving DecidableEq

/-! ## The state -/

/-- Where a request with `n` batches is; `batchAttempt` attempts at the batch are behind it. -/
inductive Phase (n : Nat)
  | ready (batchIndex : Fin n) (batchAttempt : Fin MAX_RETRIES)
  | estimated (batchIndex : Fin n) (batchAttempt : Fin MAX_RETRIES) (currentSlot : Nat)
  | sending (batchIndex : Fin n) (batchAttempt : Fin MAX_RETRIES) (sends : List Send)
  | sleeping (batchIndex : Fin n) (batchAttempt : Fin MAX_RETRIES)
  | answered (response : TransactionResponse)
  /-- There will be no response. -/
  | dropped

structure RequestState (E : Type) (n : Nat) where
  overallAttempt : Nat
  lastError : Option E
  phase : Phase n

/-- The first turn of the loop, or the answer if there is nothing to send. -/
def RequestState.start (E : Type) (n : Nat) : RequestState E n :=
  { overallAttempt := 0
    lastError := none
    phase := if h : 0 < n then .ready ⟨0, h⟩ ⟨0, by decide⟩ else .answered (success 0) }

structure ServerState {R E Conn : Type} (σ : Setup R E Conn) where
  service : LeaderTpuService
  clients : ClientId → ClientState (CallId σ.batchCount) Conn
  requests : (r : R) → RequestState E (σ.batchCount r)

inductive ServerEvent (R Conn : Type)
  | service (ev : ServiceEvent)
  | estimate (r : R)
  | fanOut (r : R) (pool : SocketAddr → Nat)
  | call (r : R) (k : Nat) (act : CallStep Conn)
  | writeRest (r : R) (k : Nat) (outcome : StreamWrite)
  | join (r : R)
  | wake (r : R)
  | drop (r : R)

/-- The request whose loop goes on with the step. -/
def ServerEvent.request {R Conn : Type} : ServerEvent R Conn → Option R
  | .service _ => none
  | .estimate r => some r
  | .fanOut r _ => some r
  | .call _ _ _ => none
  | .writeRest r _ _ => some r
  | .join r => some r
  | .wake r => some r
  | .drop r => some r

/-- The steps of the requests; the leader service takes the others. -/
def ServerEvent.ofRequest {R Conn : Type} : ServerEvent R Conn → Bool
  | .service _ => false
  | _ => true

namespace ServerState

variable {R E Conn : Type} [DecidableEq R] {σ : Setup R E Conn}

/-- A server that has just got its requests and has no connection yet. -/
def start (σ : Setup R E Conn) (service : LeaderTpuService) : ServerState σ :=
  { service := service
    clients := fun _ => ClientState.start none fun id => (σ.buffers id).headD []
    requests := fun r => RequestState.start E (σ.batchCount r) }

def setRequest (s : ServerState σ) (r : R) (request : RequestState E (σ.batchCount r)) :
    ServerState σ :=
  { s with requests := Function.update s.requests r request }

def setPhase (s : ServerState σ) (r : R) (phase : Phase (σ.batchCount r)) : ServerState σ :=
  s.setRequest r { s.requests r with phase := phase }

/-- The call that a send has made for its first buffer. -/
def callOf (s : ServerState σ) (id : CallId σ.batchCount) (send : Send) : Call Conn :=
  (s.clients send.client).calls id

/-- One of the sends has panicked.  They are all awaited in the handler, so it takes the others and
the request with it. -/
def unwinding (s : ServerState σ) (id : CallId σ.batchCount) (sends : List Send) : Bool :=
  sends.any fun send => (s.callOf id send).hasPanicked

/-- The `k`-th send of the attempt that request `r` is at. -/
def currentSend (s : ServerState σ) (r : R) (k : Nat) : Option (CallId σ.batchCount × Send) :=
  match (s.requests r).phase with
  | .sending b a sends =>
      if s.unwinding ⟨r, b, a⟩ sends then none
      else sends[k]?.map fun send => (⟨r, b, a⟩, send)
  | _ => none

def outcomeOf (s : ServerState σ) (id : CallId σ.batchCount) (send : Send) : SendOutcome Conn :=
  sendOutcome (s.callOf id send) (σ.buffers id) send.outcomes

/-- The results of all sends, once all of them have one. -/
def joined (s : ServerState σ) (id : CallId σ.batchCount) (sends : List Send) :
    Option (List (Except E Unit)) :=
  sends.mapM fun send => transportResult σ.api (s.outcomeOf id send)

/-- The loop after an attempt. -/
def afterAttempt (σ : Setup R E Conn) (r : R) (request : RequestState E (σ.batchCount r))
    (b : Fin (σ.batchCount r)) (a : Fin MAX_RETRIES) (result : Except E Unit) :
    RequestState E (σ.batchCount r) :=
  match σ.requests r, result with
  | .sendTxn _, .ok () => { request with phase := .answered (success request.overallAttempt) }
  | .sendTxn _, .error err =>
      { request with
        lastError := some err
        phase :=
          if h : a.val + 1 < MAX_RETRIES then .ready b ⟨a.val + 1, h⟩
          else
            .answered
              { statusCode := 500
                status := "error"
                error := some (σ.api.display err)
                attempts := request.overallAttempt } }
  | .sendBatch _, .ok () =>
      { request with
        phase :=
          if h : b.val + 1 < σ.batchCount r then .ready ⟨b.val + 1, h⟩ ⟨0, by decide⟩
          else .answered (success request.overallAttempt) }
  | .sendBatch _, .error err =>
      { request with
        lastError := some err
        phase :=
          if h : a.val + 1 < MAX_RETRIES then .sleeping b ⟨a.val + 1, h⟩
          else
            .answered (batchFailed σ.api b.val (a.val + 1) err request.overallAttempt) }

def step (s : ServerState σ) : ServerEvent R Conn → Option (ServerState σ)
  | .service ev => do
      let service ← s.service.step σ.fromStr ev
      pure { s with service := service }
  | .estimate r =>
      match (s.requests r).phase with
      | .ready b a => do
          let currentSlot ← s.service.recentSlots.estimatedCurrentSlot.toOption
          pure (s.setRequest r
            { s.requests r with
              overallAttempt := (s.requests r).overallAttempt + 1
              phase := .estimated b a currentSlot })
      | _ => none
  | .fanOut r pool =>
      match (s.requests r).phase with
      -- the cache may have moved on since the estimate was read
      | .estimated b a currentSlot => do
          let leaders ←
            (s.service.leaderTpuCache.getUniqueLeaderSockets currentSlot σ.fanoutSlots).toOption
          pure (s.setPhase r (.sending b a (leaders.map fun addr => ⟨⟨addr, pool addr⟩, []⟩)))
      | _ => none
  | .call r k act => do
      let (id, send) ← s.currentSend r k
      let client ← (s.clients send.client).step σ.stableId (act.event id)
      pure { s with clients := Function.update s.clients send.client client }
  | .writeRest r k outcome =>
      match (s.requests r).phase with
      | .sending b a sends =>
          if s.unwinding ⟨r, b, a⟩ sends then none else do
            let send ← sends[k]?
            match (s.callOf ⟨r, b, a⟩ send).progress, (s.outcomeOf ⟨r, b, a⟩ send).result with
            -- the first buffer is sent and there are more
            | .returned (.ok _), none =>
                pure (s.setPhase r
                  (.sending b a (sends.set k { send with outcomes := send.outcomes ++ [outcome] })))
            | _, _ => none
      | _ => none
  | .join r =>
      match (s.requests r).phase with
      | .sending b a sends => do
          let results ← s.joined ⟨r, b, a⟩ sends
          pure (s.setRequest r (afterAttempt σ r (s.requests r) b a (aggregate σ.api results)))
      | _ => none
  | .wake r =>
      match (s.requests r).phase with
      | .sleeping b a => some (s.setPhase r (.ready b a))
      | _ => none
  | .drop r =>
      match (s.requests r).phase with
      | .answered _ => none
      | .dropped => none
      | _ => some (s.setPhase r .dropped)

def machine (σ : Setup R E Conn) : Machine (ServerState σ) (ServerEvent R Conn) := { next := step }

/-! ## What a step can do -/

section Steps

variable {s t : ServerState σ} {r : R}

theorem step_service {ev : ServiceEvent} (h : s.step (.service ev) = some t) :
    ∃ service, s.service.step σ.fromStr ev = some service ∧ t = { s with service := service } := by
  simp only [step, bind, Option.bind_eq_some_iff, pure, Option.some.injEq] at h
  rcases h with ⟨service, hservice, rfl⟩
  exact ⟨service, hservice, rfl⟩

theorem step_estimate (h : s.step (.estimate r) = some t) :
    ∃ b a currentSlot, (s.requests r).phase = .ready b a ∧
      s.service.recentSlots.estimatedCurrentSlot = .ok currentSlot ∧
      t = s.setRequest r
        { s.requests r with
          overallAttempt := (s.requests r).overallAttempt + 1
          phase := .estimated b a currentSlot } := by
  cases hphase : (s.requests r).phase <;> simp only [step, hphase, reduceCtorEq] at h
  simp only [bind, Option.bind_eq_some_iff, LeaderTpuService.toOption_eq_some_iff, pure,
    Option.some.injEq] at h
  rcases h with ⟨currentSlot, hslot, rfl⟩
  exact ⟨_, _, currentSlot, rfl, hslot, rfl⟩

theorem step_fanOut {pool : SocketAddr → Nat} (h : s.step (.fanOut r pool) = some t) :
    ∃ b a currentSlot leaders, (s.requests r).phase = .estimated b a currentSlot ∧
      s.service.leaderTpuCache.getUniqueLeaderSockets currentSlot σ.fanoutSlots = .ok leaders ∧
      t = s.setPhase r (.sending b a (leaders.map fun addr => ⟨⟨addr, pool addr⟩, []⟩)) := by
  cases hphase : (s.requests r).phase <;> simp only [step, hphase, reduceCtorEq] at h
  simp only [bind, Option.bind_eq_some_iff, LeaderTpuService.toOption_eq_some_iff, pure,
    Option.some.injEq] at h
  rcases h with ⟨leaders, hleaders, rfl⟩
  exact ⟨_, _, _, leaders, rfl, hleaders, rfl⟩

omit [DecidableEq R] in
theorem currentSend_eq_some_iff {k : Nat} {id : CallId σ.batchCount} {send : Send} :
    s.currentSend r k = some (id, send) ↔
      ∃ b a sends, (s.requests r).phase = .sending b a sends ∧
        s.unwinding ⟨r, b, a⟩ sends = false ∧ sends[k]? = some send ∧ id = ⟨r, b, a⟩ := by
  cases hphase : (s.requests r).phase with
  | sending b a sends =>
      cases hunwinding : s.unwinding ⟨r, b, a⟩ sends with
      | true =>
          simp only [currentSend, hphase, hunwinding, if_true, reduceCtorEq, false_iff]
          rintro ⟨b', a', sends', hsame, hcalm, _⟩
          cases hsame
          exact Bool.false_ne_true (hcalm.symm.trans hunwinding)
      | false =>
          simp only [currentSend, hphase, hunwinding, Bool.false_eq_true, if_false,
            Option.map_eq_some_iff, Prod.mk.injEq, Phase.sending.injEq]
          constructor
          · rintro ⟨send', hsend, rfl, rfl⟩
            exact ⟨b, a, sends, ⟨rfl, rfl, rfl⟩, hunwinding, hsend, rfl⟩
          · rintro ⟨b', a', sends', ⟨rfl, rfl, rfl⟩, _, hsend, rfl⟩
            exact ⟨send, hsend, rfl, rfl⟩
  | ready b a => simp [currentSend, hphase]
  | estimated b a currentSlot => simp [currentSend, hphase]
  | sleeping b a => simp [currentSend, hphase]
  | answered response => simp [currentSend, hphase]
  | dropped => simp [currentSend, hphase]

theorem step_call {k : Nat} {act : CallStep Conn} (h : s.step (.call r k act) = some t) :
    ∃ b a sends send client, (s.requests r).phase = .sending b a sends ∧
      s.unwinding ⟨r, b, a⟩ sends = false ∧ sends[k]? = some send ∧
      (s.clients send.client).step σ.stableId (act.event ⟨r, b, a⟩) = some client ∧
      t = { s with clients := Function.update s.clients send.client client } := by
  simp only [step, bind, Option.bind_eq_some_iff, pure, Option.some.injEq] at h
  rcases h with ⟨⟨id, send⟩, hcurrent, client, hclient, rfl⟩
  rcases currentSend_eq_some_iff.1 hcurrent with ⟨b, a, sends, hphase, hcalm, hsend, rfl⟩
  exact ⟨b, a, sends, send, client, hphase, hcalm, hsend, hclient, rfl⟩

theorem step_writeRest {k : Nat} {outcome : StreamWrite}
    (h : s.step (.writeRest r k outcome) = some t) :
    ∃ b a sends send connection, (s.requests r).phase = .sending b a sends ∧
      s.unwinding ⟨r, b, a⟩ sends = false ∧ sends[k]? = some send ∧
      (s.callOf ⟨r, b, a⟩ send).progress = .returned (.ok connection) ∧
      (s.outcomeOf ⟨r, b, a⟩ send).result = none ∧
      t = s.setPhase r
        (.sending b a (sends.set k { send with outcomes := send.outcomes ++ [outcome] })) := by
  cases hphase : (s.requests r).phase <;> simp only [step, hphase, reduceCtorEq] at h
  split at h
  next => cases h
  next hcalm =>
    simp only [bind, Option.bind_eq_some_iff] at h
    rcases h with ⟨send, hsend, h⟩
    split at h
    next connection hprogress hresult =>
      simp only [pure, Option.some.injEq] at h
      exact ⟨_, _, _, send, connection, rfl, Bool.not_eq_true _ ▸ hcalm, hsend, hprogress, hresult,
        h.symm⟩
    next => cases h

theorem step_join (h : s.step (.join r) = some t) :
    ∃ b a sends results, (s.requests r).phase = .sending b a sends ∧
      s.joined ⟨r, b, a⟩ sends = some results ∧
      t = s.setRequest r (afterAttempt σ r (s.requests r) b a (aggregate σ.api results)) := by
  cases hphase : (s.requests r).phase <;> simp only [step, hphase, reduceCtorEq] at h
  simp only [bind, Option.bind_eq_some_iff, pure, Option.some.injEq] at h
  rcases h with ⟨results, hresults, rfl⟩
  exact ⟨_, _, _, results, rfl, hresults, rfl⟩

theorem step_wake (h : s.step (.wake r) = some t) :
    ∃ b a, (s.requests r).phase = .sleeping b a ∧ t = s.setPhase r (.ready b a) := by
  cases hphase : (s.requests r).phase <;> simp only [step, hphase, reduceCtorEq] at h
  simp only [Option.some.injEq] at h
  exact ⟨_, _, rfl, h.symm⟩

theorem step_drop (h : s.step (.drop r) = some t) :
    (∀ response, (s.requests r).phase ≠ .answered response) ∧ (s.requests r).phase ≠ .dropped ∧
      t = s.setPhase r .dropped := by
  cases hphase : (s.requests r).phase with
  | answered response => simp [step, hphase] at h
  | dropped => simp [step, hphase] at h
  | ready b a => simpa [step, hphase, eq_comm] using h
  | estimated b a currentSlot => simpa [step, hphase, eq_comm] using h
  | sending b a sends => simpa [step, hphase, eq_comm] using h
  | sleeping b a => simpa [step, hphase, eq_comm] using h

/-- A step moves the leader service, or one client, or the state of one request. -/
theorem step_parts {ev : ServerEvent R Conn} (h : s.step ev = some t) :
    (∃ e service, ev = .service e ∧ s.service.step σ.fromStr e = some service ∧
        t = { s with service := service }) ∨
      (∃ r k act id send client, ev = .call r k act ∧ s.currentSend r k = some (id, send) ∧
        (s.clients send.client).step σ.stableId (act.event id) = some client ∧
        t = { s with clients := Function.update s.clients send.client client }) ∨
      (∀ e, ev ≠ .service e) ∧ (∀ r k act, ev ≠ .call r k act) ∧
        ∃ r request, t = s.setRequest r request := by
  cases ev with
  | service e =>
      rcases step_service h with ⟨service, hservice, rfl⟩
      exact .inl ⟨e, service, rfl, hservice, rfl⟩
  | call r k act =>
      rcases step_call h with ⟨b, a, sends, send, client, hphase, hcalm, hsend, hclient, rfl⟩
      exact .inr (.inl ⟨r, k, act, ⟨r, b, a⟩, send, client, rfl,
        currentSend_eq_some_iff.2 ⟨b, a, sends, hphase, hcalm, hsend, rfl⟩, hclient, rfl⟩)
  | estimate r =>
      rcases step_estimate h with ⟨b, a, currentSlot, _, _, rfl⟩
      exact .inr (.inr ⟨by simp, by simp, r, _, rfl⟩)
  | fanOut r pool =>
      rcases step_fanOut h with ⟨b, a, currentSlot, leaders, _, _, rfl⟩
      exact .inr (.inr ⟨by simp, by simp, r, _, rfl⟩)
  | writeRest r k outcome =>
      rcases step_writeRest h with ⟨b, a, sends, send, connection, _, _, _, _, _, rfl⟩
      exact .inr (.inr ⟨by simp, by simp, r, _, rfl⟩)
  | join r =>
      rcases step_join h with ⟨b, a, sends, results, _, _, rfl⟩
      exact .inr (.inr ⟨by simp, by simp, r, _, rfl⟩)
  | wake r =>
      rcases step_wake h with ⟨b, a, _, rfl⟩
      exact .inr (.inr ⟨by simp, by simp, r, _, rfl⟩)
  | drop r =>
      rcases step_drop h with ⟨_, _, rfl⟩
      exact .inr (.inr ⟨by simp, by simp, r, _, rfl⟩)

/-- The loops of the other requests stay where they are. -/
theorem requests_eq_of_step {ev : ServerEvent R Conn} (h : s.step ev = some t)
    (hr : ev.request ≠ some r) : t.requests r = s.requests r := by
  have hother : ∀ (r' : R) (request : RequestState E (σ.batchCount r')), some r' ≠ some r →
      (s.setRequest r' request).requests r = s.requests r :=
    fun r' request hne => Function.update_of_ne (fun heq => hne (congrArg some heq.symm)) ..
  cases ev with
  | service e =>
      rcases step_service h with ⟨service, _, rfl⟩
      rfl
  | call r' k act =>
      rcases step_call h with ⟨b, a, sends, send, client, _, _, _, _, rfl⟩
      rfl
  | estimate r' =>
      rcases step_estimate h with ⟨b, a, currentSlot, _, _, rfl⟩
      exact hother r' _ hr
  | fanOut r' pool =>
      rcases step_fanOut h with ⟨b, a, currentSlot, leaders, _, _, rfl⟩
      exact hother r' _ hr
  | writeRest r' k outcome =>
      rcases step_writeRest h with ⟨b, a, sends, send, connection, _, _, _, _, _, rfl⟩
      exact hother r' _ hr
  | join r' =>
      rcases step_join h with ⟨b, a, sends, results, _, _, rfl⟩
      exact hother r' _ hr
  | wake r' =>
      rcases step_wake h with ⟨b, a, _, rfl⟩
      exact hother r' _ hr
  | drop r' =>
      rcases step_drop h with ⟨_, _, rfl⟩
      exact hother r' _ hr

@[simp] theorem requests_setRequest_self (s : ServerState σ) (r : R)
    (request : RequestState E (σ.batchCount r)) : (s.setRequest r request).requests r = request :=
  Function.update_self ..

@[simp] theorem requests_setPhase_self (s : ServerState σ) (r : R)
    (phase : Phase (σ.batchCount r)) :
    (s.setPhase r phase).requests r = { s.requests r with phase := phase } :=
  Function.update_self ..

end Steps

/-! ## The parts of a run -/

section Projections

/-- The steps of the leader service. -/
def serviceEvents (_ : ServerState σ) : ServerEvent R Conn → List ServiceEvent
  | .service ev => [ev]
  | _ => []

/-- The steps that reach the client `c`. -/
def clientEvents (c : ClientId) (s : ServerState σ) :
    ServerEvent R Conn → List (ClientEvent (CallId σ.batchCount) Conn)
  | .call r k act =>
      match s.currentSend r k with
      | some (id, send) => if send.client = c then [act.event id] else []
      | none => []
  | _ => []

variable {s t : ServerState σ} {evs : List (ServerEvent R Conn)}

/-- What a run of the server does to the leader service is a run of it. -/
theorem run_service (hrun : (machine σ).run s evs = some t) :
    (LeaderTpuService.machine σ.fromStr).run s.service
      ((machine σ).history serviceEvents s evs) = some t.service := by
  refine (machine σ).run_projection (LeaderTpuService.machine σ.fromStr) (·.service) ?_ hrun
  intro s ev t hnext
  rcases step_parts hnext with
    ⟨e, service, rfl, hservice, rfl⟩ | ⟨r, k, act, id, send, client, rfl, _, _, rfl⟩ |
    ⟨hservice, _, r, request, rfl⟩
  · exact (Machine.run_cons_eq_some _).2 ⟨service, hservice, rfl⟩
  · rfl
  · cases ev with
    | service e => exact absurd rfl (hservice e)
    | _ => rfl

/-- What a run of the server does to a client is a run of that client with the calls of all
attempts. -/
theorem run_client (c : ClientId) (hrun : (machine σ).run s evs = some t) :
    (ClientState.machine (CallId σ.batchCount) σ.stableId).run (s.clients c)
      ((machine σ).history (clientEvents c) s evs) = some (t.clients c) := by
  refine (machine σ).run_projection (ClientState.machine (CallId σ.batchCount) σ.stableId)
    (fun s => s.clients c) ?_ hrun
  intro s ev t hnext
  rcases step_parts hnext with
    ⟨e, service, rfl, _, rfl⟩ | ⟨r, k, act, id, send, client, rfl, hcurrent, hclient, rfl⟩ |
    ⟨_, hcall, r, request, rfl⟩
  · rfl
  · by_cases hc : send.client = c
    · subst hc
      simp only [clientEvents, hcurrent, if_true, Function.update_self]
      exact (Machine.run_cons_eq_some _).2 ⟨client, hclient, rfl⟩
    · simp only [clientEvents, hcurrent, hc, if_false, Function.update_of_ne (Ne.symm hc)]
      rfl
  · cases ev with
    | call r k act => exact absurd rfl (hcall r k act)
    | _ => rfl

end Projections

/-! ## A small server -/

/-- One leader that listens on one socket. -/
def loneLeader : LeaderTpuService :=
  { recentSlots := RecentLeaderSlots.new 0
    leaderTpuCache := LeaderTpuCache.new (fun _ => some 1) 0 432000 [1]
      [⟨"leader", none, some (.V4 0 8009)⟩] .QUIC
    lastClusterRefresh := 0
    sleepMs := DEFAULT_MS_PER_SLOT
    phase := .sleeping }

/-- Two callers with one transaction each. -/
def twoCallers : Setup Bool String Nat :=
  { api :=
      { ofQuicError := fun _ => "quic error"
        ofIoError := id
        display := id
        debug := id }
    stableId := id
    decode := some
    fromStr := fun _ => some 1
    fanoutSlots := 4
    requests := fun r => .sendTxn [if r then 1 else 0] }

/-- The second caller writes on the connection that the first one made. -/
def sharedLeader : List (ServerEvent Bool Nat) :=
  [.estimate true, .estimate false, .fanOut true fun _ => 0, .fanOut false fun _ => 0,
    .call true 0 (.lock ⟨.ok (.connected 7), .error .EndpointStopping⟩),
    .call false 0 (.lock ⟨.error .EndpointStopping, .error .EndpointStopping⟩),
    .call true 0 (.write .written), .call false 0 (.write .written), .join true]

end ServerState
end Server
end TpuSender
