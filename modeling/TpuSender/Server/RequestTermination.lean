import TpuSender.Engine.FanoutCoverage
import TpuSender.Quik.CallBudget
import TpuSender.Server.ServerMachine
import Mathlib.Algebra.GroupWithZero.Nat
import Mathlib.Algebra.Order.BigOperators.Group.List

/-!
# RequestTermination — every request comes to an end

The retry loop of a request is bounded, but each of its sends goes through a connection that the
sends of other requests replace, and how often a send tries again depends on them.

`requestRest` prices what is left of a request: the attempts that are still possible, at a price
that pays for a whole fan-out, and the sends under way.  Every step of a request lowers the price,
whatever the network answers and the others do; and a request without an answer can always take one
more step, unless the slots have left the `u64` range (`requests_terminate`).
-/

namespace TpuSender
namespace Server

open Library Engine Quik

/-! ## Nobody gets stuck -/

namespace ServerState

section Progress

variable {R E Conn : Type} [DecidableEq R] {σ : Setup R E Conn}

/-- Request `r` can take a step, whatever the connection cache, the endpoints and the peers
answer. -/
inductive CanMove (s : ServerState σ) (r : R) : Prop
  | estimate (h : (s.step (.estimate r)).isSome)
  | fanOut (h : ∀ pool, (s.step (.fanOut r pool)).isSome)
  | lock (k : Nat) (h : ∀ answers, (s.step (.call r k (.lock answers))).isSome)
  | write (k : Nat) (h : ∀ outcome, (s.step (.call r k (.write outcome))).isSome)
  | writeRest (k : Nat) (h : ∀ outcome, (s.step (.writeRest r k outcome)).isSome)
  | join (h : (s.step (.join r)).isSome)
  | wake (h : (s.step (.wake r)).isSome)
  /-- One of its sends has panicked, and it goes down with it. -/
  | unwind (b : Fin (σ.batchCount r)) (a : Fin MAX_RETRIES) (sends : List Send)
      (hphase : (s.requests r).phase = .sending b a sends)
      (hpanicked : s.unwinding ⟨r, b, a⟩ sends = true) (h : (s.step (.drop r)).isSome)

/-- The next thing that request `r` does is a read that panics. -/
inductive ReadPanics (s : ServerState σ) (r : R) : Prop
  | estimate (b : Fin (σ.batchCount r)) (a : Fin MAX_RETRIES) (p : Panic)
      (hphase : (s.requests r).phase = .ready b a)
      (h : s.service.recentSlots.estimatedCurrentSlot = .error p)
  | fanOut (b : Fin (σ.batchCount r)) (a : Fin MAX_RETRIES) (currentSlot : Nat) (p : Panic)
      (hphase : (s.requests r).phase = .estimated b a currentSlot)
      (h : s.service.leaderTpuCache.getUniqueLeaderSockets currentSlot σ.fanoutSlots = .error p)

/-- Request `r` has its response, or nobody waits for it any more. -/
inductive Ended (s : ServerState σ) (r : R) : Prop
  | answered (response : TransactionResponse) (h : (s.requests r).phase = .answered response)
  | dropped (h : (s.requests r).phase = .dropped)

variable {s t : ServerState σ} {r : R}

/-- Dropping a request is not the only way to stop a send, but the server has no other. -/
theorem no_abandoned_call {ev : ServerEvent R Conn}
    (hs : ∀ c id, ((s.clients c).calls id).progress ≠ .abandoned) (h : s.step ev = some t) :
    ∀ c id, ((t.clients c).calls id).progress ≠ .abandoned := by
  rcases step_parts h with
    ⟨e, service, _, _, rfl⟩ | ⟨r, k, act, id, send, client, _, _, hclient, rfl⟩ |
    ⟨_, _, r, request, rfl⟩
  · exact hs
  · refine (Function.forall_update_iff s.clients fun _ c => ∀ id,
      (c.calls id).progress ≠ .abandoned).2 ⟨?_, fun c _ => hs c⟩
    cases act with
    | lock answers =>
        rcases ClientState.step_lock hclient with ⟨_, choice, _, rfl⟩
        exact (Function.forall_update_iff _ fun _ (call : Call Conn) =>
          call.progress ≠ .abandoned).2
          ⟨Call.afterChoice_kept _ choice, fun j _ => hs send.client j⟩
    | write outcome =>
        rcases ClientState.step_write hclient with ⟨connection, _, rfl⟩
        exact (Function.forall_update_iff _ fun _ (call : Call Conn) =>
          call.progress ≠ .abandoned).2
          ⟨Call.writeStep_kept _ connection outcome, fun j _ => hs send.client j⟩
  · exact hs

/-- A send without a result can take a step, as long as no send of its attempt has panicked. -/
theorem canMove_of_pending (hkept : ∀ c id, ((s.clients c).calls id).progress ≠ .abandoned)
    {b : Fin (σ.batchCount r)} {a : Fin MAX_RETRIES} {sends : List Send}
    (hphase : (s.requests r).phase = .sending b a sends)
    (hcalm : s.unwinding ⟨r, b, a⟩ sends = false) {k : Nat} {send : Send}
    (hsend : sends[k]? = some send) (hpending : (s.outcomeOf ⟨r, b, a⟩ send).result = none) :
    CanMove s r := by
  have hcurrent : s.currentSend r k = some (⟨r, b, a⟩, send) :=
    currentSend_eq_some_iff.2 ⟨b, a, sends, hphase, hcalm, hsend, rfl⟩
  have hsound : (s.callOf ⟨r, b, a⟩ send).hasPanicked = false :=
    Bool.eq_false_iff.2 (List.any_eq_false.1 hcalm send (List.mem_of_getElem? hsend))
  rcases Call.pending (hkept send.client ⟨r, b, a⟩) hsound hpending with
    hrunning | ⟨connection, hprogress, _⟩
  · have hcan : ClientState.CanStep σ.stableId (s.clients send.client) ⟨r, b, a⟩ :=
      ClientState.canStep_of_isRunning hrunning
    rcases hcan with hlock | hwrite
    · refine .lock k fun answers => ?_
      rcases Option.isSome_iff_exists.1 (hlock answers) with ⟨client, hclient⟩
      simp [step, hcurrent, CallStep.event, hclient]
    · refine .write k fun outcome => ?_
      rcases Option.isSome_iff_exists.1 (hwrite outcome) with ⟨client, hclient⟩
      simp [step, hcurrent, CallStep.event, hclient]
  · refine .writeRest k fun outcome => ?_
    have hreturned : (s.callOf ⟨r, b, a⟩ send).progress = .returned (.ok connection) := hprogress
    simp [step, hphase, hcalm, hsend, hreturned, hpending]

omit [DecidableEq R] in
/-- If not all sends have a result, one of them has none. -/
theorem exists_pending {id : CallId σ.batchCount} {sends : List Send}
    (h : s.joined id sends = none) :
    ∃ (k : Nat) (send : Send), sends[k]? = some send ∧ (s.outcomeOf id send).result = none := by
  induction sends with
  | nil => simp [joined] at h
  | cons send sends ih =>
      cases hresult : (s.outcomeOf id send).result with
      | none => exact ⟨0, send, rfl, hresult⟩
      | some result =>
          have hhead : transportResult σ.api (s.outcomeOf id send) =
              some (result.mapError σ.api.ofQuicError) := by
            rw [transportResult, hresult, Option.map_some]
          cases hrest : s.joined id sends with
          | none =>
              rcases ih hrest with ⟨k, send', hk, hnone⟩
              exact ⟨k + 1, send', by simpa using hk, hnone⟩
          | some results =>
              rw [joined] at hrest
              rw [joined, List.mapM_cons, hhead, hrest] at h
              cases h

end Progress

end ServerState

/-! ## The price of a request -/

namespace Setup

variable {R E Conn : Type} [Fintype R] (σ : Setup R E Conn)

/-- The most steps that one call takes on its client. -/
def callBudget : Nat := ClientState.stepBudget (Fintype.card (CallId σ.batchCount))

/-- A send makes its call, and at most 9 writes after it. -/
def sendBudget : Nat := σ.callBudget + 9

/-- The most leaders of one fan-out. -/
def leaderLimit : Nat := (σ.fanoutSlots + 3) / 4

/-- Reading the estimate and the cache, the sends, the join and a pause. -/
def attemptBudget : Nat := 4 + σ.leaderLimit * σ.sendBudget

end Setup

/-- The attempts that may follow the current one. -/
def attemptsBehind {n : Nat} (b : Fin n) (a : Fin MAX_RETRIES) : Nat :=
  (n - 1 - b.val) * MAX_RETRIES + (MAX_RETRIES - 1 - a.val)

namespace ServerState

/-- Replacing an entry by one of less weight lowers the sum of the weights. -/
theorem sum_map_set_lt {α : Type} {f : α → Nat} {l : List α} {k : Nat} {x y : α}
    (hk : l[k]? = some x) (hlt : f y < f x) : ((l.set k y).map f).sum < (l.map f).sum := by
  induction l generalizing k with
  | nil => simp at hk
  | cons head tail ih =>
      cases k with
      | zero =>
          have hhead : head = x := by simpa using hk
          subst hhead
          simpa using hlt
      | succ k =>
          have htail := ih (by simpa using hk)
          simpa using htail

section Price

variable {R E Conn : Type} [Fintype R] {σ : Setup R E Conn}

/-- What is left of a send: steps of its call, and writes of the buffers behind the first. -/
def sendRest (s : ServerState σ) (id : CallId σ.batchCount) (send : Send) : Nat :=
  (σ.callBudget - (s.callOf id send).steps) +
    ((σ.buffers id).length - 1 - send.outcomes.length)

def phaseRest (s : ServerState σ) (r : R) : Phase (σ.batchCount r) → Nat
  | .ready b a => attemptsBehind b a * σ.attemptBudget + σ.attemptBudget
  | .estimated b a _ =>
      attemptsBehind b a * σ.attemptBudget + (3 + σ.leaderLimit * σ.sendBudget)
  | .sending b a sends =>
      attemptsBehind b a * σ.attemptBudget + (2 + (sends.map (s.sendRest ⟨r, b, a⟩)).sum)
  | .sleeping b a => attemptsBehind b a * σ.attemptBudget + σ.attemptBudget + 1
  | .answered _ => 0
  | .dropped => 0

def requestRest (s : ServerState σ) (r : R) : Nat := s.phaseRest r (s.requests r).phase

def rest (s : ServerState σ) : Nat := ∑ r, s.requestRest r

/-- What the price relies on: no call takes more steps than budgeted. -/
def Priced (s : ServerState σ) : Prop :=
  ∀ c, ClientState.Budgeted σ.stableId (s.clients c)

theorem priced_start (σ : Setup R E Conn) (service : LeaderTpuService) :
    Priced (start σ service) :=
  fun _ => ClientState.budgeted_start none _

theorem sendRest_le (s : ServerState σ) (id : CallId σ.batchCount) (send : Send) :
    s.sendRest id send ≤ σ.sendBudget := by
  have hlength := σ.length_buffers_le id
  unfold sendRest Setup.sendBudget
  omega

/-- The loop goes on with fewer attempts left, or not at all. -/
theorem phaseRest_afterAttempt (s u : ServerState σ) (r : R) (b : Fin (σ.batchCount r))
    (a : Fin MAX_RETRIES) (result : Except E Unit) :
    u.phaseRest r (afterAttempt σ r (s.requests r) b a result).phase ≤
      attemptsBehind b a * σ.attemptBudget + 1 := by
  have hmore : ∀ h : a.val + 1 < MAX_RETRIES,
      attemptsBehind b a = attemptsBehind b ⟨a.val + 1, h⟩ + 1 := by
    intro h
    simp only [attemptsBehind]
    omega
  cases hrequest : σ.requests r with
  | sendTxn txn =>
      cases result with
      | ok done => simp [afterAttempt, hrequest, phaseRest]
      | error err =>
          by_cases h : a.val + 1 < MAX_RETRIES
          · simp [afterAttempt, hrequest, h, phaseRest, hmore h, Nat.succ_mul]
          · simp [afterAttempt, hrequest, h, phaseRest]
  | sendBatch txns =>
      cases result with
      | error err =>
          by_cases h : a.val + 1 < MAX_RETRIES
          · simp [afterAttempt, hrequest, h, phaseRest, hmore h, Nat.succ_mul]
          · simp [afterAttempt, hrequest, h, phaseRest]
      | ok done =>
          by_cases h : b.val + 1 < σ.batchCount r
          · -- the attempts that the batch did not need are not made up for
            have hnext : attemptsBehind (⟨b.val + 1, h⟩ : Fin (σ.batchCount r)) ⟨0, by decide⟩ + 1 ≤
                attemptsBehind b a := by
              unfold attemptsBehind MAX_RETRIES
              dsimp only
              omega
            have hmul := Nat.mul_le_mul_right σ.attemptBudget hnext
            rw [Nat.succ_mul] at hmul
            simp only [afterAttempt, hrequest, h, dite_true, phaseRest]
            exact hmul.trans (Nat.le_succ _)
          · simp [afterAttempt, hrequest, h, phaseRest]

/-- A request starts with the price of all the attempts that it may make. -/
theorem rest_start (σ : Setup R E Conn) (service : LeaderTpuService) :
    (start σ service).rest = ∑ r, σ.batchCount r * MAX_RETRIES * σ.attemptBudget := by
  refine Finset.sum_congr rfl fun r _ => ?_
  by_cases h : 0 < σ.batchCount r
  · have hall : attemptsBehind (⟨0, h⟩ : Fin (σ.batchCount r)) ⟨0, by decide⟩ + 1 =
        σ.batchCount r * MAX_RETRIES := by
      unfold attemptsBehind MAX_RETRIES
      dsimp only
      omega
    simp only [requestRest, start, RequestState.start, h, dite_true, phaseRest]
    rw [← hall, Nat.succ_mul]
  · have hzero : σ.batchCount r = 0 := Nat.eq_zero_of_not_pos h
    simp [requestRest, start, RequestState.start, phaseRest, hzero]

/-! ## Every step of a request is paid for -/

section Steps

variable [DecidableEq R] {s t : ServerState σ} {ev : ServerEvent R Conn}

theorem Priced.step (h : Priced s) (hstep : s.step ev = some t) : Priced t := by
  rcases step_parts hstep with
    ⟨e, service, _, _, rfl⟩ | ⟨r, k, act, id, send, client, _, _, hclient, rfl⟩ |
    ⟨_, _, r, request, rfl⟩
  · exact h
  · exact (Function.forall_update_iff s.clients fun _ c => ClientState.Budgeted σ.stableId c).2
      ⟨(h send.client).step hclient, fun c _ => h c⟩
  · exact h

/-- A request that moves by itself lowers its own price and leaves the others' alone. -/
theorem rest_setRequest {r : R} {request : RequestState E (σ.batchCount r)}
    (h : s.phaseRest r request.phase < s.requestRest r) :
    (s.setRequest r request).rest < s.rest := by
  refine Finset.sum_lt_sum ?_ ⟨r, Finset.mem_univ r, ?_⟩
  · intro r' _
    by_cases hr : r' = r
    · subst hr
      have hself : (s.setRequest r' request).requestRest r' = s.phaseRest r' request.phase := by
        simp only [requestRest, setRequest, Function.update_self]
        rfl
      exact hself ▸ h.le
    · have hother : (s.setRequest r request).requestRest r' = s.requestRest r' := by
        simp only [requestRest, setRequest, Function.update_of_ne hr]
        rfl
      exact hother.le
  · have hself : (s.setRequest r request).requestRest r = s.phaseRest r request.phase := by
      simp only [requestRest, setRequest, Function.update_self]
      rfl
    exact hself ▸ h

theorem rest_call {r : R} {k : Nat} {act : CallStep Conn} (ht : Priced t)
    (h : s.step (.call r k act) = some t) : t.rest < s.rest := by
  rcases step_call h with ⟨b, a, sends, send, client, hphase, _, hsend, hclient, rfl⟩
  rcases ClientState.step_event hclient with ⟨hself, hothers⟩
  -- a call that has moved has still not taken more steps than budgeted
  have hbudget : (client.calls ⟨r, b, a⟩).steps ≤ σ.callBudget := by
    have hall := (ht send.client).steps_le ⟨r, b, a⟩
    simpa [Setup.callBudget] using hall
  -- the sends of other attempts may share the client, but not the call
  have hle : ∀ id send', sendRest { s with clients := Function.update s.clients send.client client }
      id send' ≤ s.sendRest id send' := by
    intro id send'
    have hsteps : (s.callOf id send').steps ≤
        (callOf { s with clients := Function.update s.clients send.client client } id
          send').steps := by
      by_cases hc : send'.client = send.client
      · by_cases hid : id = ⟨r, b, a⟩
        · subst hid
          simp only [callOf, hc, Function.update_self, hself]
          exact Nat.le_succ _
        · simp [callOf, hc, hothers id hid]
      · simp [callOf, hc]
    unfold sendRest
    omega
  have hlt : sendRest { s with clients := Function.update s.clients send.client client }
      ⟨r, b, a⟩ send < s.sendRest ⟨r, b, a⟩ send := by
    simp only [sendRest, callOf, Function.update_self, hself]
    omega
  refine Finset.sum_lt_sum ?_ ⟨r, Finset.mem_univ r, ?_⟩
  · intro r' _
    cases hphase' : (s.requests r').phase with
    | sending b' a' sends' =>
        simp only [requestRest, hphase', phaseRest]
        have hsum := List.sum_le_sum (l := sends') fun send' _ => hle ⟨r', b', a'⟩ send'
        omega
    | _ => simp [requestRest, hphase', phaseRest]
  · simp only [requestRest, hphase, phaseRest]
    have hsum := List.sum_lt_sum (l := sends) _ _ (fun send' _ => hle ⟨r, b, a⟩ send')
      ⟨send, List.mem_of_getElem? hsend, hlt⟩
    omega

theorem rest_writeRest {r : R} {k : Nat} {outcome : StreamWrite}
    (h : s.step (.writeRest r k outcome) = some t) : t.rest < s.rest := by
  rcases step_writeRest h with
    ⟨b, a, sends, send, connection, hphase, _, hsend, hprogress, hresult, rfl⟩
  -- there is a buffer left to write
  have hmore : send.outcomes.length < (σ.buffers ⟨r, b, a⟩).length - 1 := by
    rcases sendOutcome_pending hresult with hwaits | ⟨_, _, hfewer⟩
    · exact absurd hprogress (hwaits _)
    · simpa using hfewer
  have hlt : s.sendRest ⟨r, b, a⟩ { send with outcomes := send.outcomes ++ [outcome] } <
      s.sendRest ⟨r, b, a⟩ send := by
    simp only [sendRest, callOf, List.length_append, List.length_singleton]
    omega
  apply rest_setRequest
  simp only [requestRest, hphase, phaseRest]
  have hsum := sum_map_set_lt hsend hlt
  omega

/-- The sends of a fan-out are paid for. -/
theorem rest_fanOut {r : R} {pool : SocketAddr → Nat} (h : s.step (.fanOut r pool) = some t) :
    t.rest < s.rest := by
  rcases step_fanOut h with ⟨b, a, currentSlot, leaders, hphase, hleaders, rfl⟩
  have hfew : leaders.length ≤ σ.leaderLimit := (getUniqueLeaderSockets_eq_ok hleaders).length_le
  have hsum : ((leaders.map fun addr => (⟨⟨addr, pool addr⟩, []⟩ : Send)).map
      (s.sendRest ⟨r, b, a⟩)).sum ≤ σ.leaderLimit * σ.sendBudget := by
    have hcard := List.sum_le_card_nsmul
      ((leaders.map fun addr => (⟨⟨addr, pool addr⟩, []⟩ : Send)).map (s.sendRest ⟨r, b, a⟩))
      σ.sendBudget (by
        intro x hx
        rcases List.mem_map.1 hx with ⟨send, _, rfl⟩
        exact sendRest_le s ⟨r, b, a⟩ send)
    rw [List.length_map, List.length_map, Nat.nsmul_eq_mul] at hcard
    exact hcard.trans (Nat.mul_le_mul_right _ hfew)
  apply rest_setRequest
  simp only [requestRest, hphase, phaseRest]
  omega

theorem rest_step (ht : Priced t) (h : s.step ev = some t) :
    t.rest + (if ev.ofRequest then 1 else 0) ≤ s.rest := by
  cases ev with
  | service e =>
      rcases step_service h with ⟨service, _, rfl⟩
      exact le_rfl
  | estimate r =>
      rcases step_estimate h with ⟨b, a, currentSlot, hphase, _, rfl⟩
      apply rest_setRequest
      simp only [requestRest, hphase, phaseRest, Setup.attemptBudget]
      omega
  | fanOut r pool => exact rest_fanOut h
  | call r k act => exact rest_call ht h
  | writeRest r k outcome => exact rest_writeRest h
  | join r =>
      rcases step_join h with ⟨b, a, sends, results, hphase, _, rfl⟩
      apply rest_setRequest
      have hnext := phaseRest_afterAttempt s s r b a (aggregate σ.api results)
      refine hnext.trans_lt ?_
      simp only [requestRest, hphase, phaseRest]
      omega
  | wake r =>
      rcases step_wake h with ⟨b, a, hphase, rfl⟩
      apply rest_setRequest
      simp [requestRest, hphase, phaseRest]
  | drop r =>
      rcases step_drop h with ⟨hanswered, hdropped, rfl⟩
      apply rest_setRequest
      cases hphase : (s.requests r).phase with
      | answered response => exact absurd hphase (hanswered response)
      | dropped => exact absurd hphase hdropped
      | ready b a => simp [requestRest, hphase, phaseRest, Setup.attemptBudget]
      | estimated b a currentSlot => simp [requestRest, hphase, phaseRest]
      | sending b a sends => simp [requestRest, hphase, phaseRest]
      | sleeping b a => simp [requestRest, hphase, phaseRest]

end Steps

/-- In every interleaving of any number of requests with each other and with the leader service, the
requests take a bounded number of steps; and a request that has not ended can take one more,
whatever the network answers, unless its next read of a slot overflows. -/
theorem requests_terminate [DecidableEq R] (σ : Setup R E Conn) (service : LeaderTpuService)
    (evs : List (ServerEvent R Conn)) (t : ServerState σ)
    (hrun : (machine σ).run (start σ service) evs = some t) :
    evs.countP ServerEvent.ofRequest ≤ ∑ r, σ.batchCount r * MAX_RETRIES * σ.attemptBudget ∧
      ∀ r, Ended t r ∨ CanMove t r ∨ ReadPanics t r := by
  have hpriced : Priced t :=
    (machine σ).run_invariant (fun _ _ _ hs hnext => hs.step hnext) (priced_start σ service) hrun
  have hkept : ∀ c id, ((t.clients c).calls id).progress ≠ .abandoned := by
    refine (machine σ).run_invariant (I := fun s => ∀ c id,
      ((s.clients c).calls id).progress ≠ .abandoned)
      (fun _ _ _ hs hnext => no_abandoned_call hs hnext) ?_ hrun
    intro c id
    simp [start, ClientState.start, Call.start, Call.continueLoop]
  constructor
  · have hcount := (machine σ).run_countP_le (I := Priced) (m := rest) (p := ServerEvent.ofRequest)
      (fun _ _ _ hs hnext => hs.step hnext) (fun _ _ _ _ ht hnext => rest_step ht hnext)
      (priced_start σ service) hrun
    rw [rest_start] at hcount
    exact (Nat.le_add_left _ _).trans hcount
  · intro r
    cases hphase : (t.requests r).phase with
    | answered response => exact .inl (.answered response hphase)
    | dropped => exact .inl (.dropped hphase)
    | sleeping b a => exact .inr (.inl (.wake (by simp [step, hphase])))
    | ready b a =>
        cases hslot : t.service.recentSlots.estimatedCurrentSlot with
        | ok currentSlot =>
            exact .inr (.inl (.estimate (by simp [step, hphase, hslot, Except.toOption])))
        | error p => exact .inr (.inr (.estimate b a p hphase hslot))
    | estimated b a currentSlot =>
        cases hsockets :
            t.service.leaderTpuCache.getUniqueLeaderSockets currentSlot σ.fanoutSlots with
        | ok leaders =>
            refine .inr (.inl (.fanOut fun pool => ?_))
            simp [step, hphase, hsockets, Except.toOption]
        | error p => exact .inr (.inr (.fanOut b a currentSlot p hphase hsockets))
    | sending b a sends =>
        refine .inr (.inl ?_)
        cases hunwinding : t.unwinding ⟨r, b, a⟩ sends with
        | true => exact .unwind b a sends hphase hunwinding (by simp [step, hphase])
        | false =>
            cases hjoined : t.joined ⟨r, b, a⟩ sends with
            | some results => exact .join (by simp [step, hphase, hjoined])
            | none =>
                rcases exists_pending hjoined with ⟨k, send, hsend, hpending⟩
                exact canMove_of_pending hkept hphase hunwinding hsend hpending

end Price

theorem requests_terminate_two_callers :
    ∃ t, (machine twoCallers).run (start twoCallers loneLeader) sharedLeader = some t ∧
      (t.requests true).phase = .answered (success 1) ∧
      (Ended t false ∨ CanMove t false ∨ ReadPanics t false) :=
  ⟨_, rfl, rfl, (requests_terminate twoCallers loneLeader sharedLeader _ rfl).2 false⟩

end ServerState
end Server
end TpuSender
