import TpuSender.Server.Handlers

/-!
# EndpointAgreement — the same transaction at both endpoints

The two retry loops are written twice.  Here one transaction goes to `handleTransaction` and, as a
list of one, to `handleTransactionsBatched`, and both meet the same outcomes, numbered by attempt.

For a transaction that decodes, the loops make the same attempts and give the same answer
(`retries_agree`); but only the batch endpoint pauses between two attempts, and a transaction that
does not decode is sent, empty, by the other endpoint only (`endpoints_agree_iff`).
-/

namespace TpuSender
namespace Server

open Library Engine

/-! ## What the endpoints should have in common -/

/-- What a client sees of a response apart from the error text. -/
def TransactionResponse.answer (response : TransactionResponse) : Nat × String × Nat :=
  (response.statusCode, response.status, response.attempts)

/-- A number of attempts at sending `payload`, with a pause between any two. -/
def pausedSends {α : Type} (payload : α) : Nat → List (Event α)
  | 0 => []
  | 1 => [.send payload]
  | n + 2 => .send payload :: .sleep INITIAL_RETRY_DELAY_MS :: pausedSends payload (n + 1)

/-- Both endpoints give the same answer after the same attempts at the same data, and both pause
between two of them. -/
structure EndpointsAgree (single : Handled (List UInt8)) (batched : Handled (List (List UInt8))) :
    Prop where
  answer : single.response.map TransactionResponse.answer =
    batched.response.map TransactionResponse.answer
  attempts : ∃ data n, single.trace = pausedSends data n ∧ batched.trace = pausedSends [data] n

@[simp] theorem payloads_pausedSends {α : Type} (payload : α) (n : Nat) :
    payloads (pausedSends payload n) = List.replicate n payload := by
  induction n using pausedSends.induct with
  | case1 => rfl
  | case2 => rfl
  | case3 n ih =>
      rw [pausedSends, payloads_send, payloads_sleep, ih]
      rfl

theorem payloads_replicate_send {α : Type} (payload : α) (n : Nat) :
    payloads (List.replicate n (.send payload)) = List.replicate n payload :=
  List.filterMap_replicate_of_some rfl

section Loops

variable {E : Type} {decode : List UInt8 → Option (List UInt8)} {txn data : List UInt8}

/-! ## The loops side by side -/

/-- The answer of the batch endpoint when the loop of its only batch is left in this way. -/
def BatchEnd.answer : BatchEnd E → Option (Nat × String × Nat)
  | .pending => none
  | .next overallAttempt _ => some (success overallAttempt).answer
  | .respond response => some response.answer

/-- With the same number of attempts left, the loops agree in all but the pauses. -/
theorem loops_agree (api : TransportError E) (outcome : Nat → Option (Except E Unit))
    (hdecode : decode txn = some data) {remaining attempt : Nat} (hremaining : 0 < remaining)
    (hsum : remaining + attempt = MAX_RETRIES) (lastError lastError' : Option E) :
    ∃ n, (retryTransaction api decode (fun k _ => outcome k) txn remaining attempt
          lastError).trace = List.replicate (n + 1) (.send data) ∧
      (retryBatch api (fun k _ => outcome k) 0 [data] remaining attempt attempt lastError').1 =
        pausedSends [data] (n + 1) ∧
      (retryTransaction api decode (fun k _ => outcome k) txn remaining attempt
          lastError).response.map TransactionResponse.answer =
        (retryBatch api (fun k _ => outcome k) 0 [data] remaining attempt attempt
          lastError').2.answer := by
  induction remaining generalizing attempt lastError lastError' with
  | zero => cases hremaining
  | succ remaining ih =>
      rcases hcall : outcome attempt with _ | err | done
      · exact ⟨0, by simp [retryTransaction, hcall, hdecode], by simp [retryBatch, hcall,
          pausedSends], by simp [retryTransaction, retryBatch, hcall, BatchEnd.answer]⟩
      · by_cases hretry : attempt + 1 < MAX_RETRIES
        · have hleft : 0 < remaining := by omega
          have hsum' : remaining + (attempt + 1) = MAX_RETRIES := by omega
          rcases ih hleft hsum' (some err) (some err) with ⟨n, htrace, hevents, hanswer⟩
          refine ⟨n + 1, ?_, ?_, ?_⟩
          · simp only [retryTransaction, hcall, hdecode, Option.getD_some, htrace]
            exact List.replicate_succ.symm
          · simp only [retryBatch, hcall, hretry, if_true, hevents]
            rfl
          · simpa only [retryTransaction, retryBatch, hcall, hretry, if_true] using hanswer
        · -- the last attempt: both answer with an error
          have hlast : remaining = 0 := by omega
          subst hlast
          refine ⟨0, ?_, ?_, ?_⟩
          · simp [retryTransaction, hcall, hdecode]
          · simp [retryBatch, hcall, hretry, pausedSends]
          · simp only [retryTransaction, retryBatch, hcall, hretry, if_false]
            rfl
      · exact ⟨0, by simp [retryTransaction, hcall, hdecode], by simp [retryBatch, hcall,
          pausedSends], by simp [retryTransaction, retryBatch, hcall, BatchEnd.answer]⟩

/-- One transaction that decodes is one batch. -/
theorem decodedBatches_of_decode (hdecode : decode txn = some data) :
    decodedBatches decode [txn] = [[data]] := by
  rw [decodedBatches, List.filterMap_cons_some hdecode, List.filterMap_nil]
  simp [chunks, chunkCount, chunk]

theorem decodedBatches_of_decode_none (hdecode : decode txn = none) :
    decodedBatches decode [txn] = [] := by
  rw [decodedBatches, List.filterMap_cons_none hdecode, List.filterMap_nil]
  rfl

/-- The run over a single batch is the run of its loop. -/
theorem processBatches_single (api : TransportError E)
    (send : Nat → List (List UInt8) → Option (Except E Unit))
    (batch : List (List UInt8)) :
    (processBatches api send 0 [batch] 0 none).trace =
        (retryBatch api send 0 batch MAX_RETRIES 0 0 none).1 ∧
      (processBatches api send 0 [batch] 0 none).response.map TransactionResponse.answer =
        (retryBatch api send 0 batch MAX_RETRIES 0 0 none).2.answer := by
  rcases hloop : retryBatch api send 0 batch MAX_RETRIES 0 0 none with ⟨events, fin⟩
  cases fin with
  | pending => simp [processBatches, hloop, BatchEnd.answer]
  | next overallAttempt lastError => simp [processBatches, hloop, BatchEnd.answer]
  | respond response => simp [processBatches, hloop, BatchEnd.answer]

/-- A transaction that decodes is attempted equally often by both endpoints, with the same answer;
only the pauses are missing from the first trace. -/
theorem retries_agree (api : TransportError E) (outcome : Nat → Option (Except E Unit))
    (hdecode : decode txn = some data) :
    ∃ n, (handleTransaction api decode (fun k _ => outcome k) txn).trace =
        List.replicate (n + 1) (.send data) ∧
      (handleTransactionsBatched api decode (fun k _ => outcome k) [txn]).trace =
        pausedSends [data] (n + 1) ∧
      (handleTransaction api decode (fun k _ => outcome k) txn).response.map
          TransactionResponse.answer =
        (handleTransactionsBatched api decode (fun k _ => outcome k) [txn]).response.map
          TransactionResponse.answer := by
  rcases loops_agree api outcome hdecode (Nat.succ_pos 9)
    (Nat.add_zero MAX_RETRIES) none none with ⟨n, htrace, hevents, hanswer⟩
  rcases processBatches_single api (fun k _ => outcome k) [data] with
    ⟨hbatchTrace, hbatchAnswer⟩
  refine ⟨n, htrace, ?_, ?_⟩
  · rw [handleTransactionsBatched, decodedBatches_of_decode hdecode, hbatchTrace]
    exact hevents
  · rw [handleTransactionsBatched, decodedBatches_of_decode hdecode, hbatchAnswer]
    exact hanswer

/-! ## When they agree -/

/-- Without pauses there is agreement on a single attempt only. -/
theorem attempted_once_of_paused {n m : Nat} {payload : List UInt8}
    (h : List.replicate (n + 1) (.send data) = pausedSends payload m) : n = 0 := by
  cases n with
  | zero => rfl
  | succ n =>
      rcases m with _ | _ | m
      · cases h
      · cases h
      · -- the second event is an attempt on one side and a pause on the other
        cases h

theorem retryTransaction_trace_ne_nil (api : TransportError E)
    (decode : List UInt8 → Option (List UInt8))
    (send : Nat → List UInt8 → Option (Except E Unit)) (txn : List UInt8)
    (remaining attempt : Nat) (lastError : Option E) :
    (retryTransaction api decode send txn (remaining + 1) attempt lastError).trace ≠ [] := by
  rcases hcall : send attempt ((decode txn).getD []) with _ | err | done
  · simp [retryTransaction, hcall]
  · simp [retryTransaction, hcall]
  · simp [retryTransaction, hcall]

/-- A transaction is attempted once exactly when the first attempt does not fail. -/
theorem attempted_once_iff (api : TransportError E) (outcome : Nat → Option (Except E Unit))
    (hdecode : decode txn = some data) :
    (handleTransaction api decode (fun k _ => outcome k) txn).trace = [.send data] ↔
      ∀ err, outcome 0 ≠ some (.error err) := by
  rcases hcall : outcome 0 with _ | err | done
  · simp [handleTransaction, MAX_RETRIES, retryTransaction, hcall, hdecode]
  · have hmore := retryTransaction_trace_ne_nil api decode (fun k _ => outcome k) txn 8 1
      (some err)
    simpa [handleTransaction, MAX_RETRIES, retryTransaction, hcall, hdecode] using hmore
  · simp [handleTransaction, MAX_RETRIES, retryTransaction, hcall, hdecode]

/-- The endpoints agree on a transaction exactly when it decodes and the first attempt does not
fail; whenever it decodes, they give the same answer after the same attempts, pauses apart. -/
theorem endpoints_agree_iff (api : TransportError E)
    (decode : List UInt8 → Option (List UInt8)) (outcome : Nat → Option (Except E Unit))
    (txn : List UInt8) :
    (EndpointsAgree (handleTransaction api decode (fun k _ => outcome k) txn)
        (handleTransactionsBatched api decode (fun k _ => outcome k) [txn]) ↔
      (∃ data, decode txn = some data) ∧ ∀ err, outcome 0 ≠ some (.error err)) ∧
      ∀ data, decode txn = some data →
        (handleTransaction api decode (fun k _ => outcome k) txn).response.map
            TransactionResponse.answer =
          (handleTransactionsBatched api decode (fun k _ => outcome k) [txn]).response.map
            TransactionResponse.answer ∧
        (handleTransactionsBatched api decode (fun k _ => outcome k) [txn]).calls =
          (handleTransaction api decode (fun k _ => outcome k) txn).calls.map fun d => [d] := by
  refine ⟨⟨?_, ?_⟩, ?_⟩
  · rintro ⟨_, payload, m, hsingle, hbatched⟩
    cases hdecode : decode txn with
    | none =>
        -- nothing is left to send for the batch endpoint
        rw [handleTransactionsBatched, decodedBatches_of_decode_none hdecode] at hbatched
        have hnone : m = 0 := by
          rcases m with _ | _ | m
          · rfl
          · cases hbatched
          · cases hbatched
        subst hnone
        exact absurd hsingle (retryTransaction_trace_ne_nil _ _ _ _ 9 0 none)
    | some data =>
        refine ⟨⟨data, rfl⟩, ?_⟩
        rcases retries_agree api outcome hdecode with ⟨n, htrace, _, _⟩
        have hone : n = 0 := attempted_once_of_paused (htrace.symm.trans hsingle)
        subst hone
        exact (attempted_once_iff api outcome hdecode).1 htrace
  · rintro ⟨⟨data, hdecode⟩, hfirst⟩
    have honce := (attempted_once_iff api outcome hdecode).2 hfirst
    rcases retries_agree api outcome hdecode with ⟨n, htrace, hbatched, hanswer⟩
    have hone : n = 0 := by
      have hlength := congrArg List.length (htrace.symm.trans honce)
      simpa using hlength
    subst hone
    exact ⟨hanswer, data, 1, honce, hbatched⟩
  · intro data hdecode
    rcases retries_agree api outcome hdecode with ⟨n, htrace, hbatched, hanswer⟩
    refine ⟨hanswer, ?_⟩
    rw [Handled.calls, Handled.calls, htrace, hbatched, payloads_pausedSends,
      payloads_replicate_send, List.map_replicate]

end Loops

/-- A first attempt that fails: the second one follows without a pause at the first endpoint. -/
theorem endpoints_differ :
    ¬ ∀ (api : TransportError String) (decode : List UInt8 → Option (List UInt8))
        (outcome : Nat → Option (Except String Unit)) (txn : List UInt8),
        EndpointsAgree (handleTransaction api decode (fun k _ => outcome k) txn)
          (handleTransactionsBatched api decode (fun k _ => outcome k) [txn]) := by
  intro h
  have hagree := h
    { ofQuicError := fun _ => "quic error"
      ofIoError := id
      display := id
      debug := id }
    some (fun k => if k = 0 then some (.error "timed out") else some (.ok ())) [7]
  rcases hagree.attempts with ⟨payload, m, hsingle, _⟩
  rcases m with _ | _ | m
  · cases hsingle
  · cases hsingle
  · cases hsingle

end Server
end TpuSender
