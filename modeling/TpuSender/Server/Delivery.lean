import TpuSender.Server.BatchOrder

/-!
# Delivery — does "success" mean that the transactions were written?

Here the handlers run over the client: each call of a request meets a `Network`, and a transaction
is delivered if some leader's stream took exactly its bytes in one of the calls.  In a batch the
bytes have to be taken for the transaction itself, at its place in its own batch: an equal one
elsewhere does not count.

A leader's success means that its buffers were written, except an empty buffer that is the first of
its send.  The endpoint for one transaction turns a transaction that does not decode into such a
buffer (`send_txn_delivers_iff`); the batch endpoint drops it before the first call
(`send_batch_delivers_iff`).
-/

namespace TpuSender
namespace Server

open Library Engine Quik

section Requests

variable {E Conn : Type} (api : TransportError E) (stableId : Conn → Nat)
  (decode : List UInt8 → Option (List UInt8)) (network : Nat → Network Conn)

/-- `/send_txn` with the network that each call of the request meets. -/
def sendTxn (txn : List UInt8) : Handled (List UInt8) :=
  handleTransaction api decode
    (fun call payload => trySendWireTransaction api stableId (network call) payload) txn

/-- `/send_batch` likewise. -/
def sendTxns (txns : List (List UInt8)) : Handled (List (List UInt8)) :=
  handleTransactionsBatched api decode
    (fun call batch => trySendWireTransactionBatch api stableId (network call) batch) txns

/-- In one of the calls of `/send_txn` a leader's stream took exactly `data`. -/
def DeliveredTxn (calls : List (List UInt8)) (data : List UInt8) : Prop :=
  ∃ call payload addr connection, calls[call]? = some payload ∧ addr ∈ (network call).leaders ∧
    Op.wrote connection data .written ∈
      (sendWireTransactionToAddr stableId (network call) payload addr).ops

/-- Where transaction `i` is among the ones that decode, if it does. -/
def decodedPlace (txns : List (List UInt8)) (i : Nat) : Nat :=
  ((txns.take i).filterMap decode).length

/-- The call `call` of `/send_batch` has transaction `i`, decoded to `data`, at its place in the
batch whose turn it is. -/
structure Carries (txns : List (List UInt8)) (i : Nat) (data : List UInt8) (call : Nat)
    (batch : List (List UInt8)) : Prop where
  decoded : txns[i]?.bind decode = some data
  made : (sendTxns api stableId decode network txns).calls[call]? = some batch
  turn : batchesDone
      (fun call batch => trySendWireTransactionBatch api stableId (network call) batch) 0
      (sendTxns api stableId decode network txns).calls call =
    decodedPlace decode txns i / 10
  place : batch[decodedPlace decode txns i % 10]? = some data

/-- In one of the calls of `/send_batch` that carry transaction `i` a leader's stream took exactly
`data` for it. -/
def DeliveredInBatch (txns : List (List UInt8)) (i : Nat) (data : List UInt8) : Prop :=
  ∃ call batch addr, Carries api stableId decode network txns i data call batch ∧
    addr ∈ (network call).leaders ∧
    WroteAt stableId batch ((network call).runs addr) (decodedPlace decode txns i % 10) data

/-- No call of `/send_batch` carries transaction `i`. -/
def DroppedFromBatch (txns : List (List UInt8)) (i : Nat) : Prop :=
  ∀ data call batch, ¬ Carries api stableId decode network txns i data call batch

end Requests

/-! ## One transaction -/

section Single

variable {E Conn : Type} {api : TransportError E} {stableId : Conn → Nat}
  {decode : List UInt8 → Option (List UInt8)}

/-- A successful response comes from a call that succeeded. -/
theorem retryTransaction_success {send : Nat → List UInt8 → Option (Except E Unit)}
    {txn : List UInt8} {remaining attempt : Nat} {lastError : Option E}
    {response : TransactionResponse}
    (h : (retryTransaction api decode send txn remaining attempt lastError).response =
      some response)
    (hstatus : response.status = "success") :
    ∃ k, (retryTransaction api decode send txn remaining attempt lastError).calls[k]? =
        some ((decode txn).getD []) ∧
      send (attempt + k) ((decode txn).getD []) = some (.ok ()) := by
  induction remaining generalizing attempt lastError with
  | zero =>
      simp only [retryTransaction, Option.some.injEq] at h
      subst h
      simp at hstatus
  | succ remaining ih =>
      rcases hcall : send attempt ((decode txn).getD []) with _ | err | done
      · simp [retryTransaction, hcall] at h
      · simp only [retryTransaction, hcall] at h
        -- a failed call is one more in front of the successful one
        rcases ih h with ⟨k, hk, hok⟩
        refine ⟨k + 1, ?_, ?_⟩
        · simpa [retryTransaction, hcall, Handled.calls] using hk
        · rwa [Nat.add_right_comm] at hok
      · refine ⟨0, ?_, hcall⟩
        simp [retryTransaction, hcall, Handled.calls]

theorem sendTxn_willing (api : TransportError E) (stableId : Conn → Nat)
    (decode : List UInt8 → Option (List UInt8)) (connection : Conn) (n : Nat) (txn : List UInt8) :
    (sendTxn api stableId decode (fun _ => willingNetwork connection n) txn).response =
        some (success 1) ∧
      (sendTxn api stableId decode (fun _ => willingNetwork connection n) txn).calls =
        [(decode txn).getD []] := by
  have hsend := trySendWireTransaction_willing api stableId connection n ((decode txn).getD [])
  constructor
  · simp [sendTxn, handleTransaction, MAX_RETRIES, retryTransaction, hsend]
  · simp [sendTxn, handleTransaction, MAX_RETRIES, retryTransaction, hsend, Handled.calls]

/-- A transaction that decodes to some bytes is delivered when the response is a success. -/
theorem sendTxn_delivers {network : Nat → Network Conn} {txn data : List UInt8}
    (hdecode : decode txn = some data) (hdata : data ≠ []) {response : TransactionResponse}
    (h : (sendTxn api stableId decode network txn).response = some response)
    (hstatus : response.status = "success") :
    DeliveredTxn stableId network (sendTxn api stableId decode network txn).calls data := by
  rcases retryTransaction_success h hstatus with ⟨k, hk, hok⟩
  rw [hdecode, Option.getD_some, Nat.zero_add] at hok
  rw [hdecode, Option.getD_some] at hk
  rcases trySendWireTransaction_ok hok with ⟨addr, haddr, hresult⟩
  rcases sendOne_ok hdata hresult with ⟨connection, hwrote⟩
  exact ⟨k, data, addr, connection, hk, haddr, hwrote⟩

/-- Success of `/send_txn` means delivery for exactly the transactions that decode to at least one
byte. -/
theorem send_txn_delivers_iff [Inhabited Conn] (api : TransportError E) (stableId : Conn → Nat)
    (decode : List UInt8 → Option (List UInt8)) (txn : List UInt8) :
    (∀ (network : Nat → Network Conn) response,
        (sendTxn api stableId decode network txn).response = some response →
        response.status = "success" →
        ∃ data, decode txn = some data ∧
          DeliveredTxn stableId network (sendTxn api stableId decode network txn).calls data) ↔
      ∃ data, decode txn = some data ∧ data ≠ [] := by
  constructor
  · intro hdelivers
    -- a leader that takes everything answers a success
    rcases sendTxn_willing api stableId decode (default : Conn) 0 txn with ⟨hresponse, _⟩
    rcases hdelivers _ _ hresponse rfl with ⟨data, hdecode, hdelivered⟩
    refine ⟨data, hdecode, ?_⟩
    rcases hdelivered with ⟨call, payload, addr, connection, hcall, _, hwrote⟩
    rcases wrote_of_mem_sendOne hwrote with ⟨hsame, hne⟩
    exact hsame ▸ hne
  · rintro ⟨data, hdecode, hdata⟩ network response hresponse hstatus
    exact ⟨data, hdecode, sendTxn_delivers hdecode hdata hresponse hstatus⟩

/-- Transport errors as texts. -/
def textErrors : TransportError String :=
  { ofQuicError := fun _ => "quic error"
    ofIoError := id
    display := id
    debug := id }

/-- The one byte `!` is no base64: the response is a success although nothing was decoded. -/
theorem undecodable_txn_succeeds :
    ¬ ∀ (decode : List UInt8 → Option (List UInt8)) (txn : List UInt8)
        (network : Nat → Network Nat) (response : TransactionResponse),
        (sendTxn textErrors (fun c => c + 1) decode network txn).response = some response →
        response.status = "success" →
        ∃ data, decode txn = some data ∧ DeliveredTxn (fun c => c + 1) network
          (sendTxn textErrors (fun c => c + 1) decode network txn).calls data := by
  intro h
  rcases h (fun _ => none) [33] (fun _ => willingNetwork 0 0) (success 1) rfl rfl with
    ⟨data, hdecode, _⟩
  cases hdecode

end Single

/-! ## Batches -/

section Batched

variable {E Conn : Type} {api : TransportError E} {stableId : Conn → Nat}
  {decode : List UInt8 → Option (List UInt8)}

/-- In the calls of a run, attempt `m` at batch `i` stands behind all attempts at the batches before
it. -/
theorem getElem?_flatten_replicate {α : Type} {as : List Nat} {batches : List α} {i a m : Nat}
    {batch : α} (ha : as[i]? = some a) (hbatch : batches[i]? = some batch) (hm : m < a) :
    (List.zipWith List.replicate as batches).flatten[(as.take i).sum + m]? = some batch := by
  induction as generalizing batches i with
  | nil => simp at ha
  | cons a' as ih =>
      cases batches with
      | nil => simp at hbatch
      | cons batch' batches =>
          rw [List.zipWith_cons_cons, List.flatten_cons]
          cases i with
          | zero =>
              cases ha
              cases hbatch
              rw [List.getElem?_append_left (by simpa using hm)]
              simp [hm]
          | succ i =>
              have hskip :
                  (List.replicate a' batch').length ≤ ((a' :: as).take (i + 1)).sum + m := by
                simp [Nat.add_assoc]
              have hrest : ((a' :: as).take (i + 1)).sum + m - (List.replicate a' batch').length =
                  (as.take i).sum + m := by
                simp [Nat.add_assoc]
              rw [List.getElem?_append_right hskip, hrest]
              exact ih ha hbatch

/-- When the response is a success, every batch has been called with successfully. -/
theorem exists_successful_call {send : Nat → List (List UInt8) → Option (Except E Unit)}
    {txns : List (List UInt8)} {response : TransactionResponse}
    (h : (handleTransactionsBatched api decode send txns).response = some response)
    (hstatus : response.status = "success") {i : Nat} {batch : List (List UInt8)}
    (hbatch : (decodedBatches decode txns)[i]? = some batch) :
    ∃ call, (handleTransactionsBatched api decode send txns).calls[call]? = some batch ∧
      send call batch = some (.ok ()) ∧
      batchesDone send 0 (handleTransactionsBatched api decode send txns).calls call = i := by
  rcases handleTransactionsBatched_in_order api send decode txns with ⟨as, horder, hcalls, hending⟩
  rw [h] at hending
  cases hending with
  | failed j batch' err hlen hcount hbatch' hlast => simp [batchFailed] at hstatus
  | succeeded hlen hlast =>
      have hi : i < as.length := by
        rw [hlen]
        exact (List.getElem?_eq_some_iff.1 hbatch).1
      have ha : as[i]? = some (as.get ⟨i, hi⟩) := by
        simp [hi]
      have hpos : 1 ≤ as.get ⟨i, hi⟩ := (horder.attempts i _ batch ha hbatch).pos
      have hok := hlast i _ batch ha hbatch
      have hlt : as.get ⟨i, hi⟩ - 1 < as.get ⟨i, hi⟩ := by omega
      refine ⟨(as.take i).sum + (as.get ⟨i, hi⟩ - 1), ?_, by simpa using hok, ?_⟩
      · rw [hcalls]
        exact getElem?_flatten_replicate ha hbatch hlt
      · rw [hcalls]
        exact horder.batchesDone_eq ha hlt

/-- While every transaction decodes, the decoded list keeps the places. -/
theorem getElem?_filterMap_of_isSome {txns : List (List UInt8)}
    (h : ∀ txn ∈ txns, (decode txn).isSome) (i : Nat) :
    (txns.filterMap decode)[i]? = txns[i]?.bind decode := by
  induction txns generalizing i with
  | nil => simp
  | cons txn txns ih =>
      rcases Option.isSome_iff_exists.1 (h txn List.mem_cons_self) with ⟨data, hdata⟩
      rw [List.filterMap_cons_some hdata]
      cases i with
      | zero => simp [hdata]
      | succ i => simpa using ih (fun txn' hmem => h txn' (List.mem_cons_of_mem txn hmem)) i

theorem decodedPlace_of_isSome {txns : List (List UInt8)} (h : ∀ txn ∈ txns, (decode txn).isSome)
    {i : Nat} (hi : i < txns.length) : decodedPlace decode txns i = i := by
  have hall : ∀ txn ∈ txns.take i, (decode txn).isSome := fun txn hmem =>
    h txn (List.mem_of_mem_take hmem)
  rw [decodedPlace, List.filterMap_length_eq_length.2 hall, List.length_take,
    Nat.min_eq_left (Nat.le_of_lt hi)]

/-- A transaction is delivered with its batch, unless it is empty and the first of its batch. -/
theorem sendTxns_delivers {network : Nat → Network Conn} {txns : List (List UInt8)}
    (hall : ∀ txn ∈ txns, (decode txn).isSome) {response : TransactionResponse}
    (h : (sendTxns api stableId decode network txns).response = some response)
    (hstatus : response.status = "success") {i : Nat} {txn data : List UInt8}
    (htxn : txns[i]? = some txn) (hdecode : decode txn = some data)
    (hwritten : i % 10 = 0 → data ≠ []) :
    DeliveredInBatch api stableId decode network txns i data := by
  have hdecoded : (txns.filterMap decode)[i]? = some data := by
    rw [getElem?_filterMap_of_isSome hall, htxn]
    exact hdecode
  have hplace : decodedPlace decode txns i = i :=
    decodedPlace_of_isSome hall (List.getElem?_eq_some_iff.1 htxn).1
  rcases exists_chunk_of_getElem? (by decide : 0 < 10) hdecoded with ⟨hbatch, hchunk⟩
  rcases exists_successful_call h hstatus hbatch with ⟨call, hcall, hok, hturn⟩
  rcases trySendWireTransactionBatch_ok hok with ⟨addr, haddr, hresult⟩
  refine ⟨call, chunk 10 (txns.filterMap decode) (i / 10), addr, ?_, haddr, ?_⟩
  · exact
      { decoded := by rw [htxn]; exact hdecode
        made := hcall
        turn := by rw [hplace]; exact hturn
        place := by rw [hplace]; exact hchunk }
  · rw [hplace]
    exact wroteAt_of_ok hresult hchunk hwritten

/-- A leader that takes everything answers a success. -/
theorem sendTxns_willing (api : TransportError E) (stableId : Conn → Nat)
    (decode : List UInt8 → Option (List UInt8)) (connection : Conn) (txns : List (List UInt8)) :
    ∃ n, (sendTxns api stableId decode (fun _ => willingNetwork connection 10) txns).response =
      some (success n) := by
  have hsend : ∀ batch, batch ∈ decodedBatches decode txns →
      trySendWireTransactionBatch api stableId (willingNetwork connection 10) batch =
        some (.ok ()) := by
    intro batch hbatch
    exact trySendWireTransactionBatch_willing api stableId connection
      (length_of_mem_chunks (by decide) hbatch).2
  rcases handleTransactionsBatched_in_order api
    (fun _ batch => trySendWireTransactionBatch api stableId (willingNetwork connection 10) batch)
    decode txns with ⟨as, _, _, hending⟩
  rw [sendTxns]
  generalize (handleTransactionsBatched api decode _ txns).response = response at hending ⊢
  cases hending with
  | succeeded hlen hlast => exact ⟨_, rfl⟩
  | failed j batch err hlen hcount hbatch hlast =>
      rw [hsend batch (List.mem_of_getElem? hbatch)] at hlast
      cases hlast
  | pending j a batch hlen hcount hbatch hlast =>
      rw [hsend batch (List.mem_of_getElem? hbatch)] at hlast
      cases hlast

/-- Success of `/send_batch` means that every transaction was delivered and none was dropped,
exactly when every transaction decodes, and those that would be the first of a batch of ten to at
least one byte. -/
theorem send_batch_delivers_iff [Inhabited Conn] (api : TransportError E) (stableId : Conn → Nat)
    (decode : List UInt8 → Option (List UInt8)) (txns : List (List UInt8)) :
    (∀ (network : Nat → Network Conn) response,
        (sendTxns api stableId decode network txns).response = some response →
        response.status = "success" →
        ∀ (i : Nat) (txn : List UInt8), txns[i]? = some txn →
          (∃ data, decode txn = some data ∧
            DeliveredInBatch api stableId decode network txns i data) ∧
          ¬ DroppedFromBatch api stableId decode network txns i) ↔
      ∀ (i : Nat) (txn : List UInt8), txns[i]? = some txn →
        ∃ data, decode txn = some data ∧ (i % 10 = 0 → data ≠ []) := by
  constructor
  · intro hdelivers
    -- a leader that takes everything tells which transactions reach a stream at all
    rcases sendTxns_willing api stableId decode (default : Conn) txns with ⟨n, hresponse⟩
    have hwilling := hdelivers _ _ hresponse rfl
    have hall : ∀ txn ∈ txns, (decode txn).isSome := by
      intro txn hmem
      rcases List.mem_iff_getElem?.1 hmem with ⟨i, hi⟩
      rcases (hwilling i txn hi).1 with ⟨data, hdecode, _⟩
      exact Option.isSome_iff_exists.2 ⟨data, hdecode⟩
    intro i txn htxn
    rcases (hwilling i txn htxn).1 with ⟨data, hdecode, call, batch, addr, _, _, hwrote⟩
    refine ⟨data, hdecode, fun hfirst => ?_⟩
    rw [decodedPlace_of_isSome hall (List.getElem?_eq_some_iff.1 htxn).1, hfirst] at hwrote
    exact hwrote.ne_nil
  · intro hdecodes network response hresponse hstatus i txn htxn
    have hall : ∀ txn ∈ txns, (decode txn).isSome := by
      intro txn hmem
      rcases List.mem_iff_getElem?.1 hmem with ⟨i, hi⟩
      rcases hdecodes i txn hi with ⟨data, hdecode, _⟩
      exact Option.isSome_iff_exists.2 ⟨data, hdecode⟩
    rcases hdecodes i txn htxn with ⟨data, hdecode, hwritten⟩
    have hdelivered := sendTxns_delivers hall hresponse hstatus htxn hdecode hwritten
    refine ⟨⟨data, hdecode, hdelivered⟩, fun hdropped => ?_⟩
    rcases hdelivered with ⟨call, batch, _, hcarries, _⟩
    exact hdropped data call batch hcarries

/-- A batch of one transaction that is no base64: the response is a success although nothing was
sent. -/
theorem undecodable_batch_succeeds :
    ¬ ∀ (decode : List UInt8 → Option (List UInt8)) (txns : List (List UInt8))
        (network : Nat → Network Nat) (response : TransactionResponse),
        (sendTxns textErrors (fun c => c + 1) decode network txns).response = some response →
        response.status = "success" →
        ∀ (i : Nat) (txn : List UInt8), txns[i]? = some txn →
          (∃ data, decode txn = some data ∧
            DeliveredInBatch textErrors (fun c => c + 1) decode network txns i data) ∧
          ¬ DroppedFromBatch textErrors (fun c => c + 1) decode network txns i := by
  intro h
  rcases h (fun _ => none) [[33]] (fun _ => willingNetwork 0 0) (success 0) rfl rfl 0 [33] rfl with
    ⟨⟨data, hdecode, _⟩, _⟩
  cases hdecode

end Batched

end Server
end TpuSender
