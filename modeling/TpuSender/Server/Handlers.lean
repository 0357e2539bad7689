import TpuSender.Engine.BackendTpuClient
import TpuSender.Library.Chunks

/-!
# Handlers — the two endpoints that send transactions

`handleTransaction` sends one transaction and `handleTransactionsBatched` a list of them in batches
of ten; both retry up to `MAX_RETRIES` times.

What a send comes to is an oracle `send`: the number of the call, counted over the whole request,
and its payload give the result, or `none` if the call is never over or panics.  A handler returns
the trace of its calls and pauses, and its response, if there is one.  Base64 decoding is the
partial function `decode`.
-/

namespace TpuSender
namespace Server

open Library Engine

def MAX_RETRIES : Nat := 10

def INITIAL_RETRY_DELAY_MS : Nat := 100

/-- The response's status code and its body, without the processing time. -/
structure TransactionResponse where
  statusCode : Nat
  status : String
  error : Option String
  attempts : Nat
  deriving DecidableEq, Repr

/-- What a handler does that can be seen from outside. -/
inductive Event (α : Type)
  | send (payload : α)
  | sleep (ms : Nat)
  deriving DecidableEq

/-- The run of a handler, oldest event first. -/
structure Handled (α : Type) where
  trace : List (Event α)
  response : Option TransactionResponse

section Handlers

variable {E : Type} (api : TransportError E) (decode : List UInt8 → Option (List UInt8))

def success (attempts : Nat) : TransactionResponse :=
  { statusCode := 200
    status := "success"
    error := none
    attempts := attempts }

/-! ## One transaction -/

section Single

variable (send : Nat → List UInt8 → Option (Except E Unit))

/-- The retry loop; `remaining` is `MAX_RETRIES - attempt`. -/
def retryTransaction (txn : List UInt8) : Nat → Nat → Option E → Handled (List UInt8)
  | 0, attempt, lastError =>
      { trace := []
        response := some
          { statusCode := 500
            status := "error"
            error := lastError.map api.display
            attempts := attempt } }
  | remaining + 1, attempt, _ =>
      -- a transaction that does not decode is sent as an empty one
      let payload := (decode txn).getD []
      match send attempt payload with
      | none =>
          { trace := [.send payload]
            response := none }
      | some (.ok ()) =>
          { trace := [.send payload]
            response := some (success (attempt + 1)) }
      | some (.error err) =>
          -- the pause before the next retry is only logged
          let rest := retryTransaction txn remaining (attempt + 1) (some err)
          { rest with trace := .send payload :: rest.trace }

def handleTransaction (txn : List UInt8) : Handled (List UInt8) :=
  retryTransaction api decode send txn MAX_RETRIES 0 none

end Single

/-! ## Batches -/

section Batched

variable (send : Nat → List (List UInt8) → Option (Except E Unit))

/-- How the retry loop of one batch is left. -/
inductive BatchEnd (E : Type)
  | pending
  | next (overallAttempt : Nat) (lastError : Option E)
  | respond (response : TransactionResponse)

/-- The response after the last attempt of a batch; `{:?}` prints the error inside its `Option`. -/
def batchFailed (batchIndex batchAttempt : Nat) (lastError : E) (overallAttempt : Nat) :
    TransactionResponse :=
  { statusCode := 500
    status := "error"
    error := some ("Batch " ++ toString batchIndex ++ " failed after " ++ toString batchAttempt ++
      " attempts: Some(" ++ api.debug lastError ++ ")")
    attempts := overallAttempt }

/-- The retry loop of one batch; `remaining` is `MAX_RETRIES - batchAttempt`. -/
def retryBatch (batchIndex : Nat) (batch : List (List UInt8)) :
    Nat → Nat → Nat → Option E → List (Event (List (List UInt8))) × BatchEnd E
  | 0, _, overallAttempt, lastError => ([], .next overallAttempt lastError)
  | remaining + 1, batchAttempt, overallAttempt, lastError =>
      match send overallAttempt batch with
      | none => ([.send batch], .pending)
      | some (.ok ()) => ([.send batch], .next (overallAttempt + 1) lastError)
      | some (.error err) =>
          if batchAttempt + 1 < MAX_RETRIES then
            -- unlike the other endpoint, this one does pause
            let (events, fin) :=
              retryBatch batchIndex batch remaining (batchAttempt + 1) (overallAttempt + 1)
                (some err)
            (.send batch :: .sleep INITIAL_RETRY_DELAY_MS :: events, fin)
          else
            ([.send batch],
              .respond (batchFailed api batchIndex (batchAttempt + 1) err (overallAttempt + 1)))

/-- The loop over the batches. -/
def processBatches : Nat → List (List (List UInt8)) → Nat → Option E → Handled (List (List UInt8))
  | _, [], overallAttempt, _ =>
      { trace := []
        response := some (success overallAttempt) }
  | batchIndex, batch :: batches, overallAttempt, lastError =>
      match retryBatch api send batchIndex batch MAX_RETRIES 0 overallAttempt lastError with
      | (events, .pending) =>
          { trace := events
            response := none }
      -- the batches behind a failed one are not called with
      | (events, .respond response) =>
          { trace := events
            response := some response }
      | (events, .next overallAttempt lastError) =>
          let rest := processBatches (batchIndex + 1) batches overallAttempt lastError
          { rest with trace := events ++ rest.trace }

/-- The transactions that decode, in batches of 10. -/
def decodedBatches (txns : List (List UInt8)) : List (List (List UInt8)) :=
  chunks 10 (txns.filterMap decode)

def handleTransactionsBatched (txns : List (List UInt8)) : Handled (List (List UInt8)) :=
  processBatches api send 0 (decodedBatches decode txns) 0 none

end Batched

end Handlers

/-! ## The calls of a run -/

section Calls

variable {α : Type}

def Event.payload? : Event α → Option α
  | .send payload => some payload
  | .sleep _ => none

/-- The payloads of the calls in a trace. -/
def payloads (trace : List (Event α)) : List α := trace.filterMap Event.payload?

def Handled.calls (handled : Handled α) : List α := payloads handled.trace

@[simp] theorem payloads_nil : payloads ([] : List (Event α)) = [] := rfl

@[simp] theorem payloads_send (payload : α) (trace : List (Event α)) :
    payloads (.send payload :: trace) = payload :: payloads trace := rfl

@[simp] theorem payloads_sleep (ms : Nat) (trace : List (Event α)) :
    payloads (.sleep ms :: trace) = payloads trace := rfl

@[simp] theorem payloads_append (trace trace' : List (Event α)) :
    payloads (trace ++ trace') = payloads trace ++ payloads trace' :=
  List.filterMap_append

end Calls

end Server
end TpuSender
