import TpuSender.Server.Handlers
import Mathlib.Algebra.GroupWithZero.Nat

/-!
# BatchOrder — what the batch handler calls, and in which order

The handler's run is described by the list `as` of attempt counts, one for each batch it got to.
The calls are batch 0 `as[0]` times, then batch 1 `as[1]` times, and so on; within a batch all
attempts but the last failed, and a batch is reached only after the last attempt of the batch before
succeeded (`InOrder`).  The run ends when the batches are used up, when a batch has failed for the
last time, or in a call that is never over (`Ending`).

`handleTransactionsBatched_in_order` says so for every oracle, and `batches_in_order` for oracles
that answer every call.
-/

namespace TpuSender
namespace Server

open Library Engine

section Order

variable {E : Type} {api : TransportError E}
  {send : Nat → List (List UInt8) → Option (Except E Unit)}

/-! ## One batch -/

variable (send) in
/-- `a` attempts at a batch from call number `start` on: all but the last failed. -/
structure Attempts (start : Nat) (batch : List (List UInt8)) (a : Nat) : Prop where
  pos : 1 ≤ a
  le : a ≤ MAX_RETRIES
  failed : ∀ m, m + 1 < a → ∃ err, send (start + m) batch = some (.error err)

variable (api send) in
/-- How the loop over the attempts is left after `a` of them, by what the last one came to. -/
inductive BatchResult (batchIndex start : Nat) (batch : List (List UInt8)) (a : Nat) :
    BatchEnd E → Prop
  | pending (hlast : send (start + (a - 1)) batch = none) :
      BatchResult batchIndex start batch a .pending
  | next (lastError : Option E) (hlast : send (start + (a - 1)) batch = some (.ok ())) :
      BatchResult batchIndex start batch a (.next (start + a) lastError)
  | respond (err : E) (hall : a = MAX_RETRIES)
      (hlast : send (start + (a - 1)) batch = some (.error err)) :
      BatchResult batchIndex start batch a
        (.respond (batchFailed api batchIndex a err (start + a)))

variable (api send) in
/-- After `tried` failed attempts, the rest of the loop completes the count. -/
theorem retryBatch_spec (batchIndex start : Nat) (batch : List (List UInt8)) {remaining : Nat}
    {tried : Nat} (hremaining : 0 < remaining) (hsum : remaining + tried = MAX_RETRIES)
    (hfailed : ∀ m, m < tried → ∃ err, send (start + m) batch = some (.error err))
    (lastError : Option E) :
    ∃ a, Attempts send start batch (tried + a) ∧
      payloads (retryBatch api send batchIndex batch remaining tried (start + tried) lastError).1 =
        List.replicate a batch ∧
      BatchResult api send batchIndex start batch (tried + a)
        (retryBatch api send batchIndex batch remaining tried (start + tried) lastError).2 := by
  induction remaining generalizing tried lastError with
  | zero => cases hremaining
  | succ remaining ih =>
      have hone : Attempts send start batch (tried + 1) := by
        refine ⟨Nat.le_add_left 1 tried, by omega, ?_⟩
        intro m hm
        exact hfailed m (Nat.lt_of_succ_lt_succ hm)
      rcases hcall : send (start + tried) batch with _ | err | done
      · refine ⟨1, hone, ?_, ?_⟩
        · simp [retryBatch, hcall]
        · simp only [retryBatch, hcall]
          exact .pending hcall
      · have hmore : ∀ m, m < tried + 1 → ∃ err, send (start + m) batch = some (.error err) := by
          intro m hm
          rcases Nat.lt_succ_iff_lt_or_eq.1 hm with hlt | rfl
          · exact hfailed m hlt
          · exact ⟨err, hcall⟩
        by_cases hretry : tried + 1 < MAX_RETRIES
        · -- the loop goes on with one more failed attempt behind it
          have hleft : 0 < remaining := by omega
          have hsum' : remaining + (tried + 1) = MAX_RETRIES := by omega
          rcases ih hleft hsum' hmore (some err) with ⟨a, hattempts, hpayloads, hresult⟩
          have hshift : tried + 1 + a = tried + (a + 1) := by omega
          refine ⟨a + 1, hshift ▸ hattempts, ?_, ?_⟩
          · simp only [retryBatch, hcall, hretry, if_true, payloads_send, payloads_sleep]
            rw [List.replicate_succ]
            exact congrArg _ hpayloads
          · simp only [retryBatch, hcall, hretry, if_true]
            exact hshift ▸ hresult
        · -- the last attempt: its error is the response
          have hall : tried + 1 = MAX_RETRIES := by omega
          refine ⟨1, hone, ?_, ?_⟩
          · simp [retryBatch, hcall, hretry]
          · simp only [retryBatch, hcall, hretry, if_false]
            exact .respond err hall hcall
      · refine ⟨1, hone, ?_, ?_⟩
        · simp [retryBatch, hcall]
        · simp only [retryBatch, hcall]
          exact .next lastError hcall

/-! ## All batches -/

variable (send) in
/-- The batches are attempted in order, `as[i]` times batch `i`, from call number `start` on; a
batch is left for the next one after its first success. -/
structure InOrder (start : Nat) (batches : List (List (List UInt8))) (as : List Nat) : Prop where
  length_le : as.length ≤ batches.length
  attempts : ∀ i a batch, as[i]? = some a → batches[i]? = some batch →
    Attempts send (start + (as.take i).sum) batch a
  advanced : ∀ i a batch, as[i]? = some a → batches[i]? = some batch → i + 1 < as.length →
    send (start + (as.take i).sum + (a - 1)) batch = some (.ok ())

variable (api send) in
/-- How the run ends. -/
inductive Ending (batchIndex start : Nat) (batches : List (List (List UInt8))) (as : List Nat) :
    Option TransactionResponse → Prop
  | succeeded (hlen : as.length = batches.length)
      (hlast : ∀ i a batch, as[i]? = some a → batches[i]? = some batch →
        send (start + (as.take i).sum + (a - 1)) batch = some (.ok ())) :
      Ending batchIndex start batches as (some (success (start + as.sum)))
  | failed (j : Nat) (batch : List (List UInt8)) (err : E) (hlen : as.length = j + 1)
      (hcount : as[j]? = some MAX_RETRIES) (hbatch : batches[j]? = some batch)
      (hlast : send (start + (as.take j).sum + (MAX_RETRIES - 1)) batch = some (.error err)) :
      Ending batchIndex start batches as
        (some (batchFailed api (batchIndex + j) MAX_RETRIES err (start + as.sum)))
  | pending (j a : Nat) (batch : List (List UInt8)) (hlen : as.length = j + 1)
      (hcount : as[j]? = some a) (hbatch : batches[j]? = some batch)
      (hlast : send (start + (as.take j).sum + (a - 1)) batch = none) :
      Ending batchIndex start batches as none

theorem InOrder.nil (start : Nat) (batches : List (List (List UInt8))) :
    InOrder send start batches [] := by
  refine ⟨Nat.zero_le _, ?_, ?_⟩
  · intro i a batch ha
    simp at ha
  · intro i a batch ha
    simp at ha

/-- A run that ends in its first batch. -/
theorem InOrder.single {start a : Nat} {batch : List (List UInt8)}
    {batches : List (List (List UInt8))} (h : Attempts send start batch a) :
    InOrder send start (batch :: batches) [a] := by
  refine ⟨by simp, ?_, ?_⟩
  · intro i a' batch' ha hbatch
    cases i with
    | zero =>
        cases ha
        cases hbatch
        exact h
    | succ i => simp at ha
  · intro i a' batch' ha _ hnext
    have hzero : i = 0 := by
      simpa using (List.getElem?_eq_some_iff.1 ha).1
    simp [hzero] at hnext

theorem InOrder.cons {start a : Nat} {batch : List (List UInt8)}
    {batches : List (List (List UInt8))} {as : List Nat} (h : Attempts send start batch a)
    (hok : send (start + (a - 1)) batch = some (.ok ()))
    (hrest : InOrder send (start + a) batches as) :
    InOrder send start (batch :: batches) (a :: as) := by
  refine ⟨Nat.succ_le_succ hrest.length_le, ?_, ?_⟩
  · intro i a' batch' ha hbatch
    cases i with
    | zero =>
        cases ha
        cases hbatch
        exact h
    | succ i =>
        have htail := hrest.attempts i a' batch' ha hbatch
        rwa [Nat.add_assoc] at htail
  · intro i a' batch' ha hbatch hnext
    cases i with
    | zero =>
        cases ha
        cases hbatch
        exact hok
    | succ i =>
        have htail := hrest.advanced i a' batch' ha hbatch (Nat.lt_of_succ_lt_succ hnext)
        rwa [Nat.add_assoc start] at htail

/-- Ending later is ending the same, one batch further on. -/
theorem Ending.cons {batchIndex start a : Nat} {batch : List (List UInt8)}
    {batches : List (List (List UInt8))} {as : List Nat} {response : Option TransactionResponse}
    (hok : send (start + (a - 1)) batch = some (.ok ()))
    (hrest : Ending api send (batchIndex + 1) (start + a) batches as response) :
    Ending api send batchIndex start (batch :: batches) (a :: as) response := by
  have hsum : start + a + as.sum = start + (a :: as).sum := by
    rw [List.sum_cons, Nat.add_assoc]
  cases hrest with
  | succeeded hlen hlast =>
      rw [hsum]
      refine .succeeded (congrArg (· + 1) hlen) ?_
      intro i a' batch' ha hbatch
      cases i with
      | zero =>
          cases ha
          cases hbatch
          exact hok
      | succ i =>
          have htail := hlast i a' batch' ha hbatch
          rwa [Nat.add_assoc start] at htail
  | failed j batch' err hlen hcount hbatch hlast =>
      have hindex : batchIndex + 1 + j = batchIndex + (j + 1) := by omega
      rw [hsum, hindex]
      refine .failed (j + 1) batch' err (congrArg (· + 1) hlen) hcount hbatch ?_
      rwa [Nat.add_assoc start] at hlast
  | pending j a' batch' hlen hcount hbatch hlast =>
      refine .pending (j + 1) a' batch' (congrArg (· + 1) hlen) hcount hbatch ?_
      rwa [Nat.add_assoc start] at hlast

variable (api send) in
/-- For every oracle the loop over the batches makes its calls in order and stops at the first
batch that fails. -/
theorem processBatches_in_order (batchIndex start : Nat) (batches : List (List (List UInt8)))
    (lastError : Option E) :
    ∃ as, InOrder send start batches as ∧
      (processBatches api send batchIndex batches start lastError).calls =
        (List.zipWith List.replicate as batches).flatten ∧
      Ending api send batchIndex start batches as
        (processBatches api send batchIndex batches start lastError).response := by
  induction batches generalizing batchIndex start lastError with
  | nil =>
      refine ⟨[], InOrder.nil start [], rfl, ?_⟩
      refine .succeeded rfl ?_
      intro i a batch ha
      simp at ha
  | cons batch batches ih =>
      rcases retryBatch_spec api send batchIndex start batch
        (by decide : 0 < MAX_RETRIES) (Nat.add_zero MAX_RETRIES) (by simp) lastError with
        ⟨a, hattempts, hpayloads, hresult⟩
      rw [Nat.zero_add] at hattempts hresult
      rw [Nat.add_zero] at hpayloads hresult
      rcases hretry : retryBatch api send batchIndex batch MAX_RETRIES 0 start lastError with
        ⟨events, fin⟩
      rw [hretry] at hpayloads hresult
      cases hresult with
      | pending hlast =>
          refine ⟨[a], InOrder.single hattempts, ?_, ?_⟩
          · simpa [processBatches, hretry, Handled.calls] using hpayloads
          · simp only [processBatches, hretry]
            exact .pending 0 a batch rfl rfl rfl hlast
      | respond err hall hlast =>
          refine ⟨[a], InOrder.single hattempts, ?_, ?_⟩
          · simpa [processBatches, hretry, Handled.calls] using hpayloads
          · simp only [processBatches, hretry]
            subst hall
            exact .failed 0 batch err rfl rfl rfl hlast
      | next lastError' hlast =>
          -- the batch succeeded, and its attempts shift the numbers of all later calls
          rcases ih (batchIndex + 1) (start + a) lastError' with ⟨as, horder, hcalls, hending⟩
          refine ⟨a :: as, InOrder.cons hattempts hlast horder, ?_, ?_⟩
          · simp only [processBatches, hretry, Handled.calls, payloads_append,
              List.zipWith_cons_cons, List.flatten_cons]
            rw [show payloads events = List.replicate a batch from hpayloads]
            exact congrArg _ hcalls
          · simp only [processBatches, hretry]
            exact Ending.cons hlast hending

variable (api send) in
/-- The batch handler from its first call on. -/
theorem handleTransactionsBatched_in_order (decode : List UInt8 → Option (List UInt8))
    (txns : List (List UInt8)) :
    ∃ as, InOrder send 0 (decodedBatches decode txns) as ∧
      (handleTransactionsBatched api decode send txns).calls =
        (List.zipWith List.replicate as (decodedBatches decode txns)).flatten ∧
      Ending api send 0 0 (decodedBatches decode txns) as
        (handleTransactionsBatched api decode send txns).response :=
  processBatches_in_order api send 0 0 (decodedBatches decode txns) none

/-! ## Whose turn it is -/

variable (send) in
/-- How many batches are done before a call: each success is the last call of its batch.  The calls
are numbered from `start` on. -/
def batchesDone : Nat → List (List (List UInt8)) → Nat → Nat
  | start, batch :: calls, call + 1 =>
      match send start batch with
      | some (.ok ()) => batchesDone (start + 1) calls call + 1
      | _ => batchesDone (start + 1) calls call
  | _, _, _ => 0

@[simp] theorem batchesDone_zero (start : Nat) (calls : List (List (List UInt8))) :
    batchesDone send start calls 0 = 0 := by
  cases calls <;> rfl

/-- Failures do not end a batch. -/
theorem batchesDone_failed {start a : Nat} {batch : List (List UInt8)}
    (h : ∀ m, m < a → ∃ err, send (start + m) batch = some (.error err))
    (calls : List (List (List UInt8))) (call : Nat) :
    batchesDone send start (List.replicate a batch ++ calls) (a + call) =
      batchesDone send (start + a) calls call := by
  induction a generalizing start with
  | zero => simp
  | succ a ih =>
      rcases h 0 (Nat.succ_pos a) with ⟨err, herr⟩
      rw [Nat.add_zero] at herr
      have hrest : ∀ m, m < a → ∃ err, send (start + 1 + m) batch = some (.error err) := by
        intro m hm
        simpa only [Nat.add_assoc, Nat.add_comm 1 m] using h (m + 1) (Nat.succ_lt_succ hm)
      rw [List.replicate_succ, List.cons_append, Nat.add_right_comm a 1 call, batchesDone, herr,
        Nat.add_comm a 1, ← Nat.add_assoc]
      exact ih hrest

theorem InOrder.tail {start a : Nat} {batch : List (List UInt8)}
    {batches : List (List (List UInt8))} {as : List Nat}
    (h : InOrder send start (batch :: batches) (a :: as)) :
    InOrder send (start + a) batches as := by
  refine ⟨Nat.le_of_succ_le_succ h.length_le, ?_, ?_⟩
  · intro i a' batch' ha hbatch
    have hall := h.attempts (i + 1) a' batch' ha hbatch
    rwa [List.take_succ_cons, List.sum_cons, ← Nat.add_assoc] at hall
  · intro i a' batch' ha hbatch hnext
    have hall := h.advanced (i + 1) a' batch' ha hbatch (Nat.succ_lt_succ hnext)
    rwa [List.take_succ_cons, List.sum_cons, ← Nat.add_assoc start] at hall

/-- The attempts at batch `i` are the calls that find `i` batches done. -/
theorem InOrder.batchesDone_eq {start : Nat} {batches : List (List (List UInt8))} {as : List Nat}
    (h : InOrder send start batches as) {i a m : Nat} (ha : as[i]? = some a) (hm : m < a) :
    batchesDone send start (List.zipWith List.replicate as batches).flatten
      ((as.take i).sum + m) = i := by
  induction as generalizing start batches i with
  | nil => simp at ha
  | cons a' as ih =>
      cases batches with
      | nil => exact absurd h.length_le (by simp)
      | cons batch batches =>
          have hfirst : Attempts send start batch a' := h.attempts 0 a' batch rfl rfl
          rw [List.zipWith_cons_cons, List.flatten_cons]
          cases i with
          | zero =>
              have hsame : a' = a := by simpa using ha
              subst hsame
              -- only failed attempts at the first batch so far
              have hsplit : List.replicate a' batch =
                  List.replicate m batch ++ List.replicate (a' - m) batch := by
                rw [List.replicate_append_replicate, Nat.add_sub_cancel' (Nat.le_of_lt hm)]
              have hfailed : ∀ n, n < m → ∃ err, send (start + n) batch = some (.error err) :=
                fun n hn => hfirst.failed n (by omega)
              have hdone := batchesDone_failed hfailed
                (List.replicate (a' - m) batch ++
                  (List.zipWith List.replicate as batches).flatten) 0
              rw [hsplit, List.append_assoc, List.take_zero, List.sum_nil, Nat.zero_add]
              simpa using hdone
          | succ i =>
              have hnext : 0 + 1 < (a' :: as).length := by
                have hi := (List.getElem?_eq_some_iff.1 ha).1
                omega
              have hok := h.advanced 0 a' batch rfl rfl hnext
              rcases Nat.exists_eq_succ_of_ne_zero (Nat.ne_of_gt hfirst.pos) with ⟨b, rfl⟩
              have hrest := ih h.tail (by simpa using ha)
              have hfailed : ∀ n, n < b → ∃ err, send (start + n) batch = some (.error err) :=
                fun n hn => hfirst.failed n (Nat.succ_lt_succ hn)
              have hdone := batchesDone_failed hfailed
                (batch :: (List.zipWith List.replicate as batches).flatten)
                ((as.take i).sum + m + 1)
              -- the success ends the first batch, and the others are one turn behind
              have hplace : ((b.succ :: as).take (i + 1)).sum + m =
                  b + ((as.take i).sum + m + 1) := by
                rw [List.take_succ_cons, List.sum_cons]
                omega
              have hlast : send (start + b) batch = some (.ok ()) := by simpa using hok
              rw [hplace, List.replicate_succ', List.append_assoc, List.singleton_append, hdone,
                batchesDone, hlast]
              exact congrArg (· + 1) hrest

end Order

/-! ## Oracles that answer every call -/

section Answered

variable {E : Type} (api : TransportError E) (decode : List UInt8 → Option (List UInt8))
  (outcome : Nat → List (List UInt8) → Except E Unit)

/-- The oracle with these answers. -/
def answering : Nat → List (List UInt8) → Option (Except E Unit) := fun call batch =>
  some (outcome call batch)

/-- Every batch was attempted, and its last attempt succeeded. -/
def AllSucceed (batches : List (List (List UInt8))) (as : List Nat) : Prop :=
  as.length = batches.length ∧ ∀ i a batch, as[i]? = some a → batches[i]? = some batch →
    outcome ((as.take i).sum + (a - 1)) batch = .ok ()

/-- The batches cut the decoded transactions into tens. -/
theorem decodedBatches_partition (txns : List (List UInt8)) :
    (decodedBatches decode txns).flatten = txns.filterMap decode ∧
      ∀ i batch, (decodedBatches decode txns)[i]? = some batch →
        1 ≤ batch.length ∧ batch.length ≤ 10 ∧
          (i + 1 < (decodedBatches decode txns).length → batch.length = 10) := by
  have hten : 0 < 10 := by decide
  refine ⟨flatten_chunks hten, ?_⟩
  intro i batch hbatch
  rcases length_of_mem_chunks hten (List.mem_of_getElem? hbatch) with ⟨hpos, hle⟩
  exact ⟨hpos, hle, length_of_not_last hten hbatch⟩

/-- The calls of the batch handler are each batch of the decoded transactions in turn, repeated up
to and including its first success, ten times at most.  The response is the success of all of them,
with the number of calls, or the failure of the first batch that failed ten times, after which
nothing is called. -/
theorem batches_in_order (txns : List (List UInt8)) :
    ∃ as,
      (decodedBatches decode txns).flatten = txns.filterMap decode ∧
      (∀ i batch, (decodedBatches decode txns)[i]? = some batch →
        1 ≤ batch.length ∧ batch.length ≤ 10 ∧
          (i + 1 < (decodedBatches decode txns).length → batch.length = 10)) ∧
      (handleTransactionsBatched api decode (answering outcome) txns).calls =
        (List.zipWith List.replicate as (decodedBatches decode txns)).flatten ∧
      InOrder (answering outcome) 0 (decodedBatches decode txns) as ∧
      (AllSucceed outcome (decodedBatches decode txns) as ↔
        (handleTransactionsBatched api decode (answering outcome) txns).response =
          some (success as.sum)) ∧
      (¬ AllSucceed outcome (decodedBatches decode txns) as →
        ∃ j batch err, as.length = j + 1 ∧ as[j]? = some MAX_RETRIES ∧
          (decodedBatches decode txns)[j]? = some batch ∧
          outcome ((as.take j).sum + (MAX_RETRIES - 1)) batch = .error err ∧
          (handleTransactionsBatched api decode (answering outcome) txns).response =
            some (batchFailed api j MAX_RETRIES err as.sum)) := by
  rcases decodedBatches_partition decode txns with ⟨hflatten, hsizes⟩
  rcases handleTransactionsBatched_in_order api (answering outcome) decode txns with
    ⟨as, horder, hcalls, hending⟩
  refine ⟨as, hflatten, hsizes, hcalls, horder, ?_⟩
  generalize (handleTransactionsBatched api decode (answering outcome) txns).response = response
    at hending
  cases hending with
  | succeeded hlen hlast =>
      have hall : AllSucceed outcome (decodedBatches decode txns) as := by
        refine ⟨hlen, ?_⟩
        intro i a batch ha hbatch
        simpa [answering] using hlast i a batch ha hbatch
      rw [Nat.zero_add]
      exact ⟨iff_of_true hall rfl, fun hnot => absurd hall hnot⟩
  | failed j batch err hlen hcount hbatch hlast =>
      have herror : outcome ((as.take j).sum + (MAX_RETRIES - 1)) batch = .error err := by
        simpa [answering] using hlast
      have hnot : ¬ AllSucceed outcome (decodedBatches decode txns) as := by
        rintro ⟨_, hok⟩
        have hcontra := herror.symm.trans (hok j MAX_RETRIES batch hcount hbatch)
        cases hcontra
      rw [Nat.zero_add, Nat.zero_add]
      refine ⟨iff_of_false hnot ?_, ?_⟩
      · simp [batchFailed, success]
      · intro _
        exact ⟨j, batch, err, hlen, hcount, hbatch, herror, rfl⟩
  | pending j a batch hlen hcount hbatch hlast => simp [answering] at hlast

end Answered

end Server
end TpuSender
