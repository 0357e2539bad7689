import TpuSender.Quik.SendBatch

/-!
# BatchPrefix — which buffers of a batch have been delivered

`deliveries` reads off a list of operations the non-empty buffers whose write succeeded, each with
its connection.  The first buffer of a batch may be written several times and on several
connections before a write succeeds; the others are written once and in order.  So the deliveries
of a batch are a prefix of its non-empty buffers, and all of them when the batch ends without an
error (`send_batch_delivers_in_order`).
-/

namespace TpuSender
namespace Quik

section Deliveries

variable {Conn : Type}

/-- A non-empty buffer and the connection that took it. -/
def Op.delivery? : Op Conn → Option (Conn × List UInt8)
  | .wrote connection data .written => if data.isEmpty then none else some (connection, data)
  | _ => none

/-- The data of a write, whatever came of it. -/
def Op.attempt? : Op Conn → Option (List UInt8)
  | .wrote _ data _ => some data
  | .chose _ => none

def deliveries (ops : List (Op Conn)) : List (Conn × List UInt8) := ops.filterMap Op.delivery?

def attempts (ops : List (Op Conn)) : List (List UInt8) := ops.filterMap Op.attempt?

/-- The buffers of a batch that are to be delivered. -/
def nonEmpty (buffers : List (List UInt8)) : List (List UInt8) :=
  buffers.filter fun data => !data.isEmpty

@[simp] theorem deliveries_append (ops later : List (Op Conn)) :
    deliveries (ops ++ later) = deliveries ops ++ deliveries later :=
  List.filterMap_append

@[simp] theorem deliveries_reverse (ops : List (Op Conn)) :
    deliveries ops.reverse = (deliveries ops).reverse :=
  List.filterMap_reverse

@[simp] theorem attempts_append (ops later : List (Op Conn)) :
    attempts (ops ++ later) = attempts ops ++ attempts later :=
  List.filterMap_append

@[simp] theorem deliveries_chose (choice : Choice Conn) (ops : List (Op Conn)) :
    deliveries (.chose choice :: ops) = deliveries ops := rfl

/-- Only a write that goes through delivers. -/
theorem deliveries_wrote_failed {connection : Conn} {data : List UInt8} {outcome : StreamWrite}
    {err : QuicError} (h : sendBufferUsingConn outcome = .error err) (ops : List (Op Conn)) :
    deliveries (.wrote connection data outcome :: ops) = deliveries ops := by
  cases outcome with
  | written => cases h
  | openFailed err => rfl
  | writeFailed err => rfl

/-- And it delivers what is to be delivered. -/
theorem deliveries_wrote_written (connection : Conn) (data : List UInt8) (ops : List (Op Conn)) :
    deliveries (.wrote connection data .written :: ops) =
      (nonEmpty [data]).map (connection, ·) ++ deliveries ops := by
  cases data with
  | nil => rfl
  | cons byte bytes => rfl

theorem nonEmpty_cons (data : List UInt8) (buffers : List (List UInt8)) :
    nonEmpty (data :: buffers) = nonEmpty [data] ++ nonEmpty buffers :=
  List.filter_append [data] buffers

theorem prefix_nonEmpty_take (buffers : List (List UInt8)) (n : Nat) :
    nonEmpty (buffers.take n) <+: nonEmpty buffers := by
  have htake := List.take_prefix n buffers
  exact htake.filter _

end Deliveries

/-! ## The call for the first buffer -/

section FirstBuffer

variable {Conn : Type} {stableId : Conn → Nat}

/-- The only delivery of a call is the one it returns with. -/
def DeliversLast (call : Call Conn) : Prop :=
  deliveries call.log =
    match call.progress with
    | .returned (.ok connection) => (nonEmpty [call.data]).map (connection, ·)
    | _ => []

theorem DeliversLast.afterChoice {call : Call Conn} (h : DeliversLast call)
    (hlooping : call.progress = .looping) (choice : Choice Conn) :
    DeliversLast (call.afterChoice stableId choice) := by
  have hnone : deliveries call.log = [] := by
    simpa [DeliversLast, hlooping] using h
  rcases Call.afterChoice_cases stableId call choice with
    ⟨_, _, heq⟩ | ⟨_, heq⟩ | ⟨_, _, hdata, heq⟩ | ⟨_, _, _, heq⟩
  · rw [heq]
    exact hnone
  · rw [heq]
    exact hnone
  · -- nothing is written, and nothing is to be delivered
    simp [heq, DeliversLast, hdata, nonEmpty, hnone]
  · rw [heq]
    exact hnone

theorem DeliversLast.writeStep {call : Call Conn} {connection : Conn} (h : DeliversLast call)
    (hwriting : call.progress = .writing connection) (outcome : StreamWrite) :
    DeliversLast (call.writeStep connection outcome) := by
  have hnone : deliveries call.log = [] := by
    simpa [DeliversLast, hwriting] using h
  rcases Call.writeStep_cases call connection outcome with
    ⟨hwritten, heq⟩ | ⟨err, hfailed, heq⟩ | ⟨err, hfailed, heq⟩
  · rw [heq, hwritten, DeliversLast, deliveries_wrote_written, hnone, List.append_nil]
  · rw [heq, hfailed, DeliversLast, deliveries_wrote_failed rfl, hnone]
  · rw [heq, hfailed, DeliversLast, deliveries_wrote_failed rfl, hnone]
    split
    next c hreturned => split at hreturned <;> cases hreturned
    next => rfl

theorem deliversLast_sendBuffer (stableId : Conn → Nat) (data : List UInt8)
    (iterations : List (Iteration Conn)) :
    DeliversLast (sendBuffer stableId data iterations) := by
  have hstart : DeliversLast (Call.start data : Call Conn) := rfl
  refine sendBuffer_invariant hstart ?_ ?_ iterations
  · intro call slot answers h hlooping
    exact h.afterChoice hlooping _
  · intro call connection outcome h hwriting
    exact h.writeStep hwriting outcome

theorem attempts_sendBuffer (stableId : Conn → Nat) (data : List UInt8)
    (iterations : List (Iteration Conn)) :
    ∃ k, attempts (sendBuffer stableId data iterations).log.reverse = List.replicate k data := by
  refine ⟨_, List.eq_replicate_of_mem ?_⟩
  intro written hmem
  rcases List.mem_filterMap.1 hmem with ⟨op, hop, hattempt⟩
  cases op with
  | chose choice => cases hattempt
  | wrote connection data' outcome =>
      cases hattempt
      exact ((writesOnly_sendBuffer data iterations).wrote connection _ outcome
        (List.mem_reverse.1 hop)).1

/-- An error a call returns is the one of its last operation, also for an empty buffer. -/
def ErrsLast (call : Call Conn) : Prop :=
  ∀ err, call.progress = .returned (.error err) →
    ∃ op rest, call.log = op :: rest ∧ op.error? = some err

theorem errsLast_afterChoice (call : Call Conn) (choice : Choice Conn) :
    ErrsLast (call.afterChoice stableId choice) := by
  intro err hreturned
  rcases Call.afterChoice_cases stableId call choice with
    ⟨failure, hfailed, heq⟩ | ⟨_, heq⟩ | ⟨_, _, _, heq⟩ | ⟨_, _, _, heq⟩
  · rw [heq] at hreturned ⊢
    cases hreturned
    exact ⟨.chose choice, call.log, rfl, by rw [hfailed]; rfl⟩
  · rw [heq] at hreturned
    cases hreturned
  · rw [heq] at hreturned
    cases hreturned
  · rw [heq] at hreturned
    cases hreturned

theorem errsLast_writeStep (call : Call Conn) (connection : Conn) (outcome : StreamWrite) :
    ErrsLast (call.writeStep connection outcome) := by
  intro err hreturned
  exact returnsLast_writeStep hreturned

theorem errsLast_sendBuffer (data : List UInt8) (iterations : List (Iteration Conn)) :
    ErrsLast (sendBuffer stableId data iterations) := by
  refine sendBuffer_invariant ?_ ?_ ?_ iterations
  · intro err hreturned
    cases hreturned
  · intro call slot answers _ _
    exact errsLast_afterChoice call _
  · intro call connection outcome _ _
    exact errsLast_writeStep call connection outcome

end FirstBuffer

/-! ## The writes on the returned connection -/

section Rest

variable {Conn : Type}

/-- The first `n` buffers have been delivered on `connection`, and the outcome tells about the one
after them. -/
structure WrittenUpTo (connection : Conn) (buffers : List (List UInt8)) (n : Nat)
    (outcome : SendOutcome Conn) : Prop where
  delivered : deliveries outcome.ops = (nonEmpty (buffers.take n)).map (connection, ·)
  attempted : attempts outcome.ops <+: buffers
  complete : outcome.result = some (.ok ()) → n = buffers.length
  failed : ∀ err, outcome.result = some (.error err) →
    n < buffers.length ∧ attempts outcome.ops = buffers.take (n + 1) ∧
      ∃ op, outcome.ops.getLast? = some op ∧ op.error? = some err

/-- A buffer that is written puts the rest one further. -/
theorem WrittenUpTo.cons {connection : Conn} {buffers : List (List UInt8)} {n : Nat}
    {outcome : SendOutcome Conn} (h : WrittenUpTo connection buffers n outcome)
    (data : List UInt8) :
    WrittenUpTo connection (data :: buffers) (n + 1)
      { outcome with ops := .wrote connection data .written :: outcome.ops } := by
  refine
    { delivered := ?_
      attempted := ?_
      complete := ?_
      failed := ?_ }
  · rw [deliveries_wrote_written, h.delivered, List.take_succ_cons,
      nonEmpty_cons data (buffers.take n), List.map_append]
  · exact (List.prefix_cons_inj data).2 h.attempted
  · intro hok
    rw [h.complete hok, List.length_cons]
  · intro err herr
    rcases h.failed err herr with ⟨hn, hattempts, op, hlast, hop⟩
    refine ⟨Nat.succ_lt_succ hn, ?_, op, ?_, hop⟩
    · have hcons : attempts (.wrote connection data .written :: outcome.ops) =
          data :: attempts outcome.ops := rfl
      rw [hcons, hattempts, List.take_succ_cons]
    · rw [List.getLast?_cons, hlast, Option.getD_some]

theorem exists_writtenUpTo (connection : Conn) (buffers : List (List UInt8))
    (outcomes : List (Option StreamWrite)) :
    ∃ n, WrittenUpTo connection buffers n (writeRest connection buffers outcomes) := by
  induction buffers generalizing outcomes with
  | nil => exact ⟨0, rfl, List.prefix_rfl, fun _ => rfl, by simp [writeRest]⟩
  | cons data buffers ih =>
      have hstuck : WrittenUpTo connection (data :: buffers) 0
          { ops := []
            result := none } :=
        ⟨rfl, List.nil_prefix, by simp, by simp⟩
      rcases outcomes with _ | ⟨_ | outcome, outcomes⟩
      · exact ⟨0, hstuck⟩
      · exact ⟨0, hstuck⟩
      · cases hresult : sendBufferUsingConn outcome with
        | ok done =>
            have hwritten : outcome = .written := sendBufferUsingConn_eq_ok_iff.1 hresult
            rcases ih outcomes with ⟨n, hrest⟩
            refine ⟨n + 1, ?_⟩
            subst hwritten
            simpa only [writeRest, hresult] using hrest.cons data
        | error err =>
            refine ⟨0, ?_⟩
            simp only [writeRest, hresult]
            refine
              { delivered := deliveries_wrote_failed hresult []
                attempted := ⟨buffers, rfl⟩
                complete := by simp
                failed := ?_ }
            intro err' herr
            cases herr
            refine ⟨Nat.succ_pos _, rfl, _, rfl, ?_⟩
            simp [Op.error?, hresult]

end Rest

/-! ## Whole batches -/

section Whole

variable {Conn : Type}

/-- The first buffer is written until a write succeeds, each of the others at most once. -/
def WritesInOrder (first : List UInt8) (rest : List (List UInt8)) (ops : List (Op Conn)) : Prop :=
  ∃ firstOps restOps k, ops = firstOps ++ restOps ∧
    attempts firstOps = List.replicate k first ∧ (deliveries firstOps).length ≤ 1 ∧
    attempts restOps <+: rest

/-- What a batch of these buffers has delivered when it comes to this outcome. -/
structure DeliversInOrder (stableId : Conn → Nat) (first : List UInt8) (rest : List (List UInt8))
    (run : BatchRun Conn) (outcome : SendOutcome Conn) : Prop where
  delivered : (deliveries outcome.ops).map Prod.snd <+: nonEmpty (first :: rest)
  inOrder : WritesInOrder first rest outcome.ops
  complete : outcome.result = some (.ok ()) →
    (deliveries outcome.ops).map Prod.snd = nonEmpty (first :: rest) ∧
      ∃ connection,
        (sendBuffer stableId first run.iterations).progress = .returned (.ok connection) ∧
          ∀ delivery ∈ deliveries outcome.ops, delivery.1 = connection
  failed : ∀ err, outcome.result = some (.error err) →
    ∃ i k, i < (first :: rest).length ∧
      (deliveries outcome.ops).map Prod.snd = nonEmpty ((first :: rest).take i) ∧
      attempts outcome.ops = List.replicate k first ++ rest.take i ∧
      ∃ op, outcome.ops.getLast? = some op ∧ op.error? = some err

variable {stableId : Conn → Nat}

/-- A call that returned no connection has delivered nothing. -/
theorem deliveries_of_not_returned {data : List UInt8} {iterations : List (Iteration Conn)}
    (h : ∀ connection,
      (sendBuffer stableId data iterations).progress ≠ .returned (.ok connection)) :
    deliveries (sendBuffer stableId data iterations).log = [] := by
  have hlast := deliversLast_sendBuffer stableId data iterations
  rw [DeliversLast] at hlast
  split at hlast
  next connection hreturned => exact absurd hreturned (h connection)
  next => exact hlast

theorem deliveries_of_returned {data : List UInt8} {iterations : List (Iteration Conn)}
    {connection : Conn}
    (h : (sendBuffer stableId data iterations).progress = .returned (.ok connection)) :
    deliveries (sendBuffer stableId data iterations).log =
      (nonEmpty [data]).map (connection, ·) := by
  have hlast := deliversLast_sendBuffer stableId data iterations
  rw [DeliversLast, h, (writesOnly_sendBuffer data iterations).data_eq] at hlast
  exact hlast

/-- A batch that is over before there is a connection for the other buffers. -/
theorem deliversInOrder_of_call {first : List UInt8} (rest : List (List UInt8))
    {run : BatchRun Conn} {outcome : SendOutcome Conn}
    (hcall : ∀ connection,
      (sendBuffer stableId first run.iterations).progress ≠ .returned (.ok connection))
    (hops : outcome.ops = (sendBuffer stableId first run.iterations).log.reverse)
    (hresult : ∀ result, outcome.result = some result →
      ∃ err, result = .error err ∧
        (sendBuffer stableId first run.iterations).progress = .returned (.error err)) :
    DeliversInOrder stableId first rest run outcome := by
  have hnone : deliveries outcome.ops = [] := by
    rw [hops, deliveries_reverse, deliveries_of_not_returned hcall, List.reverse_nil]
  rcases attempts_sendBuffer stableId first run.iterations with ⟨k, hattempts⟩
  rw [← hops] at hattempts
  refine
    { delivered := by simp [hnone]
      inOrder := ⟨outcome.ops, [], k, by simp, hattempts, by simp [hnone], List.nil_prefix⟩
      complete := ?_
      failed := ?_ }
  · intro hok
    rcases hresult _ hok with ⟨err, heq, _⟩
    cases heq
  · intro err herr
    rcases hresult _ herr with ⟨_, heq, hreturned⟩
    cases heq
    rcases errsLast_sendBuffer first run.iterations err hreturned with ⟨op, log, hlog, hop⟩
    refine ⟨0, k, Nat.succ_pos _, by simp [hnone, nonEmpty], by simp [hattempts], op, ?_, hop⟩
    rw [hops, List.getLast?_reverse, hlog, List.head?_cons]

/-- A batch whose first call returned a connection goes on with the other buffers. -/
theorem deliversInOrder_of_connection {first : List UInt8} (rest : List (List UInt8))
    {run : BatchRun Conn} {connection : Conn}
    (hreturned :
      (sendBuffer stableId first run.iterations).progress = .returned (.ok connection)) :
    DeliversInOrder stableId first rest run
      { ops := (sendBuffer stableId first run.iterations).log.reverse ++
          (writeRest connection rest run.outcomes).ops
        result := (writeRest connection rest run.outcomes).result } := by
  have hfirst := deliveries_of_returned hreturned
  rcases attempts_sendBuffer stableId first run.iterations with ⟨k, hattempts⟩
  rcases exists_writtenUpTo connection rest run.outcomes with ⟨n, hrest⟩
  -- the deliveries of both parts are on `connection`
  have hall : deliveries ((sendBuffer stableId first run.iterations).log.reverse ++
      (writeRest connection rest run.outcomes).ops) =
        (nonEmpty ((first :: rest).take (n + 1))).map (connection, ·) := by
    calc
      _ = ((nonEmpty [first]).map (connection, ·)).reverse ++
            (nonEmpty (rest.take n)).map (connection, ·) := by
          rw [deliveries_append, deliveries_reverse, hfirst, hrest.delivered]
      _ = (nonEmpty [first]).map (connection, ·) ++
            (nonEmpty (rest.take n)).map (connection, ·) := by
          cases first <;> rfl
      _ = _ := by
          rw [← List.map_append, ← nonEmpty_cons, List.take_succ_cons]
  have hdata : (deliveries ((sendBuffer stableId first run.iterations).log.reverse ++
      (writeRest connection rest run.outcomes).ops)).map Prod.snd =
        nonEmpty ((first :: rest).take (n + 1)) := by
    rw [hall, List.map_map]
    exact List.map_id _
  refine
    { delivered := ?_
      inOrder := ⟨_, _, k, rfl, hattempts, ?_, hrest.attempted⟩
      complete := ?_
      failed := ?_ }
  · rw [hdata]
    exact prefix_nonEmpty_take (first :: rest) (n + 1)
  · rw [deliveries_reverse, hfirst]
    cases first <;> simp [nonEmpty]
  · intro hok
    refine ⟨?_, connection, hreturned, ?_⟩
    · rw [hdata, hrest.complete hok, List.take_succ_cons, List.take_length]
    · intro delivery hmem
      rw [hall] at hmem
      rcases List.mem_map.1 hmem with ⟨data, _, rfl⟩
      rfl
  · intro err herr
    rcases hrest.failed err herr with ⟨hn, hlater, op, hlast, hop⟩
    refine ⟨n + 1, k, Nat.succ_lt_succ hn, hdata, ?_, op, ?_, hop⟩
    · rw [attempts_append, hattempts, hlater]
    · rw [List.getLast?_append, hlast]
      rfl

theorem sendBatch_deliversInOrder (stableId : Conn → Nat) (first : List UInt8)
    (rest : List (List UInt8)) (run : BatchRun Conn) :
    DeliversInOrder stableId first rest run (sendBatch stableId (first :: rest) run) := by
  rcases sendBatch_cases stableId first rest run with
    ⟨connection, hreturned, heq⟩ | ⟨hcall, hops, hresult⟩
  · rw [heq]
    exact deliversInOrder_of_connection rest hreturned
  · exact deliversInOrder_of_call rest hcall hops hresult

/-- The deliveries of a batch are a prefix of what is to be delivered, and all of it on one
connection if the batch succeeds; after an error nothing behind the failed buffer is written. -/
theorem send_batch_delivers_in_order (stableId : Conn → Nat) (buffers : List (List UInt8))
    (run : BatchRun Conn) :
    (buffers = [] → sendBatch stableId buffers run =
        { ops := []
          result := some (.ok ()) }) ∧
      ∀ first rest, buffers = first :: rest →
        DeliversInOrder stableId first rest run (sendBatch stableId buffers run) := by
  refine ⟨?_, ?_⟩
  · rintro rfl
    rfl
  · rintro first rest rfl
    exact sendBatch_deliversInOrder stableId first rest run

end Whole

end Quik
end TpuSender
