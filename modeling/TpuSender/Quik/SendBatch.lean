import TpuSender.Quik.QuicClient

/-!
# SendBatch — whole sends and what they have written

`sendOne` is `send_buffer` and `sendBatch` is `send_batch`, each run to its end on what it meets.
Both return the operations they made, so that one can ask which buffers were written.

A finished send without an error has written its buffers, with one exception: a buffer that finds
the connection for the others and is empty is taken for a warming call and is not written
(`sendOne_ok`, `wroteAt_of_ok`, `WroteAt.ne_nil`).
-/

namespace TpuSender
namespace Quik

/-! ## One buffer and a batch of them -/

/-- What one batch meets: the iterations of its first buffer, and the writes of the others in order,
where `none` is a write that is never over. -/
structure BatchRun (Conn : Type) where
  iterations : List (Iteration Conn)
  outcomes : List (Option StreamWrite)

/-- What a send has done, oldest first, and its result if it has one: a send that panics has none,
as one that is never over. -/
structure SendOutcome (Conn : Type) where
  ops : List (Op Conn)
  result : Option (Except QuicError Unit)

section Batch

variable {Conn : Type}

/-- Write the buffers one after the other on `connection`; the first failure ends it. -/
def writeRest (connection : Conn) : List (List UInt8) → List (Option StreamWrite) → SendOutcome Conn
  | [], _ =>
      { ops := []
        result := some (.ok ()) }
  | data :: buffers, some outcome :: outcomes =>
      match sendBufferUsingConn outcome with
      | .ok () =>
          -- awaited before the next buffer is written
          let rest := writeRest connection buffers outcomes
          { ops := .wrote connection data outcome :: rest.ops
            result := rest.result }
      | .error err =>
          { ops := [.wrote connection data outcome]
            result := some (.error err) }
  | _ :: _, _ =>
      { ops := []
        result := none }

/-- What a send has done so far, given the call that it has made for the first buffer. -/
def sendOutcome (call : Call Conn) (buffers : List (List UInt8))
    (outcomes : List StreamWrite) : SendOutcome Conn :=
  match buffers with
  | [] =>
      { ops := []
        result := some (.ok ()) }
  | _ :: rest =>
      match call.progress with
      | .returned (.ok connection) =>
          let written := writeRest connection rest (outcomes.map some)
          { ops := call.log.reverse ++ written.ops
            result := written.result }
      | .returned (.error err) =>
          { ops := call.log.reverse
            result := some (.error err) }
      | _ =>
          { ops := call.log.reverse
            result := none }

variable (stableId : Conn → Nat)

/-- `send_buffer`: the connection is not of interest. -/
def sendOne (data : List UInt8) (iterations : List (Iteration Conn)) : SendOutcome Conn :=
  let call := sendBuffer stableId data iterations
  { ops := call.log.reverse
    result :=
      match call.progress with
      | .returned (.ok _) => some (.ok ())
      | .returned (.error err) => some (.error err)
      | _ => none }

/-- `send_batch`: the first buffer finds the connection, the others are written on it. -/
def sendBatch (buffers : List (List UInt8)) (run : BatchRun Conn) : SendOutcome Conn :=
  match buffers with
  | [] =>
      { ops := []
        result := some (.ok ()) }
  | first :: rest =>
      let call := sendBuffer stableId first run.iterations
      match call.progress with
      | .returned (.ok connection) =>
          let written := writeRest connection rest run.outcomes
          { ops := call.log.reverse ++ written.ops
            result := written.result }
      | .returned (.error err) =>
          { ops := call.log.reverse
            result := some (.error err) }
      | _ =>
          { ops := call.log.reverse
            result := none }

end Batch

/-! ## What a call writes -/

section Calls

variable {Conn : Type} {stableId : Conn → Nat}

/-- A call writes its own data, and only if there is any. -/
structure WritesOnly (data : List UInt8) (call : Call Conn) : Prop where
  data_eq : call.data = data
  wrote : ∀ connection written outcome, Op.wrote connection written outcome ∈ call.log →
    written = data ∧ data ≠ []
  writing : ∀ connection, call.progress = .writing connection → data ≠ []

theorem writesOnly_start (data : List UInt8) : WritesOnly data (Call.start data : Call Conn) :=
  { data_eq := rfl
    wrote := by
      intro connection written outcome h
      cases h
    writing := by
      intro connection h
      cases h }

theorem WritesOnly.afterChoice {data : List UInt8} {call : Call Conn} (h : WritesOnly data call)
    (choice : Choice Conn) : WritesOnly data (call.afterChoice stableId choice) := by
  -- the locked block adds no write to the log
  have hlog : ∀ connection written outcome,
      Op.wrote connection written outcome ∈ (call.afterChoice stableId choice).log →
      written = data ∧ data ≠ [] := by
    intro connection written outcome hmem
    rw [Call.log_afterChoice] at hmem
    rcases List.mem_cons.1 hmem with heq | hmem
    · cases heq
    · exact h.wrote connection written outcome hmem
  refine
    { data_eq := ?_
      wrote := hlog
      writing := ?_ }
  · rcases Call.afterChoice_cases stableId call choice with
      ⟨_, _, heq⟩ | ⟨_, heq⟩ | ⟨_, _, _, heq⟩ | ⟨_, _, _, heq⟩
    all_goals
      rw [heq]
      exact h.data_eq
  · intro connection hp
    rcases Call.afterChoice_cases stableId call choice with
      ⟨_, _, heq⟩ | ⟨_, heq⟩ | ⟨_, _, _, heq⟩ | ⟨_, _, hdata, _⟩
    · rw [heq] at hp
      cases hp
    · rw [heq] at hp
      cases hp
    · rw [heq] at hp
      cases hp
    · exact h.data_eq ▸ hdata

theorem WritesOnly.writeStep {data : List UInt8} {call : Call Conn} (h : WritesOnly data call)
    {connection : Conn} (hwriting : call.progress = .writing connection) (outcome : StreamWrite) :
    WritesOnly data (call.writeStep connection outcome) := by
  have hdata : data ≠ [] := h.writing connection hwriting
  have hlog : ∀ c written o, Op.wrote c written o ∈ (call.writeStep connection outcome).log →
      written = data ∧ data ≠ [] := by
    intro c written o hmem
    rw [Call.log_writeStep] at hmem
    rcases List.mem_cons.1 hmem with heq | hmem
    · cases heq
      exact ⟨h.data_eq, hdata⟩
    · exact h.wrote c written o hmem
  have hsame := (Call.writeStep_keeps call connection outcome).1
  exact ⟨hsame.trans h.data_eq, hlog, fun _ _ => hdata⟩

theorem writesOnly_sendBuffer (data : List UInt8) (iterations : List (Iteration Conn)) :
    WritesOnly data (sendBuffer stableId data iterations) := by
  refine sendBuffer_invariant (writesOnly_start data) ?_ ?_ iterations
  · intro call slot answers h _
    exact h.afterChoice _
  · intro call connection outcome h hwriting
    exact h.writeStep hwriting outcome

theorem sound_sendBuffer {data : List UInt8} (hdata : data ≠ [])
    (iterations : List (Iteration Conn)) :
    Sound stableId (sendBuffer stableId data iterations) := by
  refine sendBuffer_invariant (sound_start hdata) ?_ ?_ iterations
  · intro call slot answers h hlooping
    exact h.afterChoice hlooping _
  · intro call connection outcome h hwriting
    exact h.writeStep hwriting outcome

/-- A call with data that returned a connection wrote the data on it. -/
theorem wrote_of_returned {data : List UInt8} (hdata : data ≠ [])
    {iterations : List (Iteration Conn)} {connection : Conn}
    (h : (sendBuffer stableId data iterations).progress = .returned (.ok connection)) :
    Op.wrote connection data .written ∈ (sendBuffer stableId data iterations).log := by
  rcases (sound_sendBuffer hdata iterations).returned _ h with ⟨rest, hlog⟩
  rw [hlog, (writesOnly_sendBuffer data iterations).data_eq]
  exact List.mem_cons_self

end Calls

/-! ## What a finished send has written -/

section Finished

variable {Conn : Type} {stableId : Conn → Nat}

theorem sendBufferUsingConn_eq_ok_iff {outcome : StreamWrite} :
    sendBufferUsingConn outcome = .ok () ↔ outcome = .written := by
  cases outcome with
  | written => exact iff_of_true rfl rfl
  | openFailed err => simp [sendBufferUsingConn]
  | writeFailed err => simp [sendBufferUsingConn]

/-- A send is finished without an error exactly when its call returned a connection. -/
theorem sendOne_result_eq_ok_iff {data : List UInt8} {iterations : List (Iteration Conn)} :
    (sendOne stableId data iterations).result = some (.ok ()) ↔
      ∃ connection,
        (sendBuffer stableId data iterations).progress = .returned (.ok connection) := by
  cases hp : (sendBuffer stableId data iterations).progress with
  | returned result =>
      cases result with
      | ok connection => simp [sendOne, hp]
      | error err => simp [sendOne, hp]
  | looping => simp [sendOne, hp]
  | writing c => simp [sendOne, hp]
  | panicked => simp [sendOne, hp]
  | noEndpoint => simp [sendOne, hp]
  | abandoned => simp [sendOne, hp]

/-- Either the call for the first buffer returned a connection and the others were written on it, or
the batch made no more than that call, and what it returned can only be the call's error. -/
theorem sendBatch_cases (stableId : Conn → Nat) (first : List UInt8) (rest : List (List UInt8))
    (run : BatchRun Conn) :
    (∃ connection,
        (sendBuffer stableId first run.iterations).progress = .returned (.ok connection) ∧
          sendBatch stableId (first :: rest) run =
            { ops := (sendBuffer stableId first run.iterations).log.reverse ++
                (writeRest connection rest run.outcomes).ops
              result := (writeRest connection rest run.outcomes).result }) ∨
      (∀ connection,
          (sendBuffer stableId first run.iterations).progress ≠ .returned (.ok connection)) ∧
        (sendBatch stableId (first :: rest) run).ops =
          (sendBuffer stableId first run.iterations).log.reverse ∧
        ∀ result, (sendBatch stableId (first :: rest) run).result = some result →
          ∃ err, result = .error err ∧
            (sendBuffer stableId first run.iterations).progress = .returned (.error err) := by
  cases hp : (sendBuffer stableId first run.iterations).progress with
  | returned result =>
      cases result with
      | ok connection => exact .inl ⟨connection, rfl, by simp only [sendBatch, hp]⟩
      | error err =>
          refine .inr ⟨by simp, by simp [sendBatch, hp], ?_⟩
          intro result hresult
          refine ⟨err, ?_, rfl⟩
          simpa [sendBatch, hp, eq_comm] using hresult
  | looping => simp [sendBatch, hp]
  | writing c => simp [sendBatch, hp]
  | panicked => simp [sendBatch, hp]
  | noEndpoint => simp [sendBatch, hp]
  | abandoned => simp [sendBatch, hp]

/-- One buffer is a batch of one. -/
theorem sendBatch_singleton (data : List UInt8) (run : BatchRun Conn) :
    sendBatch stableId [data] run = sendOne stableId data run.iterations := by
  cases hprogress : (sendBuffer stableId data run.iterations).progress with
  | returned result =>
      cases result with
      | ok connection => simp [sendBatch, sendOne, hprogress, writeRest]
      | error err => simp [sendBatch, sendOne, hprogress]
  | looping => simp [sendBatch, sendOne, hprogress]
  | writing connection => simp [sendBatch, sendOne, hprogress]
  | panicked => simp [sendBatch, sendOne, hprogress]
  | noEndpoint => simp [sendBatch, sendOne, hprogress]
  | abandoned => simp [sendBatch, sendOne, hprogress]

theorem sendOne_ok {data : List UInt8} (hdata : data ≠ []) {iterations : List (Iteration Conn)}
    (h : (sendOne stableId data iterations).result = some (.ok ())) :
    ∃ connection, Op.wrote connection data .written ∈ (sendOne stableId data iterations).ops := by
  rcases sendOne_result_eq_ok_iff.1 h with ⟨connection, hreturned⟩
  exact ⟨connection, List.mem_reverse.2 (wrote_of_returned hdata hreturned)⟩

theorem wrote_of_mem_sendOne {data : List UInt8} {iterations : List (Iteration Conn)}
    {connection : Conn} {written : List UInt8} {outcome : StreamWrite}
    (h : Op.wrote connection written outcome ∈ (sendOne stableId data iterations).ops) :
    written = data ∧ data ≠ [] :=
  (writesOnly_sendBuffer data iterations).wrote connection written outcome (List.mem_reverse.1 h)

/-- Without an error every buffer was written on the connection, in its turn. -/
theorem writeRest_ok {connection : Conn} {buffers : List (List UInt8)}
    {outcomes : List (Option StreamWrite)}
    (h : (writeRest connection buffers outcomes).result = some (.ok ())) :
    (writeRest connection buffers outcomes).ops =
      buffers.map fun data => .wrote connection data .written := by
  induction buffers generalizing outcomes with
  | nil => rfl
  | cons head buffers ih =>
      -- a write that is missing or never over leaves the batch without a result
      rcases outcomes with _ | ⟨_ | outcome, outcomes⟩
      · simp [writeRest] at h
      · simp [writeRest] at h
      · cases hresult : sendBufferUsingConn outcome with
        | error err => simp [writeRest, hresult] at h
        | ok done =>
            have hwritten : outcome = .written := sendBufferUsingConn_eq_ok_iff.1 hresult
            subst hwritten
            have hrest : (writeRest connection buffers outcomes).result = some (.ok ()) := by
              simpa [writeRest, hresult] using h
            simp only [writeRest, hresult, List.map_cons, ih hrest]

theorem mem_of_mem_writeRest {connection c : Conn} {buffers : List (List UInt8)}
    {outcomes : List (Option StreamWrite)} {written : List UInt8} {outcome : StreamWrite}
    (h : Op.wrote c written outcome ∈ (writeRest connection buffers outcomes).ops) :
    written ∈ buffers := by
  induction buffers generalizing outcomes with
  | nil => simp [writeRest] at h
  | cons head buffers ih =>
      rcases outcomes with _ | ⟨_ | first, outcomes⟩
      · simp [writeRest] at h
      · simp [writeRest] at h
      · cases hresult : sendBufferUsingConn first with
        | error err =>
            simp only [writeRest, hresult, List.mem_singleton] at h
            cases h
            exact List.mem_cons_self
        | ok done =>
            simp only [writeRest, hresult] at h
            rcases List.mem_cons.1 h with heq | hrest
            · cases heq
              exact List.mem_cons_self
            · exact List.mem_cons_of_mem _ (ih hrest)

/-- The writes are not over while there are fewer of them than buffers. -/
theorem length_lt_of_writeRest {connection : Conn} {buffers : List (List UInt8)}
    {outcomes : List StreamWrite}
    (h : (writeRest connection buffers (outcomes.map some)).result = none) :
    outcomes.length < buffers.length := by
  induction buffers generalizing outcomes with
  | nil => simp [writeRest] at h
  | cons data buffers ih =>
      cases outcomes with
      | nil => simp
      | cons outcome outcomes =>
          cases hresult : sendBufferUsingConn outcome with
          | error err => simp [writeRest, hresult] at h
          | ok done =>
              have hrest : (writeRest connection buffers (outcomes.map some)).result = none := by
                simpa [writeRest, hresult] using h
              exact Nat.succ_lt_succ (ih hrest)

/-- A send that has no result yet either waits for the call of its first buffer, or has the
connection and fewer writes behind it than buffers. -/
theorem sendOutcome_pending {call : Call Conn} {buffers : List (List UInt8)}
    {outcomes : List StreamWrite} (h : (sendOutcome call buffers outcomes).result = none) :
    (∀ result, call.progress ≠ .returned result) ∨
      ∃ connection, call.progress = .returned (.ok connection) ∧
        outcomes.length < buffers.tail.length := by
  cases buffers with
  | nil => simp [sendOutcome] at h
  | cons first rest =>
      cases hprogress : call.progress with
      | returned result =>
          cases result with
          | error err => simp [sendOutcome, hprogress] at h
          | ok connection =>
              have hrest : (writeRest connection rest (outcomes.map some)).result = none := by
                simpa [sendOutcome, hprogress] using h
              exact .inr ⟨connection, rfl, length_lt_of_writeRest hrest⟩
      | looping => exact .inl (by simp)
      | writing connection => exact .inl (by simp)
      | panicked => exact .inl (by simp)
      | noEndpoint => exact .inl (by simp)
      | abandoned => exact .inl (by simp)

/-- Only a send with something to send can be without a result. -/
theorem ne_nil_of_pending {call : Call Conn} {buffers : List (List UInt8)}
    {outcomes : List StreamWrite} (h : (sendOutcome call buffers outcomes).result = none) :
    buffers ≠ [] := by
  rintro rfl
  simp [sendOutcome] at h

/-- A send waits for the call of its first buffer. -/
theorem sendOutcome_of_not_returned {call : Call Conn}
    (h : ∀ result, call.progress ≠ .returned result) {buffers : List (List UInt8)}
    (hbuffers : buffers ≠ []) (outcomes : List StreamWrite) :
    (sendOutcome call buffers outcomes).result = none := by
  cases buffers with
  | nil => exact absurd rfl hbuffers
  | cons first rest =>
      cases hprogress : call.progress with
      | returned result => exact absurd hprogress (h result)
      | panicked => simp [sendOutcome, hprogress]
      | noEndpoint => simp [sendOutcome, hprogress]
      | looping => simp [sendOutcome, hprogress]
      | writing connection => simp [sendOutcome, hprogress]
      | abandoned => simp [sendOutcome, hprogress]

variable (stableId) in
/-- The batch has written `data` for its buffer at place `p`.  The first buffer is written by its
call, maybe after some failures; each other one has one write, in its turn behind that call. -/
def WroteAt (buffers : List (List UInt8)) (run : BatchRun Conn) (p : Nat) (data : List UInt8) :
    Prop :=
  ∃ k connection,
    (sendBatch stableId buffers run).ops[k]? = some (.wrote connection data .written) ∧
    match p with
    | 0 => k < (sendBuffer stableId (buffers.headD []) run.iterations).log.length
    | p + 1 => k = (sendBuffer stableId (buffers.headD []) run.iterations).log.length + p

/-- A batch that ended without an error has written every buffer, the first one unless it is
empty. -/
theorem wroteAt_of_ok {buffers : List (List UInt8)} {run : BatchRun Conn}
    (h : (sendBatch stableId buffers run).result = some (.ok ())) {p : Nat} {data : List UInt8}
    (hdata : buffers[p]? = some data) (hp : p = 0 → data ≠ []) :
    WroteAt stableId buffers run p data := by
  cases buffers with
  | nil => simp at hdata
  | cons first rest =>
      rcases sendBatch_cases stableId first rest run with
        ⟨connection, hreturned, heq⟩ | ⟨_, _, hresult⟩
      · rw [heq] at h
        cases p with
        | zero =>
            have hsame : first = data := by simpa using hdata
            have hwrote := wrote_of_returned (hsame ▸ hp rfl) hreturned
            rcases List.mem_iff_getElem?.1 (List.mem_reverse.2 hwrote) with ⟨k, hk⟩
            have hlt : k < (sendBuffer stableId first run.iterations).log.length := by
              simpa using (List.getElem?_eq_some_iff.1 hk).1
            refine ⟨k, connection, ?_, hlt⟩
            rw [heq, List.getElem?_append_left (by simpa using hlt), hk, hsame]
        | succ p =>
            refine ⟨_, connection, ?_, rfl⟩
            have hrest : rest[p]? = some data := by simpa using hdata
            rw [heq, List.getElem?_append_right (by simp), writeRest_ok h]
            simp [hrest]
      · -- a batch that made no more than the first call has no success to show
        rcases hresult _ h with ⟨err, hok, _⟩
        cases hok

/-- Nothing empty is ever written for the first buffer. -/
theorem WroteAt.ne_nil {buffers : List (List UInt8)} {run : BatchRun Conn} {data : List UInt8}
    (h : WroteAt stableId buffers run 0 data) : data ≠ [] := by
  rcases h with ⟨k, connection, hk, hfirst⟩
  cases buffers with
  | nil => simp [sendBatch] at hk
  | cons first rest =>
      have hcall : Op.wrote connection data .written ∈
          (sendBuffer stableId first run.iterations).log.reverse := by
        have hlt : k < (sendBuffer stableId first run.iterations).log.reverse.length := by
          simpa using hfirst
        rcases sendBatch_cases stableId first rest run with ⟨c, _, heq⟩ | ⟨_, hops, _⟩
        · rw [heq, List.getElem?_append_left hlt] at hk
          exact List.mem_of_getElem? hk
        · rw [hops] at hk
          exact List.mem_of_getElem? hk
      rcases (writesOnly_sendBuffer first run.iterations).wrote connection data .written
        (List.mem_reverse.1 hcall) with ⟨rfl, hne⟩
      exact hne

end Finished

/-! ## A leader that takes everything -/

section Willing

variable {Conn : Type} (stableId : Conn → Nat) (connection : Conn)

/-- The endpoint connects, and every write goes through. -/
def willingRun (buffers : Nat) : BatchRun Conn :=
  { iterations :=
      [{ slot := none
         answers :=
          { connect := .ok (.connected connection)
            connect0rtt := .error .EndpointStopping }
         outcome := .written }]
    outcomes := List.replicate buffers (some .written) }

theorem sendBuffer_willing (data : List UInt8) (n : Nat) :
    (sendBuffer stableId data (willingRun connection n).iterations).progress =
      .returned (.ok connection) := by
  cases data with
  | nil => rfl
  | cons byte bytes => rfl

theorem sendOne_willing (data : List UInt8) (n : Nat) :
    (sendOne stableId data (willingRun connection n).iterations).result = some (.ok ()) :=
  sendOne_result_eq_ok_iff.2 ⟨connection, sendBuffer_willing stableId connection data n⟩

theorem writeRest_willing (buffers : List (List UInt8)) {n : Nat} (hn : buffers.length ≤ n) :
    (writeRest connection buffers (List.replicate n (some .written))).result = some (.ok ()) := by
  induction buffers generalizing n with
  | nil => rfl
  | cons data buffers ih =>
      cases n with
      | zero => cases hn
      | succ n => exact ih (Nat.le_of_succ_le_succ hn)

theorem sendBatch_willing (buffers : List (List UInt8)) {n : Nat} (hn : buffers.length ≤ n) :
    (sendBatch stableId buffers (willingRun connection n)).result = some (.ok ()) := by
  cases buffers with
  | nil => rfl
  | cons first rest =>
      have hrest : rest.length ≤ n := Nat.le_of_succ_le hn
      simp only [sendBatch, sendBuffer_willing]
      exact writeRest_willing connection rest hrest

end Willing

end Quik
end TpuSender
