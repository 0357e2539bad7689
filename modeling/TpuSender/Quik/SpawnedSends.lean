import TpuSender.Quik.TaskSemaphore
import TpuSender.Quik.CallBudget

/-!
# SpawnedSends — sends spawned behind the semaphore

`send_data_async` and `send_data_batch_async` pass the semaphore and spawn a task.  The task runs
its send under a timeout, releases, and looks at what came of the send.  The machine below puts the
semaphore in front of the clients that the connections share:

* `gate ev` — a step of the semaphore: a caller's, or the release of a task whose send is over;
* `send i act` — the task of call `i` takes a step on its client, for its first buffer;
* `writeRest i outcome` — the task, its first buffer sent, writes the next one;
* `timeout i` — the timeout drops the send where it is.

The semaphore and the sends meet in two places only: a task exists once its call has passed, and it
releases once its send is over.  A timeout can end any send, so the sends add nothing to what the
semaphore can do and take nothing from it: `gate_runs_exact`.

A send that panics, for want of an endpoint, takes its task with it: such a task does nothing any
more and does not release.
-/

namespace TpuSender
namespace Quik

open Library

/-! ## What is spawned -/

/-- What a task sends: the buffer of `send_data_async` or the buffers of `send_data_batch_async`. -/
inductive Payload
  | data (buffer : List UInt8)
  | batch (buffers : List (List UInt8))

namespace Payload

def buffers : Payload → List (List UInt8)
  | .data buffer => [buffer]
  | .batch buffers => buffers

/-- `send_data` or `send_data_batch`, run to its end by itself. -/
def send {Conn : Type} (stableId : Conn → Nat) (payload : Payload) (run : BatchRun Conn) :
    SendOutcome Conn :=
  match payload with
  | .data buffer => sendOne stableId buffer run.iterations
  | .batch buffers => sendBatch stableId buffers run

theorem send_eq_sendBatch {Conn : Type} (stableId : Conn → Nat) (payload : Payload)
    (run : BatchRun Conn) : payload.send stableId run = sendBatch stableId payload.buffers run := by
  cases payload with
  | data buffer => exact (sendBatch_singleton buffer run).symm
  | batch buffers => rfl

end Payload

/-- The calls of a run: which client the connection of a call has, what it sends, and how the errors
of a send are told. -/
structure Spawning (ι Client E Conn : Type) where
  stableId : Conn → Nat
  permits : Nat
  client : ι → Client
  payload : ι → Payload
  ofQuicError : QuicError → E
  /-- `TransportError::Custom`. -/
  custom : String → E

/-- `tokio::time::error::Elapsed`. -/
inductive Elapsed
  | elapsed

/-- Check the send result, which nobody waits for. -/
def handleSendResult {E : Type} (custom : String → E) :
    Except Elapsed (Except E Unit) → Except E Unit
  | .ok result => result
  | .error _ => .error (custom "Timedout sending data")

/-! ## One task -/

/-- The call for the first buffer, the writes of the others, and whether the timeout is over. -/
structure SpawnedTask (Conn : Type) where
  call : Call Conn
  outcomes : List StreamWrite
  timedOut : Bool

namespace SpawnedTask

variable {ι Client E Conn : Type} (σ : Spawning ι Client E Conn)

/-- The task of a call before its first step. -/
def start (payload : Payload) : SpawnedTask Conn :=
  { call := Call.start (payload.buffers.headD [])
    outcomes := []
    timedOut := false }

def outcome (task : SpawnedTask Conn) (payload : Payload) : SendOutcome Conn :=
  sendOutcome task.call payload.buffers task.outcomes

/-- What `timeout(.., send).await` comes to. -/
def timedResult (task : SpawnedTask Conn) (payload : Payload) :
    Option (Except Elapsed (Except E Unit)) :=
  if task.timedOut then some (.error .elapsed)
  else (task.outcome payload).result.map fun result => .ok (result.mapError σ.ofQuicError)

/-- The send is over, one way or the other. -/
def ended (task : SpawnedTask Conn) (payload : Payload) : Bool :=
  task.timedOut || (task.outcome payload).result.isSome

/-- The send has panicked, and the task with it. -/
def panicked (task : SpawnedTask Conn) : Bool := task.call.hasPanicked

/-- What the task returns. -/
def result (task : SpawnedTask Conn) (payload : Payload) : Option (Except E Unit) :=
  (task.timedResult σ payload).map (handleSendResult σ.custom)

theorem ops_start (payload : Payload) :
    ((start payload : SpawnedTask Conn).outcome payload).ops = [] := by
  cases hbuffers : payload.buffers with
  | nil => simp [outcome, sendOutcome, hbuffers]
  | cons first rest => simp [outcome, sendOutcome, start, hbuffers, Call.start, Call.continueLoop]

theorem ended_start {payload : Payload} (h : payload.buffers ≠ []) :
    (start payload : SpawnedTask Conn).ended payload = false := by
  have hlooping : ∀ result,
      (start payload : SpawnedTask Conn).call.progress ≠ .returned result := by
    intro result
    simp [start, Call.start, Call.continueLoop]
  rw [ended, outcome, sendOutcome_of_not_returned hlooping h]
  rfl

theorem isSome_result (task : SpawnedTask Conn) (payload : Payload) :
    (task.result σ payload).isSome = task.ended payload := by
  cases htimedOut : task.timedOut with
  | true => simp [result, timedResult, ended, htimedOut]
  | false => simp [result, timedResult, ended, htimedOut]

end SpawnedTask

/-! ## The machine -/

inductive SpawnedEvent (ι Conn : Type)
  | gate (ev : SemaphoreEvent ι)
  | send (i : ι) (act : CallStep Conn)
  | writeRest (i : ι) (outcome : StreamWrite)
  | timeout (i : ι)

namespace SpawnedEvent

variable {ι Conn : Type}

/-- What the semaphore sees of a step. -/
def gate? : SpawnedEvent ι Conn → Option (SemaphoreEvent ι)
  | .gate ev => some ev
  | _ => none

/-- The task that takes the step. -/
def task? : SpawnedEvent ι Conn → Option ι
  | .gate _ => none
  | .send i _ => some i
  | .writeRest i _ => some i
  | .timeout i => some i

end SpawnedEvent

/-- Call `i` is dropped, if it has not returned before. -/
def ClientState.dropCall {ι Conn : Type} [DecidableEq ι] (s : ClientState ι Conn) (i : ι) :
    ClientState ι Conn :=
  if (s.calls i).isRunning then s.afterAbandon i else s

structure SpawnedState {ι Client E Conn : Type} (σ : Spawning ι Client E Conn) where
  gate : SemaphoreState ι
  clients : Client → ClientState ι Conn
  outcomes : ι → List StreamWrite
  timedOut : ι → Bool

namespace SpawnedState

variable {ι Client E Conn : Type} [Fintype ι] [DecidableEq ι] [DecidableEq Client]
  {σ : Spawning ι Client E Conn}

/-- Nobody has called yet, and no client has a connection. -/
def start (σ : Spawning ι Client E Conn) : SpawnedState σ :=
  { gate := SemaphoreState.start ι σ.permits
    clients := fun _ => ClientState.start none fun i => (σ.payload i).buffers.headD []
    outcomes := fun _ => []
    timedOut := fun _ => false }

def taskOf (s : SpawnedState σ) (i : ι) : SpawnedTask Conn :=
  { call := (s.clients (σ.client i)).calls i
    outcomes := s.outcomes i
    timedOut := s.timedOut i }

def ended (s : SpawnedState σ) (i : ι) : Bool := (s.taskOf i).ended (σ.payload i)

/-- The task is there, and its send is not over and has not panicked. -/
def underWay (s : SpawnedState σ) (i : ι) : Bool :=
  s.gate.calls i = .passed && !s.ended i && !(s.taskOf i).panicked

/-- A task releases when its send is over; the callers do as they like. -/
def admits (s : SpawnedState σ) : SemaphoreEvent ι → Bool
  | .release i _ => s.ended i
  | _ => true

/-- The send of call `i` is dropped at the await that it is at. -/
def cutOff (s : SpawnedState σ) (i : ι) : SpawnedState σ :=
  { s with
    clients := Function.update s.clients (σ.client i) ((s.clients (σ.client i)).dropCall i)
    timedOut := Function.update s.timedOut i true }

def step (s : SpawnedState σ) : SpawnedEvent ι Conn → Option (SpawnedState σ)
  | .gate ev =>
      if s.admits ev then do
        let gate ← s.gate.step ev
        pure { s with gate := gate }
      else none
  | .send i act =>
      if s.underWay i then do
        let client ← (s.clients (σ.client i)).step σ.stableId (act.event i)
        pure { s with clients := Function.update s.clients (σ.client i) client }
      else none
  | .writeRest i outcome =>
      if s.underWay i then
        match (s.taskOf i).call.progress with
        -- the first buffer is sent and there are more
        | .returned (.ok _) =>
            some { s with outcomes := Function.update s.outcomes i (s.outcomes i ++ [outcome]) }
        | _ => none
      else none
  | .timeout i => if s.underWay i then some (s.cutOff i) else none

def machine (σ : Spawning ι Client E Conn) : Machine (SpawnedState σ) (SpawnedEvent ι Conn) :=
  { next := step }

/-! ## What a step can do -/

section Steps

variable {s t : SpawnedState σ} {i : ι}

omit [Fintype ι] [DecidableEq ι] [DecidableEq Client] in
theorem underWay_eq_true : s.underWay i = true ↔
    s.gate.calls i = .passed ∧ s.ended i = false ∧ (s.taskOf i).panicked = false := by
  simp [underWay, and_assoc]

theorem step_gate {ev : SemaphoreEvent ι} (h : s.step (.gate ev) = some t) :
    s.admits ev = true ∧ ∃ gate, s.gate.step ev = some gate ∧ t = { s with gate := gate } := by
  by_cases hadmits : s.admits ev = true
  · simp only [step, hadmits, if_true, bind, Option.bind_eq_some_iff, pure, Option.some.injEq] at h
    rcases h with ⟨gate, hgate, rfl⟩
    exact ⟨hadmits, gate, hgate, rfl⟩
  · simp [step, hadmits] at h

theorem step_send {act : CallStep Conn} (h : s.step (.send i act) = some t) :
    s.underWay i = true ∧ ∃ client,
      (s.clients (σ.client i)).step σ.stableId (act.event i) = some client ∧
        t = { s with clients := Function.update s.clients (σ.client i) client } := by
  by_cases hunder : s.underWay i = true
  · simp only [step, hunder, if_true, bind, Option.bind_eq_some_iff, pure, Option.some.injEq] at h
    rcases h with ⟨client, hclient, rfl⟩
    exact ⟨hunder, client, hclient, rfl⟩
  · simp [step, hunder] at h

theorem step_writeRest {outcome : StreamWrite} (h : s.step (.writeRest i outcome) = some t) :
    s.underWay i = true ∧ (∃ connection, (s.taskOf i).call.progress = .returned (.ok connection)) ∧
      t = { s with outcomes := Function.update s.outcomes i (s.outcomes i ++ [outcome]) } := by
  by_cases hunder : s.underWay i = true
  · cases hprogress : (s.taskOf i).call.progress with
    | returned result =>
        cases result with
        | ok connection =>
            simp only [step, hunder, hprogress, if_true, Option.some.injEq] at h
            exact ⟨hunder, ⟨connection, rfl⟩, h.symm⟩
        | error err => simp [step, hunder, hprogress] at h
    | looping => simp [step, hunder, hprogress] at h
    | writing connection => simp [step, hunder, hprogress] at h
    | panicked => simp [step, hunder, hprogress] at h
    | noEndpoint => simp [step, hunder, hprogress] at h
    | abandoned => simp [step, hunder, hprogress] at h
  · simp [step, hunder] at h

theorem step_timeout (h : s.step (.timeout i) = some t) :
    s.underWay i = true ∧ t = s.cutOff i := by
  by_cases hunder : s.underWay i = true
  · simp only [step, hunder, if_true, Option.some.injEq] at h
    exact ⟨hunder, h.symm⟩
  · simp [step, hunder] at h

omit [Fintype ι] [DecidableEq ι] in
theorem calls_update {clients : Client → ClientState ι Conn} {c : Client}
    {client : ClientState ι Conn} (h : client.calls i = (clients c).calls i) (d : Client) :
    (Function.update clients c client d).calls i = (clients d).calls i := by
  by_cases hd : d = c
  · subst hd
    rw [Function.update_self, h]
  · rw [Function.update_of_ne hd]

/-- A task that takes a step is under way.  It leaves the semaphore and the other tasks alone. -/
theorem step_task {ev : SpawnedEvent ι Conn} (hev : ev.task? = some i) (h : s.step ev = some t) :
    s.underWay i = true ∧ t.gate = s.gate ∧ ∀ j, j ≠ i → t.taskOf j = s.taskOf j := by
  cases ev with
  | gate ev => cases hev
  | send k act =>
      cases hev
      rcases step_send h with ⟨hunder, client, hclient, rfl⟩
      refine ⟨hunder, rfl, ?_⟩
      intro j hj
      have hother : client.calls j = (s.clients (σ.client i)).calls j :=
        (ClientState.step_event hclient).2 j hj
      simp only [taskOf, calls_update hother]
  | writeRest k outcome =>
      cases hev
      rcases step_writeRest h with ⟨hunder, _, rfl⟩
      refine ⟨hunder, rfl, ?_⟩
      intro j hj
      simp only [taskOf, Function.update_of_ne hj]
  | timeout k =>
      cases hev
      rcases step_timeout h with ⟨hunder, rfl⟩
      refine ⟨hunder, rfl, ?_⟩
      intro j hj
      have hother : ((s.clients (σ.client i)).dropCall i).calls j =
          (s.clients (σ.client i)).calls j := by
        unfold ClientState.dropCall
        split
        · exact Function.update_of_ne hj _ _
        · rfl
      simp only [taskOf, cutOff, calls_update hother, Function.update_of_ne hj]

/-- A client that a step changes takes a step of its own. -/
theorem clients_step {ev : SpawnedEvent ι Conn} (h : s.step ev = some t) (c : Client) :
    t.clients c = s.clients c ∨
      ∃ act, ClientState.step σ.stableId (s.clients c) act = some (t.clients c) := by
  cases ev with
  | gate ev =>
      rcases step_gate h with ⟨_, gate, _, rfl⟩
      exact .inl rfl
  | send i act =>
      rcases step_send h with ⟨_, client, hclient, rfl⟩
      by_cases hc : c = σ.client i
      · subst hc
        exact .inr ⟨act.event i, by simpa using hclient⟩
      · exact .inl (Function.update_of_ne hc _ _)
  | writeRest i outcome =>
      rcases step_writeRest h with ⟨_, _, rfl⟩
      exact .inl rfl
  | timeout i =>
      rcases step_timeout h with ⟨_, rfl⟩
      by_cases hc : c = σ.client i
      · subst hc
        cases hrunning : ((s.clients (σ.client i)).calls i).isRunning with
        | true =>
            refine .inr ⟨.abandon i, ?_⟩
            simp [cutOff, ClientState.dropCall, ClientState.step, hrunning]
        | false => exact .inl (by simp [cutOff, ClientState.dropCall, hrunning])
      · exact .inl (Function.update_of_ne hc _ _)

/-- What the steps of a client keep, the steps of the sends keep for every client. -/
theorem clients_invariant {I : ClientState ι Conn → Prop}
    (hkeep : ∀ u act v, I u → ClientState.step σ.stableId u act = some v → I v)
    {ev : SpawnedEvent ι Conn} (hs : ∀ c, I (s.clients c)) (h : s.step ev = some t) (c : Client) :
    I (t.clients c) := by
  rcases clients_step h c with hsame | ⟨act, hact⟩
  · exact hsame ▸ hs c
  · exact hkeep _ act _ (hs c) hact

end Steps

/-! ## The semaphore alone -/

section Gate

variable {s : SpawnedState σ}

omit [Fintype ι] in
/-- The timeout makes nothing panic. -/
theorem panicked_cutOff (s : SpawnedState σ) (i : ι) :
    ((s.cutOff i).taskOf i).panicked = (s.taskOf i).panicked := by
  cases hrunning : ((s.clients (σ.client i)).calls i).isRunning with
  | false =>
      simp [SpawnedTask.panicked, taskOf, cutOff, ClientState.dropCall, hrunning]
  | true =>
      have hcalm : ((s.clients (σ.client i)).calls i).hasPanicked = false :=
        Call.hasPanicked_of_isRunning hrunning
      have habandoned : ((s.clients (σ.client i)).calls i).abandon.hasPanicked = false := rfl
      simp [SpawnedTask.panicked, taskOf, cutOff, ClientState.dropCall, hrunning,
        ClientState.afterAbandon, hcalm, habandoned]

/-- No send has panicked. -/
def Calm (s : SpawnedState σ) : Prop := ∀ i, (s.taskOf i).panicked = false

/-- A send that is not over can be cut off, and is over then. -/
theorem Calm.exists_ended (h : Calm s) {i : ι} (hpassed : s.gate.calls i = .passed) :
    ∃ evs t, (machine σ).run s evs = some t ∧ Calm t ∧ t.gate = s.gate ∧ t.ended i = true ∧
      evs.filterMap SpawnedEvent.gate? = [] := by
  cases hended : s.ended i with
  | true => exact ⟨[], s, rfl, h, rfl, hended, rfl⟩
  | false =>
      have hunder : s.underWay i = true := underWay_eq_true.2 ⟨hpassed, hended, h i⟩
      have hstep : s.step (.timeout i) = some (s.cutOff i) := by
        simp [step, hunder]
      refine ⟨[.timeout i], s.cutOff i, ?_, ?_, rfl, ?_, rfl⟩
      · exact (Machine.run_cons_eq_some _).2 ⟨s.cutOff i, hstep, rfl⟩
      · intro j
        by_cases hj : j = i
        · subst hj
          rw [panicked_cutOff]
          exact h j
        · rw [(step_task rfl hstep).2.2 j hj]
          exact h j
      · simp [ended, SpawnedTask.ended, taskOf, cutOff]

/-- A step of the semaphore is the only one that it sees of some steps of the sends. -/
theorem Calm.exists_gate_step (h : Calm s) {ev : SemaphoreEvent ι} {gate : SemaphoreState ι}
    (hgate : s.gate.step ev = some gate) :
    ∃ evs t, (machine σ).run s evs = some t ∧ Calm t ∧ t.gate = gate ∧
      evs.filterMap SpawnedEvent.gate? = [ev] := by
  -- before a release its send may have to be ended
  have hready : ∃ evs u, (machine σ).run s evs = some u ∧ Calm u ∧ u.gate = s.gate ∧
      u.admits ev = true ∧ evs.filterMap SpawnedEvent.gate? = [] := by
    cases ev with
    | acquire i => exact ⟨[], s, rfl, h, rfl, rfl, rfl⟩
    | recheck i => exact ⟨[], s, rfl, h, rfl, rfl, rfl⟩
    | spuriousWake i => exact ⟨[], s, rfl, h, rfl, rfl, rfl⟩
    | release i woken => exact h.exists_ended (SemaphoreState.step_release hgate).1
  rcases hready with ⟨evs, u, hrun, hcalm, hsame, hadmits, hunseen⟩
  have hstep : u.step (.gate ev) = some { u with gate := gate } := by
    rw [← hsame] at hgate
    simp [step, hadmits, hgate]
  refine ⟨evs ++ [.gate ev], { u with gate := gate }, ?_, hcalm, rfl, ?_⟩
  · exact (Machine.run_append_eq_some _).2
      ⟨u, hrun, (Machine.run_cons_eq_some _).2 ⟨_, hstep, rfl⟩⟩
  · rw [List.filterMap_append, hunseen]
    rfl

theorem gate_step {ev : SpawnedEvent ι Conn} {t : SpawnedState σ} (h : s.step ev = some t) :
    (SemaphoreState.machine ι).run s.gate ev.gate?.toList = some t.gate := by
  cases ev with
  | gate ev =>
      rcases step_gate h with ⟨_, gate, hgate, rfl⟩
      exact (Machine.run_cons_eq_some _).2 ⟨gate, hgate, rfl⟩
  | send i act => exact congrArg some (step_task rfl h).2.1.symm
  | writeRest i outcome => exact congrArg some (step_task rfl h).2.1.symm
  | timeout i => exact congrArg some (step_task rfl h).2.1.symm

end Gate

/-- The call has passed the semaphore, so its task is there. -/
def hasPassed : CallPhase → Bool
  | .passed => true
  | .released => true
  | _ => false

theorem notifyOne_apply {calls calls' : ι → CallPhase} {woken : Option ι}
    (h : SemaphoreState.notifyOne calls woken = some calls') (j : ι) :
    calls' j = calls j ∨ calls j = .waiting ∧ calls' j = .notified := by
  cases woken with
  | none =>
      by_cases hwaiting : ∃ k, calls k = .waiting
      · simp [SemaphoreState.notifyOne, hwaiting] at h
      · simp only [SemaphoreState.notifyOne, hwaiting, if_false, Option.some.injEq] at h
        exact .inl (h ▸ rfl)
  | some k =>
      by_cases hwaiting : calls k = .waiting
      · simp only [SemaphoreState.notifyOne, hwaiting, if_true, Option.some.injEq] at h
        subst h
        by_cases hj : j = k
        · subst hj
          exact .inr ⟨hwaiting, Function.update_self _ _ _⟩
        · exact .inl (Function.update_of_ne hj _ _)
      · simp [SemaphoreState.notifyOne, hwaiting] at h

/-- A call moves towards passing, or its task releases; nothing else happens to it. -/
theorem phase_step {s t : SemaphoreState ι} {ev : SemaphoreEvent ι} (h : s.step ev = some t)
    (j : ι) : t.calls j = s.calls j ∨ hasPassed (s.calls j) = false ∧ t.calls j ≠ .released ∨
      (∃ woken, ev = .release j woken) ∧ s.calls j = .passed ∧ t.calls j = .released := by
  have hchecked : SemaphoreState.checked t.semaphore ≠ .released := by
    unfold SemaphoreState.checked
    split <;> simp
  cases ev with
  | acquire i =>
      rcases SemaphoreState.step_acquire h with ⟨hidle, hsem, hcalls⟩
      by_cases hj : j = i
      · subst hj
        rw [← hsem] at hcalls
        exact .inr (.inl ⟨by rw [hidle]; rfl, by rw [hcalls, Function.update_self]; exact hchecked⟩)
      · exact .inl (by rw [hcalls, Function.update_of_ne hj])
  | recheck i =>
      rcases SemaphoreState.step_recheck h with ⟨hnotified, hsem, hcalls⟩
      by_cases hj : j = i
      · subst hj
        rw [← hsem] at hcalls
        exact .inr (.inl
          ⟨by rw [hnotified]; rfl, by rw [hcalls, Function.update_self]; exact hchecked⟩)
      · exact .inl (by rw [hcalls, Function.update_of_ne hj])
  | spuriousWake i =>
      rcases SemaphoreState.step_spuriousWake h with ⟨hwaiting, _, hcalls⟩
      by_cases hj : j = i
      · subst hj
        exact .inr (.inl ⟨by rw [hwaiting]; rfl, by simp [hcalls]⟩)
      · exact .inl (by rw [hcalls, Function.update_of_ne hj])
  | release i woken =>
      rcases SemaphoreState.step_release h with ⟨hpassed, _, _, hnotify⟩
      by_cases hj : j = i
      · subst hj
        rcases notifyOne_apply hnotify j with hsame | ⟨hwaiting, _⟩
        · exact .inr (.inr ⟨⟨woken, rfl⟩, hpassed, by rw [hsame, Function.update_self]⟩)
        · rw [Function.update_self] at hwaiting
          cases hwaiting
      · rcases notifyOne_apply hnotify j with hsame | ⟨hwaiting, hnotified⟩
        · exact .inl (by rw [hsame, Function.update_of_ne hj])
        · rw [Function.update_of_ne hj] at hwaiting
          exact .inr (.inl ⟨by rw [hwaiting]; rfl, by simp [hnotified]⟩)

/-- The semaphore and the clients each keep what they keep by themselves.  A call that has not
passed has no task that has done anything, only a timeout drops a send, a task that has released is
over, and a task that has panicked has not released. -/
structure Orderly (s : SpawnedState σ) : Prop where
  balanced : s.gate.Balanced σ.permits
  budgeted : ∀ c, ClientState.Budgeted σ.stableId (s.clients c)
  follows : ∀ c i,
    ClientState.Follows σ.stableId ((σ.payload i).buffers.headD []) ((s.clients c).calls i)
  untouched : ∀ i, hasPassed (s.gate.calls i) = false →
    s.taskOf i = SpawnedTask.start (σ.payload i)
  kept : ∀ i, s.timedOut i = false → (s.taskOf i).call.progress ≠ .abandoned
  counted : ∀ i, (s.outcomes i).length ≤ (σ.payload i).buffers.tail.length
  finished : ∀ i, s.gate.calls i = .released → s.ended i = true
  stuck : ∀ i, (s.taskOf i).panicked = true → s.gate.calls i = .passed ∧ s.ended i = false

omit [DecidableEq ι] [DecidableEq Client] in
theorem orderly_start (σ : Spawning ι Client E Conn) : Orderly (start σ) :=
  { balanced := SemaphoreState.balanced_start σ.permits
    budgeted := fun _ => ClientState.budgeted_start none _
    follows := fun _ _ => ⟨[], rfl⟩
    untouched := fun _ _ => rfl
    kept := by
      intro i _
      simp [start, taskOf, ClientState.start, Call.start, Call.continueLoop]
    counted := fun _ => Nat.zero_le _
    finished := by
      intro i hreleased
      cases hreleased
    stuck := by
      intro i hpanicked
      cases hpanicked }

section Preservation

variable {s t : SpawnedState σ}

theorem Orderly.gate_step (h : Orderly s) {ev : SemaphoreEvent ι}
    (hstep : s.step (.gate ev) = some t) : Orderly t := by
  rcases step_gate hstep with ⟨hadmits, gate, hgate, rfl⟩
  refine
    { balanced := h.balanced.step hgate
      budgeted := h.budgeted
      follows := h.follows
      untouched := ?_
      kept := h.kept
      counted := h.counted
      finished := ?_
      stuck := ?_ }
  · intro i hout
    apply h.untouched i
    rcases phase_step hgate i with hsame | ⟨hbefore, _⟩ | ⟨_, _, hreleased⟩
    · exact hsame ▸ hout
    · exact hbefore
    · rw [hreleased] at hout
      cases hout
  · intro i hreleased
    rcases phase_step hgate i with hsame | ⟨_, hnot⟩ | ⟨⟨woken, rfl⟩, _, _⟩
    · exact h.finished i (hsame ▸ hreleased)
    · exact absurd hreleased hnot
    · -- the semaphore lets a task release once its send is over
      exact hadmits
  · intro i hpanicked
    rcases h.stuck i hpanicked with ⟨hpassed, hended⟩
    refine ⟨?_, hended⟩
    rcases phase_step hgate i with hsame | ⟨hbefore, _⟩ | ⟨⟨woken, rfl⟩, _, _⟩
    · exact hsame.trans hpassed
    · rw [hpassed] at hbefore
      cases hbefore
    · exact absurd hadmits (by rw [admits, hended]; decide)

omit [Fintype ι] [DecidableEq Client] in
/-- Only the timeout abandons a call. -/
theorem not_abandoned_of_step {client client' : ClientState ι Conn} {i : ι} {act : CallStep Conn}
    (h : ClientState.step σ.stableId client (act.event i) = some client') :
    (client'.calls i).progress ≠ .abandoned := by
  cases act with
  | lock answers =>
      rcases ClientState.step_lock h with ⟨_, choice, _, rfl⟩
      simpa [ClientState.afterLock] using Call.afterChoice_kept (client.calls i) choice
  | write outcome =>
      rcases ClientState.step_write h with ⟨connection, _, rfl⟩
      simpa [ClientState.afterWrite] using Call.writeStep_kept (client.calls i) connection outcome

omit [Fintype ι] [DecidableEq ι] [DecidableEq Client] in
/-- A send under way has no result. -/
theorem pending_of_underWay {i : ι} (h : s.underWay i = true) :
    ((s.taskOf i).outcome (σ.payload i)).result = none := by
  have hended : (s.taskOf i).ended (σ.payload i) = false := (underWay_eq_true.1 h).2.1
  simpa [SpawnedTask.ended] using (Bool.or_eq_false_iff.1 hended).2

/-- Of the tasks that are not late, none has had its call dropped. -/
theorem Orderly.kept_step (h : Orderly s) {ev : SpawnedEvent ι Conn} {i : ι}
    (hev : ev.task? = some i) (hstep : s.step ev = some t) (j : ι)
    (htimedOut : t.timedOut j = false) :
    (t.taskOf j).call.progress ≠ .abandoned := by
  by_cases hj : j = i
  · subst hj
    cases ev with
    | gate ev => cases hev
    | send k act =>
        cases hev
        rcases step_send hstep with ⟨_, client, hclient, rfl⟩
        simpa [taskOf] using not_abandoned_of_step hclient
    | writeRest k outcome =>
        cases hev
        rcases step_writeRest hstep with ⟨_, _, rfl⟩
        exact h.kept j htimedOut
    | timeout k =>
        cases hev
        rcases step_timeout hstep with ⟨_, rfl⟩
        simp [cutOff] at htimedOut
  · have hsame := (step_task hev hstep).2.2 j hj
    rw [hsame]
    exact h.kept j ((congrArg SpawnedTask.timedOut hsame).symm.trans htimedOut)

/-- No task writes more buffers behind the first than it has. -/
theorem Orderly.counted_step (h : Orderly s) {ev : SpawnedEvent ι Conn} {i : ι}
    (hev : ev.task? = some i) (hstep : s.step ev = some t) (j : ι) :
    (t.outcomes j).length ≤ (σ.payload j).buffers.tail.length := by
  by_cases hj : j = i
  · subst hj
    cases ev with
    | gate ev => cases hev
    | send k act =>
        rcases step_send hstep with ⟨_, client, _, rfl⟩
        exact h.counted j
    | writeRest k outcome =>
        cases hev
        rcases step_writeRest hstep with ⟨hunder, ⟨connection, hprogress⟩, rfl⟩
        -- the send is not over, so there is a buffer left to write
        rcases sendOutcome_pending (pending_of_underWay hunder) with hwaits | ⟨_, _, hfewer⟩
        · exact absurd hprogress (hwaits _)
        · simp only [Function.update_self, List.length_append, List.length_singleton]
          exact hfewer
    | timeout k =>
        rcases step_timeout hstep with ⟨_, rfl⟩
        exact h.counted j
  · have hsame := congrArg SpawnedTask.outcomes ((step_task hev hstep).2.2 j hj)
    exact (congrArg List.length hsame).trans_le (h.counted j)

/-- A task whose send panics was under way before, so it is still there and not over. -/
theorem Orderly.stuck_step (h : Orderly s) {ev : SpawnedEvent ι Conn} {i : ι}
    (hev : ev.task? = some i) (hstep : s.step ev = some t) (j : ι)
    (hpanicked : (t.taskOf j).panicked = true) : t.gate.calls j = .passed ∧ t.ended j = false := by
  rcases step_task hev hstep with ⟨hunder, hgate, hothers⟩
  rcases underWay_eq_true.1 hunder with ⟨hpassed, hended, hcalm⟩
  by_cases hj : j = i
  · subst hj
    refine ⟨hgate ▸ hpassed, ?_⟩
    cases ev with
    | gate ev => cases hev
    | send k act =>
        cases hev
        rcases step_send hstep with ⟨_, client, _, rfl⟩
        have hintime : s.timedOut j = false := (Bool.or_eq_false_iff.1 hended).1
        have hnone := sendOutcome_of_not_returned (Call.not_returned_of_hasPanicked hpanicked)
          (ne_nil_of_pending (pending_of_underWay hunder)) (s.outcomes j)
        exact Bool.or_eq_false_iff.2 ⟨hintime, Option.isSome_eq_false_iff.2
          (Option.isNone_iff_eq_none.2 hnone)⟩
    | writeRest k outcome =>
        cases hev
        rcases step_writeRest hstep with ⟨_, _, rfl⟩
        exact absurd (hcalm.symm.trans hpanicked) Bool.false_ne_true
    | timeout k =>
        cases hev
        rcases step_timeout hstep with ⟨_, rfl⟩
        rw [panicked_cutOff, hcalm] at hpanicked
        cases hpanicked
  · rw [hothers j hj] at hpanicked
    rw [ended, hothers j hj, hgate]
    exact h.stuck j hpanicked

theorem Orderly.task_step (h : Orderly s) {ev : SpawnedEvent ι Conn} {i : ι}
    (hev : ev.task? = some i) (hstep : s.step ev = some t) : Orderly t := by
  rcases step_task hev hstep with ⟨hunder, hgate, hothers⟩
  -- the semaphore stands still, and the task that moves is one that has passed
  have hmoves : ∀ j, t.gate.calls j ≠ .passed → j ≠ i := by
    rintro j hj rfl
    rw [hgate] at hj
    exact hj (underWay_eq_true.1 hunder).1
  refine
    { balanced := hgate ▸ h.balanced
      budgeted := ?_
      follows := ?_
      untouched := ?_
      kept := h.kept_step hev hstep
      counted := h.counted_step hev hstep
      finished := ?_
      stuck := h.stuck_step hev hstep }
  · refine clients_invariant (I := ClientState.Budgeted σ.stableId) ?_ h.budgeted hstep
    intro u act v hu hact
    exact hu.step hact
  · refine clients_invariant (I := fun client => ∀ i,
      ClientState.Follows σ.stableId ((σ.payload i).buffers.headD []) (client.calls i)) ?_
      h.follows hstep
    intro u act v hu hact
    exact ClientState.follows_step hu hact
  · intro j hout
    rw [hothers j (hmoves j fun hpassed => by rw [hpassed] at hout; cases hout)]
    exact h.untouched j (hgate ▸ hout)
  · intro j hreleased
    rw [ended, hothers j (hmoves j fun hpassed => by rw [hpassed] at hreleased; cases hreleased)]
    exact h.finished j (hgate ▸ hreleased)

theorem Orderly.step (h : Orderly s) {ev : SpawnedEvent ι Conn} (hstep : s.step ev = some t) :
    Orderly t := by
  cases ev with
  | gate ev => exact h.gate_step hstep
  | send i act => exact h.task_step rfl hstep
  | writeRest i outcome => exact h.task_step rfl hstep
  | timeout i => exact h.task_step rfl hstep

theorem Orderly.run (h : Orderly s) {evs : List (SpawnedEvent ι Conn)}
    (hrun : (machine σ).run s evs = some t) : Orderly t := by
  refine (machine σ).run_invariant ?_ h hrun
  intro u ev v hu hnext
  exact hu.step hnext

/-- A task that has panicked does nothing any more. -/
theorem panicked_step {ev : SpawnedEvent ι Conn} {i : ι} (hpanicked : (s.taskOf i).panicked = true)
    (hstep : s.step ev = some t) : t.taskOf i = s.taskOf i := by
  cases htask : ev.task? with
  | none =>
      cases ev with
      | gate ev =>
          rcases step_gate hstep with ⟨_, gate, _, rfl⟩
          rfl
      | send k act => cases htask
      | writeRest k outcome => cases htask
      | timeout k => cases htask
  | some k =>
      rcases step_task htask hstep with ⟨hunder, _, hothers⟩
      apply hothers
      rintro rfl
      exact absurd ((underWay_eq_true.1 hunder).2.2.symm.trans hpanicked) Bool.false_ne_true

theorem panicked_run {i : ι} (hpanicked : (s.taskOf i).panicked = true)
    {evs : List (SpawnedEvent ι Conn)} (hrun : (machine σ).run s evs = some t) :
    (t.taskOf i).panicked = true := by
  refine (machine σ).run_invariant (I := fun u => (u.taskOf i).panicked = true) ?_ hpanicked hrun
  intro u ev v hu hnext
  rw [panicked_step hu hnext]
  exact hu

/-- A task that has released does nothing any more. -/
theorem released_run {i : ι} (hreleased : s.gate.calls i = .released)
    {evs : List (SpawnedEvent ι Conn)} (hrun : (machine σ).run s evs = some t) :
    t.gate.calls i = .released ∧ t.taskOf i = s.taskOf i := by
  refine (machine σ).run_invariant
    (I := fun u => u.gate.calls i = .released ∧ u.taskOf i = s.taskOf i) ?_ ⟨hreleased, rfl⟩ hrun
  rintro u ev v ⟨hover, hsame⟩ hnext
  cases htask : ev.task? with
  | none =>
      cases ev with
      | gate ev =>
          rcases step_gate hnext with ⟨_, gate, hgate, rfl⟩
          rcases phase_step hgate i with hkeep | ⟨hbefore, _⟩ | ⟨_, _, hafter⟩
          · exact ⟨hkeep.trans hover, hsame⟩
          · rw [hover] at hbefore
            cases hbefore
          · exact ⟨hafter, hsame⟩
      | send k act => cases htask
      | writeRest k outcome => cases htask
      | timeout k => cases htask
  | some k =>
      rcases step_task htask hnext with ⟨hunder, hgate, hothers⟩
      have hk : i ≠ k := by
        rintro rfl
        rw [(underWay_eq_true.1 hunder).1] at hover
        cases hover
      exact ⟨hgate ▸ hover, (hothers i hk).trans hsame⟩

end Preservation

/-! ## What the sends keep -/

/-- At most `permits` sends are under way at a time, and a call that has not passed has done
nothing.  A task that has released has a result and keeps it: the error of the timeout, or what its
send comes to when it is run by itself on what it has met; and it does nothing any more. -/
theorem spawned_sends_safe (σ : Spawning ι Client E Conn) (evs : List (SpawnedEvent ι Conn))
    (t : SpawnedState σ) (hrun : (machine σ).run (start σ) evs = some t) :
    (Finset.univ.filter fun i => t.underWay i = true).card ≤ σ.permits ∧
      (∀ i, hasPassed (t.gate.calls i) = false →
        ((t.taskOf i).outcome (σ.payload i)).ops = [] ∧ t.timedOut i = false) ∧
      ∀ i, t.gate.calls i = .released →
        (∃ result, (t.taskOf i).result σ (σ.payload i) = some result ∧
          (t.timedOut i = true → result = .error (σ.custom "Timedout sending data")) ∧
          (t.timedOut i = false → ∃ run,
            (t.taskOf i).outcome (σ.payload i) = (σ.payload i).send σ.stableId run ∧
              ((σ.payload i).send σ.stableId run).result.map
                (·.mapError σ.ofQuicError) = some result)) ∧
        ∀ more u, (machine σ).run t more = some u →
          u.gate.calls i = .released ∧ u.taskOf i = t.taskOf i := by
  have horderly : Orderly t := (orderly_start σ).run hrun
  refine ⟨?_, ?_, ?_⟩
  · have hpassed : (Finset.univ.filter fun i => t.gate.calls i = .passed).card ≤ σ.permits := by
      have hcount : t.gate.tally.passed =
          (Finset.univ.filter fun i => t.gate.calls i = .passed).card := by
        refine total_eq_card (p := fun phase => phase = .passed) ?_ t.gate.calls
        intro phase
        cases phase <;> rfl
      exact hcount ▸ horderly.balanced.tally.passed
    refine (Finset.card_le_card ?_).trans hpassed
    intro i hi
    simp only [Finset.mem_filter, Finset.mem_univ, true_and] at hi ⊢
    exact (underWay_eq_true.1 hi).1
  · intro i hout
    have htask := horderly.untouched i hout
    exact ⟨by rw [htask, SpawnedTask.ops_start], congrArg SpawnedTask.timedOut htask⟩
  · intro i hreleased
    refine ⟨?_, fun more u hmore => released_run hreleased hmore⟩
    have hended : (t.taskOf i).ended (σ.payload i) = true := horderly.finished i hreleased
    rcases Option.isSome_iff_exists.1
      ((SpawnedTask.isSome_result σ _ _).trans hended) with ⟨result, hresult⟩
    refine ⟨result, hresult, ?_, ?_⟩
    · intro htimedOut
      have hlate : (t.taskOf i).timedOut = true := htimedOut
      simpa [SpawnedTask.result, SpawnedTask.timedResult, hlate, handleSendResult, eq_comm]
        using hresult
    · intro htimedOut
      have hintime : (t.taskOf i).timedOut = false := htimedOut
      have hsome : ((t.taskOf i).outcome (σ.payload i)).result.isSome = true := by
        simpa [SpawnedTask.ended, hintime] using hended
      rcases ClientState.exists_run_of_result (horderly.follows (σ.client i) i) hsome with
        ⟨run, hsend⟩
      have halone : (t.taskOf i).outcome (σ.payload i) = (σ.payload i).send σ.stableId run := by
        rw [Payload.send_eq_sendBatch, hsend]
        rfl
      refine ⟨run, halone, ?_⟩
      rw [← halone]
      simpa [SpawnedTask.result, SpawnedTask.timedResult, hintime, handleSendResult,
        Function.comp_def] using hresult

/-- One buffer and a batch of two, to the same client. -/
def bufferAndBatch (permits : Nat) : Spawning Bool Unit String Nat :=
  { stableId := fun c => c + 1
    permits := permits
    client := fun _ => ()
    payload := fun i => if i then .batch [[1], [2]] else .data [3]
    ofQuicError := fun _ => "quic"
    custom := id }

/-- The batch is cut off after its first buffer; the other call has waited for it, and sends on the
connection that it has left behind. -/
def cutOffBatch : List (SpawnedEvent Bool Nat) :=
  [.gate (.acquire true), .gate (.acquire false),
    .send true (.lock ⟨.ok (.connected 0), .error .EndpointStopping⟩), .send true (.write .written),
    .timeout true, .gate (.release true (some false)), .gate (.recheck false),
    .send false (.lock ⟨.error .EndpointStopping, .error .EndpointStopping⟩),
    .send false (.write .written), .gate (.release false none)]

theorem spawned_sends_safe_cut_off :
    ∃ t, (machine (bufferAndBatch 1)).run (start (bufferAndBatch 1)) cutOffBatch = some t ∧
      (∃ result, (t.taskOf true).result (bufferAndBatch 1) (.batch [[1], [2]]) = some result ∧
        result = .error "Timedout sending data") ∧
      ∃ run,
        (t.taskOf false).outcome (.data [3]) = (Payload.data [3]).send (fun c => c + 1) run := by
  have hends : ((machine (bufferAndBatch 1)).run (start (bufferAndBatch 1)) cutOffBatch).map
      (fun t => (t.gate.calls true, t.timedOut true, t.gate.calls false, t.timedOut false)) =
        some (.released, true, .released, false) := rfl
  rcases Option.map_eq_some_iff.1 hends with ⟨t, hrun, hends⟩
  simp only [Prod.mk.injEq] at hends
  rcases hends with ⟨hbatch, hlate, hbuffer, hintime⟩
  have hsafe := (spawned_sends_safe (bufferAndBatch 1) cutOffBatch t hrun).2.2
  rcases (hsafe true hbatch).1 with ⟨result, hresult, herror, _⟩
  rcases (hsafe false hbuffer).1 with ⟨_, _, _, hsend⟩
  rcases hsend hintime with ⟨run, halone, _⟩
  exact ⟨t, hrun, ⟨result, hresult, herror hlate⟩, run, halone⟩

end SpawnedState
end Quik
end TpuSender
