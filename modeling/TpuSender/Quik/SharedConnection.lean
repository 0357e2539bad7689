import TpuSender.Library.Machine
import TpuSender.Library.Population
import TpuSender.Quik.SendBatch

/-!
# SharedConnection — concurrent calls over one connection

Any finite family of `_send_buffer` calls runs on one client.  The machine interleaves their halves:
`lock i answers` is the locked block of call `i`, `write i outcome` the write that follows it, and
`abandon i` drops the call at an await, as a timeout around it does.

In every interleaving each call runs the source's loop (`Follows`): other calls show in the
connections it finds, and in nothing else.
-/

namespace TpuSender
namespace Quik

open Library

inductive ClientEvent (ι Conn : Type)
  | lock (i : ι) (answers : ConnectAnswers Conn)
  | write (i : ι) (outcome : StreamWrite)
  | abandon (i : ι)

/-- A step that a call takes by itself. -/
inductive CallStep (Conn : Type)
  | lock (answers : ConnectAnswers Conn)
  | write (outcome : StreamWrite)

def CallStep.event {ι Conn : Type} (i : ι) : CallStep Conn → ClientEvent ι Conn
  | .lock answers => .lock i answers
  | .write outcome => .write i outcome

/-- The client and its calls.  `othersInstalled i` counts the connections that other calls installed
between the first locked block of call `i` and its end; the source does not keep it. -/
structure ClientState (ι Conn : Type) where
  connection : Option Conn
  calls : ι → Call Conn
  othersInstalled : ι → Nat

namespace ClientState

variable {ι Conn : Type} [DecidableEq ι] (stableId : Conn → Nat)

/-- Calls that start together on a client whose connection is `connection`. -/
def start (connection : Option Conn) (data : ι → List UInt8) : ClientState ι Conn :=
  { connection := connection
    calls := fun i => Call.start (data i)
    othersInstalled := fun _ => 0 }

/-- Call `i` installed a connection: the calls under way take note. -/
def noteInstall (s : ClientState ι Conn) (i : ι) : ι → Nat := fun j =>
  if j ≠ i ∧ (s.calls j).isRunning ∧ (s.calls j).log.isEmpty = false then s.othersInstalled j + 1
  else s.othersInstalled j

/-- The locked block of call `i`, which came to `choice`. -/
def afterLock (s : ClientState ι Conn) (i : ι) (choice : Choice Conn) : ClientState ι Conn :=
  { connection := Call.install s.connection choice
    calls := Function.update s.calls i ((s.calls i).afterChoice stableId choice)
    othersInstalled := if choice.creates then s.noteInstall i else s.othersInstalled }

def afterWrite (s : ClientState ι Conn) (i : ι) (connection : Conn) (outcome : StreamWrite) :
    ClientState ι Conn :=
  { s with calls := Function.update s.calls i ((s.calls i).writeStep connection outcome) }

def afterAbandon (s : ClientState ι Conn) (i : ι) : ClientState ι Conn :=
  { s with calls := Function.update s.calls i (s.calls i).abandon }

def step (s : ClientState ι Conn) : ClientEvent ι Conn → Option (ClientState ι Conn)
  | .lock i answers =>
      match (s.calls i).progress with
      | .looping =>
          some (s.afterLock stableId i
            (Call.choose stableId s.connection (s.calls i).lastConnectionId answers))
      | _ => none
  | .write i outcome =>
      match (s.calls i).progress with
      | .writing connection => some (s.afterWrite i connection outcome)
      | _ => none
  | .abandon i => if (s.calls i).isRunning then some (s.afterAbandon i) else none

def machine (ι : Type) [DecidableEq ι] {Conn : Type} (stableId : Conn → Nat) :
    Machine (ClientState ι Conn) (ClientEvent ι Conn) :=
  { next := step stableId }

theorem noteInstall_bounds (s : ClientState ι Conn) (i j : ι) :
    s.othersInstalled j ≤ s.noteInstall i j ∧ s.noteInstall i j ≤ s.othersInstalled j + 1 := by
  unfold noteInstall
  split
  · exact ⟨Nat.le_succ _, le_rfl⟩
  · exact ⟨le_rfl, Nat.le_succ _⟩

/-! ## What a step can do -/

section Steps

variable {stableId} {s t : ClientState ι Conn} {i : ι}

theorem step_lock {answers : ConnectAnswers Conn} (h : step stableId s (.lock i answers) = some t) :
    (s.calls i).progress = .looping ∧
      ∃ choice, choice = Call.choose stableId s.connection (s.calls i).lastConnectionId answers ∧
        t = s.afterLock stableId i choice := by
  cases hp : (s.calls i).progress with
  | looping =>
      simp only [step, hp, Option.some.injEq] at h
      exact ⟨rfl, _, rfl, h.symm⟩
  | writing connection => simp [step, hp] at h
  | returned result => simp [step, hp] at h
  | panicked => simp [step, hp] at h
  | noEndpoint => simp [step, hp] at h
  | abandoned => simp [step, hp] at h

theorem step_write {outcome : StreamWrite} (h : step stableId s (.write i outcome) = some t) :
    ∃ connection, (s.calls i).progress = .writing connection ∧
      t = s.afterWrite i connection outcome := by
  cases hp : (s.calls i).progress with
  | writing connection =>
      simp only [step, hp, Option.some.injEq] at h
      exact ⟨connection, rfl, h.symm⟩
  | looping => simp [step, hp] at h
  | returned result => simp [step, hp] at h
  | panicked => simp [step, hp] at h
  | noEndpoint => simp [step, hp] at h
  | abandoned => simp [step, hp] at h

theorem step_abandon (h : step stableId s (.abandon i) = some t) :
    (s.calls i).isRunning = true ∧ t = s.afterAbandon i := by
  by_cases hrunning : (s.calls i).isRunning = true
  · simp only [step, hrunning, if_true, Option.some.injEq] at h
    exact ⟨hrunning, h.symm⟩
  · simp [step, hrunning] at h

end Steps

/-! ## Each call runs the loop -/

/-- The call is where the loop is after some iterations, or between the two halves of one. -/
def Follows (data : List UInt8) (call : Call Conn) : Prop :=
  match call.progress with
  | .abandoned => True
  | .writing _ => ∃ iterations slot answers,
      (sendBuffer stableId data iterations).progress = .looping ∧
        call = ((sendBuffer stableId data iterations).lockedStep stableId slot answers).2
  | _ => ∃ iterations, sendBuffer stableId data iterations = call

section Follow

variable {stableId} {data : List UInt8} {call : Call Conn}

theorem sendBuffer_concat (iterations : List (Iteration Conn)) (iteration : Iteration Conn) :
    sendBuffer stableId data (iterations ++ [iteration]) =
      iterate stableId (sendBuffer stableId data iterations) iteration := by
  simp [sendBuffer]

theorem follows_of_iterations (iterations : List (Iteration Conn))
    (h : sendBuffer stableId data iterations = call) (hp : ∀ c, call.progress ≠ .writing c) :
    Follows stableId data call := by
  cases hprogress : call.progress with
  | abandoned => simp [Follows, hprogress]
  | writing c => exact absurd hprogress (hp c)
  | looping =>
      simp only [Follows, hprogress]
      exact ⟨iterations, h⟩
  | returned result =>
      simp only [Follows, hprogress]
      exact ⟨iterations, h⟩
  | panicked =>
      simp only [Follows, hprogress]
      exact ⟨iterations, h⟩
  | noEndpoint =>
      simp only [Follows, hprogress]
      exact ⟨iterations, h⟩

theorem Follows.lockedStep (h : Follows stableId data call) (hlooping : call.progress = .looping)
    (slot : Option Conn) (answers : ConnectAnswers Conn) :
    Follows stableId data (call.lockedStep stableId slot answers).2 := by
  simp only [Follows, hlooping] at h
  rcases h with ⟨iterations, rfl⟩
  by_cases hwriting : ∃ c, ((sendBuffer stableId data iterations).lockedStep stableId slot
      answers).2.progress = .writing c
  · rcases hwriting with ⟨c, hc⟩
    simp only [Follows, hc]
    exact ⟨iterations, slot, answers, hlooping, rfl⟩
  · have hno : ∀ c, ((sendBuffer stableId data iterations).lockedStep stableId slot
        answers).2.progress ≠ .writing c := fun c hc => hwriting ⟨c, hc⟩
    refine follows_of_iterations (iterations ++ [⟨slot, answers, .written⟩]) ?_ hno
    rw [sendBuffer_concat]
    simp only [iterate, hlooping]

theorem Follows.writeStep (h : Follows stableId data call) {connection : Conn}
    (hwriting : call.progress = .writing connection) (outcome : StreamWrite) :
    Follows stableId data (call.writeStep connection outcome) := by
  simp only [Follows, hwriting] at h
  rcases h with ⟨iterations, slot, answers, hlooping, hcall⟩
  refine follows_of_iterations (iterations ++ [⟨slot, answers, outcome⟩]) ?_
    (Call.writeStep_not_writing call connection outcome)
  rw [sendBuffer_concat]
  simp only [iterate, hlooping]
  rw [← hcall, hwriting]

theorem follows_step {s u : ClientState ι Conn} {data : ι → List UInt8} {ev : ClientEvent ι Conn}
    (hs : ∀ j, Follows stableId (data j) (s.calls j)) (hstep : step stableId s ev = some u)
    (j : ι) :
    Follows stableId (data j) (u.calls j) := by
  cases ev with
  | lock i answers =>
      rcases step_lock hstep with ⟨hlooping, choice, rfl, rfl⟩
      by_cases hj : j = i
      · subst hj
        simpa [afterLock, Call.lockedStep] using (hs j).lockedStep hlooping s.connection answers
      · simpa [afterLock, hj] using hs j
  | write i outcome =>
      rcases step_write hstep with ⟨connection, hwriting, rfl⟩
      by_cases hj : j = i
      · subst hj
        simpa [afterWrite] using (hs j).writeStep hwriting outcome
      · simpa [afterWrite, hj] using hs j
  | abandon i =>
      rcases step_abandon hstep with ⟨_, rfl⟩
      by_cases hj : j = i
      · subst hj
        simp [afterAbandon, Call.abandon, Follows]
      · simpa [afterAbandon, hj] using hs j

/-- A send that has ended did what `sendBatch` does on what its call and its writes have met. -/
theorem exists_run_of_result {call : Call Conn} {buffers : List (List UInt8)}
    {outcomes : List StreamWrite} (hfollows : Follows stableId (buffers.headD []) call)
    (hresult : (sendOutcome call buffers outcomes).result.isSome) :
    ∃ run : BatchRun Conn, sendBatch stableId buffers run = sendOutcome call buffers outcomes := by
  cases buffers with
  | nil => exact ⟨⟨[], []⟩, rfl⟩
  | cons first rest =>
      cases hprogress : call.progress with
      | returned result =>
          simp only [Follows, hprogress, List.headD_cons] at hfollows
          rcases hfollows with ⟨iterations, hcall⟩
          exact ⟨⟨iterations, outcomes.map some⟩, by rw [sendBatch, hcall]; rfl⟩
      | looping => simp [sendOutcome, hprogress] at hresult
      | writing connection => simp [sendOutcome, hprogress] at hresult
      | panicked => simp [sendOutcome, hprogress] at hresult
      | noEndpoint => simp [sendOutcome, hprogress] at hresult
      | abandoned => simp [sendOutcome, hprogress] at hresult

end Follow

/-! ## The connection -/

/-- Once there is a connection, no step takes it away. -/
theorem isSome_connection_step {stableId : Conn → Nat} {s t : ClientState ι Conn}
    {ev : ClientEvent ι Conn} (h : s.connection.isSome) (hstep : step stableId s ev = some t) :
    t.connection.isSome := by
  cases ev with
  | lock i answers =>
      rcases step_lock hstep with ⟨_, choice, _, rfl⟩
      simp only [afterLock]
      cases choice with
      | made c => rfl
      | reconnected old c => rfl
      | reused c => exact h
      | failed err => exact h
      | noEndpoint => exact h
  | write i outcome =>
      rcases step_write hstep with ⟨connection, _, rfl⟩
      exact h
  | abandon i =>
      rcases step_abandon hstep with ⟨_, rfl⟩
      exact h

/-! ## Every step is counted -/

section Length

variable {stableId} {s t : ClientState ι Conn} {i : ι}

theorem steps_afterChoice {call : Call Conn} (hlooping : call.progress = .looping)
    (choice : Choice Conn) : (call.afterChoice stableId choice).steps = call.steps + 1 := by
  have hbefore : call.steps = call.log.length :=
    Call.steps_of_kept (by simp [hlooping])
  rw [Call.steps_of_kept (Call.afterChoice_kept call choice), Call.log_afterChoice, hbefore,
    List.length_cons]

theorem steps_writeStep {call : Call Conn} {connection : Conn}
    (hwriting : call.progress = .writing connection) (outcome : StreamWrite) :
    (call.writeStep connection outcome).steps = call.steps + 1 := by
  have hbefore : call.steps = call.log.length :=
    Call.steps_of_kept (by simp [hwriting])
  rw [Call.steps_of_kept (Call.writeStep_kept call connection outcome), Call.log_writeStep, hbefore,
    List.length_cons]

theorem steps_abandon {call : Call Conn} (hrunning : call.isRunning = true) :
    call.abandon.steps = call.steps + 1 := by
  have hkept : call.progress ≠ .abandoned := by
    intro hp
    simp [Call.isRunning, hp] at hrunning
  rw [Call.steps_of_kept hkept]
  rfl

theorem total_steps_step [Fintype ι] {ev : ClientEvent ι Conn}
    (hstep : step stableId s ev = some t) :
    total Call.steps t.calls = total Call.steps s.calls + 1 := by
  cases ev with
  | lock i answers =>
      rcases step_lock hstep with ⟨hlooping, choice, _, rfl⟩
      exact total_update_of_succ (steps_afterChoice hlooping choice)
  | write i outcome =>
      rcases step_write hstep with ⟨connection, hwriting, rfl⟩
      exact total_update_of_succ (steps_writeStep hwriting outcome)
  | abandon i =>
      rcases step_abandon hstep with ⟨hrunning, rfl⟩
      exact total_update_of_succ (steps_abandon hrunning)

/-- A step of call `i` is enabled, whatever the endpoint or the peer answers. -/
def CanStep (stableId : Conn → Nat) (s : ClientState ι Conn) (i : ι) : Prop :=
  (∀ answers, (step stableId s (.lock i answers)).isSome) ∨
    ∀ outcome, (step stableId s (.write i outcome)).isSome

theorem canStep_of_isRunning (h : (s.calls i).isRunning = true) : CanStep stableId s i := by
  cases hp : (s.calls i).progress with
  | looping =>
      apply Or.inl
      intro answers
      simp [step, hp]
  | writing connection =>
      apply Or.inr
      intro outcome
      simp [step, hp]
  | returned result => simp [Call.isRunning, hp] at h
  | panicked => simp [Call.isRunning, hp] at h
  | noEndpoint => simp [Call.isRunning, hp] at h
  | abandoned => simp [Call.isRunning, hp] at h

end Length

/-! ## What each call keeps by itself -/

section Each

variable {stableId}

/-- What a call keeps in its own steps, it keeps in the steps of all. -/
theorem calls_step {I : ι → Call Conn → Prop}
    (hlock : ∀ i call choice, I i call → call.progress = .looping →
      I i (call.afterChoice stableId choice))
    (hwrite : ∀ i call connection outcome, I i call → call.progress = .writing connection →
      I i (call.writeStep connection outcome))
    (habandon : ∀ i call, I i call → call.isRunning = true → I i call.abandon)
    {s t : ClientState ι Conn} {ev : ClientEvent ι Conn} (hs : ∀ i, I i (s.calls i))
    (hstep : step stableId s ev = some t) (i : ι) : I i (t.calls i) := by
  revert i
  cases ev with
  | lock i answers =>
      rcases step_lock hstep with ⟨hlooping, choice, _, rfl⟩
      exact (Function.forall_update_iff s.calls I).2
        ⟨hlock i _ choice (hs i) hlooping, fun j _ => hs j⟩
  | write i outcome =>
      rcases step_write hstep with ⟨connection, hwriting, rfl⟩
      exact (Function.forall_update_iff s.calls I).2
        ⟨hwrite i _ connection outcome (hs i) hwriting, fun j _ => hs j⟩
  | abandon i =>
      rcases step_abandon hstep with ⟨hrunning, rfl⟩
      exact (Function.forall_update_iff s.calls I).2
        ⟨habandon i _ (hs i) hrunning, fun j _ => hs j⟩

/-- The call that takes the step. -/
def caller : ClientEvent ι Conn → ι
  | .lock i _ => i
  | .write i _ => i
  | .abandon i => i

/-- A step counts for the call that takes it and leaves the others alone. -/
theorem step_caller {s t : ClientState ι Conn} {ev : ClientEvent ι Conn}
    (hstep : step stableId s ev = some t) :
    (t.calls (caller ev)).steps = (s.calls (caller ev)).steps + 1 ∧
      ∀ j, j ≠ caller ev → t.calls j = s.calls j := by
  cases ev with
  | lock i answers =>
      rcases step_lock hstep with ⟨hlooping, choice, _, rfl⟩
      refine ⟨?_, fun j hj => Function.update_of_ne hj _ _⟩
      simpa [afterLock, caller] using steps_afterChoice hlooping choice
  | write i outcome =>
      rcases step_write hstep with ⟨connection, hwriting, rfl⟩
      refine ⟨?_, fun j hj => Function.update_of_ne hj _ _⟩
      simpa [afterWrite, caller] using steps_writeStep hwriting outcome
  | abandon i =>
      rcases step_abandon hstep with ⟨hrunning, rfl⟩
      refine ⟨?_, fun j hj => Function.update_of_ne hj _ _⟩
      simpa [afterAbandon, caller] using steps_abandon hrunning

/-- The same for a step of call `i`. -/
theorem step_event {s t : ClientState ι Conn} {i : ι} {act : CallStep Conn}
    (hstep : step stableId s (act.event i) = some t) :
    (t.calls i).steps = (s.calls i).steps + 1 ∧ ∀ j, j ≠ i → t.calls j = s.calls j := by
  have hcaller : caller (act.event i) = i := by
    cases act <;> rfl
  have hmoves := step_caller hstep
  rwa [hcaller] at hmoves

end Each

/-- Two calls on a fresh client: the first connects and fails, the second takes its connection, the
first reconnects and succeeds. -/
def twoCalls : List (ClientEvent (Fin 2) Nat) :=
  [.lock 0 ⟨.ok (.connected 0), .error .EndpointStopping⟩, .write 0 (.openFailed .Reset),
    .lock 1 ⟨.error .EndpointStopping, .error .EndpointStopping⟩, .write 1 .written,
    .lock 0 ⟨.error .EndpointStopping, .ok (.zeroRtt 1 (some true))⟩, .write 0 .written]

end ClientState
end Quik
end TpuSender
