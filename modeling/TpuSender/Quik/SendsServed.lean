import TpuSender.Quik.SpawnedSends

/-!
# SendsServed — how the runs of the spawned sends end

Whatever the peers answer and however the calls are scheduled, the calls are done after a bounded
number of steps, two for each wake-up without a notification included.  A task that has not released
can always take a step, unless its send has panicked: then it keeps its permit for ever
(`spawned_sends_end`).

Then the semaphore is at rest.  A call that waits at rest waits for a release that will not come:
`2 * permits` calls that have passed or wait before it are the least that this takes, and a panic
stands for one of them (`pressed_run`).  So whether a call can be left waiting depends on the number
of calls and on how many of their sends may panic: `calls_served_iff`.
-/

namespace TpuSender
namespace Quik

open Library

/-! ## How far a run has come -/

/-- The steps that a task has taken. -/
def SpawnedTask.work {Conn : Type} (task : SpawnedTask Conn) : Nat :=
  task.call.steps + task.outcomes.length + task.timedOut.toNat

/-- How far a call has come.  Waking up sets it back by one, and to release is worth as much as to
wake up another call. -/
def advance : CallPhase → Nat
  | .idle => 0
  | .waiting => 2
  | .notified => 1
  | .passed => 2
  | .released => 4

namespace SpawnedEvent

variable {ι Conn : Type}

def isSpurious : SpawnedEvent ι Conn → Bool
  | .gate (.spuriousWake _) => true
  | _ => false

/-- Nobody waits for these steps: a new call, and a wake-up without a notification. -/
def fromOutside : SpawnedEvent ι Conn → Bool
  | .gate (.acquire _) => true
  | .gate (.spuriousWake _) => true
  | _ => false

end SpawnedEvent

/-- The most steps that the calls can take. -/
def Spawning.runBound {ι Client E Conn : Type} [Fintype ι] (σ : Spawning ι Client E Conn) : Nat :=
  Fintype.card ι * (ClientState.stepBudget (Fintype.card ι) + 5) +
    ∑ i, (σ.payload i).buffers.tail.length

/-- How many of the calls send anything, if only an empty buffer. -/
def Spawning.sending {ι Client E Conn : Type} [Fintype ι] (σ : Spawning ι Client E Conn) : Nat :=
  (Finset.univ.filter fun i => (σ.payload i).buffers ≠ []).card

namespace SpawnedState

variable {ι Client E Conn : Type} [Fintype ι] [DecidableEq ι] [DecidableEq Client]
  {σ : Spawning ι Client E Conn}

def achieved (s : SpawnedState σ) : Nat :=
  total SpawnedTask.work s.taskOf + total advance s.gate.calls

/-! ### Every step counts -/

theorem advance_checked (semaphore : AsyncTaskSemaphore) :
    advance (SemaphoreState.checked semaphore) = 2 := by
  unfold SemaphoreState.checked
  split <;> rfl

theorem advance_notifyOne {calls calls' : ι → CallPhase} {woken : Option ι}
    (h : SemaphoreState.notifyOne calls woken = some calls') :
    total advance calls ≤ total advance calls' + 1 := by
  cases woken with
  | none =>
      by_cases hwaiting : ∃ j, calls j = .waiting
      · simp [SemaphoreState.notifyOne, hwaiting] at h
      · simp only [SemaphoreState.notifyOne, hwaiting, if_false, Option.some.injEq] at h
        exact h ▸ Nat.le_succ _
  | some j =>
      by_cases hwaiting : calls j = .waiting
      · simp only [SemaphoreState.notifyOne, hwaiting, if_true, Option.some.injEq] at h
        subst h
        have hmove := total_update advance calls j .notified
        simp only [hwaiting, advance] at hmove
        omega
      · simp [SemaphoreState.notifyOne, hwaiting] at h

variable (Conn) in
theorem advance_step {s t : SemaphoreState ι} {ev : SemaphoreEvent ι} (h : s.step ev = some t) :
    total advance s.calls + 1 ≤ total advance t.calls +
      if (SpawnedEvent.gate ev : SpawnedEvent ι Conn).isSpurious then 2 else 0 := by
  cases ev with
  | acquire i =>
      rcases SemaphoreState.step_acquire h with ⟨hidle, _, hcalls⟩
      have hmove := total_update advance s.calls i (SemaphoreState.checked s.semaphore.enter)
      rw [← hcalls, hidle, advance_checked] at hmove
      simp only [advance] at hmove
      omega
  | recheck i =>
      rcases SemaphoreState.step_recheck h with ⟨hnotified, _, hcalls⟩
      have hmove := total_update advance s.calls i (SemaphoreState.checked s.semaphore)
      rw [← hcalls, hnotified, advance_checked] at hmove
      simp only [advance] at hmove
      omega
  | spuriousWake i =>
      rcases SemaphoreState.step_spuriousWake h with ⟨hwaiting, _, hcalls⟩
      have hmove := total_update advance s.calls i .notified
      rw [← hcalls, hwaiting] at hmove
      simp only [advance] at hmove
      simp only [SpawnedEvent.isSpurious, if_true]
      omega
  | release i woken =>
      rcases SemaphoreState.step_release h with ⟨hpassed, _, _, hnotify⟩
      -- two for the release, less one for the call that it wakes up
      have hmove := total_update advance s.calls i .released
      have hwake := advance_notifyOne hnotify
      rw [hpassed] at hmove
      simp only [advance] at hmove
      omega

section Steps

variable {s t : SpawnedState σ}

/-- A step of a task is a step more of its work. -/
theorem work_step {ev : SpawnedEvent ι Conn} {i : ι} (hev : ev.task? = some i)
    (h : s.step ev = some t) : (s.taskOf i).work + 1 ≤ (t.taskOf i).work := by
  cases ev with
  | gate ev => cases hev
  | send k act =>
      cases hev
      rcases step_send h with ⟨_, client, hclient, rfl⟩
      have hsteps := (ClientState.step_event hclient).1
      simp only [SpawnedTask.work, taskOf, Function.update_self]
      omega
  | writeRest k outcome =>
      cases hev
      rcases step_writeRest h with ⟨_, _, rfl⟩
      simp only [SpawnedTask.work, taskOf, Function.update_self, List.length_append,
        List.length_singleton]
      omega
  | timeout k =>
      cases hev
      rcases step_timeout h with ⟨hunder, rfl⟩
      have hintime : s.timedOut i = false :=
        (Bool.or_eq_false_iff.1 (underWay_eq_true.1 hunder).2.1).1
      have hsteps : ((s.clients (σ.client i)).calls i).steps ≤
          (((s.clients (σ.client i)).dropCall i).calls i).steps := by
        unfold ClientState.dropCall
        split
        case isTrue hrunning =>
          simp only [ClientState.afterAbandon, Function.update_self]
          rw [ClientState.steps_abandon hrunning]
          exact Nat.le_succ _
        case isFalse => exact le_rfl
      simp only [SpawnedTask.work, taskOf, cutOff, Function.update_self, hintime, Bool.toNat_true,
        Bool.toNat_false]
      omega

theorem total_work_step {ev : SpawnedEvent ι Conn} {i : ι} (hev : ev.task? = some i)
    (h : s.step ev = some t) :
    total SpawnedTask.work s.taskOf + 1 ≤ total SpawnedTask.work t.taskOf := by
  have hothers := (step_task hev h).2.2
  have hupdate : t.taskOf = Function.update s.taskOf i (t.taskOf i) :=
    (Function.eq_update_iff).2 ⟨rfl, fun j hj => hothers j hj⟩
  have hmove := total_update SpawnedTask.work s.taskOf i (t.taskOf i)
  rw [← hupdate] at hmove
  have hwork := work_step hev h
  omega

theorem achieved_step {ev : SpawnedEvent ι Conn} (h : s.step ev = some t) :
    s.achieved + 1 ≤ t.achieved + if ev.isSpurious then 2 else 0 := by
  cases htask : ev.task? with
  | some i =>
      have hwork := total_work_step htask h
      have hgate := (step_task htask h).2.1
      simp only [achieved, hgate]
      omega
  | none =>
      cases ev with
      | gate ev =>
          rcases step_gate h with ⟨_, gate, hgate, rfl⟩
          have hadvance := advance_step Conn hgate
          have hsame : total SpawnedTask.work ({ s with gate := gate } : SpawnedState σ).taskOf =
              total SpawnedTask.work s.taskOf := rfl
          simp only [achieved, hsame]
          omega
      | send i act => cases htask
      | writeRest i outcome => cases htask
      | timeout i => cases htask

/-! ### And there are only so many -/

omit [DecidableEq ι] [DecidableEq Client] in
theorem Orderly.achieved_le (h : Orderly s) : s.achieved ≤ σ.runBound := by
  have hwork : ∀ i, (s.taskOf i).work ≤ ClientState.stepBudget (Fintype.card ι) + 1 +
      (σ.payload i).buffers.tail.length := by
    intro i
    have hsteps : (s.taskOf i).call.steps ≤ ClientState.stepBudget (Fintype.card ι) :=
      (h.budgeted (σ.client i)).steps_le i
    have houtcomes : (s.taskOf i).outcomes.length ≤ (σ.payload i).buffers.tail.length :=
      h.counted i
    have hone : (s.taskOf i).timedOut.toNat ≤ 1 := Bool.toNat_le _
    unfold SpawnedTask.work
    omega
  have hadvance : total advance s.gate.calls ≤ Fintype.card ι * 4 := by
    refine total_le_card_mul ?_
    intro i
    cases s.gate.calls i <;> simp [advance]
  calc
    s.achieved ≤ ∑ i, (ClientState.stepBudget (Fintype.card ι) + 1 +
          (σ.payload i).buffers.tail.length) + Fintype.card ι * 4 :=
      Nat.add_le_add (Finset.sum_le_sum fun i _ => hwork i) hadvance
    _ = Fintype.card ι * (ClientState.stepBudget (Fintype.card ι) + 1) +
          ∑ i, (σ.payload i).buffers.tail.length + Fintype.card ι * 4 := by
      simp [Finset.sum_add_distrib]
    _ = σ.runBound := by
      simp only [Spawning.runBound, Nat.mul_add]
      omega

end Steps

/-! ## A task can always go on -/

/-- Whatever its peer answers, the task can take a step. -/
inductive TaskCanStep (s : SpawnedState σ) (i : ι) : Prop
  | lock (enabled : ∀ answers, (s.step (.send i (.lock answers))).isSome)
  | write (enabled : ∀ outcome, (s.step (.send i (.write outcome))).isSome)
  | writeRest (enabled : ∀ outcome, (s.step (.writeRest i outcome)).isSome)
  | release (enabled : ∃ woken, (s.step (.gate (.release i woken))).isSome)

section Progress

variable {s t : SpawnedState σ}

theorem Orderly.canStep (h : Orderly s) {i : ι} (hpassed : s.gate.calls i = .passed)
    (hcalm : (s.taskOf i).panicked = false) : TaskCanStep s i := by
  cases hended : s.ended i with
  | true =>
      rcases h.balanced.exists_release hpassed with ⟨woken, gate, hgate⟩
      exact .release ⟨woken, by simp [SpawnedState.step, admits, hended, hgate]⟩
  | false =>
      have hunder : s.underWay i = true := underWay_eq_true.2 ⟨hpassed, hended, hcalm⟩
      have hpending := pending_of_underWay hunder
      -- a call that the timeout has not dropped goes on by itself
      have hintime : s.timedOut i = false := (Bool.or_eq_false_iff.1 hended).1
      rcases Call.pending (h.kept i hintime) hcalm hpending with
        hrunning | ⟨connection, hprogress, _⟩
      · have hcan : ClientState.CanStep σ.stableId (s.clients (σ.client i)) i :=
          ClientState.canStep_of_isRunning hrunning
        rcases hcan with hlock | hwrite
        · refine .lock fun answers => ?_
          rcases Option.isSome_iff_exists.1 (hlock answers) with ⟨client, hclient⟩
          simp [SpawnedState.step, hunder, CallStep.event, hclient]
        · refine .write fun outcome => ?_
          rcases Option.isSome_iff_exists.1 (hwrite outcome) with ⟨client, hclient⟩
          simp [SpawnedState.step, hunder, CallStep.event, hclient]
      · have hreturned : (s.taskOf i).call.progress = .returned (.ok connection) := hprogress
        exact .writeRest fun outcome => by simp [SpawnedState.step, hunder, hreturned]

end Progress

/-- The calls are done after a number of steps that is bounded beforehand, but for two steps more
for each wake-up without a notification.  A task that has not released can always take a step,
whatever the peer answers, unless its send has panicked; then its client had no endpoint, and it
never releases. -/
theorem spawned_sends_end (σ : Spawning ι Client E Conn) (evs : List (SpawnedEvent ι Conn))
    (t : SpawnedState σ) (hrun : (machine σ).run (start σ) evs = some t) :
    evs.length ≤ σ.runBound + 2 * evs.countP SpawnedEvent.isSpurious ∧
      (∀ i, t.gate.calls i = .passed → (t.taskOf i).panicked = false → TaskCanStep t i) ∧
      ∀ i, (t.taskOf i).panicked = true → (t.taskOf i).call.progress = .noEndpoint ∧
        ∀ more u, (machine σ).run t more = some u → u.gate.calls i = .passed := by
  have horderly : Orderly t := (orderly_start σ).run hrun
  refine ⟨?_, fun i hpassed hcalm => horderly.canStep hpassed hcalm, ?_⟩
  · have hcount : (start σ).achieved + evs.length ≤
        t.achieved + 2 * evs.countP SpawnedEvent.isSpurious := by
      refine (machine σ).run_length_le (I := fun _ => True) (fun _ _ _ _ _ => trivial) ?_ trivial
        hrun
      intro u ev v _ hnext
      exact achieved_step hnext
    have hbound : t.achieved ≤ σ.runBound := horderly.achieved_le
    omega
  · intro i hpanicked
    refine ⟨?_, ?_⟩
    · exact Call.noEndpoint_of_hasPanicked ((horderly.budgeted (σ.client i)).paced i).calm hpanicked
    · intro more u hmore
      exact ((horderly.run hmore).stuck i (panicked_run hpanicked hmore)).1

/-- The batch finds no port for an endpoint, and the other call waits behind it. -/
def noEndpointBatch : List (SpawnedEvent Bool Nat) :=
  [.gate (.acquire true), .gate (.acquire false),
    .send true (.lock ⟨.noEndpoint, .error .EndpointStopping⟩), .gate (.spuriousWake false),
    .gate (.recheck false)]

theorem spawned_sends_end_no_endpoint :
    ∃ t, (machine (bufferAndBatch 1)).run (start (bufferAndBatch 1)) noEndpointBatch = some t ∧
      noEndpointBatch.length ≤ (bufferAndBatch 1).runBound + 2 ∧
      ∀ more u, (machine (bufferAndBatch 1)).run t more = some u → u.gate.calls true = .passed := by
  have hends : ((machine (bufferAndBatch 1)).run (start (bufferAndBatch 1)) noEndpointBatch).map
      (fun t => (t.taskOf true).panicked) = some true := rfl
  rcases Option.map_eq_some_iff.1 hends with ⟨t, hrun, hpanicked⟩
  rcases spawned_sends_end (bufferAndBatch 1) noEndpointBatch t hrun with ⟨hlength, _, hstuck⟩
  exact ⟨t, hrun, hlength, (hstuck true hpanicked).2⟩

end SpawnedState

/-! ## What a waiting call waits for -/

namespace SemaphoreState

variable {ι : Type} [Fintype ι] [DecidableEq ι] {permits : Nat}

/-- What a call counts for the ones that wait.  A call that has passed, or is about to check, has
still to release or to wait again. -/
def pressure : CallPhase → Nat
  | .idle => 0
  | .waiting => 1
  | .notified => 2
  | .passed => 2
  | .released => 1

omit [DecidableEq ι] in
theorem tally_le_pressure (s : SemaphoreState ι) :
    2 * s.tally.passed + s.tally.released + s.tally.blocked ≤ total pressure s.calls := by
  calc
    2 * s.tally.passed + s.tally.released + s.tally.blocked
        = total (fun phase => passes phase + passes phase + ends phase + blocks phase) s.calls := by
      simp only [total_add, tally]
      omega
    _ ≤ total pressure s.calls := by
      refine Finset.sum_le_sum fun i _ => ?_
      cases s.calls i <;> decide

omit [DecidableEq ι] in
/-- While the counter is too high the blocked calls wait behind all permits. -/
theorem pressed_of_counter {t : SemaphoreState ι} (h : t.Balanced permits) {j : ι}
    (hwaiting : t.calls j = .waiting) (hfull : permits < t.semaphore.counter) :
    2 * permits + 1 ≤ total pressure t.calls := by
  have hblocked : 0 < t.tally.blocked := blocked_pos_iff.2 ⟨j, .inl hwaiting⟩
  have hcounter : t.tally.counter = t.semaphore.counter := rfl
  have hsum := tally_le_pressure t
  rcases h.tally with ⟨htally, _, _, hbehind⟩
  omega

omit [Fintype ι] in
/-- After a check with room in front of it, the calls that wait were waiting before. -/
theorem waiting_of_update {s t : SemaphoreState ι} {i j : ι} {phase : CallPhase}
    (hcalls : t.calls = Function.update s.calls i phase) (hphase : phase ≠ .waiting)
    (hwaiting : t.calls j = .waiting) : s.calls j = .waiting := by
  by_cases hj : j = i
  · subst hj
    rw [hcalls, Function.update_self] at hwaiting
    exact absurd hwaiting hphase
  · rwa [hcalls, Function.update_of_ne hj] at hwaiting

/-- Whatever a call waits for stays: what a release takes from the pressure, the call that it wakes
up adds. -/
theorem pressed_step {s t : SemaphoreState ι} {ev : SemaphoreEvent ι}
    (h : s.Balanced permits)
    (hs : ∀ j, s.calls j = .waiting → 2 * permits + 1 ≤ total pressure s.calls)
    (hstep : s.step ev = some t) (j : ι) (hwaiting : t.calls j = .waiting) :
    2 * permits + 1 ≤ total pressure t.calls := by
  have ht : t.Balanced permits := h.step hstep
  by_cases hfull : permits < t.semaphore.counter
  · exact pressed_of_counter ht hwaiting hfull
  · have hroom : checked t.semaphore = .passed := by
      rw [checked, AsyncTaskSemaphore.mustWait, ht.limit, decide_eq_false hfull]
      rfl
    cases ev with
    | acquire i =>
        rcases step_acquire hstep with ⟨hidle, hsem, hcalls⟩
        rw [← hsem, hroom] at hcalls
        have hbefore := hs j (waiting_of_update hcalls (by decide) hwaiting)
        have hmove := total_update pressure s.calls i .passed
        simp only [← hcalls, hidle, pressure] at hmove
        omega
    | recheck i =>
        rcases step_recheck hstep with ⟨hnotified, hsem, hcalls⟩
        rw [← hsem, hroom] at hcalls
        have hbefore := hs j (waiting_of_update hcalls (by decide) hwaiting)
        have hsame : total pressure t.calls = total pressure s.calls := by
          rw [hcalls]
          exact total_update_of_eq (by rw [hnotified]; rfl)
        exact hsame ▸ hbefore
    | spuriousWake i =>
        rcases step_spuriousWake hstep with ⟨hasleep, _, hcalls⟩
        have hbefore := hs j (waiting_of_update hcalls (by decide) hwaiting)
        have hmore : total pressure t.calls = total pressure s.calls + 1 := by
          rw [hcalls]
          exact total_update_of_succ (by rw [hasleep]; rfl)
        exact hbefore.trans (hmore ▸ Nat.le_succ _)
    | release i woken =>
        rcases step_release hstep with ⟨hpassed, _, _, hnotify⟩
        have hmove := total_update pressure s.calls i .released
        simp only [hpassed, pressure] at hmove
        cases woken with
        | none =>
            -- nobody was there to be woken up, so nobody waits now
            by_cases hany : ∃ k, Function.update s.calls i .released k = .waiting
            · simp [notifyOne, hany] at hnotify
            · simp only [notifyOne, hany, if_false, Option.some.injEq] at hnotify
              exact absurd ⟨j, hnotify ▸ hwaiting⟩ hany
        | some k =>
            by_cases hk : Function.update s.calls i .released k = .waiting
            · simp only [notifyOne, hk, if_true, Option.some.injEq] at hnotify
              have hbefore := hs k (waiting_of_update
                (t := ⟨s.semaphore, Function.update s.calls i .released⟩) rfl (by decide) hk)
              have hwake := total_update pressure (Function.update s.calls i .released) k .notified
              simp only [hk, hnotify, pressure] at hwake
              omega
            · simp [notifyOne, hk] at hnotify

theorem pressed_run {t : SemaphoreState ι} {evs : List (SemaphoreEvent ι)}
    (hrun : (machine ι).run (start ι permits) evs = some t) {j : ι}
    (hwaiting : t.calls j = .waiting) : 2 * permits + 1 ≤ total pressure t.calls := by
  have hall : t.Balanced permits ∧
      ∀ j, t.calls j = .waiting → 2 * permits + 1 ≤ total pressure t.calls := by
    refine (machine ι).run_invariant (I := fun u => u.Balanced permits ∧
      ∀ j, u.calls j = .waiting → 2 * permits + 1 ≤ total pressure u.calls) ?_
      ⟨balanced_start permits, nofun⟩ hrun
    rintro u ev v ⟨hbalanced, hu⟩ hnext
    exact ⟨hbalanced.step hnext, pressed_step hbalanced hu hnext⟩
  exact hall.2 j hwaiting

end SemaphoreState

namespace SpawnedState

variable {ι Client E Conn : Type} [Fintype ι] [DecidableEq ι] [DecidableEq Client]
  {σ : Spawning ι Client E Conn}

/-! ## At rest -/

/-- Nobody can take a step but a new call, or a call that wakes up without a notification. -/
def AtRest (s : SpawnedState σ) : Prop := ∀ ev, ev.fromOutside = false → s.step ev = none

/-- How many sends have panicked. -/
def panics (s : SpawnedState σ) : Nat :=
  (Finset.univ.filter fun i => (s.taskOf i).panicked = true).card

section Rest

variable {s t : SpawnedState σ}

/-- At rest only sends that have panicked are past the semaphore, and nobody has been woken up. -/
theorem AtRest.quiet (hrest : AtRest s) (h : Orderly s) (i : ι) :
    (s.gate.calls i = .passed → (s.taskOf i).panicked = true) ∧ s.gate.calls i ≠ .notified := by
  constructor
  · intro hpassed
    by_contra hcalm
    rcases h.canStep hpassed (Bool.not_eq_true _ ▸ hcalm) with
      henabled | henabled | henabled | ⟨woken, henabled⟩
    · have hsome := henabled ⟨.error .EndpointStopping, .error .EndpointStopping⟩
      rw [hrest _ rfl] at hsome
      cases hsome
    · have hsome := henabled .written
      rw [hrest _ rfl] at hsome
      cases hsome
    · have hsome := henabled .written
      rw [hrest _ rfl] at hsome
      cases hsome
    · rw [hrest _ rfl] at henabled
      cases henabled
  · intro hnotified
    have hnone := hrest (.gate (.recheck i)) rfl
    simp [step, admits, SemaphoreState.step, hnotified] at hnone

omit [DecidableEq ι] [DecidableEq Client] in
/-- A send that has panicked holds a permit, and had something to send. -/
theorem Orderly.panics_le (h : Orderly s) :
    s.panics ≤ s.gate.tally.passed ∧ s.panics ≤ min σ.permits σ.sending := by
  have hpassed : s.panics ≤ s.gate.tally.passed := by
    have hcount : s.gate.tally.passed =
        (Finset.univ.filter fun i => s.gate.calls i = .passed).card := by
      refine total_eq_card (p := fun phase => phase = .passed) ?_ s.gate.calls
      intro phase
      cases phase <;> rfl
    rw [hcount]
    refine Finset.card_le_card ?_
    intro i hi
    simp only [Finset.mem_filter, Finset.mem_univ, true_and] at hi ⊢
    exact (h.stuck i hi).1
  refine ⟨hpassed, le_min (hpassed.trans h.balanced.tally.passed) ?_⟩
  refine Finset.card_le_card ?_
  intro i hi
  simp only [Finset.mem_filter, Finset.mem_univ, true_and] at hi ⊢
  have hended : (s.taskOf i).ended (σ.payload i) = false := (h.stuck i hi).2
  have hpending : ((s.taskOf i).outcome (σ.payload i)).result = none := by
    simpa [SpawnedTask.ended] using (Bool.or_eq_false_iff.1 hended).2
  exact ne_nil_of_pending hpending

/-- With few enough calls nobody waits at rest. -/
theorem AtRest.served {k : Nat} (hrest : AtRest t) (hpanics : t.panics ≤ k)
    (hfew : Fintype.card ι + min k (min σ.permits σ.sending) ≤ 2 * σ.permits)
    {evs : List (SpawnedEvent ι Conn)} (hrun : (machine σ).run (start σ) evs = some t) (i : ι) :
    t.gate.calls i = .idle ∨ t.gate.calls i = .released ∨ (t.taskOf i).panicked = true := by
  have horderly : Orderly t := (orderly_start σ).run hrun
  have hgate := Machine.run_view (machine σ) (SemaphoreState.machine ι) (fun s => s.gate)
    (fun _ _ _ hnext => gate_step hnext) hrun
  cases hphase : t.gate.calls i with
  | idle => exact .inl rfl
  | released => exact .inr (.inl rfl)
  | passed => exact .inr (.inr ((hrest.quiet horderly i).1 hphase))
  | notified => exact absurd hphase (hrest.quiet horderly i).2
  | waiting =>
      have hpressed : 2 * σ.permits + 1 ≤ total SemaphoreState.pressure t.gate.calls :=
        SemaphoreState.pressed_run hgate hphase
      -- at rest a call counts for one, and for two if its send has panicked
      have hcounts : total SemaphoreState.pressure t.gate.calls ≤ Fintype.card ι + t.panics := by
        calc
          total SemaphoreState.pressure t.gate.calls
              ≤ ∑ i, (1 + if (t.taskOf i).panicked = true then 1 else 0) := by
            refine Finset.sum_le_sum fun j _ => ?_
            rcases hrest.quiet horderly j with ⟨hpassed, hnotified⟩
            cases hj : t.gate.calls j with
            | idle => exact Nat.zero_le _
            | waiting => exact Nat.le_add_right _ _
            | released => exact Nat.le_add_right _ _
            | notified => exact absurd hj hnotified
            | passed => simp [SemaphoreState.pressure, hpassed hj]
          _ = Fintype.card ι + t.panics := by
            rw [Finset.sum_add_distrib, panics, Finset.card_filter]
            simp
      have hle := le_min hpanics horderly.panics_le.2
      omega

/-! ### A crowd that stays -/

/-- The endpoint is asked for in vain. -/
def asksInVain : SpawnedEvent ι Conn → Bool
  | .send _ (.lock ⟨.noEndpoint, _⟩) => true
  | _ => false

/-- A task that asks in vain could as well have been answered. -/
theorem exists_step_of_asksInVain {ev : SpawnedEvent ι Conn} (hev : asksInVain ev = true)
    (hstep : s.step ev = some t) :
    ∃ ev', ev'.fromOutside = false ∧ asksInVain ev' = false ∧ (s.step ev').isSome := by
  cases ev with
  | gate ev => cases hev
  | writeRest i outcome => cases hev
  | timeout i => cases hev
  | send i act =>
      cases act with
      | write outcome => cases hev
      | lock answers =>
          rcases step_send hstep with ⟨hunder, client, hclient, _⟩
          have hlooping := (ClientState.step_lock hclient).1
          refine
            ⟨.send i (.lock ⟨.error .EndpointStopping, .error .EndpointStopping⟩), rfl, rfl, ?_⟩
          simp [step, hunder, CallStep.event, ClientState.step, hlooping]

omit [Fintype ι] [DecidableEq Client] in
theorem hasPanicked_of_act {client u : ClientState ι Conn} {i : ι} {act : CallStep Conn}
    (hact : asksInVain (.send i act) = false)
    (hclient : client.step σ.stableId (act.event i) = some u) :
    (u.calls i).hasPanicked = false := by
  cases act with
  | write outcome =>
      rcases ClientState.step_write hclient with ⟨c, _, rfl⟩
      simp only [ClientState.afterWrite, Function.update_self]
      rcases Call.writeStep_progress (client.calls i) c outcome with hp | ⟨_, hp⟩
      · simp [Call.hasPanicked, hp]
      · simp [Call.hasPanicked, hp]
  | lock answers =>
      rcases ClientState.step_lock hclient with ⟨_, choice, hchoice, rfl⟩
      simp only [ClientState.afterLock, Function.update_self]
      rcases Call.afterChoice_cases σ.stableId (client.calls i) choice with
        ⟨_, _, heq⟩ | ⟨hnone, _⟩ | ⟨_, _, _, heq⟩ | ⟨_, _, _, heq⟩
      · simp [heq, Call.hasPanicked]
      · -- the endpoint was there, so this is not what it came to
        have hconnect := Call.connect_of_choose_eq_noEndpoint (hchoice.symm.trans hnone)
        rcases answers with ⟨connect, connect0rtt⟩
        subst hconnect
        cases hact
      · simp [heq, Call.hasPanicked]
      · simp [heq, Call.hasPanicked]

/-- Only where the endpoint is asked for in vain a send panics. -/
theorem panicked_of_step {ev : SpawnedEvent ι Conn} (hev : asksInVain ev = false)
    (hstep : s.step ev = some t) (i : ι) : (t.taskOf i).panicked = (s.taskOf i).panicked := by
  cases htask : ev.task? with
  | none =>
      cases ev with
      | gate ev =>
          rcases step_gate hstep with ⟨_, gate, _, rfl⟩
          rfl
      | send k act => cases htask
      | writeRest k outcome => cases htask
      | timeout k => cases htask
  | some k =>
      rcases step_task htask hstep with ⟨hunder, _, hothers⟩
      by_cases hi : i = k
      · subst hi
        cases ev with
        | gate ev => cases htask
        | timeout k =>
            cases htask
            rcases step_timeout hstep with ⟨_, rfl⟩
            exact panicked_cutOff s i
        | writeRest k outcome =>
            cases htask
            rcases step_writeRest hstep with ⟨_, _, rfl⟩
            rfl
        | send k act =>
            cases htask
            rw [(underWay_eq_true.1 hunder).2.2]
            rcases step_send hstep with ⟨_, client, hclient, rfl⟩
            simpa only [SpawnedTask.panicked, taskOf, Function.update_self] using
              hasPanicked_of_act hev hclient
      · rw [hothers i hi]

/-- Who has panicked stays so, hence there are only more of them. -/
theorem panics_step {ev : SpawnedEvent ι Conn} (hstep : s.step ev = some t) :
    s.panics ≤ t.panics := by
  refine Finset.card_le_card ?_
  intro i hi
  simp only [Finset.mem_filter, Finset.mem_univ, true_and] at hi ⊢
  rw [panicked_step hi hstep]
  exact hi

/-- More blocked calls than the permits that are left to them stay blocked. -/
theorem Orderly.crowded_step (h : Orderly s) {ev : SpawnedEvent ι Conn}
    (hcrowd : σ.permits < s.gate.tally.blocked + s.panics) (hstep : s.step ev = some t) :
    σ.permits < t.gate.tally.blocked + t.panics := by
  have hmore : s.panics ≤ t.panics := panics_step hstep
  have hblocked : σ.permits < t.gate.tally.blocked + s.panics := by
    cases htask : ev.task? with
    | some i => rwa [(step_task htask hstep).2.1]
    | none =>
        cases ev with
        | gate ev =>
            rcases step_gate hstep with ⟨_, gate, hgate, rfl⟩
            exact (h.balanced.tally.crowded_step h.panics_le.1 hcrowd
              (h.balanced.limit ▸ SemaphoreState.tally_step hgate)).1
        | send i act => cases htask
        | writeRest i outcome => cases htask
        | timeout i => cases htask
  omega

theorem Orderly.crowded_run (h : Orderly s) (hcrowd : σ.permits < s.gate.tally.blocked + s.panics)
    {evs : List (SpawnedEvent ι Conn)} (hrun : (machine σ).run s evs = some t) :
    σ.permits < t.gate.tally.blocked + t.panics := by
  have hboth : Orderly t ∧ σ.permits < t.gate.tally.blocked + t.panics := by
    refine (machine σ).run_invariant
      (I := fun u => Orderly u ∧ σ.permits < u.gate.tally.blocked + u.panics) ?_ ⟨h, hcrowd⟩ hrun
    rintro u ev v ⟨hu, hmore⟩ hnext
    exact ⟨hu.step hnext, hu.crowded_step hmore hnext⟩
  exact hboth.2

/-- Every run can be carried on to rest, without new calls and without a panic. -/
theorem Orderly.exists_rest (h : Orderly s) :
    ∃ evs t, (machine σ).run s evs = some t ∧ AtRest t ∧ t.panics = s.panics := by
  have hbound : ∀ u : SpawnedState σ, Orderly u → u.achieved ≤ σ.runBound :=
    fun _ hu => hu.achieved_le
  have hrest := (machine σ).exists_rest (I := Orderly)
    (F := fun ev => ev.fromOutside = false ∧ asksInVain ev = false) ?_ ?_ hbound h
  · rcases hrest with ⟨evs, t, hcalm, hrun, _, hnone⟩
    refine ⟨evs, t, hrun, ?_, ?_⟩
    · intro ev hinside
      cases hvain : asksInVain ev with
      | false => exact hnone ev ⟨hinside, hvain⟩
      | true =>
          cases hstep : t.step ev with
          | none => rfl
          | some u =>
              rcases exists_step_of_asksInVain hvain hstep with ⟨ev', hinside', hcalm', hsome⟩
              have hidle : t.step ev' = none := hnone ev' ⟨hinside', hcalm'⟩
              rw [hidle] at hsome
              cases hsome
    · refine (machine σ).run_invariant_of_steps (C := fun _ ev => asksInVain ev = false)
        (I := fun u => u.panics = s.panics) ?_ rfl
        (Machine.Steps.of_labels (machine σ) fun ev hev => (hcalm ev hev).2) hrun
      intro u ev v hu hvain hnext
      rw [← hu, panics, panics]
      simp only [panicked_of_step hvain hnext]
  · intro u ev v hu _ hnext
    exact hu.step hnext
  · rintro u ev v _ ⟨hinside, _⟩ hnext
    have hstep := achieved_step hnext
    have hplain : ev.isSpurious = false := by
      cases ev with
      | gate ev => cases ev <;> first | rfl | cases hinside
      | send i act => rfl
      | writeRest i outcome => rfl
      | timeout i => rfl
    simp only [hplain, Bool.false_eq_true, if_false] at hstep
    omega

/-! ### Panics in front of a crowd -/

theorem run_acquires {l : List ι} {gate : SemaphoreState ι}
    (hrun : (SemaphoreState.machine ι).run s.gate (l.map .acquire) = some gate) :
    (machine σ).run s (l.map fun i => .gate (.acquire i)) = some { s with gate := gate } := by
  induction l generalizing s with
  | nil =>
      have hsame : s.gate = gate := by simpa using hrun
      subst hsame
      rfl
  | cons i l ih =>
      rcases (Machine.run_cons_eq_some _).1 hrun with ⟨u, hu, hrest⟩
      have hacquire : s.gate.step (.acquire i) = some u := hu
      refine (Machine.run_cons_eq_some _).2 ⟨{ s with gate := u }, ?_, ih hrest⟩
      simp [machine, step, admits, hacquire]

/-- The first step of a task panics, if its client has no connection and there is no endpoint. -/
theorem exists_panic {i : ι} (hpassed : s.gate.calls i = .passed)
    (htask : s.taskOf i = SpawnedTask.start (σ.payload i)) (hbuffers : (σ.payload i).buffers ≠ [])
    (hnew : (s.clients (σ.client i)).connection = none) :
    ∃ t, s.step (.send i (.lock ⟨.noEndpoint, .error .EndpointStopping⟩)) = some t ∧
      (t.taskOf i).panicked = true ∧ ∀ c, (t.clients c).connection = (s.clients c).connection := by
  have hcall : (s.clients (σ.client i)).calls i = Call.start ((σ.payload i).buffers.headD []) :=
    congrArg SpawnedTask.call htask
  have hlooping : ((s.clients (σ.client i)).calls i).progress = .looping := by
    rw [hcall]
    rfl
  have hunder : s.underWay i = true := by
    refine underWay_eq_true.2 ⟨hpassed, ?_, ?_⟩
    · rw [ended, htask, SpawnedTask.ended_start hbuffers]
    · rw [htask]
      rfl
  let client := (s.clients (σ.client i)).afterLock σ.stableId i .noEndpoint
  refine ⟨{ s with clients := Function.update s.clients (σ.client i) client }, ?_, ?_, ?_⟩
  · simp [step, hunder, CallStep.event, ClientState.step, hlooping, hnew, Call.choose,
      makeConnection, client]
  · simp [SpawnedTask.panicked, taskOf, client, ClientState.afterLock, Call.afterChoice,
      Call.hasPanicked]
  · intro c
    by_cases hc : c = σ.client i
    · subst hc
      simp [client, ClientState.afterLock, Call.install]
    · simp [hc]

/-- Tasks that are about to start on new clients may all panic. -/
theorem exists_panics {l : List ι} (hnodup : l.Nodup)
    (hpassed : ∀ i ∈ l, s.gate.calls i = .passed)
    (htask : ∀ i ∈ l, s.taskOf i = SpawnedTask.start (σ.payload i))
    (hbuffers : ∀ i ∈ l, (σ.payload i).buffers ≠ [])
    (hnew : ∀ c, (s.clients c).connection = none) :
    ∃ evs t, (machine σ).run s evs = some t ∧ t.gate = s.gate ∧
      ∀ i, (t.taskOf i).panicked = true ↔ i ∈ l ∨ (s.taskOf i).panicked = true := by
  induction l generalizing s with
  | nil => exact ⟨[], s, rfl, rfl, by simp⟩
  | cons i l ih =>
      rcases List.nodup_cons.1 hnodup with ⟨hnotin, htail⟩
      rcases exists_panic (hpassed i List.mem_cons_self) (htask i List.mem_cons_self)
        (hbuffers i List.mem_cons_self) (hnew _) with ⟨u, hu, hpanicked, hconnections⟩
      rcases step_task rfl hu with ⟨_, hgate, hothers⟩
      have hne : ∀ j ∈ l, j ≠ i := fun j hj heq => hnotin (heq ▸ hj)
      rcases ih (s := u) htail
        (fun j hj => hgate ▸ hpassed j (List.mem_cons_of_mem i hj))
        (fun j hj => (hothers j (hne j hj)).trans (htask j (List.mem_cons_of_mem i hj)))
        (fun j hj => hbuffers j (List.mem_cons_of_mem i hj))
        (fun c => (hconnections c).trans (hnew c)) with ⟨evs, t, hrun, hsame, hiff⟩
      refine ⟨.send i (.lock ⟨.noEndpoint, .error .EndpointStopping⟩) :: evs, t,
        (Machine.run_cons_eq_some _).2 ⟨u, hu, hrun⟩, hsame.trans hgate, ?_⟩
      intro j
      by_cases hj : j = i
      · subst hj
        simp [hiff j, hpanicked]
      · simp [hiff j, hothers j hj, hj]

variable (σ) in
/-- Any calls with something to send, no more of them than permits, can enter first and panic, and
all others enter behind them. -/
theorem exists_panics_first {first : Finset ι} (hfew : first.card ≤ σ.permits)
    (hbuffers : ∀ i ∈ first, (σ.payload i).buffers ≠ []) :
    ∃ evs t, (machine σ).run (start σ) evs = some t ∧ t.panics = first.card ∧
      t.gate.tally.idle = 0 ∧ t.gate.tally.released = 0 := by
  have hzero : (start σ).gate.tally.released = 0 := by
    simp [SemaphoreState.tally, start, SemaphoreState.start, total_const, SemaphoreState.ends]
  -- the first calls enter
  rcases SemaphoreState.exists_acquired (s := (start σ).gate) (Finset.nodup_toList first)
    (fun _ _ => rfl) with ⟨gate, hgate, hreleased, hleft⟩
  let s : SpawnedState σ := { start σ with gate := gate }
  have hrun : (machine σ).run (start σ) (first.toList.map fun i => .gate (.acquire i)) = some s :=
    run_acquires hgate
  have horderly : Orderly s := (orderly_start σ).run hrun
  -- there is a permit for each of them
  have hpassed : ∀ i ∈ first.toList, s.gate.calls i = .passed := by
    intro i hi
    refine horderly.balanced.passed_of_few (hreleased.trans hzero) ?_ fun hidle =>
      ((hleft i).1 hidle).1 hi
    refine (Finset.card_le_card ?_).trans hfew
    intro j hj
    by_contra hout
    exact (Finset.mem_filter.1 hj).2 ((hleft j).2 ⟨fun hin => hout (Finset.mem_toList.1 hin), rfl⟩)
  -- and panic
  rcases exists_panics (s := s) (Finset.nodup_toList first) hpassed (fun _ _ => rfl)
    (fun i hi => hbuffers i (Finset.mem_toList.1 hi)) (fun _ => rfl) with
    ⟨evs, t, hpanics, hsame, hiff⟩
  -- then the others enter
  let others : Finset ι := Finset.univ.filter fun i => t.gate.calls i = .idle
  rcases SemaphoreState.exists_acquired (s := t.gate) (Finset.nodup_toList others)
    (fun i hi => (Finset.mem_filter.1 (Finset.mem_toList.1 hi)).2) with
    ⟨gate', hgate', hreleased', hleft'⟩
  have hall := (Machine.run_append_eq_some _).2 ⟨s, hrun,
    (Machine.run_append_eq_some _).2 ⟨t, hpanics, run_acquires hgate'⟩⟩
  refine ⟨_, _, hall, ?_, ?_, ?_⟩
  · refine congrArg Finset.card (Finset.ext fun i => ?_)
    have hcalm : (s.taskOf i).panicked = false := rfl
    have hiff' : (t.taskOf i).panicked = true ↔ i ∈ first := by
      rw [hiff i, Finset.mem_toList]
      exact or_iff_left (by simp [hcalm])
    rw [Finset.mem_filter, and_iff_right (Finset.mem_univ i)]
    exact hiff'
  · refine SemaphoreState.idle_eq_zero_iff.2 fun i hi => ?_
    simp [hleft', others] at hi
  · rw [hreleased', hsame, hreleased, hzero]

end Rest

/-- Every run can be carried on to rest, without another panic.  In the runs with at most `k` panics
every call that has been made is then served or has panicked itself, exactly when the calls and the
sends that may panic are together at most twice as many as the permits: a send that panics keeps
its permit.  With more of them some run comes to a rest at which a call waits that nobody will wake
up. -/
theorem calls_served_iff (σ : Spawning ι Client E Conn) (k : Nat) :
    (∀ evs s, (machine σ).run (start σ) evs = some s →
        ∃ more t, (machine σ).run s more = some t ∧ AtRest t ∧ t.panics = s.panics) ∧
      ((∀ evs t, (machine σ).run (start σ) evs = some t → AtRest t → t.panics ≤ k → ∀ i,
          t.gate.calls i = .idle ∨ t.gate.calls i = .released ∨ (t.taskOf i).panicked = true) ↔
        Fintype.card ι + min k (min σ.permits σ.sending) ≤ 2 * σ.permits) := by
  refine ⟨?_, ?_, ?_⟩
  · intro evs s hrun
    exact ((orderly_start σ).run hrun).exists_rest
  · intro hserved
    by_contra hmany
    have hexists : min k (min σ.permits σ.sending) ≤
        (Finset.univ.filter fun i => (σ.payload i).buffers ≠ []).card :=
      (min_le_right _ _).trans (min_le_right _ _)
    rcases Finset.exists_subset_card_eq hexists with ⟨first, hfirst, hcard⟩
    have hsending : ∀ i ∈ first, (σ.payload i).buffers ≠ [] := fun i hi =>
      (Finset.mem_filter.1 (hfirst hi)).2
    rcases exists_panics_first σ (by omega) hsending with
      ⟨evs, s, hrun, hpanics, hidle, hreleased⟩
    have horderly : Orderly s := (orderly_start σ).run hrun
    -- all but `permits` calls are blocked, and stay so
    have hcrowd : σ.permits < s.gate.tally.blocked + s.panics := by
      rcases horderly.balanced.tally with ⟨_, hpassed, hcallers, _⟩
      omega
    rcases horderly.exists_rest with ⟨more, t, hmore, hrest, hstuck⟩
    have hall : (machine σ).run (start σ) (evs ++ more) = some t :=
      (Machine.run_append_eq_some _).2 ⟨s, hrun, hmore⟩
    have hblocked : σ.permits < t.gate.tally.blocked + t.panics := horderly.crowded_run hcrowd hmore
    have hfewer := ((orderly_start σ).run hall).panics_le.2
    have hwaits : 0 < t.gate.tally.blocked := by omega
    rcases SemaphoreState.blocked_pos_iff.1 hwaits with ⟨i, hi⟩
    rcases hserved _ t hall hrest (by omega) i with hidle | hreleased | hpanicked
    · simp [hidle] at hi
    · simp [hreleased] at hi
    · simp [(((orderly_start σ).run hall).stuck i hpanicked).1] at hi
  · intro hfew evs t hrun hrest hpanics i
    exact hrest.served hpanics hfew hrun i

end SpawnedState
end Quik
end TpuSender
