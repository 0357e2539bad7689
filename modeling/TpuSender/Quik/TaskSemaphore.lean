import TpuSender.Library.Machine
import TpuSender.Library.Population
import Mathlib.Data.Fintype.Basic
import Mathlib.Data.Finset.Dedup

/-!
# TaskSemaphore — the semaphore in front of the spawned sends

`AsyncTaskSemaphore` is a counter behind a mutex, and a condition variable.  `acquire` counts its
caller first and checks afterwards; a caller that finds the counter above the permits waits, still
counted.  The task that a caller spawns calls `release` once, which takes one off the counter and
wakes one waiter.

The machine below runs any finite family of calls.  Its labels are the ends of the critical
sections, so the mutex needs no state of its own: `acquire i` is a call's entry up to its first
check, `recheck i` the check after a wake-up, `spuriousWake i` a wake-up without a notification and
`release i woken` the release by the task of call `i`, which wakes `woken`.

Waiters hold counts they wait for.  Once more callers wait than there are permits nobody passes any
more, and the semaphore ends up stuck when the tasks under way are done: `deadlock_free_iff`.
-/

namespace TpuSender
namespace Quik

open Library

/-! ## The semaphore -/

structure AsyncTaskSemaphore where
  /-- The usage count. -/
  counter : Nat
  /-- The maximum usage allowed. -/
  permits : Nat
  deriving DecidableEq

namespace AsyncTaskSemaphore

def new (permits : Nat) : AsyncTaskSemaphore :=
  { counter := 0
    permits := permits }

/-- `*count += 1`, the entry of `acquire`. -/
def enter (s : AsyncTaskSemaphore) : AsyncTaskSemaphore :=
  { s with counter := s.counter + 1 }

/-- The condition of the waiting loop, `*count > self.permits`. -/
def mustWait (s : AsyncTaskSemaphore) : Bool := s.permits < s.counter

/-- `*count -= 1`; `none` is the underflow. -/
def release (s : AsyncTaskSemaphore) : Option AsyncTaskSemaphore :=
  if 0 < s.counter then some { s with counter := s.counter - 1 } else none

end AsyncTaskSemaphore

/-- Where a call of `send_data_async` or `send_data_batch_async` is. -/
inductive CallPhase
  | idle
  /-- Blocked on the condition variable. -/
  | waiting
  /-- Woken up, has not checked the counter again. -/
  | notified
  /-- Passed `acquire`; the spawned task has not released. -/
  | passed
  | released
  deriving DecidableEq

inductive SemaphoreEvent (ι : Type)
  | acquire (i : ι)
  | recheck (i : ι)
  | spuriousWake (i : ι)
  | release (i : ι) (woken : Option ι)

def SemaphoreEvent.IsRelease {ι : Type} : SemaphoreEvent ι → Prop
  | .release _ _ => True
  | _ => False

structure SemaphoreState (ι : Type) where
  semaphore : AsyncTaskSemaphore
  calls : ι → CallPhase

namespace SemaphoreState

variable {ι : Type} [Fintype ι] [DecidableEq ι]

def start (ι : Type) (permits : Nat) : SemaphoreState ι :=
  { semaphore := AsyncTaskSemaphore.new permits
    calls := fun _ => .idle }

/-- Where the check of the waiting loop sends a call. -/
def checked (semaphore : AsyncTaskSemaphore) : CallPhase :=
  if semaphore.mustWait then .waiting else .passed

/-- `notify_one`: a blocked call is woken up if there is one. -/
def notifyOne (calls : ι → CallPhase) : Option ι → Option (ι → CallPhase)
  | some j => if calls j = .waiting then some (Function.update calls j .notified) else none
  | none => if ∃ j, calls j = .waiting then none else some calls

def step (s : SemaphoreState ι) : SemaphoreEvent ι → Option (SemaphoreState ι)
  | .acquire i =>
      match s.calls i with
      -- counted before the first check
      | .idle => some
          { semaphore := s.semaphore.enter
            calls := Function.update s.calls i (checked s.semaphore.enter) }
      | _ => none
  | .recheck i =>
      match s.calls i with
      -- a waiter that finds the counter too high waits on, still counted
      | .notified => some { s with calls := Function.update s.calls i (checked s.semaphore) }
      | _ => none
  | .spuriousWake i =>
      match s.calls i with
      | .waiting => some { s with calls := Function.update s.calls i .notified }
      | _ => none
  | .release i woken =>
      match s.calls i with
      -- at the end of the spawned task, whatever its send came to
      | .passed => do
          let semaphore ← s.semaphore.release
          let calls ← notifyOne (Function.update s.calls i .released) woken
          pure
            { semaphore := semaphore
              calls := calls }
      | _ => none

def machine (ι : Type) [Fintype ι] [DecidableEq ι] :
    Machine (SemaphoreState ι) (SemaphoreEvent ι) :=
  { next := step }

/-! ## Tallies

The semaphore cannot tell one call from another: what matters is how many calls are in which phase.
-/

def idles : CallPhase → Nat
  | .idle => 1
  | _ => 0

def blocks : CallPhase → Nat
  | .waiting => 1
  | .notified => 1
  | _ => 0

def passes : CallPhase → Nat
  | .passed => 1
  | _ => 0

def ends : CallPhase → Nat
  | .released => 1
  | _ => 0

structure Tally where
  counter : Nat
  idle : Nat
  blocked : Nat
  passed : Nat
  released : Nat

def tally (s : SemaphoreState ι) : Tally :=
  { counter := s.semaphore.counter
    idle := total idles s.calls
    blocked := total blocks s.calls
    passed := total passes s.calls
    released := total ends s.calls }

/-- What a step can do to a tally. -/
inductive Tally.Step (permits : Nat) (t u : Tally) : Prop
  | pass (hroom : t.counter < permits) (counter : u.counter = t.counter + 1)
      (idle : u.idle + 1 = t.idle) (blocked : u.blocked = t.blocked)
      (passed : u.passed = t.passed + 1) (released : u.released = t.released)
  | block (hfull : permits ≤ t.counter) (counter : u.counter = t.counter + 1)
      (idle : u.idle + 1 = t.idle) (blocked : u.blocked = t.blocked + 1)
      (passed : u.passed = t.passed) (released : u.released = t.released)
  | resume (hroom : t.counter ≤ permits) (counter : u.counter = t.counter)
      (idle : u.idle = t.idle) (blocked : u.blocked + 1 = t.blocked)
      (passed : u.passed = t.passed + 1) (released : u.released = t.released)
  | leave (counter : u.counter + 1 = t.counter)
      (idle : u.idle = t.idle) (blocked : u.blocked = t.blocked)
      (passed : u.passed + 1 = t.passed) (released : u.released = t.released + 1)
  | stay (same : u = t)

/-- Moving one call from one phase to another moves one in the totals. -/
theorem total_move {calls : ι → CallPhase} {i : ι} {a b : CallPhase} (ha : calls i = a) :
    total idles (Function.update calls i b) + idles a = total idles calls + idles b ∧
      total blocks (Function.update calls i b) + blocks a = total blocks calls + blocks b ∧
      total passes (Function.update calls i b) + passes a = total passes calls + passes b ∧
      total ends (Function.update calls i b) + ends a = total ends calls + ends b := by
  subst ha
  exact ⟨total_update idles calls i b, total_update blocks calls i b, total_update passes calls i b,
    total_update ends calls i b⟩

/-- A notification moves no call between the tallies. -/
theorem notifyOne_spec {calls calls' : ι → CallPhase} {woken : Option ι}
    (h : notifyOne calls woken = some calls') :
    total idles calls' = total idles calls ∧ total blocks calls' = total blocks calls ∧
      total passes calls' = total passes calls ∧ total ends calls' = total ends calls := by
  cases woken with
  | none =>
      by_cases hwaiting : ∃ j, calls j = .waiting
      · simp [notifyOne, hwaiting] at h
      · simp only [notifyOne, hwaiting, if_false, Option.some.injEq] at h
        subst h
        exact ⟨rfl, rfl, rfl, rfl⟩
  | some j =>
      by_cases hwaiting : calls j = .waiting
      · simp only [notifyOne, hwaiting, if_true, Option.some.injEq] at h
        subst h
        simpa [idles, blocks, passes, ends] using total_move (b := .notified) hwaiting
      · simp [notifyOne, hwaiting] at h

/-! ## What a step can do -/

section Steps

variable {s t : SemaphoreState ι}

theorem step_acquire {i : ι} (h : step s (.acquire i) = some t) :
    s.calls i = .idle ∧ t.semaphore = s.semaphore.enter ∧
      t.calls = Function.update s.calls i (checked s.semaphore.enter) := by
  cases hphase : s.calls i <;> simp only [step, hphase, Option.some.injEq, reduceCtorEq] at h
  subst h
  exact ⟨rfl, rfl, rfl⟩

theorem step_recheck {i : ι} (h : step s (.recheck i) = some t) :
    s.calls i = .notified ∧ t.semaphore = s.semaphore ∧
      t.calls = Function.update s.calls i (checked s.semaphore) := by
  cases hphase : s.calls i <;> simp only [step, hphase, Option.some.injEq, reduceCtorEq] at h
  subst h
  exact ⟨rfl, rfl, rfl⟩

theorem step_spuriousWake {i : ι} (h : step s (.spuriousWake i) = some t) :
    s.calls i = .waiting ∧ t.semaphore = s.semaphore ∧
      t.calls = Function.update s.calls i .notified := by
  cases hphase : s.calls i <;> simp only [step, hphase, Option.some.injEq, reduceCtorEq] at h
  subst h
  exact ⟨rfl, rfl, rfl⟩

theorem step_release {i : ι} {woken : Option ι} (h : step s (.release i woken) = some t) :
    s.calls i = .passed ∧ 0 < s.semaphore.counter ∧
      t.semaphore = { s.semaphore with counter := s.semaphore.counter - 1 } ∧
      notifyOne (Function.update s.calls i .released) woken = some t.calls := by
  cases hphase : s.calls i <;> simp only [step, hphase, reduceCtorEq] at h
  by_cases hpos : 0 < s.semaphore.counter
  · simp only [AsyncTaskSemaphore.release, hpos, if_true, bind, Option.bind_some,
      Option.bind_eq_some_iff, pure, Option.some.injEq] at h
    rcases h with ⟨calls, hcalls, rfl⟩
    exact ⟨rfl, hpos, rfl, hcalls⟩
  · simp [AsyncTaskSemaphore.release, hpos] at h

theorem permits_step {ev : SemaphoreEvent ι} (h : step s ev = some t) :
    t.semaphore.permits = s.semaphore.permits := by
  cases ev with
  | acquire i =>
      rw [(step_acquire h).2.1]
      rfl
  | recheck i => rw [(step_recheck h).2.1]
  | spuriousWake i => rw [(step_spuriousWake h).2.1]
  | release i woken => rw [(step_release h).2.2.1]

/-- A call that enters passes while there is room, and is blocked otherwise. -/
theorem tally_acquire {i : ι} (h : step s (.acquire i) = some t) :
    t.tally.counter = s.tally.counter + 1 ∧ t.tally.idle + 1 = s.tally.idle ∧
      t.tally.released = s.tally.released ∧
      (s.tally.counter < s.semaphore.permits ∧ t.tally.blocked = s.tally.blocked ∧
          t.tally.passed = s.tally.passed + 1 ∨
        s.semaphore.permits ≤ s.tally.counter ∧ t.tally.blocked = s.tally.blocked + 1 ∧
          t.tally.passed = s.tally.passed) := by
  rcases step_acquire h with ⟨hidle, hsem, hcalls⟩
  have hmove := total_move (b := checked s.semaphore.enter) hidle
  rw [← hcalls] at hmove
  have hcounter : t.tally.counter = s.tally.counter + 1 := congrArg (·.counter) hsem
  -- the check sees the caller's own count
  by_cases hwait : s.semaphore.permits < s.semaphore.counter + 1
  · simp only [checked, AsyncTaskSemaphore.mustWait, AsyncTaskSemaphore.enter, hwait,
      decide_true, if_true, idles, blocks, passes, ends] at hmove
    rcases hmove with ⟨hidle', hblocked, hpassed, hreleased⟩
    exact ⟨hcounter, hidle', hreleased, .inr ⟨Nat.le_of_lt_succ hwait, hblocked, hpassed⟩⟩
  · simp only [checked, AsyncTaskSemaphore.mustWait, AsyncTaskSemaphore.enter, hwait,
      decide_false, Bool.false_eq_true, if_false, idles, blocks, passes, ends] at hmove
    rcases hmove with ⟨hidle', hblocked, hpassed, hreleased⟩
    exact ⟨hcounter, hidle', hreleased, .inl ⟨Nat.not_lt.1 hwait, hblocked, hpassed⟩⟩

/-- Any other step leaves the idle calls alone and blocks nobody. -/
theorem tally_of_not_acquire {ev : SemaphoreEvent ι} (hev : ∀ i, ev ≠ .acquire i)
    (h : step s ev = some t) :
    t.tally.idle = s.tally.idle ∧ t.tally.blocked ≤ s.tally.blocked ∧
      Tally.Step s.semaphore.permits s.tally t.tally := by
  cases ev with
  | acquire i => exact absurd rfl (hev i)
  | recheck i =>
      rcases step_recheck h with ⟨hnotified, hsem, hcalls⟩
      have hmove := total_move (b := checked s.semaphore) hnotified
      rw [← hcalls] at hmove
      have hcounter : t.tally.counter = s.tally.counter := congrArg (·.counter) hsem
      by_cases hwait : s.semaphore.permits < s.semaphore.counter
      · simp only [checked, AsyncTaskSemaphore.mustWait, hwait, decide_true, if_true, idles, blocks,
          passes, ends] at hmove
        rcases hmove with ⟨hidle, hblocked, hpassed, hreleased⟩
        have hsame : t.tally.blocked = s.tally.blocked := Nat.succ_injective hblocked
        refine ⟨hidle, hsame.le, .stay ?_⟩
        simp only [tally, Tally.mk.injEq]
        exact ⟨hcounter, hidle, hsame, hpassed, hreleased⟩
      · simp only [checked, AsyncTaskSemaphore.mustWait, hwait, decide_false, Bool.false_eq_true,
          if_false, idles, blocks, passes, ends] at hmove
        rcases hmove with ⟨hidle, hblocked, hpassed, hreleased⟩
        exact ⟨hidle, Nat.le_of_succ_le (Nat.le_of_eq hblocked),
          .resume (Nat.not_lt.1 hwait) hcounter hidle hblocked hpassed hreleased⟩
  | spuriousWake i =>
      rcases step_spuriousWake h with ⟨hwaiting, hsem, hcalls⟩
      have hmove := total_move (b := .notified) hwaiting
      rw [← hcalls] at hmove
      rcases hmove with ⟨hidle, hblocked, hpassed, hreleased⟩
      have hcounter : t.tally.counter = s.tally.counter := congrArg (·.counter) hsem
      have hsame : t.tally.blocked = s.tally.blocked := Nat.succ_injective hblocked
      refine ⟨hidle, hsame.le, .stay ?_⟩
      simp only [tally, Tally.mk.injEq]
      exact ⟨hcounter, hidle, hsame, hpassed, hreleased⟩
  | release i woken =>
      rcases step_release h with ⟨hpassed, hpos, hsem, hnotify⟩
      have hmove := total_move (b := .released) hpassed
      rcases notifyOne_spec hnotify with ⟨hi, hb, hp, he⟩
      rw [← hi, ← hb, ← hp, ← he] at hmove
      rcases hmove with ⟨hidle, hblocked, hpass, hreleased⟩
      have hcounter : t.tally.counter + 1 = s.tally.counter := by
        have heq : t.semaphore.counter = s.semaphore.counter - 1 := congrArg (·.counter) hsem
        exact (congrArg (· + 1) heq).trans (Nat.succ_pred_eq_of_pos hpos)
      exact ⟨hidle, Nat.le_of_eq hblocked, .leave hcounter hidle hblocked hpass hreleased⟩

/-- Every step moves the tally by one of its steps. -/
theorem tally_step {ev : SemaphoreEvent ι} (h : step s ev = some t) :
    Tally.Step s.semaphore.permits s.tally t.tally := by
  by_cases hacquire : ∃ i, ev = .acquire i
  · rcases hacquire with ⟨i, rfl⟩
    rcases tally_acquire h with
      ⟨hcounter, hidle, hreleased, ⟨hroom, hblocked, hpassed⟩ | ⟨hfull, hblocked, hpassed⟩⟩
    · exact .pass hroom hcounter hidle hblocked hpassed hreleased
    · exact .block hfull hcounter hidle hblocked hpassed hreleased
  · exact (tally_of_not_acquire (fun i hi => hacquire ⟨i, hi⟩) h).2.2

end Steps

/-! ## What tallies keep -/

/-- The counter counts the passed and the blocked calls, at most `permits` calls are past the
semaphore, and a call is blocked only behind `permits` calls that passed before it. -/
structure Tally.Balanced (permits callers : Nat) (t : Tally) : Prop where
  counter : t.counter = t.passed + t.blocked
  passed : t.passed ≤ permits
  callers : t.idle + t.blocked + t.passed + t.released = callers
  behind : t.blocked = 0 ∨ permits ≤ t.passed + t.released

theorem Tally.Balanced.step {permits callers : Nat} {t u : Tally} (h : t.Balanced permits callers)
    (hstep : Tally.Step permits t u) : u.Balanced permits callers := by
  rcases h with ⟨hcounter, hpassed, hcallers, hbehind⟩
  cases hstep with
  | pass hroom counter idle blocked passed released =>
      exact ⟨by omega, by omega, by omega, by omega⟩
  | block hfull counter idle blocked passed released =>
      exact ⟨by omega, by omega, by omega, by omega⟩
  | resume hroom counter idle blocked passed released =>
      exact ⟨by omega, by omega, by omega, by omega⟩
  | leave counter idle blocked passed released =>
      exact ⟨by omega, by omega, by omega, by omega⟩
  | stay same =>
      subst same
      exact ⟨hcounter, hpassed, hcallers, hbehind⟩

/-- Once the blocked calls and `stuck` of the passed ones are more than the permits, no blocked call
passes any more while those are past the semaphore. -/
theorem Tally.Balanced.crowded_step {permits callers stuck : Nat} {t u : Tally}
    (h : t.Balanced permits callers) (hstuck : stuck ≤ t.passed)
    (hcrowd : permits < t.blocked + stuck) (hstep : Tally.Step permits t u) :
    permits < u.blocked + stuck ∧ u.passed ≤ t.passed := by
  have hcounter : permits < t.counter := by
    have heq := h.counter
    omega
  cases hstep with
  | pass hroom counter idle blocked passed released => omega
  | block hfull counter idle blocked passed released => exact ⟨by omega, passed.le⟩
  | resume hroom counter idle blocked passed released => omega
  | leave counter idle blocked passed released => exact ⟨by omega, by omega⟩
  | stay same =>
      subst same
      exact ⟨hcrowd, le_rfl⟩

/-- The invariant of the machine. -/
structure Balanced (permits : Nat) (s : SemaphoreState ι) : Prop where
  limit : s.semaphore.permits = permits
  tally : s.tally.Balanced permits (Fintype.card ι)

omit [DecidableEq ι] in
theorem balanced_start (permits : Nat) : Balanced permits (start ι permits) := by
  refine ⟨rfl, ?_⟩
  have hidle : (start ι permits).tally.idle = Fintype.card ι := by
    simp [tally, start, total_const, idles]
  have hblocked : (start ι permits).tally.blocked = 0 := by
    simp [tally, start, total_const, blocks]
  have hpassed : (start ι permits).tally.passed = 0 := by
    simp [tally, start, total_const, passes]
  have hreleased : (start ι permits).tally.released = 0 := by
    simp [tally, start, total_const, ends]
  have hcounter : (start ι permits).tally.counter = 0 := rfl
  exact ⟨by omega, by omega, by omega, .inl hblocked⟩

section Runs

variable {permits : Nat} {s t : SemaphoreState ι} {ev : SemaphoreEvent ι}

theorem Balanced.step (h : Balanced permits s) (hstep : step s ev = some t) :
    Balanced permits t :=
  ⟨(permits_step hstep).trans h.limit, h.tally.step (h.limit ▸ tally_step hstep)⟩

theorem Balanced.run (h : Balanced permits s) {evs : List (SemaphoreEvent ι)}
    (hrun : (machine ι).run s evs = some t) : Balanced permits t := by
  refine (machine ι).run_invariant ?_ h hrun
  intro u ev v hu hnext
  exact hu.step hnext

omit [DecidableEq ι] in
/-- A call that has passed is counted. -/
theorem Balanced.counter_pos (h : Balanced permits s) {i : ι} (hi : s.calls i = .passed) :
    0 < s.semaphore.counter := by
  have hone : passes (s.calls i) ≤ s.tally.passed := le_total passes s.calls i
  have hcounter : s.semaphore.counter = s.tally.passed + s.tally.blocked := h.tally.counter
  simp only [hi, passes] at hone
  omega

/-- More blocked calls than permits stay blocked. -/
theorem crowded_run (h : Balanced permits s) (hcrowd : permits < s.tally.blocked)
    {evs : List (SemaphoreEvent ι)} (hrun : (machine ι).run s evs = some t) :
    permits < t.tally.blocked := by
  have hboth : Balanced permits t ∧ permits < t.tally.blocked := by
    refine (machine ι).run_invariant (I := fun u => Balanced permits u ∧ permits < u.tally.blocked)
      ?_ ⟨h, hcrowd⟩ hrun
    rintro u ev v ⟨hu, hmore⟩ hnext
    exact ⟨hu.step hnext,
      (hu.tally.crowded_step (Nat.zero_le _) hmore (hu.limit ▸ tally_step hnext)).1⟩
  exact hboth.2

end Runs

/-! ## Outstanding tasks -/

/-- In every reachable state at most `permits` tasks have passed `acquire` and not released, the
counter is their number plus that of the callers waiting in `acquire`, and no release that is due
underflows. -/
theorem outstanding_tasks_bounded (ι : Type) [Fintype ι] [DecidableEq ι] (permits : Nat)
    (evs : List (SemaphoreEvent ι)) (t : SemaphoreState ι)
    (hrun : (machine ι).run (start ι permits) evs = some t) :
    (Finset.univ.filter fun i => t.calls i = .passed).card ≤ permits ∧
      t.semaphore.counter = (Finset.univ.filter fun i => t.calls i = .passed).card +
        (Finset.univ.filter fun i => t.calls i = .waiting ∨ t.calls i = .notified).card ∧
      ∀ i, t.calls i = .passed → ∃ semaphore, t.semaphore.release = some semaphore := by
  have hbalanced : Balanced permits t := (balanced_start permits).run hrun
  have hpassed : t.tally.passed = (Finset.univ.filter fun i => t.calls i = .passed).card := by
    refine total_eq_card (p := fun phase => phase = .passed) ?_ t.calls
    intro phase
    cases phase <;> rfl
  have hblocked : t.tally.blocked =
      (Finset.univ.filter fun i => t.calls i = .waiting ∨ t.calls i = .notified).card := by
    refine total_eq_card (p := fun phase => phase = .waiting ∨ phase = .notified) ?_ t.calls
    intro phase
    cases phase <;> rfl
  rw [← hpassed, ← hblocked]
  refine ⟨hbalanced.tally.passed, hbalanced.tally.counter, ?_⟩
  intro i hi
  have hpos : 0 < t.semaphore.counter := hbalanced.counter_pos hi
  exact ⟨_, by rw [AsyncTaskSemaphore.release, if_pos hpos]⟩

/-- One permit and two calls: while the first is outstanding the second waits. -/
theorem outstanding_tasks_bounded_two :
    ∃ t, (machine (Fin 2)).run (start (Fin 2) 1) [.acquire 0, .acquire 1] = some t ∧
      t.calls 1 = .waiting ∧ (Finset.univ.filter fun i => t.calls i = .passed).card ≤ 1 :=
  ⟨_, rfl, rfl, (outstanding_tasks_bounded (Fin 2) 1 [.acquire 0, .acquire 1] _ rfl).1⟩

section Runs

variable {permits : Nat} {s t : SemaphoreState ι} {ev : SemaphoreEvent ι}

/-! ## Deadlock -/

/-- Some caller is blocked, nobody is past the semaphore, and every blocked caller that is woken up
has to wait again. -/
def Deadlocked (s : SemaphoreState ι) : Prop :=
  (∃ i, s.calls i = .waiting ∨ s.calls i = .notified) ∧ (∀ i, s.calls i ≠ .passed) ∧
    s.semaphore.mustWait = true

omit [DecidableEq ι] in
theorem blocked_pos_iff :
    0 < s.tally.blocked ↔ ∃ i, s.calls i = .waiting ∨ s.calls i = .notified := by
  have hpos : ∀ i, 0 < blocks (s.calls i) ↔ s.calls i = .waiting ∨ s.calls i = .notified := by
    intro i
    cases s.calls i <;> simp [blocks]
  simpa [tally, hpos] using total_pos_iff (w := blocks) (f := s.calls)

omit [DecidableEq ι] in
theorem passed_eq_zero_iff : s.tally.passed = 0 ↔ ∀ i, s.calls i ≠ .passed := by
  have hzero : ∀ i, passes (s.calls i) = 0 ↔ s.calls i ≠ .passed := by
    intro i
    cases s.calls i <;> simp [passes]
  simpa [tally, hzero] using total_eq_zero_iff (w := passes) (f := s.calls)

omit [DecidableEq ι] in
theorem idle_eq_zero_iff : s.tally.idle = 0 ↔ ∀ i, s.calls i ≠ .idle := by
  have hzero : ∀ i, idles (s.calls i) = 0 ↔ s.calls i ≠ .idle := by
    intro i
    cases s.calls i <;> simp [idles]
  simpa [tally, hzero] using total_eq_zero_iff (w := idles) (f := s.calls)

omit [DecidableEq ι] in
/-- With nobody past the semaphore, being stuck is having more blocked calls than permits. -/
theorem Balanced.deadlocked_iff (h : Balanced permits s) :
    s.Deadlocked ↔ s.tally.passed = 0 ∧ permits < s.tally.blocked := by
  have hwait : s.semaphore.mustWait = true ↔ permits < s.tally.counter := by
    rw [AsyncTaskSemaphore.mustWait, decide_eq_true_iff, h.limit]
    rfl
  have hcounter := h.tally.counter
  rw [Deadlocked, ← blocked_pos_iff, ← passed_eq_zero_iff, hwait]
  constructor
  · rintro ⟨_, hpassed, hmore⟩
    exact ⟨hpassed, by omega⟩
  · rintro ⟨hpassed, hmore⟩
    exact ⟨by omega, hpassed, by omega⟩

/-- A deadlock is for ever, whatever wakes up or arrives. -/
theorem deadlocked_run (h : Balanced permits s) (hdead : s.Deadlocked)
    {evs : List (SemaphoreEvent ι)} (hrun : (machine ι).run s evs = some t) : t.Deadlocked := by
  have hboth : Balanced permits t ∧ t.Deadlocked := by
    refine (machine ι).run_invariant (I := fun u => Balanced permits u ∧ u.Deadlocked)
      ?_ ⟨h, hdead⟩ hrun
    rintro u ev v ⟨hu, hud⟩ hnext
    have hv : Balanced permits v := hu.step hnext
    rcases hu.deadlocked_iff.1 hud with ⟨hpassed, hmore⟩
    rcases hu.tally.crowded_step (Nat.zero_le _) hmore (hu.limit ▸ tally_step hnext) with
      ⟨hmore', hle⟩
    exact ⟨hv, hv.deadlocked_iff.2 ⟨by omega, hmore'⟩⟩
  exact hboth.2

/-! ## When the tasks under way are done -/

/-- The task of a passed call can release. -/
theorem Balanced.exists_release (h : Balanced permits s) {i : ι} (hi : s.calls i = .passed) :
    ∃ woken t, SemaphoreState.step s (.release i woken) = some t := by
  have hpos : 0 < s.semaphore.counter := h.counter_pos hi
  by_cases hwaiting : ∃ j, Function.update s.calls i .released j = .waiting
  · -- a blocked call has to be woken, any of them will do
    rcases hwaiting with ⟨j, hj⟩
    refine ⟨some j, Option.isSome_iff_exists.1 ?_⟩
    simp [SemaphoreState.step, hi, AsyncTaskSemaphore.release, hpos, notifyOne, hj]
  · refine ⟨none, Option.isSome_iff_exists.1 ?_⟩
    simp only [SemaphoreState.step, hi, AsyncTaskSemaphore.release, hpos, notifyOne, hwaiting,
      if_true, if_false]
    rfl

/-- All passed calls can release, one after the other. -/
theorem Balanced.exists_drained (h : Balanced permits s) :
    ∃ evs t, (∀ ev ∈ evs, ev.IsRelease) ∧ (machine ι).run s evs = some t ∧ t.tally.passed = 0 := by
  -- each release takes one off the passed calls
  induction hn : s.tally.passed generalizing s with
  | zero => exact ⟨[], s, by simp, rfl, hn⟩
  | succ n ih =>
      have hsome : ∃ i, s.calls i = .passed := by
        by_contra hnone
        have hzero : s.tally.passed = 0 :=
          passed_eq_zero_iff.2 fun i hi => hnone ⟨i, hi⟩
        omega
      rcases hsome with ⟨i, hi⟩
      rcases h.exists_release hi with ⟨woken, u, hu⟩
      have hless : u.tally.passed = n := by
        rcases step_release hu with ⟨_, _, _, hnotify⟩
        have hmove := (total_move (b := .released) hi).2.2.1
        have hkeep := (notifyOne_spec hnotify).2.2.1
        simp only [passes] at hmove
        simp only [SemaphoreState.tally] at hn ⊢
        omega
      rcases ih (h.step hu) hless with ⟨evs, t, hrel, hrun, hzero⟩
      refine ⟨.release i woken :: evs, t, ?_, (Machine.run_cons_eq_some _).2 ⟨u, hu, hrun⟩, hzero⟩
      intro ev hev
      rcases List.mem_cons.1 hev with rfl | hev
      · trivial
      · exact hrel ev hev

/-! ## When a deadlock can come about -/

/-- The condition on a step: a call that has to wait finds fewer than `permits` calls blocked. -/
def RoomToWait (s : SemaphoreState ι) : SemaphoreEvent ι → Prop
  | .acquire _ => s.semaphore.permits ≤ s.semaphore.counter → s.tally.blocked < s.semaphore.permits
  | _ => True

/-- While at most `permits` calls are blocked, a step keeps it so exactly when it leaves room. -/
theorem Balanced.blocked_step_iff (h : Balanced permits s) (hfew : s.tally.blocked ≤ permits)
    (hstep : SemaphoreState.step s ev = some t) : t.tally.blocked ≤ permits ↔ RoomToWait s ev := by
  by_cases hacquire : ∃ i, ev = .acquire i
  · rcases hacquire with ⟨i, rfl⟩
    have hcounter : s.tally.counter = s.semaphore.counter := rfl
    rcases tally_acquire hstep with ⟨_, _, _, hcase⟩
    rw [h.limit, hcounter] at hcase
    simp only [RoomToWait, h.limit]
    rcases hcase with ⟨hroom, hblocked, _⟩ | ⟨hfull, hblocked, _⟩
    · exact iff_of_true (hblocked ▸ hfew) (fun hfull => absurd hroom (Nat.not_lt.2 hfull))
    · -- the one step that adds to the blocked calls
      rw [hblocked]
      exact ⟨fun hle _ => hle, fun hroom => hroom hfull⟩
  · -- no other step blocks a call
    have hno : ∀ i, ev ≠ .acquire i := fun i hi => hacquire ⟨i, hi⟩
    have hroom : RoomToWait s ev := by
      cases ev with
      | acquire i => exact absurd rfl (hno i)
      | recheck i => trivial
      | spuriousWake i => trivial
      | release i woken => trivial
    exact iff_of_true ((tally_of_not_acquire hno hstep).2.1.trans hfew) hroom

/-- A step ends with at most `permits` calls blocked exactly when it starts so and leaves room. -/
theorem Balanced.blocked_le_step_iff (h : Balanced permits s)
    (hstep : SemaphoreState.step s ev = some t) :
    t.tally.blocked ≤ permits ↔ s.tally.blocked ≤ permits ∧ RoomToWait s ev := by
  by_cases hfew : s.tally.blocked ≤ permits
  · rw [h.blocked_step_iff hfew hstep, and_iff_right hfew]
  · have hmore : permits < t.tally.blocked :=
      (h.tally.crowded_step (Nat.zero_le _) (Nat.lt_of_not_le hfew)
        (h.limit ▸ tally_step hstep)).1
    exact iff_of_false (Nat.not_le.2 hmore) (fun hboth => hfew hboth.1)

theorem idle_of_acquire {i j : ι} (h : step s (.acquire i) = some t) :
    t.calls j = .idle ↔ j ≠ i ∧ s.calls j = .idle := by
  rcases step_acquire h with ⟨_, _, hcalls⟩
  by_cases hj : j = i
  · subst hj
    have hchecked : checked s.semaphore.enter ≠ .idle := by
      unfold checked
      split <;> simp
    simp [hcalls, hchecked]
  · rw [hcalls, Function.update_of_ne hj, and_iff_right hj]

/-- Idle calls can all enter, one after the other. -/
theorem exists_acquired {l : List ι} (hnodup : l.Nodup) (hidle : ∀ i ∈ l, s.calls i = .idle) :
    ∃ t, (machine ι).run s (l.map .acquire) = some t ∧ t.tally.released = s.tally.released ∧
      ∀ i, t.calls i = .idle ↔ i ∉ l ∧ s.calls i = .idle := by
  induction l generalizing s with
  | nil => exact ⟨s, rfl, rfl, by simp⟩
  | cons i l ih =>
      rcases List.nodup_cons.1 hnodup with ⟨hnotin, htail⟩
      have hi : s.calls i = .idle := hidle i List.mem_cons_self
      have hnext : ∃ u, step s (.acquire i) = some u := by
        apply Option.isSome_iff_exists.1
        simp [step, hi]
      rcases hnext with ⟨u, hu⟩
      have hrest : ∀ j ∈ l, u.calls j = .idle := by
        intro j hj
        have hne : j ≠ i := fun heq => hnotin (heq ▸ hj)
        exact (idle_of_acquire hu).2 ⟨hne, hidle j (List.mem_cons_of_mem i hj)⟩
      rcases ih htail hrest with ⟨t, hrun, hreleased, hleft⟩
      refine ⟨t, (Machine.run_cons_eq_some _).2 ⟨u, hu, hrun⟩,
        hreleased.trans (tally_acquire hu).2.2.1, ?_⟩
      intro j
      rw [hleft j, idle_of_acquire hu, List.mem_cons, not_or, and_left_comm, and_assoc]

omit [DecidableEq ι] in
/-- No more calls than permits all pass, as long as none has released. -/
theorem Balanced.passed_of_few (h : Balanced permits s) (hreleased : s.tally.released = 0)
    (hfew : (Finset.univ.filter fun i => s.calls i ≠ .idle).card ≤ permits) {i : ι}
    (hi : s.calls i ≠ .idle) : s.calls i = .passed := by
  have hidle : s.tally.idle = (Finset.univ.filter fun i => s.calls i = .idle).card := by
    refine total_eq_card (p := fun phase => phase = .idle) ?_ s.calls
    intro phase
    cases phase <;> rfl
  have hsplit : (Finset.univ.filter fun i => s.calls i = .idle).card +
      (Finset.univ.filter fun i => s.calls i ≠ .idle).card = Fintype.card ι :=
    Finset.card_filter_add_card_filter_not _
  rcases h.tally with ⟨_, hpassed, hcallers, hbehind⟩
  have hblocked : s.tally.blocked = 0 := by omega
  cases hphase : s.calls i with
  | idle => exact absurd hphase hi
  | waiting => exact absurd (blocked_pos_iff.2 ⟨i, .inl hphase⟩) (hblocked ▸ Nat.lt_irrefl 0)
  | notified => exact absurd (blocked_pos_iff.2 ⟨i, .inr hphase⟩) (hblocked ▸ Nat.lt_irrefl 0)
  | passed => rfl
  | released =>
      have hzero : ends (s.calls i) = 0 := total_eq_zero_iff.1 hreleased i
      rw [hphase] at hzero
      cases hzero

/-- More blocked calls than permits end in a deadlock once the tasks under way are done. -/
theorem Balanced.exists_deadlocked (h : Balanced permits s) (hmore : permits < s.tally.blocked) :
    ∃ rels t, (∀ ev ∈ rels, ev.IsRelease) ∧ (machine ι).run s rels = some t ∧ t.Deadlocked := by
  rcases h.exists_drained with ⟨rels, t, hrels, hrun, hzero⟩
  exact ⟨rels, t, hrels, hrun, (h.run hrun).deadlocked_iff.2 ⟨hzero, crowded_run h hmore hrun⟩⟩

/-- Releases block nobody. -/
theorem Balanced.blocked_releases (h : Balanced permits s) (hfew : s.tally.blocked ≤ permits)
    {rels : List (SemaphoreEvent ι)} (hrels : ∀ ev ∈ rels, ev.IsRelease)
    (hrun : (machine ι).run s rels = some t) : t.tally.blocked ≤ permits := by
  have hboth : Balanced permits t ∧ t.tally.blocked ≤ permits := by
    refine (machine ι).run_invariant_of_steps (C := fun _ ev => ev.IsRelease)
      (I := fun u => Balanced permits u ∧ u.tally.blocked ≤ permits) ?_ ⟨h, hfew⟩
      (Machine.Steps.of_labels (machine ι) hrels) hrun
    rintro u ev v ⟨hu, hle⟩ hrel hnext
    refine ⟨hu.step hnext, (hu.blocked_step_iff hle hnext).2 ?_⟩
    cases ev with
    | release i woken => trivial
    | acquire i => exact absurd hrel id
    | recheck i => exact absurd hrel id
    | spuriousWake i => exact absurd hrel id
  exact hboth.2

/-- A run leaves room at each of its steps exactly when at most `permits` calls are blocked at its
end: a crowd never clears. -/
theorem steps_roomToWait_iff {evs : List (SemaphoreEvent ι)}
    (hrun : (machine ι).run (start ι permits) evs = some t) :
    (machine ι).Steps RoomToWait (start ι permits) evs ↔ t.tally.blocked ≤ permits := by
  have hnobody : (start ι permits).tally.blocked ≤ permits := by
    simp [tally, start, total_const, blocks]
  have hiff : t.tally.blocked ≤ permits ↔ (start ι permits).tally.blocked ≤ permits ∧
      (machine ι).Steps RoomToWait (start ι permits) evs := by
    refine (machine ι).run_iff_steps (I := Balanced permits) (F := fun _ => True)
      (P := fun u => u.tally.blocked ≤ permits) ?_ ?_ (balanced_start permits)
      (fun _ _ => trivial) hrun
    · intro u ev v hu _ hnext
      exact hu.step hnext
    · intro u ev v hu _ hnext
      exact hu.blocked_le_step_iff hnext
  rw [hiff, and_iff_right hnobody]

variable (ι) in
/-- When all of more than `2 * permits` calls have entered and none has released, more than
`permits` are blocked. -/
theorem exists_crowded (hmany : 2 * permits < Fintype.card ι) :
    ∃ evs t, (machine ι).run (start ι permits) evs = some t ∧ permits < t.tally.blocked := by
  have hidle : ∀ i ∈ Finset.univ.toList, (start ι permits).calls i = .idle := fun _ _ => rfl
  rcases exists_acquired (Finset.nodup_toList _) hidle with ⟨t, hrun, hreleased, hleft⟩
  refine ⟨_, t, hrun, ?_⟩
  -- nobody is idle and nobody has released, so all but `permits` calls are blocked
  have hnobody : t.tally.idle = 0 := idle_eq_zero_iff.2 fun i hi => by simp [hleft] at hi
  have hzero : (start ι permits).tally.released = 0 := by
    simp [tally, start, total_const, ends]
  rcases ((balanced_start permits).run hrun).tally with ⟨_, hpassed, hcallers, _⟩
  omega

end Runs

/-- With at most `2 * permits` calls no interleaving gets stuck, and with one more some interleaving
does.  For any number of calls, a run in which every call that has to wait finds fewer than
`permits` calls blocked is never stuck, and after any other run the tasks under way only have to
finish. -/
theorem deadlock_free_iff (ι : Type) [Fintype ι] [DecidableEq ι] (permits : Nat) :
    ((∀ evs t, (machine ι).run (start ι permits) evs = some t → ¬ t.Deadlocked) ↔
        Fintype.card ι ≤ 2 * permits) ∧
      ∀ evs t, (machine ι).run (start ι permits) evs = some t →
        ((machine ι).Steps RoomToWait (start ι permits) evs ↔
          ∀ rels u, (∀ ev ∈ rels, ev.IsRelease) → (machine ι).run t rels = some u →
            ¬ u.Deadlocked) := by
  have hstart : Balanced permits (start ι permits) := balanced_start permits
  refine ⟨⟨?_, ?_⟩, ?_⟩
  · intro hfree
    by_contra hmany
    rcases exists_crowded ι (Nat.lt_of_not_le hmany) with ⟨evs, t, hrun, hmore⟩
    rcases (hstart.run hrun).exists_deadlocked hmore with ⟨rels, u, _, hrels, hdead⟩
    exact hfree _ u ((Machine.run_append_eq_some _).2 ⟨t, hrun, hrels⟩) hdead
  · intro hfew evs t hrun hdead
    have ht : Balanced permits t := hstart.run hrun
    rcases ht.deadlocked_iff.1 hdead with ⟨hpassed, hmore⟩
    -- the blocked calls and the calls they wait behind do not fit into `2 * permits`
    rcases ht.tally with ⟨_, _, hcallers, hbehind⟩
    omega
  · intro evs t hrun
    have ht : Balanced permits t := hstart.run hrun
    rw [steps_roomToWait_iff hrun]
    constructor
    · intro hfew rels u hrels hrest hdead
      have hmore := ((ht.run hrest).deadlocked_iff.1 hdead).2
      exact absurd (ht.blocked_releases hfew hrels hrest) (Nat.not_le.2 hmore)
    · intro hfree
      by_contra hmany
      rcases ht.exists_deadlocked (Nat.lt_of_not_le hmany) with ⟨rels, u, hrels, hrest, hdead⟩
      exact hfree rels u hrels hrest hdead

instance {ι : Type} [Fintype ι] (s : SemaphoreState ι) : Decidable s.Deadlocked :=
  inferInstanceAs (Decidable (_ ∧ _ ∧ _))

/-- One permit, three calls: the first passes, two wait, and when the first is done the woken call
finds the counter at two. -/
theorem semaphore_deadlocks :
    ¬ ∀ permits n : Nat, 1 ≤ permits → ∀ evs t,
        (machine (Fin n)).run (start (Fin n) permits) evs = some t → ¬ t.Deadlocked := by
  intro h
  exact h 1 3 (Nat.le_refl 1)
    [.acquire 0, .acquire 1, .acquire 2, .release 0 (some 1), .recheck 1] _ rfl (by decide)

end SemaphoreState
end Quik
end TpuSender
