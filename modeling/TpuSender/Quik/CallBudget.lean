import TpuSender.Quik.SharedConnection
import TpuSender.Quik.WarmingCalls

/-!
# CallBudget — what concurrent calls cost, and that they end

The loop's guard counts created connections only, and a reuse is free.  What bounds the reuses is
the other calls: a call does not take the connection it has just used, so it takes one more only
after somebody else installed one.  `Budgeted` keeps these accounts for any family of calls.

`send_buffers_terminate` is about calls with data, `mixed_calls_terminate` about calls of either
kind: they all end, and the one panic is that of a client's first connection.
-/

namespace TpuSender
namespace Quik

open Library

namespace ClientState

/-! ## What the calls keep among them -/

variable {ι Conn : Type} [DecidableEq ι] [Fintype ι] (stableId : Conn → Nat)

/-- A running call has taken one connection more than the others installed for it, and only while
that connection is still the one behind the lock. -/
structure Budgeted (s : ClientState ι Conn) : Prop where
  paced : ∀ i, Paced stableId (s.calls i)
  reused_le : ∀ i, (s.calls i).reused ≤ s.othersInstalled i + 1
  fresh : ∀ i, (s.calls i).isRunning = true →
    s.connection.map stableId ≠ some (s.calls i).lastConnectionId →
    (s.calls i).reused ≤ s.othersInstalled i
  others_le : ∀ i, s.othersInstalled i + (s.calls i).created ≤ total Call.created s.calls

variable {stableId}

omit [DecidableEq ι] in
theorem budgeted_start (connection : Option Conn) (data : ι → List UInt8) :
    Budgeted stableId (start connection data) :=
  { paced := fun i => paced_start stableId (data i)
    reused_le := fun _ => Nat.zero_le _
    fresh := fun _ _ _ => Nat.zero_le _
    others_le := fun _ => Nat.zero_le _ }

section Preservation

variable {s t : ClientState ι Conn} {i : ι}

/-- A step of one call that leaves the connection alone and takes none keeps the budget. -/
theorem Budgeted.local_step (h : Budgeted stableId s) {call : Call Conn}
    (hpaced : Paced stableId call) (hcreated : call.created = (s.calls i).created)
    (hreused : call.reused = (s.calls i).reused)
    (hlast : call.isRunning = true → (s.calls i).isRunning = true ∧
      call.lastConnectionId = (s.calls i).lastConnectionId) :
    Budgeted stableId { s with calls := Function.update s.calls i call } := by
  have htotal :
      total Call.created (Function.update s.calls i call) = total Call.created s.calls :=
    total_update_of_eq hcreated
  refine
    { paced := ?_
      reused_le := ?_
      fresh := ?_
      others_le := ?_ }
  · exact (Function.forall_update_iff s.calls fun _ c => Paced stableId c).2
      ⟨hpaced, fun j _ => h.paced j⟩
  · exact (Function.forall_update_iff s.calls fun j c => c.reused ≤ s.othersInstalled j + 1).2
      ⟨hreused ▸ h.reused_le i, fun j _ => h.reused_le j⟩
  · refine (Function.forall_update_iff s.calls fun j c => c.isRunning = true →
      s.connection.map stableId ≠ some c.lastConnectionId → c.reused ≤ s.othersInstalled j).2
      ⟨?_, fun j _ => h.fresh j⟩
    intro hrunning hne
    rcases hlast hrunning with ⟨hrun, heq⟩
    rw [hreused]
    exact h.fresh i hrun (heq ▸ hne)
  · rw [htotal]
    exact (Function.forall_update_iff s.calls fun j c =>
      s.othersInstalled j + c.created ≤ total Call.created s.calls).2
      ⟨hcreated ▸ h.others_le i, fun j _ => h.others_le j⟩

/-- A choice that installs nothing: it may take the connection behind the lock, and then uses up the
last allowance until that connection is replaced. -/
theorem Budgeted.afterLock_kept (h : Budgeted stableId s)
    (hlooping : (s.calls i).progress = .looping) {choice : Choice Conn}
    (hfits : choice.Fits stableId s.connection (s.calls i).lastConnectionId)
    (hkept : choice.creates = false) : Budgeted stableId (s.afterLock stableId i choice) := by
  have hrunning : (s.calls i).isRunning = true := by
    simp [Call.isRunning, hlooping]
  have hcreated : ((s.calls i).afterChoice stableId choice).created = (s.calls i).created := by
    rw [Call.created_afterChoice, hkept]
    rfl
  have hslot : Call.install s.connection choice = s.connection := by
    rw [Call.install_eq, hkept]
    rfl
  have htotal : total Call.created (Function.update s.calls i
      ((s.calls i).afterChoice stableId choice)) = total Call.created s.calls :=
    total_update_of_eq hcreated
  -- what is taken now was not taken before
  have hreused : ((s.calls i).afterChoice stableId choice).reused ≤ s.othersInstalled i + 1 := by
    rw [Call.reused_afterChoice]
    cases choice with
    | made connection => cases hkept
    | reconnected old connection => cases hkept
    | failed err => simpa [Choice.reuses] using h.reused_le i
    | noEndpoint => simpa [Choice.reuses] using h.reused_le i
    | reused connection =>
        have hle : (s.calls i).reused ≤ s.othersInstalled i := by
          apply h.fresh i hrunning
          rw [hfits.1]
          intro heq
          exact hfits.2 (Option.some.inj heq)
        simpa [Choice.reuses] using hle
  refine
    { paced := ?_
      reused_le := ?_
      fresh := ?_
      others_le := ?_ }
  · exact (Function.forall_update_iff s.calls fun _ c => Paced stableId c).2
      ⟨(h.paced i).afterChoice hlooping choice, fun j _ => h.paced j⟩
  · intro j
    by_cases hj : j = i
    · subst hj
      simpa [afterLock, hkept] using hreused
    · simpa [afterLock, hkept, hj] using h.reused_le j
  · intro j hrun hne
    by_cases hj : j = i
    · subst hj
      simp only [afterLock, Function.update_self] at hrun hne
      rcases lastConnectionId_afterChoice hrun with ⟨connection, hchoice, hid⟩
      refine absurd ?_ hne
      rw [hslot, hid]
      cases choice with
      | made connection' => cases hkept
      | reconnected old connection' => cases hkept
      | failed err => cases hchoice
      | noEndpoint => cases hchoice
      | reused connection' =>
          cases hchoice
          rw [hfits.1]
          rfl
    · simp only [afterLock, hkept, hslot, Function.update_of_ne hj] at hrun hne ⊢
      exact h.fresh j hrun hne
  · intro j
    by_cases hj : j = i
    · subst hj
      simpa [afterLock, hkept, htotal, hcreated] using h.others_le j
    · simpa [afterLock, hkept, htotal, hj] using h.others_le j

/-- Installing a connection gives every other running call one more to take. -/
theorem Budgeted.afterLock_creates (h : Budgeted stableId s)
    (hlooping : (s.calls i).progress = .looping) {choice : Choice Conn}
    (hcreates : choice.creates = true) : Budgeted stableId (s.afterLock stableId i choice) := by
  have hcreated : ((s.calls i).afterChoice stableId choice).created = (s.calls i).created + 1 := by
    rw [Call.created_afterChoice, if_pos hcreates]
  have hnot : choice.reuses = false := by
    cases choice with
    | made connection => rfl
    | reconnected old connection => rfl
    | reused connection => cases hcreates
    | failed err => rfl
    | noEndpoint => rfl
  have hreused : ((s.calls i).afterChoice stableId choice).reused = (s.calls i).reused := by
    rw [Call.reused_afterChoice, hnot]
    rfl
  have htotal : total Call.created (Function.update s.calls i
      ((s.calls i).afterChoice stableId choice)) = total Call.created s.calls + 1 :=
    total_update_of_succ hcreated
  have hself : s.noteInstall i i = s.othersInstalled i := by
    simp [noteInstall]
  refine
    { paced := ?_
      reused_le := ?_
      fresh := ?_
      others_le := ?_ }
  · exact (Function.forall_update_iff s.calls fun _ c => Paced stableId c).2
      ⟨(h.paced i).afterChoice hlooping choice, fun j _ => h.paced j⟩
  · intro j
    by_cases hj : j = i
    · subst hj
      simpa [afterLock, hcreates, hreused, hself] using h.reused_le j
    · have hle := h.reused_le j
      have hmore := (noteInstall_bounds s i j).1
      simp only [afterLock, hcreates, if_true, Function.update_of_ne hj]
      omega
  · intro j hrun hne
    by_cases hj : j = i
    · subst hj
      simp only [afterLock, Function.update_self] at hrun hne
      rcases lastConnectionId_afterChoice hrun with ⟨connection, hchoice, hid⟩
      refine absurd ?_ hne
      rw [Call.install_eq, if_pos hcreates, hchoice, hid]
      rfl
    · simp only [afterLock, hcreates, if_true, Function.update_of_ne hj] at hrun ⊢
      cases hlog : (s.calls j).log with
      | nil =>
          -- a call that has not looked at the connection yet has taken none
          have hnone : (s.calls j).reused = 0 := by
            simp [Call.reused, hlog]
          omega
      | cons op rest =>
          have hbump : s.noteInstall i j = s.othersInstalled j + 1 := by
            simp [noteInstall, hj, hrun, hlog]
          rw [hbump]
          exact h.reused_le j
  · intro j
    by_cases hj : j = i
    · subst hj
      have hle := h.others_le j
      simp only [afterLock, hcreates, if_true, Function.update_self, htotal, hself, hcreated]
      omega
    · have hle := h.others_le j
      have hmore := (noteInstall_bounds s i j).2
      simp only [afterLock, hcreates, if_true, Function.update_of_ne hj, htotal]
      omega

theorem Budgeted.step (h : Budgeted stableId s) {ev : ClientEvent ι Conn}
    (hstep : step stableId s ev = some t) : Budgeted stableId t := by
  cases ev with
  | lock i answers =>
      rcases step_lock hstep with ⟨hlooping, choice, hchoice, rfl⟩
      cases hcreates : choice.creates with
      | true => exact h.afterLock_creates hlooping hcreates
      | false => exact h.afterLock_kept hlooping (Call.choose_fits hchoice.symm) hcreates
  | write i outcome =>
      rcases step_write hstep with ⟨connection, hwriting, rfl⟩
      have hrunning : (s.calls i).isRunning = true := by
        simp [Call.isRunning, hwriting]
      apply h.local_step ((h.paced i).writeStep hwriting outcome)
        (Call.created_writeStep _ connection outcome) (Call.reused_writeStep _ connection outcome)
      intro _
      exact ⟨hrunning, (Call.writeStep_keeps _ connection outcome).2.2⟩
  | abandon i =>
      rcases step_abandon hstep with ⟨hrunning, rfl⟩
      apply h.local_step ((h.paced i).abandon hrunning) rfl rfl
      intro hrun
      cases hrun

theorem Budgeted.run (h : Budgeted stableId s) {evs : List (ClientEvent ι Conn)}
    (hrun : (machine ι stableId).run s evs = some t) : Budgeted stableId t := by
  refine (machine ι stableId).run_invariant ?_ h hrun
  intro u ev v hu hnext
  exact hu.step hnext

end Preservation

/-! ## Bounds -/

section Bounds

variable {s : ClientState ι Conn}

omit [DecidableEq ι] in
/-- The others install at most two connections each. -/
theorem Budgeted.others_le_card (h : Budgeted stableId s) (i : ι) :
    s.othersInstalled i + 2 ≤ 2 * Fintype.card ι := by
  have hslack := total_add_slack_le (w := Call.created) (f := s.calls) (n := 2)
    (fun j => (h.paced j).counts.1) i
  have hothers := h.others_le i
  have hcreated := (h.paced i).counts.1
  omega

omit [DecidableEq ι] in
theorem Budgeted.writes_le (h : Budgeted stableId s) (i : ι) :
    (s.calls i).writes ≤ 3 + s.othersInstalled i ∧
      (s.calls i).writes ≤ 2 * Fintype.card ι + 1 := by
  rcases (h.paced i).counts with ⟨hcreated, hwrites, _⟩
  have hreused := h.reused_le i
  have hothers := h.others_le_card i
  omega

/-- The most steps that a call can take among `n` calls. -/
def stepBudget (n : Nat) : Nat := 4 * n + 4

omit [DecidableEq ι] in
theorem Budgeted.steps_le (h : Budgeted stableId s) (i : ι) :
    (s.calls i).steps ≤ stepBudget (Fintype.card ι) := by
  rcases (h.paced i).counts with ⟨hcreated, hwrites, hsteps⟩
  have hreused := h.reused_le i
  have hothers := h.others_le_card i
  unfold stepBudget
  omega

omit [DecidableEq ι] in
/-- A call with data takes one step less than a call of either kind may. -/
theorem Budgeted.steps_le_of_sound (h : Budgeted stableId s) {i : ι}
    (hsound : Sound stableId (s.calls i)) : (s.calls i).steps ≤ 4 * Fintype.card ι + 3 := by
  have hone : (if (s.calls i).isRunning = true then 0 else 1) ≤ 1 := by
    split <;> decide
  -- as many writes as connections in hand, made or taken
  have hhand : (s.calls i).created + (s.calls i).reused ≤ 2 + (s.othersInstalled i + 1) :=
    Nat.add_le_add hsound.created_le (h.reused_le i)
  have hothers : s.othersInstalled i + 2 ≤ 2 * Fintype.card ι := h.others_le_card i
  calc
    (s.calls i).steps ≤ (s.calls i).created + (s.calls i).reused + (s.calls i).writes + 1 :=
      hsound.steps_le.trans (Nat.add_le_add_left hone _)
    _ ≤ 2 * (2 + (s.othersInstalled i + 1)) + 1 := by
      have hwrites := hsound.writes_le
      omega
    _ ≤ 4 * Fintype.card ι + 3 := by omega

end Bounds

/-! ## Whole runs -/

section Runs

variable {connection : Option Conn} {data : ι → List UInt8} {evs : List (ClientEvent ι Conn)}
  {t : ClientState ι Conn}

omit [Fintype ι] in
theorem sound_run (hrun : (machine ι stableId).run (start connection data) evs = some t) (i : ι)
    (hdata : data i ≠ []) : Sound stableId (t.calls i) := by
  have hall : ∀ i, data i ≠ [] → Sound stableId (t.calls i) := by
    refine (machine ι stableId).run_invariant
      (I := fun s => ∀ i, data i ≠ [] → Sound stableId (s.calls i)) ?_
      (fun i hdata => sound_start hdata) hrun
    intro u ev v hu hnext
    exact calls_step (I := fun i call => data i ≠ [] → Sound stableId call)
      (fun _ _ choice h hp hdata => (h hdata).afterChoice hp choice)
      (fun _ _ _ outcome h hp hdata => (h hdata).writeStep hp outcome)
      (fun _ _ h hp hdata => (h hdata).abandon hp) hu hnext
  exact hall i hdata

omit [Fintype ι] in
theorem warming_run (hrun : (machine ι stableId).run (start connection data) evs = some t) (i : ι)
    (hdata : data i = []) : Warming (t.calls i) := by
  have hall : ∀ i, data i = [] → Warming (t.calls i) := by
    refine (machine ι stableId).run_invariant
      (I := fun s => ∀ i, data i = [] → Warming (s.calls i)) ?_ ?_ hrun
    · intro u ev v hu hnext
      exact calls_step (I := fun i call => data i = [] → Warming call)
        (fun _ _ choice h hp hdata => (h hdata).afterChoice hp choice)
        (fun _ _ c _ h hp hdata => absurd hp ((h hdata).not_writing c))
        (fun _ _ h hp hdata => (h hdata).abandon hp) hu hnext
    · intro i hdata
      simp only [start, hdata]
      exact warming_start
  exact hall i hdata

/-- Every step of the machine is a step of one of the calls. -/
theorem length_le_of_steps_le {n : Nat} (h : ∀ i, (t.calls i).steps ≤ n)
    (hrun : (machine ι stableId).run (start connection data) evs = some t) :
    evs.length ≤ Fintype.card ι * n := by
  have hcount : total Call.steps t.calls =
      total Call.steps (start connection data).calls + evs.length := by
    refine (machine ι stableId).run_measure (m := fun s => total Call.steps s.calls) ?_ hrun
    intro u ev v hnext
    exact total_steps_step hnext
  calc
    evs.length ≤ total Call.steps t.calls := hcount ▸ Nat.le_add_left _ _
    _ ≤ Fintype.card ι * n := total_le_card_mul h

/-- Only a client that has had no connection yet can panic, and then as the first thing that a call
does; `first` is the connection at the start. -/
structure PanicsFirst (first : Option Conn) (s : ClientState ι Conn) : Prop where
  kept : first.isSome → s.connection.isSome
  held : ∀ i, (s.calls i).isRunning = true →
    (s.calls i).progress = .looping ∧ (s.calls i).log = [] ∨ s.connection.isSome
  panicked : ∀ i, (s.calls i).progress = .noEndpoint →
    first = none ∧ (s.calls i).log = [.chose .noEndpoint]

omit [Fintype ι] [DecidableEq ι] in
theorem panicsFirst_start (connection : Option Conn) (data : ι → List UInt8) :
    PanicsFirst connection (start connection data) :=
  { kept := id
    held := fun _ _ => .inl ⟨rfl, rfl⟩
    panicked := nofun }

omit [Fintype ι] in
/-- A step on one call that leaves a connection behind the lock where there was one. -/
theorem PanicsFirst.of_update {s u : ClientState ι Conn} (h : PanicsFirst connection s) {i : ι}
    {call : Call Conn} (hcalls : u.calls = Function.update s.calls i call)
    (hkept : s.connection.isSome → u.connection.isSome)
    (hheld : call.isRunning = true →
      call.progress = .looping ∧ call.log = [] ∨ u.connection.isSome)
    (hpanicked : call.progress = .noEndpoint → connection = none ∧ call.log = [.chose .noEndpoint]) :
    PanicsFirst connection u := by
  refine
    { kept := fun hsome => hkept (h.kept hsome)
      held := ?_
      panicked := ?_ }
  · rw [hcalls]
    exact (Function.forall_update_iff s.calls fun _ (call : Call Conn) =>
      call.isRunning = true → call.progress = .looping ∧ call.log = [] ∨ u.connection.isSome).2
      ⟨hheld, fun j _ hrun => (h.held j hrun).imp_right hkept⟩
  · rw [hcalls]
    exact (Function.forall_update_iff s.calls fun _ (call : Call Conn) =>
      call.progress = .noEndpoint → connection = none ∧ call.log = [.chose .noEndpoint]).2
      ⟨hpanicked, fun j _ => h.panicked j⟩

omit [Fintype ι] in
theorem isSome_connection_afterLock (s : ClientState ι Conn) (i : ι) (choice : Choice Conn)
    (hsome : s.connection.isSome) : (s.afterLock stableId i choice).connection.isSome := by
  simp only [ClientState.afterLock, Call.install_eq]
  split
  next hcreates =>
    cases hchoice : choice.connection? with
    | some c => rfl
    | none =>
        rw [(Choice.counts_of_connection?_eq_none hchoice).1] at hcreates
        cases hcreates
  next => exact hsome

omit [Fintype ι] [DecidableEq ι] in
/-- A call that is looping on a client without a connection has done nothing before. -/
theorem PanicsFirst.untouched {s : ClientState ι Conn} (h : PanicsFirst connection s) {i : ι}
    (hrunning : (s.calls i).isRunning = true) (hslot : s.connection = none) :
    connection = none ∧ (s.calls i).log = [] := by
  constructor
  · cases hfirst : connection with
    | none => rfl
    | some c =>
        have hsome := h.kept (by rw [hfirst]; rfl)
        rw [hslot] at hsome
        cases hsome
  · rcases h.held i hrunning with ⟨_, hlog⟩ | hsome
    · exact hlog
    · rw [hslot] at hsome
      cases hsome

omit [Fintype ι] in
theorem PanicsFirst.afterLock {s : ClientState ι Conn} (h : PanicsFirst connection s) {i : ι}
    (hlooping : (s.calls i).progress = .looping) {choice : Choice Conn}
    (hfits : choice.Fits stableId s.connection (s.calls i).lastConnectionId) :
    PanicsFirst connection (s.afterLock stableId i choice) := by
  have hrunning : (s.calls i).isRunning = true := by
    simp [Call.isRunning, hlooping]
  refine h.of_update rfl (isSome_connection_afterLock s i choice) ?_ ?_
  · intro hrun
    -- a call that goes on has a connection in hand, which is behind the lock
    rcases lastConnectionId_afterChoice hrun with ⟨c, hchoice, _⟩
    refine .inr ?_
    simp only [ClientState.afterLock, Call.install_eq, hchoice]
    cases choice with
    | made c' => rfl
    | reconnected old c' => rfl
    | reused c' =>
        rw [hfits.1]
        rfl
    | failed err => cases hchoice
    | noEndpoint => cases hchoice
  · intro hpanicked
    rcases Call.afterChoice_cases stableId (s.calls i) choice with
      ⟨_, _, heq⟩ | ⟨rfl, heq⟩ | ⟨_, _, _, heq⟩ | ⟨_, _, _, heq⟩
    · rw [heq] at hpanicked
      cases hpanicked
    · rcases h.untouched hrunning hfits with ⟨hnone, hlog⟩
      rw [heq, hlog]
      exact ⟨hnone, rfl⟩
    · rw [heq] at hpanicked
      cases hpanicked
    · rw [heq] at hpanicked
      cases hpanicked

omit [Fintype ι] in
theorem PanicsFirst.step {s u : ClientState ι Conn} (h : PanicsFirst connection s)
    {ev : ClientEvent ι Conn} (hstep : step stableId s ev = some u) :
    PanicsFirst connection u := by
  cases ev with
  | lock i answers =>
      rcases step_lock hstep with ⟨hlooping, choice, hchoice, rfl⟩
      exact h.afterLock hlooping (Call.choose_fits hchoice.symm)
  | write i outcome =>
      rcases step_write hstep with ⟨c, hwriting, rfl⟩
      refine h.of_update rfl id ?_ ?_
      · -- a call that writes has left the loop's top, so there is a connection
        intro _
        have hrunning : (s.calls i).isRunning = true := by
          simp [Call.isRunning, hwriting]
        rcases h.held i hrunning with ⟨hlooping, _⟩ | hsome
        · cases hlooping.symm.trans hwriting
        · exact .inr hsome
      · intro hpanicked
        rcases Call.writeStep_progress (s.calls i) c outcome with hp | ⟨_, hp⟩
        · cases hp.symm.trans hpanicked
        · cases hp.symm.trans hpanicked
  | abandon i =>
      rcases step_abandon hstep with ⟨_, rfl⟩
      refine h.of_update rfl id ?_ ?_
      · intro hrunning
        cases hrunning
      · intro hpanicked
        cases hpanicked

end Runs

/-! ## Termination -/

/-- Concurrent calls with data terminate within a bounded number of steps of all of them, never
reach the panic, make at most two connections and at most three writes more than the others install
connections for them, and each returns the outcome of the last thing it did. -/
theorem send_buffers_terminate (stableId : Conn → Nat) (connection : Option Conn)
    (data : ι → List UInt8) (hdata : ∀ i, data i ≠ []) (evs : List (ClientEvent ι Conn))
    (t : ClientState ι Conn)
    (hrun : (machine ι stableId).run (start connection data) evs = some t) :
    (∀ i, (t.calls i).progress ≠ .panicked) ∧
      (∀ i, (t.calls i).created ≤ 2 ∧ (t.calls i).writes ≤ 3 + t.othersInstalled i ∧
        (t.calls i).writes ≤ 2 * Fintype.card ι + 1) ∧
      (∀ i result, (t.calls i).progress = .returned result → ReturnsLast (t.calls i) result) ∧
      evs.length ≤ Fintype.card ι * (4 * Fintype.card ι + 3) ∧
      ∀ i, (t.calls i).isRunning = true → CanStep stableId t i := by
  have hbudgeted : Budgeted stableId t := (budgeted_start connection data).run hrun
  have hsound : ∀ i, Sound stableId (t.calls i) := fun i => sound_run hrun i (hdata i)
  refine ⟨?_, ?_, ?_, ?_, ?_⟩
  · intro i
    exact (hsound i).calm
  · intro i
    exact ⟨(hsound i).created_le, hbudgeted.writes_le i⟩
  · intro i result hreturned
    exact (hsound i).returned result hreturned
  · exact length_le_of_steps_le (fun i => hbudgeted.steps_le_of_sound (hsound i)) hrun
  · intro i hrunning
    exact canStep_of_isRunning hrunning

theorem send_buffers_terminate_two :
    ∃ t, (machine (Fin 2) fun c => c + 1).run (start none fun _ => [1]) twoCalls = some t ∧
      (t.calls 0).writes ≤ 5 :=
  ⟨_, rfl, ((send_buffers_terminate (fun c => c + 1) none (fun _ => [1]) (by simp) twoCalls _
    rfl).2.1 0).2.2⟩

/-- Calls of any data, run concurrently on one client, end within a bounded number of steps of all
of them.  None panics but for want of an endpoint: as the first thing it does, and only if the
client had no connection at the start.  Each makes at most two connections and writes at most three
times more than the others install connections for it.  A call without data writes nothing and
returns what its one locked block came to; a call with data returns the outcome of the last thing it
did. -/
theorem mixed_calls_terminate (stableId : Conn → Nat) (connection : Option Conn)
    (data : ι → List UInt8) (evs : List (ClientEvent ι Conn)) (t : ClientState ι Conn)
    (hrun : (machine ι stableId).run (start connection data) evs = some t) :
    (∀ i, (t.calls i).hasPanicked = true → (t.calls i).progress = .noEndpoint ∧
        (t.calls i).log = [.chose .noEndpoint] ∧ connection = none) ∧
      (∀ i, (t.calls i).created ≤ 2 ∧ (t.calls i).writes ≤ 3 + t.othersInstalled i ∧
        (t.calls i).writes ≤ 2 * Fintype.card ι + 1) ∧
      (∀ i, data i = [] → (t.calls i).writes = 0 ∧ ∀ result,
        (t.calls i).progress = .returned result →
        ∃ choice, (t.calls i).log = [.chose choice] ∧ choice.result = some result) ∧
      (∀ i, data i ≠ [] → ∀ result, (t.calls i).progress = .returned result →
        ReturnsLast (t.calls i) result) ∧
      evs.length ≤ Fintype.card ι * stepBudget (Fintype.card ι) ∧
      ∀ i, (t.calls i).isRunning = true → CanStep stableId t i := by
  have hbudgeted : Budgeted stableId t := (budgeted_start connection data).run hrun
  have hpanics : PanicsFirst connection t := by
    refine (machine ι stableId).run_invariant ?_ (panicsFirst_start connection data) hrun
    intro u ev v hu hnext
    exact hu.step hnext
  refine ⟨?_, ?_, ?_, ?_, ?_, ?_⟩
  · intro i hpanicked
    have hprogress : (t.calls i).progress = .noEndpoint :=
      Call.noEndpoint_of_hasPanicked (hbudgeted.paced i).calm hpanicked
    rcases hpanics.panicked i hprogress with ⟨hnone, hlog⟩
    exact ⟨hprogress, hlog, hnone⟩
  · intro i
    exact ⟨(hbudgeted.paced i).counts.1, hbudgeted.writes_le i⟩
  · intro i hdata
    have hwarming := warming_run hrun i hdata
    exact ⟨hwarming.writes_eq_zero, fun result => hwarming.result_eq⟩
  · intro i hdata
    exact (sound_run hrun i hdata).returned
  · exact length_le_of_steps_le hbudgeted.steps_le hrun
  · intro i hrunning
    exact canStep_of_isRunning hrunning

/-- The call `none` finds no port for an endpoint; then a warming call connects, and a call with
data writes on that connection. -/
def warmedCalls : List (ClientEvent (Option Bool) Nat) :=
  [.lock none ⟨.noEndpoint, .error .EndpointStopping⟩,
    .lock (some false) ⟨.ok (.connected 0), .error .EndpointStopping⟩,
    .lock (some true) ⟨.error .EndpointStopping, .error .EndpointStopping⟩,
    .write (some true) .written]

theorem mixed_calls_terminate_warmed :
    ∃ t, (machine (Option Bool) fun c => c + 1).run
        (start none fun i => if i.getD true then [1] else []) warmedCalls = some t ∧
      (t.calls (some false)).writes = 0 ∧ (t.calls none).log = [.chose .noEndpoint] := by
  have hterminate := mixed_calls_terminate (fun c => c + 1) none
    (fun i : Option Bool => if i.getD true then [1] else []) warmedCalls _ rfl
  exact ⟨_, rfl, (hterminate.2.2.1 (some false) rfl).1, (hterminate.1 none rfl).2.1⟩

end ClientState
end Quik
end TpuSender
