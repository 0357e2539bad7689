import TpuSender.Quik.SharedConnection

/-!
# ReconnectHistory — which connections replace which

A call remembers one number between its iterations, the id of the connection it last wrote on; the
connection behind the lock may be replaced by others in the meantime.  Two facts connect the two: a
connection that a call has used before and that is behind the lock is the one it used last
(`Settled.last`), and a connection that was replaced never comes back, since every connection made
is a new one.

So a reconnect follows on a failure that the reconnecting call has seen itself, no connection is
replaced twice and no call writes twice on one connection (`no_reconnect_storm`).
-/

namespace TpuSender
namespace Quik

open Library

/-! ## Connections in the log of a call -/

section Logs

variable {Conn : Type}

/-- The connection a choice has made. -/
def Choice.created? : Choice Conn → Option Conn
  | .made connection => some connection
  | .reconnected _ connection => some connection
  | .reused _ => none
  | .failed _ => none
  | .noEndpoint => none

/-- The connection a choice has replaced. -/
def Choice.replaced? : Choice Conn → Option Conn
  | .reconnected old _ => some old
  | _ => none

/-- Made by `make_connection`, not by a reconnect. -/
def Choice.isMade : Choice Conn → Bool
  | .made _ => true
  | _ => false

def Op.created? : Op Conn → Option Conn
  | .chose choice => choice.created?
  | .wrote _ _ _ => none

def Op.used? : Op Conn → Option Conn
  | .chose _ => none
  | .wrote connection _ _ => some connection

namespace Call

/-- The connections the call has made, newest first. -/
def createdConnections (call : Call Conn) : List Conn := call.log.filterMap Op.created?

/-- The connections the call has written on, newest first. -/
def usedConnections (call : Call Conn) : List Conn := call.log.filterMap Op.used?

variable {stableId : Conn → Nat} {call : Call Conn}

theorem install_eq_or (slot : Option Conn) (choice : Choice Conn) :
    install slot choice = choice.created?.or slot := by
  cases choice with
  | made c => rfl
  | reconnected old c => rfl
  | reused c => rfl
  | failed err => rfl
  | noEndpoint => rfl

theorem usedConnections_afterChoice (stableId : Conn → Nat) (call : Call Conn)
    (choice : Choice Conn) :
    (call.afterChoice stableId choice).usedConnections = call.usedConnections := by
  rw [usedConnections, log_afterChoice]
  rfl

theorem mem_createdConnections_afterChoice {choice : Choice Conn} {c : Conn} :
    c ∈ (call.afterChoice stableId choice).createdConnections ↔
      choice.created? = some c ∨ c ∈ call.createdConnections := by
  rw [createdConnections, log_afterChoice]
  cases hcreated : choice.created? with
  | none => simp [createdConnections, Op.created?, hcreated]
  | some made => simp [createdConnections, Op.created?, hcreated, eq_comm]

theorem usedConnections_writeStep (call : Call Conn) (connection : Conn) (outcome : StreamWrite) :
    (call.writeStep connection outcome).usedConnections = connection :: call.usedConnections := by
  rw [usedConnections, log_writeStep]
  rfl

theorem createdConnections_writeStep (call : Call Conn) (connection : Conn)
    (outcome : StreamWrite) :
    (call.writeStep connection outcome).createdConnections = call.createdConnections := by
  rw [createdConnections, log_writeStep]
  rfl

/-- After the locked block a call writes on the connection it was handed, or it has ended and
remembers what it did before. -/
theorem afterChoice_writes_or_ended (stableId : Conn → Nat) (call : Call Conn)
    (choice : Choice Conn) :
    (∃ c, choice.connection? = some c ∧
        (call.afterChoice stableId choice).progress = .writing c ∧
        (call.afterChoice stableId choice).lastConnectionId = stableId c) ∨
      (call.afterChoice stableId choice).isRunning = false ∧
        (call.afterChoice stableId choice).lastConnectionId = call.lastConnectionId := by
  rcases afterChoice_cases stableId call choice with
    ⟨err, _, heq⟩ | ⟨_, heq⟩ | ⟨c, _, _, heq⟩ | ⟨c, hchoice, _, heq⟩
  · rw [heq]
    exact .inr ⟨rfl, rfl⟩
  · rw [heq]
    exact .inr ⟨rfl, rfl⟩
  · -- a warming call takes the connection and returns
    rw [heq]
    exact .inr ⟨rfl, rfl⟩
  · rw [heq]
    exact .inl ⟨c, hchoice, rfl, rfl⟩

end Call

/-! ## What a call remembers -/

variable (stableId : Conn → Nat)

/-- The number a call keeps is that of a connection it has seen fail, or of the one it is about to
write on for the first time. -/
structure Remembers (call : Call Conn) : Prop where
  looping : call.progress = .looping → call.lastConnectionId = 0 ∨
    ∃ c data err, Op.wrote c data (.openFailed err) ∈ call.log ∧
      stableId c = call.lastConnectionId
  writing : ∀ c, call.progress = .writing c →
    call.lastConnectionId = stableId c ∧ c ∉ call.usedConnections
  distinct : call.usedConnections.Nodup

variable {stableId} {call : Call Conn}

theorem remembers_start (data : List UInt8) : Remembers stableId (Call.start data) :=
  { looping := fun _ => .inl rfl
    writing := by
      intro c h
      cases h
    distinct := List.nodup_nil }

theorem Remembers.afterChoice (h : Remembers stableId call) {choice : Choice Conn}
    (hnew : ∀ c, choice.connection? = some c → c ∉ call.usedConnections) :
    Remembers stableId (call.afterChoice stableId choice) := by
  have hused := Call.usedConnections_afterChoice stableId call choice
  rcases Call.afterChoice_writes_or_ended stableId call choice with
    ⟨c, hchoice, hwriting, hlast⟩ | ⟨hended, _⟩
  · refine ⟨?_, ?_, hused ▸ h.distinct⟩
    · intro hp
      cases hwriting.symm.trans hp
    · intro c' hp
      cases hwriting.symm.trans hp
      exact ⟨hlast, hused ▸ hnew c hchoice⟩
  · refine ⟨?_, ?_, hused ▸ h.distinct⟩
    · intro hp
      simp [Call.isRunning, hp] at hended
    · intro c' hp
      simp [Call.isRunning, hp] at hended

theorem Remembers.writeStep (h : Remembers stableId call) {connection : Conn}
    (hwriting : call.progress = .writing connection) (outcome : StreamWrite) :
    Remembers stableId (call.writeStep connection outcome) := by
  rcases h.writing connection hwriting with ⟨hlast, hnew⟩
  have hkept := (Call.writeStep_keeps call connection outcome).2.2
  refine ⟨?_, ?_, ?_⟩
  · -- the call is back at the guard: it has seen the connection fail
    intro hp
    rcases Call.openFailed_of_writeStep_looping hp with ⟨⟨err, rfl⟩, _⟩
    refine .inr ⟨connection, call.data, err, ?_, ?_⟩
    · rw [Call.log_writeStep]
      exact List.mem_cons_self
    · exact hlast.symm.trans hkept.symm
  · intro c hp
    exact absurd hp (Call.writeStep_not_writing call connection outcome c)
  · rw [Call.usedConnections_writeStep]
    exact List.nodup_cons.2 ⟨hnew, h.distinct⟩

theorem Remembers.abandon (h : Remembers stableId call) : Remembers stableId call.abandon :=
  { looping := by
      intro hp
      cases hp
    writing := by
      intro c hp
      cases hp
    distinct := h.distinct }

/-- A call that has seen a connection fail has not written on it since. -/
theorem Remembers.no_write_after_error (h : Remembers stableId call) {later rest : List (Op Conn)}
    {c : Conn} {data : List UInt8} {outcome : StreamWrite}
    (hlog : call.log = later ++ .wrote c data outcome :: rest) (data' : List UInt8)
    (err : ConnectionError) : Op.wrote c data' (.openFailed err) ∉ rest := by
  intro hmem
  have hdistinct := h.distinct
  rw [Call.usedConnections, hlog, List.filterMap_append,
    List.filterMap_cons_some (rfl : Op.used? (.wrote c data outcome) = some c)] at hdistinct
  have htail := (List.nodup_append.1 hdistinct).2.1
  have hearlier : c ∈ rest.filterMap Op.used? := List.mem_filterMap.2 ⟨_, hmem, rfl⟩
  exact (List.nodup_cons.1 htail).1 hearlier

end Logs

/-! ## The shared connection and the calls' memory -/

namespace ClientState

variable {ι Conn : Type} [DecidableEq ι] (stableId : Conn → Nat)

/-- Some call has made the connection. -/
def Created (s : ClientState ι Conn) (c : Conn) : Prop :=
  ∃ i, c ∈ (s.calls i).createdConnections

/-- What the locked block of an event comes to. -/
def choiceOf (s : ClientState ι Conn) (i : ι) (answers : ConnectAnswers Conn) : Choice Conn :=
  Call.choose stableId s.connection (s.calls i).lastConnectionId answers

/-- A connection that is made is a new one. -/
def MakesNew (s : ClientState ι Conn) : ClientEvent ι Conn → Prop
  | .lock i answers => ∀ c, (s.choiceOf stableId i answers).created? = some c → ¬ s.Created c
  | _ => True

/-- What ties the connection behind the lock to the calls' memory. -/
structure Settled (s : ClientState ι Conn) : Prop where
  current : ∀ c, s.connection = some c → s.Created c
  used : ∀ i c, c ∈ (s.calls i).usedConnections ∨ (s.calls i).progress = .writing c → s.Created c
  last : ∀ i c, s.connection = some c → c ∈ (s.calls i).usedConnections →
    (s.calls i).lastConnectionId = stableId c
  remembers : ∀ i, Remembers stableId (s.calls i)

variable {stableId}

omit [DecidableEq ι] in
theorem settled_start (data : ι → List UInt8) : Settled stableId (start none data) := by
  refine
    { current := ?_
      used := ?_
      last := ?_
      remembers := fun i => remembers_start (data i) }
  · intro c h
    cases h
  · rintro i c (h | h)
    · cases h
    · cases h
  · intro i c h
    cases h

section Preservation

variable {s t : ClientState ι Conn} {i : ι}

/-- A step of one call that keeps the connections it has made keeps those that all have made. -/
theorem Created.of_update {call : Call Conn} {c : Conn} (hc : s.Created c)
    (hcalls : t.calls = Function.update s.calls i call)
    (hkept : c ∈ (s.calls i).createdConnections → c ∈ call.createdConnections) : t.Created c := by
  rw [Created, hcalls,
    Function.exists_update_iff s.calls fun _ (d : Call Conn) => c ∈ d.createdConnections]
  rcases hc with ⟨j, hj⟩
  by_cases hji : j = i
  · subst hji
    exact .inl (hkept hj)
  · exact .inr ⟨j, hji, hj⟩

/-- A step of one call that makes no connection and leaves the one behind the lock alone. -/
theorem Settled.local_step (h : Settled stableId s) {call : Call Conn}
    (hcreated : call.createdConnections = (s.calls i).createdConnections)
    (hused : ∀ c, c ∈ call.usedConnections ∨ call.progress = .writing c →
      c ∈ (s.calls i).usedConnections ∨ (s.calls i).progress = .writing c)
    (hlast : call.lastConnectionId = (s.calls i).lastConnectionId)
    (hremembers : Remembers stableId call) :
    Settled stableId { s with calls := Function.update s.calls i call } := by
  have hsame : ∀ c, s.Created c →
      Created { s with calls := Function.update s.calls i call } c := by
    intro c hc
    exact hc.of_update rfl fun hmem => hcreated ▸ hmem
  refine
    { current := fun c hc => hsame c (h.current c hc)
      used := ?_
      last := ?_
      remembers := ?_ }
  · intro j c hc
    apply hsame
    revert hc
    revert j
    refine (Function.forall_update_iff s.calls fun _ d =>
      c ∈ d.usedConnections ∨ d.progress = .writing c → s.Created c).2 ⟨?_, ?_⟩
    · intro hc
      exact h.used i c (hused c hc)
    · intro j _ hc
      exact h.used j c hc
  · intro j c hslot
    revert j
    refine (Function.forall_update_iff s.calls fun _ d =>
      c ∈ d.usedConnections → d.lastConnectionId = stableId c).2 ⟨?_, ?_⟩
    · intro hc
      rw [hlast]
      rcases hused c (.inl hc) with hbefore | hwriting
      · exact h.last i c hslot hbefore
      · exact ((h.remembers i).writing c hwriting).1
    · intro j _ hc
      exact h.last j c hslot hc
  · exact (Function.forall_update_iff s.calls fun _ d => Remembers stableId d).2
      ⟨hremembers, fun j _ => h.remembers j⟩

omit [DecidableEq ι] in
/-- A connection that is handed out was just made, or is the one behind the lock and not the one the
call remembers. -/
theorem made_or_current {answers : ConnectAnswers Conn} {c : Conn}
    (hchoice : (s.choiceOf stableId i answers).connection? = some c) :
    (s.choiceOf stableId i answers).created? = some c ∨
      (s.choiceOf stableId i answers).created? = none ∧ s.connection = some c ∧
        stableId c ≠ (s.calls i).lastConnectionId := by
  have hfits : (s.choiceOf stableId i answers).Fits stableId s.connection
      (s.calls i).lastConnectionId := Call.choose_fits rfl
  cases hof : s.choiceOf stableId i answers with
  | made made =>
      rw [hof] at hchoice
      exact .inl hchoice
  | reconnected old made =>
      rw [hof] at hchoice
      exact .inl hchoice
  | reused found =>
      rw [hof] at hchoice hfits
      cases hchoice
      exact .inr ⟨rfl, hfits.1, hfits.2⟩
  | failed err =>
      rw [hof] at hchoice
      cases hchoice
  | noEndpoint =>
      rw [hof] at hchoice
      cases hchoice

omit [DecidableEq ι] in
/-- A call is never handed a connection it has used before. -/
theorem Settled.choice_new (h : Settled stableId s) {answers : ConnectAnswers Conn}
    (hnew : MakesNew stableId s (.lock i answers)) {c : Conn}
    (hchoice : (s.choiceOf stableId i answers).connection? = some c) :
    c ∉ (s.calls i).usedConnections := by
  intro hused
  rcases made_or_current hchoice with hmade | ⟨_, hslot, hid⟩
  · exact hnew c hmade (h.used i c (.inl hused))
  · -- what it finds behind the lock and has used is what it used last
    exact hid (h.last i c hslot hused).symm

theorem created_afterLock_iff {choice : Choice Conn} {c : Conn} :
    (s.afterLock stableId i choice).Created c ↔ choice.created? = some c ∨ s.Created c := by
  constructor
  · intro hc
    rw [Created, ClientState.afterLock, Function.exists_update_iff s.calls
      fun _ (d : Call Conn) => c ∈ d.createdConnections] at hc
    rcases hc with hself | ⟨j, _, hj⟩
    · rw [Call.mem_createdConnections_afterChoice] at hself
      exact hself.imp_right fun hbefore => ⟨i, hbefore⟩
    · exact .inr ⟨j, hj⟩
  · rintro (hmade | hbefore)
    · refine ⟨i, ?_⟩
      simp only [afterLock, Function.update_self, Call.mem_createdConnections_afterChoice]
      exact .inl hmade
    · apply hbefore.of_update rfl
      intro hmem
      exact Call.mem_createdConnections_afterChoice.2 (.inr hmem)

theorem connection_afterLock (s : ClientState ι Conn) (i : ι) (choice : Choice Conn) :
    (s.afterLock stableId i choice).connection = choice.created?.or s.connection :=
  Call.install_eq_or s.connection choice

theorem Settled.current_afterLock (h : Settled stableId s) {choice : Choice Conn} {c : Conn}
    (hc : (s.afterLock stableId i choice).connection = some c) :
    (s.afterLock stableId i choice).Created c := by
  rw [connection_afterLock] at hc
  rw [created_afterLock_iff]
  cases hmade : choice.created? with
  | some made =>
      rw [hmade] at hc
      exact .inl hc
  | none =>
      rw [hmade] at hc
      exact .inr (h.current c hc)

/-- What a call uses after its locked block was used before, or has just been handed out. -/
theorem Settled.used_afterLock (h : Settled stableId s) {answers : ConnectAnswers Conn} (j : ι)
    (c : Conn) :
    let next := s.afterLock stableId i (s.choiceOf stableId i answers)
    c ∈ (next.calls j).usedConnections ∨ (next.calls j).progress = .writing c →
      next.Created c := by
  intro next hc
  apply created_afterLock_iff.2
  revert hc
  revert j
  refine (Function.forall_update_iff s.calls fun _ d =>
    c ∈ d.usedConnections ∨ d.progress = .writing c → _).2 ⟨?_, ?_⟩
  · rintro (hused | hwriting)
    · rw [Call.usedConnections_afterChoice] at hused
      exact .inr (h.used i c (.inl hused))
    · rcases Call.afterChoice_writes_or_ended stableId (s.calls i)
        (s.choiceOf stableId i answers) with ⟨c', hhanded, hp, _⟩ | ⟨hended, _⟩
      · cases hp.symm.trans hwriting
        rcases made_or_current hhanded with hmade | ⟨_, hslot, _⟩
        · exact .inl hmade
        · exact .inr (h.current c hslot)
      · simp [Call.isRunning, hwriting] at hended
  · intro j _ hc
    exact .inr (h.used j c hc)

/-- A connection behind the lock that a call has used before the locked block is not a new one, so
it is still the one that the call used last. -/
theorem Settled.last_afterLock (h : Settled stableId s) {answers : ConnectAnswers Conn}
    (hnew : MakesNew stableId s (.lock i answers)) (j : ι) (c : Conn) :
    let next := s.afterLock stableId i (s.choiceOf stableId i answers)
    next.connection = some c → c ∈ (next.calls j).usedConnections →
      (next.calls j).lastConnectionId = stableId c := by
  intro next hslot
  rw [connection_afterLock] at hslot
  revert j
  refine (Function.forall_update_iff s.calls fun _ d =>
    c ∈ d.usedConnections → d.lastConnectionId = stableId c).2 ⟨?_, ?_⟩
  · intro hused
    rw [Call.usedConnections_afterChoice] at hused
    cases hmade : (s.choiceOf stableId i answers).created? with
    | some made =>
        rw [hmade] at hslot
        cases hslot
        exact absurd (h.used i c (.inl hused)) (hnew c hmade)
    | none =>
        rw [hmade] at hslot
        rcases Call.afterChoice_writes_or_ended stableId (s.calls i)
          (s.choiceOf stableId i answers) with ⟨c', hhanded, _, hid⟩ | ⟨_, hid⟩
        · rcases made_or_current hhanded with hmade' | ⟨_, hslot', _⟩
          · cases hmade.symm.trans hmade'
          · cases hslot.symm.trans hslot'
            exact hid
        · exact hid.trans (h.last i c hslot hused)
  · intro j _ hused
    cases hmade : (s.choiceOf stableId i answers).created? with
    | some made =>
        rw [hmade] at hslot
        cases hslot
        exact absurd (h.used j c (.inl hused)) (hnew c hmade)
    | none =>
        rw [hmade] at hslot
        exact h.last j c hslot hused

theorem Settled.afterLock (h : Settled stableId s) {answers : ConnectAnswers Conn}
    (hnew : MakesNew stableId s (.lock i answers)) :
    Settled stableId (s.afterLock stableId i (s.choiceOf stableId i answers)) := by
  refine
    { current := fun _ hc => h.current_afterLock hc
      used := h.used_afterLock
      last := h.last_afterLock hnew
      remembers := ?_ }
  refine (Function.forall_update_iff s.calls fun _ d => Remembers stableId d).2 ⟨?_, ?_⟩
  · apply (h.remembers i).afterChoice
    intro c hhanded
    exact h.choice_new hnew hhanded
  · intro j _
    exact h.remembers j

theorem Settled.step (h : Settled stableId s) {ev : ClientEvent ι Conn}
    (hnew : MakesNew stableId s ev) (hstep : step stableId s ev = some t) :
    Settled stableId t := by
  cases ev with
  | lock i answers =>
      rcases step_lock hstep with ⟨_, choice, rfl, rfl⟩
      exact h.afterLock hnew
  | write i outcome =>
      rcases step_write hstep with ⟨connection, hwriting, rfl⟩
      refine h.local_step (Call.createdConnections_writeStep _ connection outcome) ?_
        (Call.writeStep_keeps _ connection outcome).2.2
        ((h.remembers i).writeStep hwriting outcome)
      intro c hc
      rw [Call.usedConnections_writeStep] at hc
      rcases hc with hmem | hp
      · rcases List.mem_cons.1 hmem with rfl | hbefore
        · exact .inr hwriting
        · exact .inl hbefore
      · exact absurd hp (Call.writeStep_not_writing _ connection outcome c)
  | abandon i =>
      rcases step_abandon hstep with ⟨_, rfl⟩
      refine h.local_step rfl ?_ rfl (h.remembers i).abandon
      rintro c (hmem | hp)
      · exact .inl hmem
      · cases hp

end Preservation

/-! ## What was made and what was replaced -/

variable (stableId) in
/-- The choices of a run, one for each locked block. -/
def lockChoices (s : ClientState ι Conn) : ClientEvent ι Conn → List (Choice Conn)
  | .lock i answers => [s.choiceOf stableId i answers]
  | _ => []

variable (stableId) in
/-- One connection is made at most, and each is replaced at most once: what was replaced is gone. -/
structure ReplacedOnce (past : List (Choice Conn)) (s : ClientState ι Conn) : Prop where
  settled : Settled stableId s
  unmade : s.connection = none → past.countP Choice.isMade = 0
  made_le : past.countP Choice.isMade ≤ 1
  distinct : (past.filterMap Choice.replaced?).Nodup
  gone : ∀ old ∈ past.filterMap Choice.replaced?, s.Created old ∧ s.connection ≠ some old

variable (stableId) in
/-- What the locked block does to the connection: the first one is made where there is none, a later
one replaces one that this call has seen fail, and a failure changes nothing. -/
def ReplacesFailed (s : ClientState ι Conn) : ClientEvent ι Conn → Prop
  | .lock i answers =>
      (∀ c, s.choiceOf stableId i answers = .made c → s.connection = none) ∧
        (∀ old c, s.choiceOf stableId i answers = .reconnected old c →
          s.connection = some old ∧
            ∃ data err, Op.wrote old data (.openFailed err) ∈ (s.calls i).log) ∧
        ∀ err t, s.choiceOf stableId i answers = .failed err →
          step stableId s (.lock i answers) = some t → t.connection = s.connection
  | _ => True

section History

variable {s t : ClientState ι Conn} {past : List (Choice Conn)}

omit [DecidableEq ι] in
/-- A locked block that makes no connection leaves the history of them as it was. -/
theorem ReplacedOnce.of_unchanged (h : ReplacedOnce stableId past s) {later : List (Choice Conn)}
    (hsettled : Settled stableId t) (hslot : t.connection = s.connection)
    (hcreated : ∀ c, s.Created c → t.Created c)
    (hmade : later.countP Choice.isMade = 0) (hreplaced : later.filterMap Choice.replaced? = []) :
    ReplacedOnce stableId (past ++ later) t := by
  have hsame : (past ++ later).filterMap Choice.replaced? = past.filterMap Choice.replaced? := by
    rw [List.filterMap_append, hreplaced, List.append_nil]
  have hcount : (past ++ later).countP Choice.isMade = past.countP Choice.isMade := by
    rw [List.countP_append, hmade, Nat.add_zero]
  refine
    { settled := hsettled
      unmade := ?_
      made_le := hcount ▸ h.made_le
      distinct := hsame ▸ h.distinct
      gone := ?_ }
  · intro hnone
    rw [hcount]
    exact h.unmade (hslot ▸ hnone)
  · intro old hold
    rw [hsame] at hold
    rcases h.gone old hold with ⟨hmade, hne⟩
    exact ⟨hcreated old hmade, hslot ▸ hne⟩

omit [DecidableEq ι] in
/-- The first connection: there was none before, so none had been made. -/
theorem ReplacedOnce.of_made (h : ReplacedOnce stableId past s) {c : Conn}
    (hsettled : Settled stableId t) (hslot : s.connection = none) (hslot' : t.connection = some c)
    (hcreated : ∀ c, s.Created c → t.Created c) (hfresh : ¬ s.Created c) :
    ReplacedOnce stableId (past ++ [.made c]) t := by
  have hsame : (past ++ [Choice.made c]).filterMap Choice.replaced? =
      past.filterMap Choice.replaced? := by
    rw [List.filterMap_append]
    exact List.append_nil _
  refine
    { settled := hsettled
      unmade := ?_
      made_le := ?_
      distinct := hsame ▸ h.distinct
      gone := ?_ }
  · intro hnone
    cases hslot'.symm.trans hnone
  · rw [List.countP_append, h.unmade hslot]
    exact Nat.le_refl 1
  · intro old hold
    rw [hsame] at hold
    have hmade : s.Created old := (h.gone old hold).1
    refine ⟨hcreated old hmade, ?_⟩
    intro hback
    cases hslot'.symm.trans hback
    exact hfresh hmade

omit [DecidableEq ι] in
/-- A reconnect: what is replaced is behind the lock, so it was not replaced before. -/
theorem ReplacedOnce.of_reconnected (h : ReplacedOnce stableId past s) {old c : Conn}
    (hsettled : Settled stableId t) (hslot : s.connection = some old)
    (hslot' : t.connection = some c) (hcreated : ∀ c, s.Created c → t.Created c)
    (hfresh : ¬ s.Created c) : ReplacedOnce stableId (past ++ [.reconnected old c]) t := by
  have hmore : (past ++ [Choice.reconnected old c]).filterMap Choice.replaced? =
      past.filterMap Choice.replaced? ++ [old] := List.filterMap_append
  have hnow : old ∉ past.filterMap Choice.replaced? := fun hmem => (h.gone old hmem).2 hslot
  refine
    { settled := hsettled
      unmade := ?_
      made_le := ?_
      distinct := ?_
      gone := ?_ }
  · intro hnone
    cases hslot'.symm.trans hnone
  · rw [List.countP_append]
    exact h.made_le
  · rw [hmore, ← List.concat_eq_append]
    exact (List.nodup_concat _ old).2 ⟨hnow, h.distinct⟩
  · intro former hformer
    have hmade : s.Created former := by
      rw [hmore] at hformer
      rcases List.mem_append.1 hformer with hbefore | hlast
      · exact (h.gone former hbefore).1
      · cases List.mem_singleton.1 hlast
        exact h.settled.current _ hslot
    refine ⟨hcreated former hmade, ?_⟩
    intro hback
    cases hslot'.symm.trans hback
    exact hfresh hmade

theorem ReplacedOnce.step (h : ReplacedOnce stableId past s) {ev : ClientEvent ι Conn}
    (hnew : MakesNew stableId s ev) (hstep : ClientState.step stableId s ev = some t) :
    ReplacedOnce stableId (past ++ s.lockChoices stableId ev) t := by
  have hsettled : Settled stableId t := h.settled.step hnew hstep
  cases ev with
  | write i outcome =>
      rcases step_write hstep with ⟨connection, _, rfl⟩
      refine h.of_unchanged hsettled rfl ?_ rfl rfl
      intro c hc
      apply hc.of_update rfl
      rw [Call.createdConnections_writeStep]
      exact id
  | abandon i =>
      rcases step_abandon hstep with ⟨_, rfl⟩
      refine h.of_unchanged hsettled rfl ?_ rfl rfl
      intro c hc
      exact hc.of_update rfl id
  | lock i answers =>
      rcases step_lock hstep with ⟨_, choice, hchoice, rfl⟩
      have hof : s.choiceOf stableId i answers = choice := hchoice.symm
      have hfresh : ∀ c, choice.created? = some c → ¬ s.Created c := hof ▸ hnew
      have hmono : ∀ c, s.Created c → (s.afterLock stableId i choice).Created c :=
        fun c hc => created_afterLock_iff.2 (.inr hc)
      have hlater : s.lockChoices stableId (.lock i answers) = [choice] :=
        congrArg (fun x => [x]) hof
      rw [hlater]
      cases choice with
      | made c =>
          exact h.of_made hsettled (Call.choose_fits hchoice.symm) rfl hmono (hfresh c rfl)
      | reconnected old c =>
          have hslot := (Call.choose_fits hchoice.symm).1
          exact h.of_reconnected hsettled hslot rfl hmono (hfresh c rfl)
      | reused c => exact h.of_unchanged hsettled rfl hmono rfl rfl
      | failed err => exact h.of_unchanged hsettled rfl hmono rfl rfl
      | noEndpoint => exact h.of_unchanged hsettled rfl hmono rfl rfl

omit [DecidableEq ι] in
theorem replacedOnce_start (data : ι → List UInt8) :
    ReplacedOnce stableId [] (start none data) :=
  { settled := settled_start data
    unmade := fun _ => rfl
    made_le := Nat.zero_le 1
    distinct := List.nodup_nil
    gone := by
      intro old h
      cases h }

theorem replacesFailed_of_settled (hinjective : Function.Injective stableId)
    (hnonzero : ∀ c, stableId c ≠ 0) (h : Settled stableId s) {ev : ClientEvent ι Conn}
    (hstep : ClientState.step stableId s ev = some t) : ReplacesFailed stableId s ev := by
  cases ev with
  | write i outcome => trivial
  | abandon i => trivial
  | lock i answers =>
      rcases step_lock hstep with ⟨hlooping, _, _, _⟩
      refine ⟨?_, ?_, ?_⟩
      · intro c hmade
        exact Call.choose_fits hmade
      · intro old c hreconnected
        rcases Call.choose_fits hreconnected with ⟨hslot, hid⟩
        refine ⟨hslot, ?_⟩
        rcases (h.remembers i).looping hlooping with hzero | ⟨c₀, data, err, hmem, hlast⟩
        · -- no connection has the number the call starts with
          exact absurd (hid.trans hzero) (hnonzero old)
        · have hsame : c₀ = old := hinjective (hlast.trans hid.symm)
          exact ⟨data, err, hsame ▸ hmem⟩
      · intro err u hfailed hlock
        rcases step_lock hlock with ⟨_, choice, hchoice, rfl⟩
        rw [connection_afterLock, hchoice.trans hfailed]
        rfl

end History

/-- In every interleaving from a client without a connection: the connection does not go back to
none, it is made once at most and later replaced only by a call that has seen it fail, no connection
is replaced twice, and no call writes on a connection after it has seen it fail. -/
theorem no_reconnect_storm (stableId : Conn → Nat) (hinjective : Function.Injective stableId)
    (hnonzero : ∀ c, stableId c ≠ 0) (data : ι → List UInt8) (evs : List (ClientEvent ι Conn))
    (t : ClientState ι Conn)
    (hnew : (machine ι stableId).Steps (MakesNew stableId) (start none data) evs)
    (hrun : (machine ι stableId).run (start none data) evs = some t) :
    (∀ before after u, evs = before ++ after →
        (machine ι stableId).run (start none data) before = some u → u.connection.isSome →
        t.connection.isSome) ∧
      ((machine ι stableId).history (lockChoices stableId) (start none data) evs).countP
        Choice.isMade ≤ 1 ∧
      (machine ι stableId).Steps (ReplacesFailed stableId) (start none data) evs ∧
      (((machine ι stableId).history (lockChoices stableId) (start none data) evs).filterMap
        Choice.replaced?).Nodup ∧
      ∀ (i : ι) (later rest : List (Op Conn)) (c : Conn) (written : List UInt8)
        (outcome : StreamWrite), (t.calls i).log = later ++ .wrote c written outcome :: rest →
        ∀ written' err, Op.wrote c written' (.openFailed err) ∉ rest := by
  have honce : ReplacedOnce stableId
      ([] ++ (machine ι stableId).history (lockChoices stableId) (start none data) evs) t := by
    refine (machine ι stableId).run_history_invariant ?_ (replacedOnce_start data) hnew hrun
    intro past u ev v hu hev hnext
    exact hu.step hev hnext
  rw [List.nil_append] at honce
  refine ⟨?_, honce.made_le, ?_, honce.distinct, ?_⟩
  · rintro before after u rfl hbefore hsome
    rcases (Machine.run_append_eq_some (machine ι stableId)).1 hrun with ⟨u', hu', hafter⟩
    cases hbefore.symm.trans hu'
    refine (machine ι stableId).run_invariant
      (I := fun v : ClientState ι Conn => v.connection.isSome) ?_ hsome hafter
    intro v ev w hv hnext
    exact isSome_connection_step hv hnext
  · refine Machine.Steps.of_invariant (machine ι stableId) (I := Settled stableId) ?_ ?_
      (settled_start data) hnew
    · intro u ev v hu hev hnext
      exact hu.step hev hnext
    · intro u ev v hu _ hnext
      exact replacesFailed_of_settled hinjective hnonzero hu hnext
  · intro i later rest c written outcome hlog written' err
    exact (honce.settled.remembers i).no_write_after_error hlog written' err

/-- The first call of the two makes two connections, and they are different ones. -/
theorem steps_makesNew_twoCalls :
    (machine (Fin 2) fun c : Nat => c + 1).Steps (MakesNew fun c => c + 1)
      (start none fun _ => [1]) twoCalls := by
  intro s hs
  cases hs
  refine ⟨?_, ?_⟩
  · rintro c _ ⟨i, hi⟩
    cases hi
  · intro s hs
    cases hs
    refine ⟨trivial, ?_⟩
    intro s hs
    cases hs
    refine ⟨?_, ?_⟩
    · intro c hc
      cases hc
    · intro s hs
      cases hs
      refine ⟨trivial, ?_⟩
      intro s hs
      cases hs
      refine ⟨?_, ?_⟩
      · intro c hc
        cases hc
        unfold Created
        decide
      · intro s hs
        cases hs
        exact ⟨trivial, trivial⟩

theorem no_reconnect_storm_two :
    ∃ t, (machine (Fin 2) fun c : Nat => c + 1).run (start none fun _ => [1]) twoCalls = some t ∧
      (((machine (Fin 2) fun c : Nat => c + 1).history (lockChoices fun c => c + 1)
        (start none fun _ => [1]) twoCalls).filterMap Choice.replaced?).Nodup :=
  ⟨_, rfl, (no_reconnect_storm (fun c => c + 1) (fun _ _ h => Nat.succ.inj h)
    (fun c => Nat.succ_ne_zero c) (fun _ => [1]) twoCalls _ steps_makesNew_twoCalls
    rfl).2.2.2.1⟩

end ClientState
end Quik
end TpuSender
