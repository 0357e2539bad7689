import TpuSender.Quik.SendBatch

/-!
# WarmingCalls — calls without data

A call without data only warms the connection: it goes through the locked block once and returns
the connection without a write.  It may still install a connection that other calls find.

`Paced` puts the books of a call with data (`Sound`) and of a warming call (`Warming`) next to each
other.
-/

namespace TpuSender
namespace Quik

/-! ## Calls without data -/

section Warming

variable {Conn : Type} (stableId : Conn → Nat)

/-- What a locked block hands out, if it is not left by a panic. -/
def Choice.result : Choice Conn → Option (Except QuicError Conn)
  | .made connection => some (.ok connection)
  | .reconnected _ connection => some (.ok connection)
  | .reused connection => some (.ok connection)
  | .failed err => some (.error err)
  | .noEndpoint => none

/-- A warming call is about to enter the locked block, or has left it with what it handed out. -/
inductive Warming (call : Call Conn) : Prop
  | looping (empty : call.data = []) (progress : call.progress = .looping) (log : call.log = [])
  | returned (choice : Choice Conn) (result : Except QuicError Conn)
      (hresult : choice.result = some result) (progress : call.progress = .returned result)
      (log : call.log = [.chose choice])
  | noEndpoint (progress : call.progress = .noEndpoint) (log : call.log = [.chose .noEndpoint])
  | abandoned (progress : call.progress = .abandoned) (log : call.log = [])

theorem warming_start : Warming (Call.start [] : Call Conn) := .looping rfl rfl rfl

variable {stableId} {call : Call Conn}

theorem Warming.afterChoice (h : Warming call) (hlooping : call.progress = .looping)
    (choice : Choice Conn) : Warming (call.afterChoice stableId choice) := by
  rcases h with ⟨hempty, _, hlog⟩ | ⟨_, _, _, hreturned, _⟩ | ⟨hpanicked, _⟩ | ⟨habandoned, _⟩
  · have hnext : (call.afterChoice stableId choice).log = [.chose choice] := by
      rw [Call.log_afterChoice, hlog]
    cases choice with
    | made connection =>
        refine .returned _ (.ok connection) rfl ?_ hnext
        simp [Call.afterChoice, Call.useConnection, hempty]
    | reconnected old connection =>
        refine .returned _ (.ok connection) rfl ?_ hnext
        simp [Call.afterChoice, Call.useConnection, hempty]
    | reused connection =>
        refine .returned _ (.ok connection) rfl ?_ hnext
        simp [Call.afterChoice, Call.useConnection, hempty]
    | failed err => exact .returned _ (.error err) rfl rfl hnext
    | noEndpoint => exact .noEndpoint rfl hnext
  · rw [hlooping] at hreturned
    cases hreturned
  · rw [hlooping] at hpanicked
    cases hpanicked
  · rw [hlooping] at habandoned
    cases habandoned

/-- A warming call writes nothing. -/
theorem Warming.not_writing (h : Warming call) (connection : Conn) :
    call.progress ≠ .writing connection := by
  rcases h with ⟨_, hp, _⟩ | ⟨_, _, _, hp, _⟩ | ⟨hp, _⟩ | ⟨hp, _⟩
  all_goals simp [hp]

theorem Warming.abandon (h : Warming call) (hrunning : call.isRunning = true) :
    Warming call.abandon := by
  rcases h with ⟨_, _, hlog⟩ | ⟨_, _, _, hp, _⟩ | ⟨hp, _⟩ | ⟨hp, _⟩
  · exact .abandoned rfl hlog
  all_goals simp [Call.isRunning, hp] at hrunning

theorem Warming.writes_eq_zero (h : Warming call) : call.writes = 0 := by
  rcases h with ⟨_, _, hlog⟩ | ⟨_, _, _, _, hlog⟩ | ⟨_, hlog⟩ | ⟨_, hlog⟩
  · rw [Call.writes, hlog, List.countP_nil]
  · rw [Call.writes, hlog, countP_writes_chose, List.countP_nil]
  · rw [Call.writes, hlog, countP_writes_chose, List.countP_nil]
  · rw [Call.writes, hlog, List.countP_nil]

/-- What a warming call returns is what its one locked block came to. -/
theorem Warming.result_eq (h : Warming call) {result : Except QuicError Conn}
    (hreturned : call.progress = .returned result) :
    ∃ choice, call.log = [.chose choice] ∧ choice.result = some result := by
  rcases h with ⟨_, hp, _⟩ | ⟨choice, _, hresult, hp, hlog⟩ | ⟨hp, _⟩ | ⟨hp, _⟩
  · rw [hp] at hreturned
    cases hreturned
  · rw [hp] at hreturned
    cases hreturned
    exact ⟨choice, hlog, hresult⟩
  · rw [hp] at hreturned
    cases hreturned
  · rw [hp] at hreturned
    cases hreturned

end Warming

/-! ## Calls of either kind -/

section Paced

variable {Conn : Type} (stableId : Conn → Nat)

def Paced (call : Call Conn) : Prop := Sound stableId call ∨ Warming call

theorem paced_start (data : List UInt8) : Paced stableId (Call.start data) := by
  by_cases hdata : data = []
  · subst hdata
    exact .inr warming_start
  · exact .inl (sound_start hdata)

variable {stableId} {call : Call Conn}

theorem Paced.afterChoice (h : Paced stableId call) (hlooping : call.progress = .looping)
    (choice : Choice Conn) : Paced stableId (call.afterChoice stableId choice) := by
  rcases h with hsound | hwarming
  · exact .inl (hsound.afterChoice hlooping choice)
  · exact .inr (hwarming.afterChoice hlooping choice)

theorem Paced.writeStep (h : Paced stableId call) {connection : Conn}
    (hwriting : call.progress = .writing connection) (outcome : StreamWrite) :
    Paced stableId (call.writeStep connection outcome) := by
  rcases h with hsound | hwarming
  · exact .inl (hsound.writeStep hwriting outcome)
  · exact absurd hwriting (hwarming.not_writing connection)

theorem Paced.abandon (h : Paced stableId call) (hrunning : call.isRunning = true) :
    Paced stableId call.abandon := by
  rcases h with hsound | hwarming
  · exact .inl (hsound.abandon hrunning)
  · exact .inr (hwarming.abandon hrunning)

theorem Paced.calm (h : Paced stableId call) : call.progress ≠ .panicked := by
  rcases h with hsound | ⟨_, hp, _⟩ | ⟨_, _, _, hp, _⟩ | ⟨hp, _⟩ | ⟨hp, _⟩
  · exact hsound.calm
  all_goals simp [hp]

/-- Neither kind makes more than two connections, and a write follows a connection in hand. -/
theorem Paced.counts (h : Paced stableId call) :
    call.created ≤ 2 ∧ call.writes ≤ call.created + call.reused ∧
      call.steps ≤ call.created + call.reused + call.writes + 2 := by
  rcases h with hsound | hwarming
  · have hone : (if call.isRunning = true then 0 else 1) ≤ 2 := by
      split <;> decide
    exact ⟨hsound.created_le, hsound.writes_le,
      Nat.le_trans hsound.steps_le (Nat.add_le_add_left hone _)⟩
  · rcases hwarming with ⟨_, hp, hlog⟩ | ⟨choice, _, _, hp, hlog⟩ | ⟨hp, hlog⟩ | ⟨hp, hlog⟩
    · simp [Call.created, Call.reused, Call.writes, Call.steps, hp, hlog]
    · have hmade : (if choice.creates = true then 1 else 0) ≤ 1 := by
        split <;> decide
      refine ⟨?_, ?_, ?_⟩
      · simp only [Call.created, hlog, countP_creates_chose, List.countP_nil]
        omega
      · rw [Call.writes, hlog, countP_writes_chose, List.countP_nil]
        exact Nat.zero_le _
      · simp only [Call.steps, hp, hlog, List.length_singleton]
        omega
    · simp [Call.created, Call.reused, Call.writes, Call.steps, hp, hlog, Op.creates, Op.writes,
        Choice.creates]
    · simp [Call.created, Call.reused, Call.writes, Call.steps, hp, hlog]

/-- A send that has no result yet, whose call has not panicked and has not been dropped, waits for
the call or has a buffer left to write. -/
theorem Call.pending (hkept : call.progress ≠ .abandoned) (hcalm : call.hasPanicked = false)
    {buffers : List (List UInt8)} {outcomes : List StreamWrite}
    (hpending : (sendOutcome call buffers outcomes).result = none) :
    call.isRunning = true ∨
      ∃ connection, call.progress = .returned (.ok connection) ∧
        outcomes.length < buffers.tail.length := by
  rcases sendOutcome_pending hpending with hwaits | hmore
  · apply Or.inl
    cases hprogress : call.progress with
    | looping => simp [Call.isRunning, hprogress]
    | writing connection => simp [Call.isRunning, hprogress]
    | returned result => exact absurd hprogress (hwaits result)
    | panicked => simp [Call.hasPanicked, hprogress] at hcalm
    | noEndpoint => simp [Call.hasPanicked, hprogress] at hcalm
    | abandoned => exact absurd hprogress hkept
  · exact .inr hmore

/-- After a locked block a call that goes on remembers the connection it was handed. -/
theorem lastConnectionId_afterChoice {choice : Choice Conn}
    (hrunning : (call.afterChoice stableId choice).isRunning = true) :
    ∃ connection, choice.connection? = some connection ∧
      (call.afterChoice stableId choice).lastConnectionId = stableId connection := by
  rcases Call.afterChoice_cases stableId call choice with
    ⟨err, _, heq⟩ | ⟨_, heq⟩ | ⟨connection, _, _, heq⟩ | ⟨connection, hchoice, _, heq⟩
  · rw [heq] at hrunning
    cases hrunning
  · rw [heq] at hrunning
    cases hrunning
  · rw [heq] at hrunning
    cases hrunning
  · exact ⟨connection, hchoice, by rw [heq]⟩

end Paced

end Quik
end TpuSender
