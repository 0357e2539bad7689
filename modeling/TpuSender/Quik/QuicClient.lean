import Mathlib.Tactic.Common

/-!
# QuicClient — sending a buffer over a connection that may have to be made first

A client keeps one connection behind a lock.  `_send_buffer` is a loop of two halves: under the
lock it takes the connection, or makes one, or remakes the one it has just seen fail
(`Call.lockedStep`); without the lock it writes the buffer on it (`Call.writeStep`).

What the endpoint and the peer do is an argument of each half: `ConnectAnswers` for the first,
`StreamWrite` for the second.  `sendBuffer` runs one call to its end on a list of such answers and
on the connections it finds behind the lock, which other calls may have replaced meanwhile.

Connections are values of a type `Conn` with a number `stableId`.
-/

namespace TpuSender
namespace Quik

/-! ## Errors -/

inductive ConnectionError
  | VersionMismatch
  | TransportError (reason : String)
  | ConnectionClosed (reason : String)
  | ApplicationClosed (reason : String)
  | Reset
  | TimedOut
  | LocallyClosed
  | CidsExhausted
  deriving DecidableEq, Repr

inductive WriteError
  | Stopped (code : Nat)
  | ConnectionLost (err : ConnectionError)
  | ClosedStream
  | ZeroRttRejected
  deriving DecidableEq, Repr

inductive ConnectError
  | EndpointStopping
  | CidsExhausted
  | InvalidServerName (name : String)
  | InvalidRemoteAddress (addr : String)
  | NoDefaultClientConfig
  | UnsupportedVersion
  deriving DecidableEq, Repr

inductive QuicError
  | WriteError (err : WriteError)
  | ConnectionError (err : ConnectionError)
  | ConnectError (err : ConnectError)
  | ClosedStream
  deriving DecidableEq, Repr

/-! ## Making a connection -/

/-- How a handshake awaited under a timeout ends. -/
inductive Handshake (Conn : Type)
  | elapsed
  | failed (err : ConnectionError)
  | connected (connection : Conn)
  deriving DecidableEq

/-- What `connecting.into_0rtt()` and the wait after it come to. -/
inductive Handshake0rtt (Conn : Type)
  /-- The key material is there: the connection, and whether 0-rtt was accepted in time. -/
  | zeroRtt (connection : Conn) (accepted : Option Bool)
  | full (handshake : Handshake Conn)
  deriving DecidableEq

/-- What `get_endpoint`, `endpoint.connect(..)` and the wait after it come to. -/
inductive FirstConnect (Conn : Type)
  | ok (handshake : Handshake Conn)
  | error (err : ConnectError)
  /-- There was no endpoint yet, and one of the `expect`s of `create_endpoint` has panicked: there
  was no port to bind, or no TLS configuration or endpoint could be made. -/
  | noEndpoint
  deriving DecidableEq

/-- What the endpoint answers during one locked step.  An endpoint is made once, by the first call
that gets so far; as several clients may share it, `noEndpoint` is possible here for every client
without a connection. -/
structure ConnectAnswers (Conn : Type) where
  connect : FirstConnect Conn
  connect0rtt : Except ConnectError (Handshake0rtt Conn)

section Connect

variable {Conn : Type}

def Handshake.result : Handshake Conn → Except QuicError Conn
  | .connected connection => .ok connection
  | .failed err => .error (.ConnectionError err)
  | .elapsed => .error (.ConnectionError .TimedOut)

/-- `none` is the panic. -/
def makeConnection (connect : FirstConnect Conn) : Option (Except QuicError Conn) :=
  match connect with
  | .noEndpoint => none
  | .error err => some (.error (.ConnectError err))
  | .ok handshake => some handshake.result

def makeConnection0rtt (connect : Except ConnectError (Handshake0rtt Conn)) :
    Except QuicError Conn :=
  match connect with
  | .error err => .error (.ConnectError err)
  -- accepted or rejected, the connection is used
  | .ok (.zeroRtt connection (some _)) => .ok connection
  | .ok (.zeroRtt _ none) => .error (.ConnectionError .TimedOut)
  | .ok (.full handshake) => handshake.result

end Connect

/-! ## Writing on a connection -/

/-- How opening a stream and writing a buffer on it ends. -/
inductive StreamWrite
  | openFailed (err : ConnectionError)
  | writeFailed (err : WriteError)
  | written
  deriving DecidableEq, Repr

/-- `_send_buffer_using_conn`. -/
def sendBufferUsingConn : StreamWrite → Except QuicError Unit
  | .openFailed err => .error (.ConnectionError err)
  | .writeFailed err => .error (.WriteError err)
  | .written => .ok ()

/-! ## One call of `_send_buffer` -/

/-- What the locked block came to. -/
inductive Choice (Conn : Type)
  | made (connection : Conn)
  | reconnected (old connection : Conn)
  | reused (connection : Conn)
  | failed (err : QuicError)
  /-- The block was left by the panic of `create_endpoint`. -/
  | noEndpoint
  deriving DecidableEq

/-- What a call has done, one entry for each of its halves. -/
inductive Op (Conn : Type)
  | chose (choice : Choice Conn)
  | wrote (connection : Conn) (data : List UInt8) (outcome : StreamWrite)
  deriving DecidableEq

/-- Where a call is. -/
inductive Progress (Conn : Type)
  | looping
  | writing (connection : Conn)
  | returned (result : Except QuicError Conn)
  /-- `last_error.expect` was evaluated on `None`. -/
  | panicked
  /-- `create_endpoint` has panicked. -/
  | noEndpoint
  | abandoned

/-- The locals of a call, and the list of what it has done, newest first, which the source does not
keep. -/
structure Call (Conn : Type) where
  data : List UInt8
  connectionTryCount : Nat
  lastConnectionId : Nat
  lastError : Option QuicError
  progress : Progress Conn
  log : List (Op Conn)

namespace Call

variable {Conn : Type}

/-- The loop's guard, and what follows the loop. -/
def continueLoop (call : Call Conn) : Call Conn :=
  { call with
    progress :=
      -- only connections that were made count, not the ones that were found
      if call.connectionTryCount < 2 then .looping
      else
        match call.lastError with
        | some err => .returned (.error err)
        | none => .panicked }

def start (data : List UInt8) : Call Conn :=
  continueLoop
    { data := data
      connectionTryCount := 0
      lastConnectionId := 0
      lastError := none
      progress := .looping
      log := [] }

section Steps

variable (stableId : Conn → Nat)

/-- The locked block: which connection it hands out. -/
def choose (slot : Option Conn) (lastConnectionId : Nat) (answers : ConnectAnswers Conn) :
    Choice Conn :=
  match slot with
  | some conn =>
      if stableId conn = lastConnectionId then
        -- this is the problematic connection we had used before, create a new one
        match makeConnection0rtt answers.connect0rtt with
        | .ok connection => .reconnected conn connection
        | .error err => .failed err
      else
        .reused conn
  | none =>
      -- nobody has connected yet
      match makeConnection answers.connect with
      | some (.ok connection) => .made connection
      | some (.error err) => .failed err
      | none => .noEndpoint

/-- What the locked block leaves behind the lock. -/
def install (slot : Option Conn) : Choice Conn → Option Conn
  | .made connection => some connection
  | .reconnected _ connection => some connection
  | .reused _ => slot
  | .failed _ => slot
  -- the lock is released on the way out
  | .noEndpoint => slot

/-- With a connection in hand: an empty buffer is only for warming connections. -/
def useConnection (call : Call Conn) (connection : Conn) : Call Conn :=
  if call.data.isEmpty then
    { call with progress := .returned (.ok connection) }
  else
    { call with
      lastConnectionId := stableId connection
      progress := .writing connection }

/-- The call after the locked block. -/
def afterChoice (call : Call Conn) (choice : Choice Conn) : Call Conn :=
  let call := { call with log := .chose choice :: call.log }
  match choice with
  | .made connection =>
      useConnection stableId { call with connectionTryCount := call.connectionTryCount + 1 }
        connection
  | .reconnected _ connection =>
      useConnection stableId { call with connectionTryCount := call.connectionTryCount + 1 }
        connection
  | .reused connection => useConnection stableId call connection
  -- the error of a failed creation is returned at once
  | .failed err => { call with progress := .returned (.error err) }
  | .noEndpoint => { call with progress := .noEndpoint }

/-- The first half of an iteration: the connection behind the lock afterwards, and the call. -/
def lockedStep (slot : Option Conn) (call : Call Conn) (answers : ConnectAnswers Conn) :
    Option Conn × Call Conn :=
  let choice := choose stableId slot call.lastConnectionId answers
  (install slot choice, call.afterChoice stableId choice)

end Steps

/-- The second half of an iteration: the write on `connection` and the way back to the guard. -/
def writeStep (call : Call Conn) (connection : Conn) (outcome : StreamWrite) : Call Conn :=
  let call := { call with log := .wrote connection call.data outcome :: call.log }
  match sendBufferUsingConn outcome with
  | .ok () => { call with progress := .returned (.ok connection) }
  -- only a connection error is retried
  | .error (.ConnectionError err) =>
      continueLoop { call with lastError := some (.ConnectionError err) }
  | .error err => { call with progress := .returned (.error err) }

/-- The call is dropped at an await. -/
def abandon (call : Call Conn) : Call Conn := { call with progress := .abandoned }

def isRunning (call : Call Conn) : Bool :=
  match call.progress with
  | .looping => true
  | .writing _ => true
  | _ => false

def hasPanicked (call : Call Conn) : Bool :=
  match call.progress with
  | .panicked => true
  | .noEndpoint => true
  | _ => false

theorem hasPanicked_of_isRunning {call : Call Conn} (h : call.isRunning = true) :
    call.hasPanicked = false := by
  cases hp : call.progress with
  | looping => simp [hasPanicked, hp]
  | writing connection => simp [hasPanicked, hp]
  | returned result => simp [isRunning, hp] at h
  | panicked => simp [isRunning, hp] at h
  | noEndpoint => simp [isRunning, hp] at h
  | abandoned => simp [isRunning, hp] at h

theorem noEndpoint_of_hasPanicked {call : Call Conn} (hcalm : call.progress ≠ .panicked)
    (h : call.hasPanicked = true) : call.progress = .noEndpoint := by
  cases hp : call.progress with
  | noEndpoint => rfl
  | panicked => exact absurd hp hcalm
  | looping => simp [hasPanicked, hp] at h
  | writing connection => simp [hasPanicked, hp] at h
  | returned result => simp [hasPanicked, hp] at h
  | abandoned => simp [hasPanicked, hp] at h

theorem not_returned_of_hasPanicked {call : Call Conn} (h : call.hasPanicked = true)
    (result : Except QuicError Conn) : call.progress ≠ .returned result := by
  intro hprogress
  simp [hasPanicked, hprogress] at h

end Call

/-! ## A call on its own -/

/-- What one iteration meets: the connection behind the lock, the endpoint and the peer. -/
structure Iteration (Conn : Type) where
  slot : Option Conn
  answers : ConnectAnswers Conn
  outcome : StreamWrite

section Sequential

variable {Conn : Type} (stableId : Conn → Nat)

/-- One iteration of the loop. -/
def iterate (call : Call Conn) (iteration : Iteration Conn) : Call Conn :=
  match call.progress with
  | .looping =>
      let call := (call.lockedStep stableId iteration.slot iteration.answers).2
      match call.progress with
      | .writing connection => call.writeStep connection iteration.outcome
      | _ => call
  | _ => call

/-- A call of `_send_buffer` run on a list of iterations; it may still be looping at its end. -/
def sendBuffer (data : List UInt8) (iterations : List (Iteration Conn)) : Call Conn :=
  iterations.foldl (iterate stableId) (Call.start data)

variable {stableId}

/-- What both halves of an iteration keep, a call keeps. -/
theorem sendBuffer_invariant {data : List UInt8} {I : Call Conn → Prop}
    (hstart : I (Call.start data))
    (hlocked : ∀ call slot answers, I call → call.progress = .looping →
      I (call.lockedStep stableId slot answers).2)
    (hwrite : ∀ call connection outcome, I call → call.progress = .writing connection →
      I (call.writeStep connection outcome))
    (iterations : List (Iteration Conn)) : I (sendBuffer stableId data iterations) := by
  have hiterate : ∀ call iteration, I call → I (iterate stableId call iteration) := by
    intro call iteration h
    cases hp : call.progress with
    | writing c => simpa [iterate, hp] using h
    | returned result => simpa [iterate, hp] using h
    | panicked => simpa [iterate, hp] using h
    | noEndpoint => simpa [iterate, hp] using h
    | abandoned => simpa [iterate, hp] using h
    | looping =>
        -- the locked block may end the call before there is anything to write
        have hnext := hlocked call iteration.slot iteration.answers h hp
        simp only [iterate, hp]
        split
        next connection hwriting => exact hwrite _ connection iteration.outcome hnext hwriting
        next => exact hnext
  have hall : ∀ call, I call → I (iterations.foldl (iterate stableId) call) := by
    induction iterations with
    | nil =>
        intro call h
        exact h
    | cons iteration rest ih =>
        intro call h
        exact ih _ (hiterate call iteration h)
  exact hall _ hstart

end Sequential

/-! ## Counting what a call has done -/

section Counts

variable {Conn : Type}

def Choice.creates : Choice Conn → Bool
  | .made _ => true
  | .reconnected _ _ => true
  | .reused _ => false
  | .failed _ => false
  | .noEndpoint => false

def Choice.reuses : Choice Conn → Bool
  | .reused _ => true
  | _ => false

def Choice.connection? : Choice Conn → Option Conn
  | .made connection => some connection
  | .reconnected _ connection => some connection
  | .reused connection => some connection
  | .failed _ => none
  | .noEndpoint => none

def Op.creates : Op Conn → Bool
  | .chose choice => choice.creates
  | .wrote _ _ _ => false

def Op.reuses : Op Conn → Bool
  | .chose choice => choice.reuses
  | .wrote _ _ _ => false

def Op.writes : Op Conn → Bool
  | .chose _ => false
  | .wrote _ _ _ => true

/-- The error an operation ended with. -/
def Op.error? : Op Conn → Option QuicError
  | .chose (.failed err) => some err
  | .chose _ => none
  | .wrote _ _ outcome =>
      match sendBufferUsingConn outcome with
      | .ok () => none
      | .error err => some err

@[simp] theorem countP_creates_chose (choice : Choice Conn) (log : List (Op Conn)) :
    (Op.chose choice :: log).countP Op.creates =
      log.countP Op.creates + (if choice.creates then 1 else 0) :=
  List.countP_cons

@[simp] theorem countP_reuses_chose (choice : Choice Conn) (log : List (Op Conn)) :
    (Op.chose choice :: log).countP Op.reuses =
      log.countP Op.reuses + (if choice.reuses then 1 else 0) :=
  List.countP_cons

@[simp] theorem countP_writes_chose (choice : Choice Conn) (log : List (Op Conn)) :
    (Op.chose choice :: log).countP Op.writes = log.countP Op.writes :=
  List.countP_cons_of_neg Bool.false_ne_true

@[simp] theorem countP_creates_wrote (connection : Conn) (data : List UInt8)
    (outcome : StreamWrite) (log : List (Op Conn)) :
    (Op.wrote connection data outcome :: log).countP Op.creates = log.countP Op.creates :=
  List.countP_cons_of_neg Bool.false_ne_true

@[simp] theorem countP_reuses_wrote (connection : Conn) (data : List UInt8)
    (outcome : StreamWrite) (log : List (Op Conn)) :
    (Op.wrote connection data outcome :: log).countP Op.reuses = log.countP Op.reuses :=
  List.countP_cons_of_neg Bool.false_ne_true

@[simp] theorem countP_writes_wrote (connection : Conn) (data : List UInt8)
    (outcome : StreamWrite) (log : List (Op Conn)) :
    (Op.wrote connection data outcome :: log).countP Op.writes = log.countP Op.writes + 1 :=
  List.countP_cons_of_pos rfl

/-- When a locked block comes to a choice: it makes a connection, or panics on the way to it, if
there is none, replaces the one the call has just used, and takes any other. -/
def Choice.Fits (stableId : Conn → Nat) (slot : Option Conn) (last : Nat) : Choice Conn → Prop
  | .made _ => slot = none
  | .reconnected old _ => slot = some old ∧ stableId old = last
  | .reused connection => slot = some connection ∧ stableId connection ≠ last
  | .failed _ => True
  | .noEndpoint => slot = none

/-- A connection in hand was made or taken, and not both. -/
theorem Choice.creates_add_reuses {choice : Choice Conn} {connection : Conn}
    (h : choice.connection? = some connection) :
    (if choice.creates then 1 else 0) + (if choice.reuses then 1 else 0) = 1 := by
  cases choice with
  | made c => rfl
  | reconnected old c => rfl
  | reused c => rfl
  | failed err => cases h
  | noEndpoint => cases h

theorem Choice.of_connection?_eq_none {choice : Choice Conn} (h : choice.connection? = none) :
    (∃ err, choice = .failed err) ∨ choice = .noEndpoint := by
  cases choice with
  | made c => cases h
  | reconnected old c => cases h
  | reused c => cases h
  | failed err => exact .inl ⟨err, rfl⟩
  | noEndpoint => exact .inr rfl

/-- Without a connection in hand none was made or taken. -/
theorem Choice.counts_of_connection?_eq_none {choice : Choice Conn}
    (h : choice.connection? = none) : choice.creates = false ∧ choice.reuses = false := by
  rcases Choice.of_connection?_eq_none h with ⟨err, rfl⟩ | rfl
  · exact ⟨rfl, rfl⟩
  · exact ⟨rfl, rfl⟩

namespace Call

/-- Connections the call has made. -/
def created (call : Call Conn) : Nat := call.log.countP Op.creates

/-- Times the call has taken the connection it found. -/
def reused (call : Call Conn) : Nat := call.log.countP Op.reuses

/-- Writes the call has made. -/
def writes (call : Call Conn) : Nat := call.log.countP Op.writes

/-- Steps the call has taken; being abandoned is one. -/
def steps (call : Call Conn) : Nat :=
  call.log.length +
    match call.progress with
    | .abandoned => 1
    | _ => 0

theorem steps_of_kept {call : Call Conn} (h : call.progress ≠ .abandoned) :
    call.steps = call.log.length := by
  cases hp : call.progress with
  | abandoned => exact absurd hp h
  | looping => simp [steps, hp]
  | writing connection => simp [steps, hp]
  | returned result => simp [steps, hp]
  | panicked => simp [steps, hp]
  | noEndpoint => simp [steps, hp]

end Call

end Counts

/-! ## What the halves of an iteration do to a call with data -/

namespace Call

variable {Conn : Type} {stableId : Conn → Nat} {call : Call Conn}

theorem install_eq (slot : Option Conn) (choice : Choice Conn) :
    install slot choice = if choice.creates then choice.connection? else slot := by
  cases choice with
  | made c => rfl
  | reconnected old c => rfl
  | reused c => rfl
  | failed err => rfl
  | noEndpoint => rfl

/-- A choice with a connection is counted if it made the connection, which is then used. -/
theorem afterChoice_eq_useConnection (stableId : Conn → Nat) (call : Call Conn)
    {choice : Choice Conn} {connection : Conn} (h : choice.connection? = some connection) :
    call.afterChoice stableId choice =
      useConnection stableId
        { call with
          log := .chose choice :: call.log
          connectionTryCount := call.connectionTryCount + (if choice.creates then 1 else 0) }
        connection := by
  cases choice with
  | made c =>
      cases h
      rfl
  | reconnected old c =>
      cases h
      rfl
  | reused c =>
      cases h
      rfl
  | failed err => cases h
  | noEndpoint => cases h

/-- A choice with a connection leads to the write on it. -/
theorem afterChoice_of_connection (stableId : Conn → Nat) (hdata : call.data ≠ [])
    {choice : Choice Conn} {connection : Conn} (h : choice.connection? = some connection) :
    call.afterChoice stableId choice =
      { call with
        log := .chose choice :: call.log
        connectionTryCount := call.connectionTryCount + (if choice.creates then 1 else 0)
        lastConnectionId := stableId connection
        progress := .writing connection } := by
  rw [afterChoice_eq_useConnection stableId call h]
  simp [useConnection, hdata]

/-- The locked block ends the call with an error or with the panic, ends a warming call with a
connection, or hands out the connection for the next write. -/
theorem afterChoice_cases (stableId : Conn → Nat) (call : Call Conn) (choice : Choice Conn) :
    (∃ err, choice = .failed err ∧ call.afterChoice stableId choice =
        { call with
          log := .chose choice :: call.log
          progress := .returned (.error err) }) ∨
      (choice = .noEndpoint ∧ call.afterChoice stableId choice =
        { call with
          log := .chose choice :: call.log
          progress := .noEndpoint }) ∨
      (∃ connection, choice.connection? = some connection ∧ call.data = [] ∧
        call.afterChoice stableId choice =
          { call with
            log := .chose choice :: call.log
            connectionTryCount := call.connectionTryCount + (if choice.creates then 1 else 0)
            progress := .returned (.ok connection) }) ∨
      ∃ connection, choice.connection? = some connection ∧ call.data ≠ [] ∧
        call.afterChoice stableId choice =
          { call with
            log := .chose choice :: call.log
            connectionTryCount := call.connectionTryCount + (if choice.creates then 1 else 0)
            lastConnectionId := stableId connection
            progress := .writing connection } := by
  cases hchoice : choice.connection? with
  | none =>
      rcases Choice.of_connection?_eq_none hchoice with ⟨err, rfl⟩ | rfl
      · exact .inl ⟨err, rfl, rfl⟩
      · exact .inr (.inl ⟨rfl, rfl⟩)
  | some connection =>
      refine .inr (.inr ?_)
      by_cases hdata : call.data = []
      · refine .inl ⟨connection, rfl, hdata, ?_⟩
        rw [afterChoice_eq_useConnection stableId call hchoice]
        simp [useConnection, hdata]
      · exact .inr ⟨connection, rfl, hdata, afterChoice_of_connection stableId hdata hchoice⟩

theorem log_afterChoice (call : Call Conn) (choice : Choice Conn) :
    (call.afterChoice stableId choice).log = .chose choice :: call.log := by
  rcases afterChoice_cases stableId call choice with
    ⟨_, _, heq⟩ | ⟨_, heq⟩ | ⟨_, _, _, heq⟩ | ⟨_, _, _, heq⟩
  all_goals rw [heq]

/-- Neither half abandons the call. -/
theorem afterChoice_kept (call : Call Conn) (choice : Choice Conn) :
    (call.afterChoice stableId choice).progress ≠ .abandoned := by
  rcases afterChoice_cases stableId call choice with
    ⟨_, _, heq⟩ | ⟨_, heq⟩ | ⟨_, _, _, heq⟩ | ⟨_, _, _, heq⟩
  all_goals simp [heq]

/-- A write ends the call, or fails with a connection error and goes back to the guard. -/
theorem writeStep_cases (call : Call Conn) (connection : Conn) (outcome : StreamWrite) :
    (outcome = .written ∧ call.writeStep connection outcome =
        { call with
          log := .wrote connection call.data outcome :: call.log
          progress := .returned (.ok connection) }) ∨
      (∃ err, outcome = .writeFailed err ∧ call.writeStep connection outcome =
        { call with
          log := .wrote connection call.data outcome :: call.log
          progress := .returned (.error (.WriteError err)) }) ∨
      ∃ err, outcome = .openFailed err ∧ call.writeStep connection outcome =
        { call with
          log := .wrote connection call.data outcome :: call.log
          lastError := some (.ConnectionError err)
          progress :=
            if call.connectionTryCount < 2 then .looping
            else .returned (.error (.ConnectionError err)) } := by
  cases outcome with
  | written => exact .inl ⟨rfl, rfl⟩
  | writeFailed err => exact .inr (.inl ⟨err, rfl, rfl⟩)
  | openFailed err => exact .inr (.inr ⟨err, rfl, rfl⟩)

/-- After its write a call is at the guard again or has returned. -/
theorem writeStep_progress (call : Call Conn) (connection : Conn) (outcome : StreamWrite) :
    (call.writeStep connection outcome).progress = .looping ∨
      ∃ result, (call.writeStep connection outcome).progress = .returned result := by
  rcases writeStep_cases call connection outcome with ⟨_, heq⟩ | ⟨err, _, heq⟩ | ⟨err, _, heq⟩
  · rw [heq]
    exact .inr ⟨.ok connection, rfl⟩
  · rw [heq]
    exact .inr ⟨.error (.WriteError err), rfl⟩
  · rw [heq]
    by_cases hfew : call.connectionTryCount < 2
    · exact .inl (if_pos hfew)
    · exact .inr ⟨.error (.ConnectionError err), if_neg hfew⟩

theorem writeStep_kept (call : Call Conn) (connection : Conn) (outcome : StreamWrite) :
    (call.writeStep connection outcome).progress ≠ .abandoned := by
  rcases writeStep_progress call connection outcome with h | ⟨_, h⟩
  · simp [h]
  · simp [h]

theorem writeStep_calm (call : Call Conn) (connection : Conn) (outcome : StreamWrite) :
    (call.writeStep connection outcome).progress ≠ .panicked := by
  rcases writeStep_progress call connection outcome with h | ⟨_, h⟩
  · simp [h]
  · simp [h]

theorem writeStep_not_writing (call : Call Conn) (connection : Conn) (outcome : StreamWrite)
    (c : Conn) : (call.writeStep connection outcome).progress ≠ .writing c := by
  rcases writeStep_progress call connection outcome with h | ⟨_, h⟩
  · simp [h]
  · simp [h]

theorem log_writeStep (call : Call Conn) (connection : Conn) (outcome : StreamWrite) :
    (call.writeStep connection outcome).log = .wrote connection call.data outcome :: call.log := by
  rcases writeStep_cases call connection outcome with ⟨_, heq⟩ | ⟨_, _, heq⟩ | ⟨_, _, heq⟩
  all_goals rw [heq]

theorem created_afterChoice (call : Call Conn) (choice : Choice Conn) :
    (call.afterChoice stableId choice).created =
      call.created + (if choice.creates then 1 else 0) := by
  rw [created, log_afterChoice]
  exact countP_creates_chose choice call.log

theorem reused_afterChoice (call : Call Conn) (choice : Choice Conn) :
    (call.afterChoice stableId choice).reused =
      call.reused + (if choice.reuses then 1 else 0) := by
  rw [reused, log_afterChoice]
  exact countP_reuses_chose choice call.log

theorem writes_afterChoice (call : Call Conn) (choice : Choice Conn) :
    (call.afterChoice stableId choice).writes = call.writes := by
  rw [writes, log_afterChoice]
  exact countP_writes_chose choice call.log

theorem created_writeStep (call : Call Conn) (connection : Conn) (outcome : StreamWrite) :
    (call.writeStep connection outcome).created = call.created := by
  rw [created, log_writeStep]
  exact countP_creates_wrote connection call.data outcome call.log

theorem reused_writeStep (call : Call Conn) (connection : Conn) (outcome : StreamWrite) :
    (call.writeStep connection outcome).reused = call.reused := by
  rw [reused, log_writeStep]
  exact countP_reuses_wrote connection call.data outcome call.log

theorem writes_writeStep (call : Call Conn) (connection : Conn) (outcome : StreamWrite) :
    (call.writeStep connection outcome).writes = call.writes + 1 := by
  rw [writes, log_writeStep]
  exact countP_writes_wrote connection call.data outcome call.log

/-- The locked block of a call comes to a choice that fits what it found. -/
theorem choose_fits {slot : Option Conn} {last : Nat} {answers : ConnectAnswers Conn}
    {choice : Choice Conn} (h : choose stableId slot last answers = choice) :
    choice.Fits stableId slot last := by
  subst h
  cases slot with
  | none =>
      cases hmake : makeConnection answers.connect with
      | none => simp [choose, hmake, Choice.Fits]
      | some result =>
          cases result with
          | ok connection => simp [choose, hmake, Choice.Fits]
          | error err => simp [choose, hmake, Choice.Fits]
  | some conn =>
      by_cases hid : stableId conn = last
      · cases hmake : makeConnection0rtt answers.connect0rtt with
        | ok connection => simp [choose, hid, hmake, Choice.Fits]
        | error err => simp [choose, hid, hmake, Choice.Fits]
      · simp [choose, hid, Choice.Fits]

/-- Only a first connection asks for an endpoint. -/
theorem connect_of_choose_eq_noEndpoint {slot : Option Conn} {last : Nat}
    {answers : ConnectAnswers Conn} (h : choose stableId slot last answers = .noEndpoint) :
    answers.connect = .noEndpoint := by
  cases hconnect : answers.connect with
  | noEndpoint => rfl
  | error err =>
      have hnone : slot = none := choose_fits h
      simp [choose, hnone, hconnect, makeConnection] at h
  | ok handshake =>
      have hnone : slot = none := choose_fits h
      cases hresult : handshake.result with
      | ok connection => simp [choose, hnone, hconnect, makeConnection, hresult] at h
      | error err => simp [choose, hnone, hconnect, makeConnection, hresult] at h

/-- Only a connection error leads back to the guard, and only while the guard holds. -/
theorem openFailed_of_writeStep_looping {connection : Conn} {outcome : StreamWrite}
    (h : (call.writeStep connection outcome).progress = .looping) :
    (∃ err, outcome = .openFailed err) ∧ call.connectionTryCount < 2 := by
  rcases writeStep_cases call connection outcome with
    ⟨_, heq⟩ | ⟨_, _, heq⟩ | ⟨err, hfailed, heq⟩
  · rw [heq] at h
    cases h
  · rw [heq] at h
    cases h
  · refine ⟨⟨err, hfailed⟩, ?_⟩
    rw [heq] at h
    by_contra hfew
    simp [hfew] at h

/-- A write leaves the data, the count of tries and the number the call remembers. -/
theorem writeStep_keeps (call : Call Conn) (connection : Conn) (outcome : StreamWrite) :
    (call.writeStep connection outcome).data = call.data ∧
      (call.writeStep connection outcome).connectionTryCount = call.connectionTryCount ∧
      (call.writeStep connection outcome).lastConnectionId = call.lastConnectionId := by
  rcases writeStep_cases call connection outcome with ⟨_, heq⟩ | ⟨_, _, heq⟩ | ⟨_, _, heq⟩
  all_goals rw [heq]; exact ⟨rfl, rfl, rfl⟩

end Call

/-! ## A call with data keeps its books -/

section Sound

variable {Conn : Type} (stableId : Conn → Nat)

/-- The result of a call is the outcome of the last thing it did. -/
def ReturnsLast (call : Call Conn) : Except QuicError Conn → Prop
  | .ok connection => ∃ rest, call.log = .wrote connection call.data .written :: rest
  | .error err => ∃ op rest, call.log = op :: rest ∧ op.error? = some err

/-- What every call with data satisfies, whatever it meets. -/
structure Sound (call : Call Conn) : Prop where
  nonempty : call.data ≠ []
  tries : call.connectionTryCount = call.created
  created_le : call.created ≤ 2
  writes_le : call.writes ≤ call.created + call.reused
  looping : call.progress = .looping →
    call.created < 2 ∧ call.writes = call.created + call.reused
  writing : ∀ connection, call.progress = .writing connection →
    call.lastConnectionId = stableId connection ∧ call.writes + 1 = call.created + call.reused
  returned : ∀ result, call.progress = .returned result → ReturnsLast call result
  calm : call.progress ≠ .panicked
  steps_le : call.steps ≤
    call.created + call.reused + call.writes + (if call.isRunning then 0 else 1)

variable {stableId} {call : Call Conn}

theorem sound_start {data : List UInt8} (hdata : data ≠ []) : Sound stableId (Call.start data) :=
  { nonempty := hdata
    tries := rfl
    created_le := Nat.zero_le 2
    writes_le := Nat.zero_le _
    looping := fun _ => ⟨Nat.zero_lt_two, rfl⟩
    writing := by
      intro connection h
      cases h
    returned := by
      intro result h
      cases h
    calm := by
      intro h
      cases h
    steps_le := Nat.zero_le _ }

/-- A locked block without a connection ends the call: a failed creation with its error. -/
theorem Sound.afterChoice_none (h : Sound stableId call) (hlooping : call.progress = .looping)
    {choice : Choice Conn} (hchoice : choice.connection? = none) :
    Sound stableId (call.afterChoice stableId choice) := by
  have hrunning : call.isRunning = true := by
    simp [Call.isRunning, hlooping]
  have hlength : call.log.length ≤ call.created + call.reused + call.writes := by
    simpa [Call.steps, hlooping, hrunning] using h.steps_le
  rcases Choice.counts_of_connection?_eq_none hchoice with ⟨hcreates, hreuses⟩
  have hcreated : (call.afterChoice stableId choice).created = call.created := by
    rw [Call.created_afterChoice, hcreates]
    rfl
  have hreused : (call.afterChoice stableId choice).reused = call.reused := by
    rw [Call.reused_afterChoice, hreuses]
    rfl
  have hwrites : (call.afterChoice stableId choice).writes = call.writes :=
    Call.writes_afterChoice call choice
  have hends : (call.afterChoice stableId choice).isRunning = false ∧
      (call.afterChoice stableId choice).data = call.data ∧
      (call.afterChoice stableId choice).connectionTryCount = call.connectionTryCount ∧
      (call.afterChoice stableId choice).progress ≠ .panicked ∧
      ∀ result, (call.afterChoice stableId choice).progress = .returned result →
        ReturnsLast (call.afterChoice stableId choice) result := by
    rcases Choice.of_connection?_eq_none hchoice with ⟨err, rfl⟩ | rfl
    · refine ⟨rfl, rfl, rfl, nofun, ?_⟩
      intro result hp
      cases hp
      exact ⟨_, _, rfl, rfl⟩
    · exact ⟨rfl, rfl, rfl, nofun, nofun⟩
  rcases hends with ⟨hover, hdata, htries, hcalm, hreturned⟩
  refine
    { nonempty := hdata ▸ h.nonempty
      tries := ?_
      created_le := ?_
      writes_le := ?_
      looping := ?_
      writing := ?_
      returned := hreturned
      calm := hcalm
      steps_le := ?_ }
  · rw [htries, hcreated]
    exact h.tries
  · rw [hcreated]
    exact h.created_le
  · rw [hcreated, hreused, hwrites]
    exact h.writes_le
  · intro hp
    simp [Call.isRunning, hp] at hover
  · intro connection hp
    simp [Call.isRunning, hp] at hover
  · rw [Call.steps_of_kept (Call.afterChoice_kept call choice), hcreated, hreused, hwrites,
      Call.log_afterChoice, hover, List.length_cons]
    exact Nat.succ_le_succ hlength

/-- A call enters the locked block with fewer than two connections made, and leaves it with the
next write due. -/
theorem Sound.afterChoice_connection (h : Sound stableId call)
    (hlooping : call.progress = .looping) {choice : Choice Conn} {connection : Conn}
    (hchoice : choice.connection? = some connection) :
    Sound stableId (call.afterChoice stableId choice) := by
  rcases h.looping hlooping with ⟨hfew, hwrites⟩
  have hrunning : call.isRunning = true := by
    simp [Call.isRunning, hlooping]
  have hlength : call.log.length ≤ call.created + call.reused + call.writes := by
    simpa [Call.steps, hlooping, hrunning] using h.steps_le
  -- the choice makes a connection or reuses one, which is the one that the next write is for
  have hone := Choice.creates_add_reuses hchoice
  have hmade : (if choice.creates = true then 1 else 0) ≤ 1 := by
    split <;> decide
  have hcreated : (call.afterChoice stableId choice).created =
      call.created + (if choice.creates then 1 else 0) := Call.created_afterChoice call choice
  have hcall := Call.afterChoice_of_connection stableId h.nonempty hchoice
  refine
    { nonempty := ?_
      tries := ?_
      created_le := ?_
      writes_le := ?_
      looping := ?_
      writing := ?_
      returned := ?_
      calm := ?_
      steps_le := ?_ }
  · rw [hcall]
    exact h.nonempty
  · rw [hcreated, hcall]
    exact congrArg (· + _) h.tries
  · rw [hcreated]
    exact Nat.add_le_add (Nat.le_of_lt_succ hfew) hmade
  · rw [hcreated, Call.reused_afterChoice, Call.writes_afterChoice]
    omega
  · intro hp
    rw [hcall] at hp
    cases hp
  · intro connection' hp
    rw [hcreated, Call.reused_afterChoice, Call.writes_afterChoice]
    rw [hcall] at hp ⊢
    cases hp
    exact ⟨rfl, by omega⟩
  · intro result hp
    rw [hcall] at hp
    cases hp
  · intro hp
    rw [hcall] at hp
    cases hp
  · rw [Call.steps_of_kept (Call.afterChoice_kept call choice), hcreated, Call.reused_afterChoice,
      Call.writes_afterChoice, Call.log_afterChoice, List.length_cons]
    omega

theorem Sound.afterChoice (h : Sound stableId call) (hlooping : call.progress = .looping)
    (choice : Choice Conn) : Sound stableId (call.afterChoice stableId choice) := by
  cases hchoice : choice.connection? with
  | some connection => exact h.afterChoice_connection hlooping hchoice
  | none => exact h.afterChoice_none hlooping hchoice

/-- What a call returns after a write is what the write came to. -/
theorem returnsLast_writeStep {connection : Conn} {outcome : StreamWrite}
    {result : Except QuicError Conn}
    (hreturned : (call.writeStep connection outcome).progress = .returned result) :
    ReturnsLast (call.writeStep connection outcome) result := by
  rcases Call.writeStep_cases call connection outcome with
    ⟨hwritten, heq⟩ | ⟨err, hfailed, heq⟩ | ⟨err, hfailed, heq⟩
  · rw [heq] at hreturned ⊢
    cases hreturned
    exact ⟨call.log, by rw [hwritten]⟩
  · rw [heq] at hreturned ⊢
    cases hreturned
    exact ⟨.wrote connection call.data outcome, call.log, rfl, by rw [hfailed]; rfl⟩
  · rw [heq] at hreturned ⊢
    -- the guard has failed, so the connection error just recorded is the result
    by_cases hfew : call.connectionTryCount < 2
    · simp [hfew] at hreturned
    · simp only [hfew, if_false, Progress.returned.injEq] at hreturned
      subst hreturned
      exact ⟨.wrote connection call.data outcome, call.log, rfl, by rw [hfailed]; rfl⟩

/-- After a write the books are even again. -/
theorem Sound.writeStep (h : Sound stableId call) {connection : Conn}
    (hwriting : call.progress = .writing connection) (outcome : StreamWrite) :
    Sound stableId (call.writeStep connection outcome) := by
  rcases h.writing connection hwriting with ⟨_, hwrites⟩
  have hrunning : call.isRunning = true := by
    simp [Call.isRunning, hwriting]
  have hlength : call.log.length ≤ call.created + call.reused + call.writes := by
    simpa [Call.steps, hwriting, hrunning] using h.steps_le
  have htries := h.tries
  have hcreated := h.created_le
  -- the write adds itself to the log; what the books say of connections stays as it is
  have hcreated' := Call.created_writeStep call connection outcome
  have hreused' := Call.reused_writeStep call connection outcome
  have hwrites' := Call.writes_writeStep call connection outcome
  rcases Call.writeStep_keeps call connection outcome with ⟨hdata, hcount, _⟩
  refine
    { nonempty := hdata ▸ h.nonempty
      tries := ?_
      created_le := ?_
      writes_le := ?_
      looping := ?_
      writing := ?_
      returned := fun _ hreturned => returnsLast_writeStep hreturned
      calm := Call.writeStep_calm call connection outcome
      steps_le := ?_ }
  · rw [hcount, hcreated']
    exact htries
  · rw [hcreated']
    exact hcreated
  · rw [hcreated', hreused', hwrites']
    exact Nat.le_of_eq hwrites
  · intro hlooping
    have hfew := (Call.openFailed_of_writeStep_looping hlooping).2
    rw [hcreated', hreused', hwrites']
    exact ⟨htries ▸ hfew, hwrites⟩
  · intro c hp
    exact absurd hp (Call.writeStep_not_writing call connection outcome c)
  · rw [Call.steps_of_kept (Call.writeStep_kept call connection outcome), hcreated', hreused',
      hwrites', Call.log_writeStep, List.length_cons]
    omega

/-- A running call may be abandoned. -/
theorem Sound.abandon (h : Sound stableId call) (hrunning : call.isRunning = true) :
    Sound stableId call.abandon := by
  have hlength : call.log.length ≤ call.created + call.reused + call.writes := by
    have hsteps := h.steps_le
    simp only [hrunning, if_true, Call.steps] at hsteps
    omega
  refine
    { nonempty := h.nonempty
      tries := h.tries
      created_le := h.created_le
      writes_le := h.writes_le
      looping := by simp [Call.abandon]
      writing := by simp [Call.abandon]
      returned := by simp [Call.abandon]
      calm := by simp [Call.abandon]
      steps_le := ?_ }
  exact Nat.add_le_add_right hlength 1

end Sound

end Quik
end TpuSender
