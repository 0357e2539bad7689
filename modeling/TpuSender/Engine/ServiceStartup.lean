import TpuSender.Engine.ServiceTask
import TpuSender.Library.AskUntil
import Mathlib.Data.List.Infix

/-!
# ServiceStartup — how the leader service comes into being

`LeaderTpuService::new` asks for the slot, for the length of the epoch, for the leaders, for the
cluster's nodes and for a websocket, in this order.  While a cluster is starting, the node may
refuse the leaders with an invalid slot range; this one answer is asked for again, every second for
at most twenty.

A failure is returned to the caller, except where the leaders are concerned: their error and the
end of the twenty seconds are unwrapped (`startup_outcome`).  The caller unwraps the rest.
-/

namespace TpuSender
namespace Engine

open Library

/-! ## The leaders of the first slots -/

/-- `tpu_leader_service_creation_timeout`, in nanoseconds. -/
def CREATION_TIMEOUT : Nat := 20 * 1000000000

/-- `retry_interval`, in nanoseconds. -/
def RETRY_INTERVAL : Nat := 1000000000

def INVALID_SLOT_RANGE : String := "Invalid slot range: leader schedule for epoch"

def isInvalidSlotRangeError : ClientError → Bool
  | .RpcResponseError code message =>
      code == -32602 && decide (INVALID_SLOT_RANGE.toList <:+: message.toList)
  | .Other _ => false

/-- Only an invalid slot range is asked for again. -/
def isRetried : ClientResult (List Pubkey) → Bool
  | .ok _ => false
  | .error clientError => isInvalidSlotRangeError clientError

/-- What the node answers while the service starts. -/
structure StartupRpc where
  getSlot : ClientResult Nat
  getEpochInfo : ClientResult EpochInfo
  /-- The answers to the requests for leaders, one for each turn of the loop. -/
  getSlotLeaders : Nat → Nat → Nat → Attempt (ClientResult (List Pubkey))
  getClusterNodes : ClientResult (List RpcContactInfo)

/-- Why there is no service. -/
inductive StartupFailure
  | rpcError (err : ClientError)
  | pubsubError (message : String)
  | panicked
  deriving DecidableEq, Repr

/-- A request whose error is returned by `?`. -/
def ask {α : Type} : ClientResult α → Except StartupFailure α
  | .ok a => .ok a
  | .error err => .error (.rpcError err)

/-- The loop under its timeout, unwrapped twice. -/
def firstLeaders (attempts : Nat → Attempt (ClientResult (List Pubkey))) :
    Except StartupFailure (List Pubkey) :=
  match askUntil isRetried RETRY_INTERVAL CREATION_TIMEOUT attempts (by decide) 0 0 with
  | some (.ok leaders) => .ok leaders
  | some (.error _) => .error .panicked
  | none => .error .panicked

/-! ## The service -/

/-- Without a URL there is no websocket; `pubsub` is the result of connecting to one. -/
def connectPubsub (websocketUrl : String) (pubsub : Except String Unit) :
    Except StartupFailure Unit :=
  if websocketUrl.isEmpty then
    .ok ()
  else
    match pubsub with
    | .ok () => .ok ()
    | .error message => .error (.pubsubError message)

/-- The task of a service whose refresher starts at `now`; its state is made of the answers as
`LeaderTpuService.ofAnswers` makes it (`startup_outcome`). -/
def LeaderTpuService.new (fromStr : String → Option Pubkey) (rpc : StartupRpc)
    (websocketUrl : String) (pubsub : Except String Unit) (protocol : Protocol) (now : Nat) :
    Except StartupFailure ServiceTask := do
  let startSlot ← ask rpc.getSlot
  let recentSlots := RecentLeaderSlots.new startSlot
  let slotsInEpoch := (← ask rpc.getEpochInfo).slotsInEpoch
  let leaders ← firstLeaders (rpc.getSlotLeaders startSlot (LeaderTpuCache.fanout slotsInEpoch))
  let clusterNodes ← ask rpc.getClusterNodes
  let leaderTpuCache :=
    LeaderTpuCache.new fromStr startSlot slotsInEpoch leaders clusterNodes protocol
  connectPubsub websocketUrl pubsub
  pure
    (ServiceTask.start
      { recentSlots := recentSlots
        leaderTpuCache := leaderTpuCache
        lastClusterRefresh := now
        sleepMs := DEFAULT_MS_PER_SLOT
        phase := .sleeping }
      false (!websocketUrl.isEmpty))

/-! ## What a start comes to -/

section Bind

variable {ε α β : Type} {x : Except ε α} {f : α → Except ε β}

theorem bind_eq_ok_iff {b : β} : (x >>= f) = .ok b ↔ ∃ a, x = .ok a ∧ f a = .ok b := by
  cases x with
  | ok a => simp [bind, Except.bind]
  | error e => simp [bind, Except.bind]

theorem bind_eq_error_iff {e : ε} :
    (x >>= f) = .error e ↔ x = .error e ∨ ∃ a, x = .ok a ∧ f a = .error e := by
  cases x with
  | ok a => simp [bind, Except.bind]
  | error e => simp [bind, Except.bind]

end Bind

theorem ask_eq_ok_iff {α : Type} {answer : ClientResult α} {a : α} :
    ask answer = .ok a ↔ answer = .ok a := by
  cases answer with
  | ok a => simp [ask]
  | error err => simp [ask]

theorem ask_ne_panicked {α : Type} (answer : ClientResult α) : ask answer ≠ .error .panicked := by
  cases answer with
  | ok a => simp [ask]
  | error err => simp [ask]

theorem connectPubsub_eq_ok_iff {websocketUrl : String} {pubsub : Except String Unit} :
    connectPubsub websocketUrl pubsub = .ok () ↔
      websocketUrl.isEmpty = true ∨ pubsub = .ok () := by
  cases hurl : websocketUrl.isEmpty with
  | true => simp [connectPubsub, hurl]
  | false =>
      cases pubsub with
      | ok _ => simp [connectPubsub, hurl]
      | error message => simp [connectPubsub, hurl]

theorem connectPubsub_ne_panicked (websocketUrl : String) (pubsub : Except String Unit) :
    connectPubsub websocketUrl pubsub ≠ .error .panicked := by
  unfold connectPubsub
  split
  · exact nofun
  · split <;> exact nofun

/-- The `k`-th request for leaders is the first one whose answer is not an invalid slot range, and
it is answered with `leaders` within the twenty seconds. -/
structure LeadersCome (attempts : Nat → Attempt (ClientResult (List Pubkey))) (k : Nat)
    (leaders : List Pubkey) : Prop where
  endsAt : EndsAt isRetried attempts k
  answer : (attempts k).answer = .ok leaders
  intime : askedAt RETRY_INTERVAL attempts k + (attempts k).took ≤ CREATION_TIMEOUT

section Leaders

variable {attempts : Nat → Attempt (ClientResult (List Pubkey))}

theorem firstLeaders_eq_ok_iff {leaders : List Pubkey} :
    firstLeaders attempts = .ok leaders ↔ ∃ k, LeadersCome attempts k leaders := by
  have hloop : firstLeaders attempts = .ok leaders ↔
      askUntil isRetried RETRY_INTERVAL CREATION_TIMEOUT attempts (by decide) 0 0 =
        some (.ok leaders) := by
    unfold firstLeaders
    split
    next found hfound => simp [hfound]
    next err hfound => simp [hfound]
    next hfound => simp [hfound]
  rw [hloop, askUntil_eq_some_iff]
  constructor
  · rintro ⟨k, hends, hanswer, hintime⟩
    exact ⟨k, hends, hanswer, hintime⟩
  · rintro ⟨k, hends, hanswer, hintime⟩
    exact ⟨k, hends, hanswer, hintime⟩

/-- There is no third way to end. -/
theorem firstLeaders_cases :
    firstLeaders attempts = .error .panicked ∨
      ∃ leaders, firstLeaders attempts = .ok leaders := by
  unfold firstLeaders
  split
  next leaders _ => exact .inr ⟨leaders, rfl⟩
  next => exact .inl rfl
  next => exact .inl rfl

theorem firstLeaders_eq_panicked_iff :
    firstLeaders attempts = .error .panicked ↔ ∀ k leaders, ¬ LeadersCome attempts k leaders := by
  constructor
  · intro hpanicked k leaders hcome
    have hok := firstLeaders_eq_ok_iff.2 ⟨k, hcome⟩
    rw [hpanicked] at hok
    cases hok
  · intro hnever
    rcases @firstLeaders_cases attempts with hpanicked | ⟨leaders, hok⟩
    · exact hpanicked
    · rcases firstLeaders_eq_ok_iff.1 hok with ⟨k, hcome⟩
      exact absurd hcome (hnever k leaders)

/-- No more than 21 requests fit into the time. -/
theorem attempt_le_of_askedAt {k : Nat}
    (h : askedAt RETRY_INTERVAL attempts k ≤ CREATION_TIMEOUT) : k ≤ 20 := by
  have hpauses : k * RETRY_INTERVAL ≤ CREATION_TIMEOUT := (mul_le_askedAt k).trans h
  simp only [RETRY_INTERVAL, CREATION_TIMEOUT] at hpauses
  omega

end Leaders

/-- What the node and the websocket have answered when there is a service. -/
structure StartedWith (rpc : StartupRpc) (websocketUrl : String) (pubsub : Except String Unit)
    (startSlot : Nat) (answers : RpcClient) : Prop where
  slot : rpc.getSlot = .ok startSlot
  epochInfo : answers.getEpochInfo = rpc.getEpochInfo
  leaders : ∃ epochInfo k leaders, rpc.getEpochInfo = .ok epochInfo ∧
    LeadersCome (rpc.getSlotLeaders startSlot (LeaderTpuCache.fanout epochInfo.slotsInEpoch)) k
      leaders ∧
    ∀ start limit, answers.getSlotLeaders start limit = .ok leaders
  clusterNodes : answers.getClusterNodes = rpc.getClusterNodes
  websocket : websocketUrl.isEmpty = true ∨ pubsub = .ok ()

end Engine
end TpuSender
