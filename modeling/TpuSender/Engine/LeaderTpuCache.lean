import TpuSender.Engine.Checked
import TpuSender.Library.FirstOccurrence
import Mathlib.Logic.Function.Basic

/-!
# LeaderTpuCache — upcoming leaders and the sockets they listen on

The cache holds a run of consecutive leaders, `leaders[i]` being the leader of slot
`firstSlot + i`, and a map from leaders to TPU sockets.  `updateAll` folds the answers of one
refresh into it and `getLeaderSockets` reads a fan-out from it.

`Pubkey::from_str` belongs to the SDK; it is the parameter `fromStr`, a partial function.
-/

namespace TpuSender
namespace Engine

open Library

/-! ## Data -/

/-- Maximum number of slots used to build TPU socket fanout set. -/
def MAX_FANOUT_SLOTS : Nat := 100

/-- Slots in a row that one leader is scheduled for. -/
def NUM_CONSECUTIVE_LEADER_SLOTS : Nat := 4

/-- Distance from the UDP port of a TPU to its QUIC port. -/
def QUIC_PORT_OFFSET : Nat := 6

/-- The 32 bytes of a public key. -/
abbrev Pubkey := BitVec 256

inductive SocketAddr
  | V4 (ip : BitVec 32) (port : UInt16)
  | V6 (ip : BitVec 128) (port : UInt16) (flowinfo scopeId : UInt32)
  deriving DecidableEq, Repr

def SocketAddr.port : SocketAddr → UInt16
  | .V4 _ port => port
  | .V6 _ port _ _ => port

def SocketAddr.setPort : SocketAddr → UInt16 → SocketAddr
  | .V4 ip _, port => .V4 ip port
  | .V6 ip _ flowinfo scopeId, port => .V6 ip port flowinfo scopeId

/-- `u16::checked_add`. -/
def checkedAddPort (port : UInt16) (offset : Nat) : Option UInt16 :=
  if port.toNat + offset < UInt16.size then some (UInt16.ofNat (port.toNat + offset)) else none

inductive Protocol
  | UDP
  | QUIC
  deriving DecidableEq, Repr

structure RpcContactInfo where
  pubkey : String
  tpu : Option SocketAddr
  tpuQuic : Option SocketAddr

structure EpochInfo where
  slotsInEpoch : Nat

/-- The part of an RPC client error that the service looks at. -/
inductive ClientError
  | RpcResponseError (code : Int) (message : String)
  | Other (message : String)
  deriving DecidableEq, Repr

abbrev ClientResult (α : Type) := Except ClientError α

structure LeaderTpuCacheUpdateInfo where
  maybeClusterNodes : Option (ClientResult (List RpcContactInfo))
  maybeEpochInfo : Option (ClientResult EpochInfo)
  maybeSlotLeaders : Option (ClientResult (List Pubkey))

def LeaderTpuCacheUpdateInfo.hasSome (info : LeaderTpuCacheUpdateInfo) : Bool :=
  info.maybeClusterNodes.isSome || info.maybeEpochInfo.isSome || info.maybeSlotLeaders.isSome

structure LeaderTpuCache where
  protocol : Protocol
  firstSlot : Nat
  leaders : List Pubkey
  leaderTpuMap : Pubkey → Option SocketAddr
  slotsInEpoch : Nat
  lastEpochInfoSlot : Nat

namespace LeaderTpuCache

/-! ## Sockets of the cluster -/

section Extract

variable (fromStr : String → Option Pubkey)

/-- The socket of one entry, if its key parses and it has a usable socket. -/
def contactSocket (protocol : Protocol) (contactInfo : RpcContactInfo) :
    Option (Pubkey × SocketAddr) := do
  let pubkey ← fromStr contactInfo.pubkey
  let socket ←
    match protocol with
    | .QUIC =>
        -- without a QUIC socket the port is the UDP one and an offset
        contactInfo.tpuQuic <|> do
          let socket ← contactInfo.tpu
          -- a port past the range leaves the entry without a socket
          let port ← checkedAddPort socket.port QUIC_PORT_OFFSET
          pure (socket.setPort port)
    | .UDP => contactInfo.tpu
  pure (pubkey, socket)

/-- Inserting into the map: the last pair for a key stays. -/
def insertSocket (map : Pubkey → Option SocketAddr) (entry : Pubkey × SocketAddr) :
    Pubkey → Option SocketAddr :=
  Function.update map entry.1 (some entry.2)

def extractClusterTpuSockets (protocol : Protocol) (clusterContactInfo : List RpcContactInfo) :
    Pubkey → Option SocketAddr :=
  (clusterContactInfo.filterMap (contactSocket fromStr protocol)).foldl insertSocket fun _ => none

def new (firstSlot slotsInEpoch : Nat) (leaders : List Pubkey)
    (clusterNodes : List RpcContactInfo) (protocol : Protocol) : LeaderTpuCache :=
  { protocol := protocol
    firstSlot := firstSlot
    leaders := leaders
    leaderTpuMap := extractClusterTpuSockets fromStr protocol clusterNodes
    slotsInEpoch := slotsInEpoch
    lastEpochInfoSlot := firstSlot }

end Extract

/-! ## Reading the cache -/

/-- Last slot that has a cached leader pubkey. -/
def lastSlot (c : LeaderTpuCache) : Except Panic Nat :=
  checkedAdd c.firstSlot (saturatingSub c.leaders.length 1)

/-- Last cached slot, slot of the last epoch info, slots in an epoch. -/
def slotInfo (c : LeaderTpuCache) : Except Panic (Nat × Nat × Nat) := do
  let lastSlot ← c.lastSlot
  pure (lastSlot, c.lastEpochInfoSlot, c.slotsInEpoch)

def getSlotLeader (c : LeaderTpuCache) (slot : Nat) : Option Pubkey :=
  if c.firstSlot ≤ slot then
    let index := slot - c.firstSlot
    -- past the last cached leader this is `None` as well
    c.leaders[index]?
  else
    none

/-- One turn of the fan-out loop: push the socket of the leader of `leaderSlot`. -/
def pushLeaderSocket (c : LeaderTpuCache) (leaderSockets : List SocketAddr) (leaderSlot : Nat) :
    Except Panic (List SocketAddr) :=
  match c.getSlotLeader leaderSlot with
  | some leader =>
      match c.leaderTpuMap leader with
      | some tpuSocket => pure (leaderSockets ++ [tpuSocket])
      -- the leader is probably delinquent
      | none => pure leaderSockets
  | none => do
      -- overran the local leader schedule cache; the warning prints the last cached slot
      let _ ← c.lastSlot
      pure leaderSockets

/-- `(currentSlot..currentSlot + fanoutSlots).step_by(NUM_CONSECUTIVE_LEADER_SLOTS)`. -/
def probedSlots (currentSlot fanoutSlots : Nat) : List Nat :=
  List.range' currentSlot
    ((fanoutSlots + (NUM_CONSECUTIVE_LEADER_SLOTS - 1)) / NUM_CONSECUTIVE_LEADER_SLOTS)
    NUM_CONSECUTIVE_LEADER_SLOTS

/-- The TPU sockets for the current leader and upcoming leaders according to fanout size. -/
def getLeaderSockets (c : LeaderTpuCache) (estimatedCurrentSlot fanoutSlots : Nat) :
    Except Panic (List SocketAddr) := do
  -- `firstSlot` might have been advanced since the caller read the estimate
  let currentSlot := max estimatedCurrentSlot c.firstSlot
  -- the upper end of the range is computed before the first turn
  let _ ← checkedAdd currentSlot fanoutSlots
  (probedSlots currentSlot fanoutSlots).foldlM c.pushLeaderSocket []

/-- The loop body of the dedup: `seen.insert(socket)` tells whether the socket is new. -/
def pushUnseen (acc : List SocketAddr × List SocketAddr) (socket : SocketAddr) :
    List SocketAddr × List SocketAddr :=
  if socket ∈ acc.2 then acc else (acc.1 ++ [socket], socket :: acc.2)

/-- The TPU sockets for the current leader and upcoming *unique* leaders. -/
def getUniqueLeaderSockets (c : LeaderTpuCache) (estimatedCurrentSlot fanoutSlots : Nat) :
    Except Panic (List SocketAddr) := do
  let allLeaderSockets ← c.getLeaderSockets estimatedCurrentSlot fanoutSlots
  let (uniqueSockets, _seen) := allLeaderSockets.foldl pushUnseen ([], [])
  pure uniqueSockets

/-! ## Refreshing the cache -/

/-- Number of slot leaders asked for in one request. -/
def fanout (slotsInEpoch : Nat) : Nat := min (2 * MAX_FANOUT_SLOTS) slotsInEpoch

section Update

variable (fromStr : String → Option Pubkey)

/-- Fold the answers of one refresh into the cache; the flags are `has_error` and
`cluster_refreshed`. -/
def updateAll (c : LeaderTpuCache) (estimatedCurrentSlot : Nat)
    (cacheUpdateInfo : LeaderTpuCacheUpdateInfo) : LeaderTpuCache × Bool × Bool :=
  let (c, nodesError, clusterRefreshed) :=
    match cacheUpdateInfo.maybeClusterNodes with
    | some (.ok clusterNodes) =>
        -- the map is replaced as a whole: a node that is gone loses its socket
        ({ c with leaderTpuMap := extractClusterTpuSockets fromStr c.protocol clusterNodes },
          false, true)
    | some (.error _) => (c, true, false)
    | none => (c, false, false)
  -- a failed epoch info is dropped without setting `has_error`
  let c :=
    match cacheUpdateInfo.maybeEpochInfo with
    | some (.ok epochInfo) =>
        { c with
          slotsInEpoch := epochInfo.slotsInEpoch
          lastEpochInfoSlot := estimatedCurrentSlot }
    | _ => c
  let (c, leadersError) :=
    match cacheUpdateInfo.maybeSlotLeaders with
    | some (.ok slotLeaders) =>
        ({ c with firstSlot := estimatedCurrentSlot, leaders := slotLeaders }, false)
    | some (.error _) => (c, true)
    | none => (c, false)
  (c, nodesError || leadersError, clusterRefreshed)

end Update

/-! ## What an update leaves in each field -/

section UpdateFields

variable (fromStr : String → Option Pubkey) (c : LeaderTpuCache) (estimate : Nat)
  (info : LeaderTpuCacheUpdateInfo)

theorem updateAll_protocol : (c.updateAll fromStr estimate info).1.protocol = c.protocol := by
  rcases info with ⟨_ | _ | _, _ | _ | _, _ | _ | _⟩ <;> rfl

theorem updateAll_leaderTpuMap :
    (c.updateAll fromStr estimate info).1.leaderTpuMap =
      match info.maybeClusterNodes with
      | some (.ok nodes) => extractClusterTpuSockets fromStr c.protocol nodes
      | _ => c.leaderTpuMap := by
  rcases info with ⟨_ | _ | _, _ | _ | _, _ | _ | _⟩ <;> rfl

/-- The anchor and the leaders are replaced together or not at all. -/
theorem updateAll_leaders :
    ((c.updateAll fromStr estimate info).1.firstSlot,
        (c.updateAll fromStr estimate info).1.leaders) =
      match info.maybeSlotLeaders with
      | some (.ok leaders) => (estimate, leaders)
      | _ => (c.firstSlot, c.leaders) := by
  rcases info with ⟨_ | _ | _, _ | _ | _, _ | _ | _⟩ <;> rfl

/-- So are the epoch length and the slot it was learned at. -/
theorem updateAll_epochInfo :
    ((c.updateAll fromStr estimate info).1.slotsInEpoch,
        (c.updateAll fromStr estimate info).1.lastEpochInfoSlot) =
      match info.maybeEpochInfo with
      | some (.ok epochInfo) => (epochInfo.slotsInEpoch, estimate)
      | _ => (c.slotsInEpoch, c.lastEpochInfoSlot) := by
  rcases info with ⟨_ | _ | _, _ | _ | _, _ | _ | _⟩ <;> rfl

theorem updateAll_clusterRefreshed :
    (c.updateAll fromStr estimate info).2.2 =
      match info.maybeClusterNodes with
      | some (.ok _) => true
      | _ => false := by
  rcases info with ⟨_ | _ | _, _ | _ | _, _ | _ | _⟩ <;> rfl

variable {info}

theorem updateAll_of_leaders {leaders : List Pubkey}
    (h : info.maybeSlotLeaders = some (.ok leaders)) :
    (c.updateAll fromStr estimate info).1.firstSlot = estimate ∧
      (c.updateAll fromStr estimate info).1.leaders = leaders := by
  have hboth := updateAll_leaders fromStr c estimate info
  rw [h] at hboth
  exact ⟨congrArg Prod.fst hboth, congrArg Prod.snd hboth⟩

theorem updateAll_of_no_leaders (h : ∀ leaders, info.maybeSlotLeaders ≠ some (.ok leaders)) :
    (c.updateAll fromStr estimate info).1.firstSlot = c.firstSlot ∧
      (c.updateAll fromStr estimate info).1.leaders = c.leaders := by
  have hboth := updateAll_leaders fromStr c estimate info
  rcases hmaybe : info.maybeSlotLeaders with _ | _ | leaders
  · rw [hmaybe] at hboth
    exact ⟨congrArg Prod.fst hboth, congrArg Prod.snd hboth⟩
  · rw [hmaybe] at hboth
    exact ⟨congrArg Prod.fst hboth, congrArg Prod.snd hboth⟩
  · exact absurd hmaybe (h leaders)

theorem updateAll_of_epochInfo {epochInfo : EpochInfo}
    (h : info.maybeEpochInfo = some (.ok epochInfo)) :
    (c.updateAll fromStr estimate info).1.slotsInEpoch = epochInfo.slotsInEpoch ∧
      (c.updateAll fromStr estimate info).1.lastEpochInfoSlot = estimate := by
  have hboth := updateAll_epochInfo fromStr c estimate info
  rw [h] at hboth
  exact ⟨congrArg Prod.fst hboth, congrArg Prod.snd hboth⟩

theorem updateAll_of_no_epochInfo (h : ∀ epochInfo, info.maybeEpochInfo ≠ some (.ok epochInfo)) :
    (c.updateAll fromStr estimate info).1.slotsInEpoch = c.slotsInEpoch ∧
      (c.updateAll fromStr estimate info).1.lastEpochInfoSlot = c.lastEpochInfoSlot := by
  have hboth := updateAll_epochInfo fromStr c estimate info
  rcases hmaybe : info.maybeEpochInfo with _ | _ | epochInfo
  · rw [hmaybe] at hboth
    exact ⟨congrArg Prod.fst hboth, congrArg Prod.snd hboth⟩
  · rw [hmaybe] at hboth
    exact ⟨congrArg Prod.fst hboth, congrArg Prod.snd hboth⟩
  · exact absurd hmaybe (h epochInfo)

/-- Nothing fetched, nothing changed. -/
theorem updateAll_of_not_hasSome (h : info.hasSome = false) :
    (c.updateAll fromStr estimate info).1 = c := by
  rcases info with ⟨_ | nodes, _ | epoch, _ | leaders⟩
  · rfl
  all_goals simp [LeaderTpuCacheUpdateInfo.hasSome] at h

end UpdateFields

/-! ## Slots and leaders -/

theorem getSlotLeader_eq_some_iff {c : LeaderTpuCache} {slot : Nat} {k : Pubkey} :
    c.getSlotLeader slot = some k ↔
      ∃ i, slot = c.firstSlot + i ∧ c.leaders[i]? = some k := by
  constructor
  · intro h
    by_cases hslot : c.firstSlot ≤ slot
    · have hget : c.leaders[slot - c.firstSlot]? = some k := by
        simpa [getSlotLeader, hslot] using h
      exact ⟨slot - c.firstSlot, (Nat.add_sub_cancel' hslot).symm, hget⟩
    · simp [getSlotLeader, hslot] at h
  · rintro ⟨i, rfl, hget⟩
    simpa [getSlotLeader] using hget

/-- A slot has a cached leader exactly inside `[firstSlot, firstSlot + leaders.len())`. -/
theorem getSlotLeader_isSome_iff {c : LeaderTpuCache} {slot : Nat} :
    (c.getSlotLeader slot).isSome ↔
      c.firstSlot ≤ slot ∧ slot < c.firstSlot + c.leaders.length := by
  by_cases hslot : c.firstSlot ≤ slot
  · have hlt : slot - c.firstSlot < c.leaders.length ↔
        slot < c.firstSlot + c.leaders.length := by omega
    simp [getSlotLeader, hslot, hlt]
  · simp [getSlotLeader, hslot]

theorem lastSlot_eq_ok_iff {c : LeaderTpuCache} {last : Nat} :
    c.lastSlot = .ok last ↔
      c.firstSlot + (c.leaders.length - 1) ≤ u64Max ∧
        last = c.firstSlot + (c.leaders.length - 1) := by
  rw [lastSlot, saturatingSub, checkedAdd_eq_ok_iff]

/-- The socket the fan-out takes for a slot, if any. -/
def slotSocket (c : LeaderTpuCache) (slot : Nat) : Option SocketAddr :=
  (c.getSlotLeader slot).bind c.leaderTpuMap

/-- Behind the anchor and inside the `u64` range a turn of the loop cannot panic. -/
theorem pushLeaderSocket_eq {c : LeaderTpuCache} {slot : Nat} (hfirst : c.firstSlot ≤ slot)
    (hslot : slot ≤ u64Max) (acc : List SocketAddr) :
    c.pushLeaderSocket acc slot = .ok (acc ++ (c.slotSocket slot).toList) := by
  cases hleader : c.getSlotLeader slot with
  | some leader =>
      -- with the leader known, the map alone decides
      cases hsocket : c.leaderTpuMap leader with
      | some socket => simp [pushLeaderSocket, slotSocket, hleader, hsocket, pure, Except.pure]
      | none => simp [pushLeaderSocket, slotSocket, hleader, hsocket, pure, Except.pure]
  | none =>
      -- no leader is known behind the last cached slot, which is therefore below `slot`
      have hout : ¬ (c.firstSlot ≤ slot ∧ slot < c.firstSlot + c.leaders.length) := by
        intro hin
        have hsome := getSlotLeader_isSome_iff.2 hin
        simp [hleader] at hsome
      have hlast : c.lastSlot = .ok (c.firstSlot + (c.leaders.length - 1)) :=
        lastSlot_eq_ok_iff.2 ⟨by omega, rfl⟩
      simp [pushLeaderSocket, slotSocket, hleader, hlast, bind, Except.bind, pure, Except.pure]

theorem foldlM_pushLeaderSocket {c : LeaderTpuCache} {slots : List Nat}
    (h : ∀ slot ∈ slots, c.firstSlot ≤ slot ∧ slot ≤ u64Max) (acc : List SocketAddr) :
    slots.foldlM c.pushLeaderSocket acc = .ok (acc ++ slots.filterMap c.slotSocket) := by
  induction slots generalizing acc with
  | nil => simp [pure, Except.pure]
  | cons slot slots ih =>
      have hhead := h slot List.mem_cons_self
      have htail : ∀ s ∈ slots, c.firstSlot ≤ s ∧ s ≤ u64Max :=
        fun s hs => h s (List.mem_cons_of_mem slot hs)
      -- the first turn cannot panic, and it pushes at most one socket
      rw [List.foldlM_cons, pushLeaderSocket_eq hhead.1 hhead.2 acc]
      have hrest := ih htail (acc ++ (c.slotSocket slot).toList)
      cases hsocket : c.slotSocket slot with
      | none => simpa [hsocket, bind, Except.bind] using hrest
      | some socket => simpa [hsocket, bind, Except.bind] using hrest

theorem mem_probedSlots {currentSlot fanoutSlots slot : Nat} :
    slot ∈ probedSlots currentSlot fanoutSlots ↔
      ∃ i, 4 * i < fanoutSlots ∧ slot = currentSlot + 4 * i := by
  simp only [probedSlots, NUM_CONSECUTIVE_LEADER_SLOTS, List.mem_range']
  constructor
  · rintro ⟨i, hi, rfl⟩
    exact ⟨i, by omega, rfl⟩
  · rintro ⟨i, hi, rfl⟩
    exact ⟨i, by omega, rfl⟩

/-- The fan-out probes the current slot first. -/
theorem probedSlots_eq_cons {currentSlot fanoutSlots : Nat} (h : 1 ≤ fanoutSlots) :
    probedSlots currentSlot fanoutSlots =
      currentSlot :: probedSlots (currentSlot + 4) (fanoutSlots - 4) := by
  have hcount : (fanoutSlots + 3) / 4 = (fanoutSlots - 4 + 3) / 4 + 1 := by omega
  simp only [probedSlots, NUM_CONSECUTIVE_LEADER_SLOTS, Nat.add_one_sub_one, hcount]
  rfl

/-- While the probed range ends inside `u64`, the fan-out is the list of sockets found at every
fourth slot from the clamped estimate on. -/
theorem getLeaderSockets_eq {c : LeaderTpuCache} {estimate fanoutSlots : Nat}
    (h : max estimate c.firstSlot + fanoutSlots ≤ u64Max) :
    c.getLeaderSockets estimate fanoutSlots =
      .ok ((probedSlots (max estimate c.firstSlot) fanoutSlots).filterMap c.slotSocket) := by
  -- the clamp keeps every probed slot at or behind the anchor
  have hslots : ∀ slot ∈ probedSlots (max estimate c.firstSlot) fanoutSlots,
      c.firstSlot ≤ slot ∧ slot ≤ u64Max := by
    intro slot hslot
    rcases mem_probedSlots.1 hslot with ⟨i, hi, rfl⟩
    have hmax : c.firstSlot ≤ max estimate c.firstSlot := Nat.le_max_right _ _
    constructor
    · omega
    · omega
  simpa [getLeaderSockets, checkedAdd_of_le h, bind, Except.bind] using
    foldlM_pushLeaderSocket hslots []

/-- The dedup keeps each socket where it comes up first. -/
theorem firstOccurrences_foldl_pushUnseen (sockets : List SocketAddr) :
    FirstOccurrences sockets (sockets.foldl pushUnseen ([], [])).1 :=
  FirstOccurrences.foldl (fun _ _ => rfl) sockets

theorem getUniqueLeaderSockets_eq {c : LeaderTpuCache} {estimate fanoutSlots : Nat}
    (h : max estimate c.firstSlot + fanoutSlots ≤ u64Max) :
    c.getUniqueLeaderSockets estimate fanoutSlots =
      .ok (((probedSlots (max estimate c.firstSlot) fanoutSlots).filterMap c.slotSocket).foldl
        pushUnseen ([], [])).1 := by
  simp [getUniqueLeaderSockets, getLeaderSockets_eq h, bind, Except.bind, pure, Except.pure]

/-- The sockets of a fan-out are those found at the probed slots. -/
theorem exists_getUniqueLeaderSockets {c : LeaderTpuCache} {estimate fanoutSlots : Nat}
    (h : max estimate c.firstSlot + fanoutSlots ≤ u64Max) :
    ∃ sockets, c.getUniqueLeaderSockets estimate fanoutSlots = .ok sockets ∧
      ∀ socket, socket ∈ sockets ↔
        ∃ slot ∈ probedSlots (max estimate c.firstSlot) fanoutSlots,
          c.slotSocket slot = some socket := by
  refine ⟨_, getUniqueLeaderSockets_eq h, ?_⟩
  intro socket
  rw [(firstOccurrences_foldl_pushUnseen _).mem_iff, List.mem_filterMap]

end LeaderTpuCache
end Engine
end TpuSender
