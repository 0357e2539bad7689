import TpuSender.Engine.LeaderTpuCache
import TpuSender.Library.LastWins

/-!
# ClusterSockets — which of a leader's entries gives its socket

A list of cluster nodes may name a leader more than once, and an entry may have no socket that the
protocol can use.  `UsableSocket` says which socket of an entry that is, apart from the code.  The
extracted map holds for each leader the usable socket of the last entry that has one
(`last_usable_entry_wins`); other entries make no difference.
-/

namespace TpuSender
namespace Engine

open Library LeaderTpuCache

/-! ## One entry -/

/-- The socket of an entry for a protocol.  Without a QUIC socket it is the UDP one with its port
moved up by `QUIC_PORT_OFFSET`, if there is such a port. -/
inductive UsableSocket (entry : RpcContactInfo) : Protocol → SocketAddr → Prop
  | udp {socket : SocketAddr} (htpu : entry.tpu = some socket) : UsableSocket entry .UDP socket
  | quic {socket : SocketAddr} (hquic : entry.tpuQuic = some socket) :
      UsableSocket entry .QUIC socket
  | quicFromTpu {socket : SocketAddr} {port : UInt16} (hquic : entry.tpuQuic = none)
      (htpu : entry.tpu = some socket)
      (hport : port.toNat = socket.port.toNat + QUIC_PORT_OFFSET) :
      UsableSocket entry .QUIC (socket.setPort port)

theorem checkedAddPort_eq_some_iff {port next : UInt16} {offset : Nat} :
    checkedAddPort port offset = some next ↔ next.toNat = port.toNat + offset := by
  by_cases hfits : port.toNat + offset < UInt16.size
  · have hnext : (UInt16.ofNat (port.toNat + offset)).toNat = port.toNat + offset :=
      UInt16.toNat_ofNat_of_lt' hfits
    rw [checkedAddPort, if_pos hfits, Option.some_inj, ← UInt16.toNat_inj, hnext, eq_comm]
  · -- a sum past the range is no port
    rw [checkedAddPort, if_neg hfits]
    constructor
    · intro h
      cases h
    · intro h
      exact absurd (h ▸ next.toNat_lt_size) hfits

/-- The port is not wrapped around. -/
example : checkedAddPort 65530 QUIC_PORT_OFFSET = none := by decide

variable {fromStr : String → Option Pubkey} {protocol : Protocol} {entry : RpcContactInfo}
  {k : Pubkey} {socket : SocketAddr}

/-- The socket that the source takes from an entry. -/
def takenSocket (protocol : Protocol) (entry : RpcContactInfo) : Option SocketAddr :=
  match protocol with
  | .QUIC =>
      entry.tpuQuic <|> entry.tpu.bind fun socket =>
        (checkedAddPort socket.port QUIC_PORT_OFFSET).bind fun port => some (socket.setPort port)
  | .UDP => entry.tpu

theorem contactSocket_eq (fromStr : String → Option Pubkey) (protocol : Protocol)
    (entry : RpcContactInfo) :
    contactSocket fromStr protocol entry =
      (fromStr entry.pubkey).bind fun k => (takenSocket protocol entry).bind fun socket =>
        some (k, socket) := by
  cases protocol with
  | UDP => rfl
  | QUIC => rfl

/-- It is the one that the protocol can use. -/
theorem takenSocket_eq_some_iff :
    takenSocket protocol entry = some socket ↔ UsableSocket entry protocol socket := by
  constructor
  · intro h
    cases protocol with
    | UDP => exact .udp h
    | QUIC =>
        rw [takenSocket] at h
        cases hquic : entry.tpuQuic with
        | some quic =>
            have hsame : quic = socket := by simpa [hquic] using h
            subst hsame
            exact .quic hquic
        | none =>
            -- no QUIC socket: there is a UDP one whose port can be moved up
            rw [hquic] at h
            rcases Option.bind_eq_some_iff.1 h with ⟨tpu, htpu, hmoved⟩
            rcases Option.bind_eq_some_iff.1 hmoved with ⟨port, hport, hsocket⟩
            cases hsocket
            exact .quicFromTpu hquic htpu (checkedAddPort_eq_some_iff.1 hport)
  · intro h
    cases h with
    | udp htpu => exact htpu
    | quic hquic => simp [takenSocket, hquic]
    | quicFromTpu hquic htpu hport =>
        simp [takenSocket, hquic, htpu, checkedAddPort_eq_some_iff.2 hport]

/-- The pair of an entry is its key and its usable socket. -/
theorem contactSocket_eq_some_iff :
    contactSocket fromStr protocol entry = some (k, socket) ↔
      fromStr entry.pubkey = some k ∧ UsableSocket entry protocol socket := by
  simp only [contactSocket_eq, Option.bind_eq_some_iff, Option.some_inj, Prod.mk.injEq,
    takenSocket_eq_some_iff]
  constructor
  · rintro ⟨key, hkey, found, hfound, rfl, rfl⟩
    exact ⟨hkey, hfound⟩
  · rintro ⟨hkey, hfound⟩
    exact ⟨k, hkey, socket, hfound, rfl, rfl⟩

/-! ## All entries -/

/-- The socket that an entry has for a leader. -/
def socketFor (fromStr : String → Option Pubkey) (protocol : Protocol) (k : Pubkey)
    (entry : RpcContactInfo) : Option SocketAddr :=
  (contactSocket fromStr protocol entry).bind (valueAt k)

theorem socketFor_eq_some_iff :
    socketFor fromStr protocol k entry = some socket ↔
      fromStr entry.pubkey = some k ∧ UsableSocket entry protocol socket := by
  rw [socketFor, Option.bind_eq_some_iff, ← contactSocket_eq_some_iff]
  constructor
  · rintro ⟨⟨key, found⟩, hpair, hvalue⟩
    by_cases hkey : key = k
    · subst hkey
      have hsame : found = socket := by simpa [valueAt] using hvalue
      rw [hpair, hsame]
    · simp [valueAt, hkey] at hvalue
  · intro hpair
    exact ⟨(k, socket), hpair, by simp [valueAt]⟩

theorem socketFor_eq_none_iff :
    socketFor fromStr protocol k entry = none ↔
      (fromStr entry.pubkey = some k → ∀ socket, ¬ UsableSocket entry protocol socket) := by
  constructor
  · intro hnone hkey socket husable
    rw [socketFor_eq_some_iff.2 ⟨hkey, husable⟩] at hnone
    cases hnone
  · intro hunusable
    cases hfound : socketFor fromStr protocol k entry with
    | none => rfl
    | some socket =>
        rcases socketFor_eq_some_iff.1 hfound with ⟨hkey, husable⟩
        exact absurd husable (hunusable hkey socket)

/-- The map that is collected holds what is found last. -/
theorem extractClusterTpuSockets_eq (fromStr : String → Option Pubkey) (protocol : Protocol)
    (clusterContactInfo : List RpcContactInfo) (k : Pubkey) :
    extractClusterTpuSockets fromStr protocol clusterContactInfo k =
      lastOf (socketFor fromStr protocol k) clusterContactInfo := by
  calc
    _ = (lastOf (valueAt k) (clusterContactInfo.filterMap (contactSocket fromStr protocol))).or
          none := foldl_update _ _ k
    _ = lastOf (valueAt k) (clusterContactInfo.filterMap (contactSocket fromStr protocol)) :=
        Option.or_none
    _ = _ := lastOf_filterMap (valueAt k) (contactSocket fromStr protocol) clusterContactInfo

theorem extractClusterTpuSockets_append (fromStr : String → Option Pubkey) (protocol : Protocol)
    (first second : List RpcContactInfo) (k : Pubkey) :
    extractClusterTpuSockets fromStr protocol (first ++ second) k =
      (extractClusterTpuSockets fromStr protocol second k).or
        (extractClusterTpuSockets fromStr protocol first k) := by
  rw [extractClusterTpuSockets_eq, lastOf_append, ← extractClusterTpuSockets_eq,
    ← extractClusterTpuSockets_eq]

/-- For every list of nodes: a leader's socket is the usable one of the last entry of the leader
that has one; an entry without one is as good as absent; and of two lists the second one wins. -/
theorem last_usable_entry_wins (fromStr : String → Option Pubkey) (protocol : Protocol) :
    (∀ nodes k socket, extractClusterTpuSockets fromStr protocol nodes k = some socket ↔
        ∃ before entry after, nodes = before ++ entry :: after ∧
          fromStr entry.pubkey = some k ∧ UsableSocket entry protocol socket ∧
          ∀ later ∈ after, fromStr later.pubkey = some k →
            ∀ socket', ¬ UsableSocket later protocol socket') ∧
      (∀ before entry after,
        (∀ k socket, fromStr entry.pubkey = some k → ¬ UsableSocket entry protocol socket) →
        extractClusterTpuSockets fromStr protocol (before ++ entry :: after) =
          extractClusterTpuSockets fromStr protocol (before ++ after)) ∧
      ∀ first second k, extractClusterTpuSockets fromStr protocol (first ++ second) k =
        (extractClusterTpuSockets fromStr protocol second k).or
          (extractClusterTpuSockets fromStr protocol first k) := by
  refine ⟨?_, ?_, extractClusterTpuSockets_append fromStr protocol⟩
  · intro nodes k socket
    rw [extractClusterTpuSockets_eq, lastOf_eq_some_iff]
    simp only [socketFor_eq_some_iff, socketFor_eq_none_iff, and_assoc]
  · intro before entry after hunusable
    funext k
    have hnone : socketFor fromStr protocol k entry = none := by
      rw [socketFor_eq_none_iff]
      intro hkey socket
      exact hunusable k socket hkey
    have hskip : lastOf (socketFor fromStr protocol k) (entry :: after) =
        lastOf (socketFor fromStr protocol k) after := by
      rw [← List.singleton_append, lastOf_append, lastOf_singleton, hnone, Option.or_none]
    rw [extractClusterTpuSockets_eq, extractClusterTpuSockets_eq, lastOf_append, lastOf_append,
      hskip]

end Engine
end TpuSender
