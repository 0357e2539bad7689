import TpuSender.Engine.LeaderTpuCache
import TpuSender.Quik.SendBatch

/-!
# BackendTpuClient — one transaction, or one batch, to every leader

`try_send_wire_transaction` and `try_send_wire_transaction_batch` send to all leaders at once, wait
for all of them (`join_all`) and aggregate the results: one success is a success.

The leaders and what each of them meets are a `Network`.  A leader whose send is never over leaves
the whole attempt without a result.
-/

namespace TpuSender
namespace Engine

open Quik

/-- The conversions of the transport error type, which belong to the SDK. -/
structure TransportError (E : Type) where
  /-- `QuicError` to `ClientErrorKind` to `TransportError`. -/
  ofQuicError : QuicError → E
  /-- `std::io::Error::new(ErrorKind::Other, message)`, converted. -/
  ofIoError : String → E
  /-- `Display`. -/
  display : E → String
  /-- `Debug`. -/
  debug : E → String

/-- What an attempt meets: the unique leader sockets of that moment, and each leader's side. -/
structure Network (Conn : Type) where
  leaders : List SocketAddr
  runs : SocketAddr → BatchRun Conn

section Send

variable {E Conn : Type} (api : TransportError E) (stableId : Conn → Nat)

/-- The result of a send as the caller sees it. -/
def transportResult (outcome : SendOutcome Conn) : Option (Except E Unit) :=
  outcome.result.map fun result => result.mapError api.ofQuicError

def sendWireTransactionToAddr (network : Network Conn) (wireTransaction : List UInt8)
    (addr : SocketAddr) : SendOutcome Conn :=
  sendOne stableId wireTransaction (network.runs addr).iterations

def sendWireTransactionBatchToAddr (network : Network Conn) (wireTransactions : List (List UInt8))
    (addr : SocketAddr) : SendOutcome Conn :=
  sendBatch stableId wireTransactions (network.runs addr)

/-- One turn of the loop over the results; the pair is `(last_error, some_success)`. -/
def noteResult (acc : Option E × Bool) : Except E Unit → Option E × Bool
  -- the first error stays
  | .error err => (if acc.1.isNone then some err else acc.1, acc.2)
  | .ok () => (acc.1, true)

/-- The end of both functions. -/
def aggregate (results : List (Except E Unit)) : Except E Unit :=
  let (lastError, someSuccess) := results.foldl noteResult (none, false)
  if !someSuccess then
    -- without leaders there is neither a success nor an error
    .error (lastError.getD (api.ofIoError "No sends attempted"))
  else
    .ok ()

def trySendWireTransaction (network : Network Conn) (wireTransaction : List UInt8) :
    Option (Except E Unit) := do
  let results ← network.leaders.mapM fun addr =>
    transportResult api (sendWireTransactionToAddr stableId network wireTransaction addr)
  pure (aggregate api results)

def trySendWireTransactionBatch (network : Network Conn) (wireTransactions : List (List UInt8)) :
    Option (Except E Unit) := do
  let results ← network.leaders.mapM fun addr =>
    transportResult api (sendWireTransactionBatchToAddr stableId network wireTransactions addr)
  pure (aggregate api results)

end Send

/-! ## Success means that some leader's send succeeded -/

section Success

variable {E Conn : Type} {api : TransportError E}

theorem someSuccess_foldl (results : List (Except E Unit)) (acc : Option E × Bool) :
    (results.foldl noteResult acc).2 = true ↔ acc.2 = true ∨ .ok () ∈ results := by
  induction results generalizing acc with
  | nil => simp
  | cons result results ih =>
      cases result with
      | error err => simp [ih, noteResult]
      | ok done => simp [ih, noteResult]

theorem aggregate_eq_ok_iff {results : List (Except E Unit)} :
    aggregate api results = .ok () ↔ .ok () ∈ results := by
  have hsuccess := someSuccess_foldl results (none, false)
  cases hflag : (results.foldl noteResult (none, false)).2 with
  | true =>
      have hmem : .ok () ∈ results := by
        simpa [hflag] using hsuccess
      simp [aggregate, hflag, hmem]
  | false =>
      have hmem : .ok () ∉ results := by
        simpa [hflag] using hsuccess
      simp [aggregate, hflag, hmem]

theorem mem_of_mapM_eq_some {α β : Type} {f : α → Option β} {l : List α} {results : List β} {b : β}
    (h : l.mapM f = some results) (hb : b ∈ results) : ∃ a ∈ l, f a = some b := by
  induction l generalizing results with
  | nil =>
      have hnil : results = [] := by simpa [eq_comm] using h
      subst hnil
      cases hb
  | cons a l ih =>
      rw [List.mapM_cons] at h
      simp only [bind, Option.bind_eq_some_iff, pure, Option.some.injEq] at h
      rcases h with ⟨head, hhead, tail, htail, rfl⟩
      rcases List.mem_cons.1 hb with rfl | hmem
      · exact ⟨a, List.mem_cons_self, hhead⟩
      · rcases ih htail hmem with ⟨a', ha', hb'⟩
        exact ⟨a', List.mem_cons_of_mem a ha', hb'⟩

theorem transportResult_eq_ok_iff (api : TransportError E) {outcome : SendOutcome Conn} :
    transportResult api outcome = some (.ok ()) ↔ outcome.result = some (.ok ()) := by
  rcases hresult : outcome.result with _ | _ | done
  · simp [transportResult, hresult]
  · simp [transportResult, hresult, Except.mapError]
  · simp [transportResult, hresult, Except.mapError]

/-- An attempt at a list of leaders succeeds only through one of them. -/
theorem exists_leader_of_ok {leaders : List SocketAddr} {send : SocketAddr → SendOutcome Conn}
    {results : List (Except E Unit)}
    (h : leaders.mapM (fun addr => transportResult api (send addr)) = some results)
    (hok : aggregate api results = .ok ()) :
    ∃ addr ∈ leaders, (send addr).result = some (.ok ()) := by
  rcases mem_of_mapM_eq_some h (aggregate_eq_ok_iff.1 hok) with ⟨addr, hmem, hresult⟩
  exact ⟨addr, hmem, (transportResult_eq_ok_iff api).1 hresult⟩

theorem trySendWireTransaction_ok {stableId : Conn → Nat} {network : Network Conn}
    {wireTransaction : List UInt8}
    (h : trySendWireTransaction api stableId network wireTransaction = some (.ok ())) :
    ∃ addr ∈ network.leaders,
      (sendWireTransactionToAddr stableId network wireTransaction addr).result = some (.ok ()) := by
  simp only [trySendWireTransaction, bind, Option.bind_eq_some_iff, pure, Option.some.injEq] at h
  rcases h with ⟨results, hresults, hok⟩
  exact exists_leader_of_ok hresults hok

theorem trySendWireTransactionBatch_ok {stableId : Conn → Nat} {network : Network Conn}
    {wireTransactions : List (List UInt8)}
    (h : trySendWireTransactionBatch api stableId network wireTransactions = some (.ok ())) :
    ∃ addr ∈ network.leaders,
      (sendWireTransactionBatchToAddr stableId network wireTransactions addr).result =
        some (.ok ()) := by
  simp only [trySendWireTransactionBatch, bind, Option.bind_eq_some_iff, pure,
    Option.some.injEq] at h
  rcases h with ⟨results, hresults, hok⟩
  exact exists_leader_of_ok hresults hok

end Success

/-! ## A network of one willing leader -/

section Willing

variable {E Conn : Type} (api : TransportError E) (stableId : Conn → Nat) (connection : Conn)

/-- One leader, which takes batches of up to `n` buffers. -/
def willingNetwork (n : Nat) : Network Conn :=
  { leaders := [.V4 0 0]
    runs := fun _ => willingRun connection n }

theorem trySendWireTransaction_willing (n : Nat) (wireTransaction : List UInt8) :
    trySendWireTransaction api stableId (willingNetwork connection n) wireTransaction =
      some (.ok ()) := by
  have hresult := (transportResult_eq_ok_iff api).2
    (sendOne_willing stableId connection wireTransaction n)
  simp [trySendWireTransaction, sendWireTransactionToAddr, willingNetwork, hresult, aggregate,
    noteResult]

theorem trySendWireTransactionBatch_willing {n : Nat} {wireTransactions : List (List UInt8)}
    (hn : wireTransactions.length ≤ n) :
    trySendWireTransactionBatch api stableId (willingNetwork connection n) wireTransactions =
      some (.ok ()) := by
  have hresult := (transportResult_eq_ok_iff api).2
    (sendBatch_willing stableId connection wireTransactions hn)
  simp [trySendWireTransactionBatch, sendWireTransactionBatchToAddr, willingNetwork, hresult,
    aggregate, noteResult]

end Willing

end Engine
end TpuSender
