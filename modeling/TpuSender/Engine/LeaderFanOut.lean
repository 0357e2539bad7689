import TpuSender.Engine.BackendTpuClient
import Mathlib.Data.List.Nodup
import Mathlib.Data.List.Perm.Subperm

/-!
# LeaderFanOut — which leaders a send attempts, and what it returns

`try_send_wire_transaction` and its batch sibling make a future for each leader and join them;
`send_transaction_to_upcoming_leaders` sends to one leader after the other and returns with the
first error.  A `FanOut` records the leaders that were attempted next to the result.

The error that survives the aggregation is the first one, where both functions promise the last
(`fan_out_as_documented_iff`).  The sequential path leaves out the leaders behind a failed one, and
it reports a success when there are no leaders (`send_paths_agree_iff`).
-/

namespace TpuSender
namespace Engine

open Quik

/-- The leaders attempted, in order, and the result if there is one. -/
structure FanOut (E : Type) where
  attempted : List SocketAddr
  result : Option (Except E Unit)

/-! ## The two ways to send -/

section FanOuts

variable {E : Type} (api : TransportError E)

/-- `join_all`, which polls every future, and what the functions make of its results. -/
def joinAll (futures : List (SocketAddr × Option (Except E Unit))) : FanOut E :=
  { attempted := futures.map Prod.fst
    result := (futures.mapM Prod.snd).map (aggregate api) }

/-- A loop that awaits one send after the other; `?` leaves it with the first error. -/
def sendInTurn (send : SocketAddr → Option (Except E Unit)) : List SocketAddr → FanOut E
  | [] =>
      { attempted := []
        result := some (.ok ()) }
  | tpuAddress :: leaders =>
      match send tpuAddress with
      | some (.ok ()) =>
          let rest := sendInTurn send leaders
          { rest with attempted := tpuAddress :: rest.attempted }
      | some (.error err) =>
          { attempted := [tpuAddress]
            result := some (.error err) }
      | none =>
          { attempted := [tpuAddress]
            result := none }

variable {Conn : Type} (stableId : Conn → Nat)

/-- `try_send_wire_transaction` with the leaders it attempts. -/
def attemptWireTransaction (network : Network Conn) (wireTransaction : List UInt8) : FanOut E :=
  joinAll api (network.leaders.map fun addr =>
    (addr, transportResult api (sendWireTransactionToAddr stableId network wireTransaction addr)))

/-- `try_send_wire_transaction_batch` with the leaders it attempts. -/
def attemptWireTransactionBatch (network : Network Conn) (wireTransactions : List (List UInt8)) :
    FanOut E :=
  joinAll api (network.leaders.map fun addr =>
    (addr,
      transportResult api (sendWireTransactionBatchToAddr stableId network wireTransactions addr)))

def sendTransactionToUpcomingLeaders (network : Network Conn) (wireTransaction : List UInt8) :
    FanOut E :=
  sendInTurn
    (fun addr =>
      transportResult api (sendWireTransactionToAddr stableId network wireTransaction addr))
    network.leaders

end FanOuts

/-! ## A network whose first leader fails -/

/-- The two errors the functions can return, kept apart. -/
def plainErrors : TransportError (QuicError ⊕ String) :=
  { ofQuicError := .inl
    ofIoError := .inr
    display := fun _ => "transport error"
    debug := fun _ => "TransportError" }

/-- The endpoint cannot even start to connect. -/
def refusingRun {Conn : Type} (err : ConnectError) : BatchRun Conn :=
  { iterations :=
      [{ slot := none
         answers :=
          { connect := .error err
            connect0rtt := .error err }
         outcome := .written }]
    outcomes := [] }

/-- Two leaders, and the endpoint of the first one is stopping. -/
def stoppingNetwork (second : BatchRun Nat) : Network Nat :=
  { leaders := [.V4 0 0, .V4 0 1]
    runs := fun addr => if addr = .V4 0 0 then refusingRun .EndpointStopping else second }

/-! ## Joined sends -/

section Joined

variable {E Conn : Type} {api : TransportError E}

theorem attempted_joinAll (leaders : List SocketAddr)
    (send : SocketAddr → Option (Except E Unit)) :
    (joinAll api (leaders.map fun addr => (addr, send addr))).attempted = leaders := by
  simp [joinAll, Function.comp_def]

theorem result_joinAll (leaders : List SocketAddr) (send : SocketAddr → Option (Except E Unit)) :
    (joinAll api (leaders.map fun addr => (addr, send addr))).result =
      (leaders.mapM send).map (aggregate api) := by
  have hsnd : (leaders.map fun addr => (addr, send addr)).mapM Prod.snd = leaders.mapM send := by
    induction leaders with
    | nil => rfl
    | cons addr leaders ih => simp only [List.map_cons, List.mapM_cons, ih]
  rw [joinAll, hsnd]

theorem result_attemptWireTransaction (stableId : Conn → Nat) (network : Network Conn)
    (wireTransaction : List UInt8) :
    (attemptWireTransaction api stableId network wireTransaction).result =
      trySendWireTransaction api stableId network wireTransaction := by
  rw [attemptWireTransaction, result_joinAll, trySendWireTransaction]
  exact Option.map_eq_bind

/-! ## Which error is returned -/

/-- Once there is an error, no later one replaces it. -/
theorem lastError_foldl (results : List (Except E Unit)) (err : E) (someSuccess : Bool) :
    (results.foldl noteResult (some err, someSuccess)).1 = some err := by
  induction results generalizing someSuccess with
  | nil => rfl
  | cons result results ih =>
      cases result with
      | error later => exact ih someSuccess
      | ok done => exact ih true

/-- When all sends fail, the first error is returned. -/
theorem aggregate_eq_head {results : List (Except E Unit)} {first : Except E Unit}
    (h : .ok () ∉ results) (hhead : results.head? = some first) :
    aggregate api results = first := by
  rcases List.head?_eq_some_iff.1 hhead with ⟨rest, rfl⟩
  cases first with
  | ok done => exact absurd List.mem_cons_self h
  | error err =>
      have hrest : .ok () ∉ rest := fun hmem => h (List.mem_cons_of_mem _ hmem)
      have hflag : (rest.foldl noteResult (some err, false)).2 = false := by
        have hsuccess := someSuccess_foldl rest (some err, false)
        simpa [hrest] using hsuccess
      have herror := lastError_foldl rest err false
      simp [aggregate, noteResult, hflag, herror]

/-- What the comments on the two functions say: one success is a success, otherwise the last error
is returned, and without leaders the error of that case. -/
structure AsDocumented (api : TransportError E) (leaders : List SocketAddr)
    (results : List (Except E Unit)) (fanOut : FanOut E) : Prop where
  attempted : fanOut.attempted = leaders
  success : fanOut.result = some (.ok ()) ↔ .ok () ∈ results
  lastError : .ok () ∉ results → ∀ err, results.getLast? = some (.error err) →
    fanOut.result = some (.error err)
  noLeaders : leaders = [] → fanOut.result = some (.error (api.ofIoError "No sends attempted"))

theorem joinAll_asDocumented_iff {leaders : List SocketAddr}
    {send : SocketAddr → Option (Except E Unit)} {results : List (Except E Unit)}
    (h : leaders.mapM send = some results) :
    AsDocumented api leaders results
        (joinAll api (leaders.map fun addr => (addr, send addr))) ↔
      .ok () ∈ results ∨ results.head? = results.getLast? := by
  have hresult : (joinAll api (leaders.map fun addr => (addr, send addr))).result =
      some (aggregate api results) := by
    rw [result_joinAll, h]
    rfl
  have hsuccess : aggregate api results = .ok () ↔ .ok () ∈ results := aggregate_eq_ok_iff
  constructor
  · intro hdocumented
    by_cases hok : .ok () ∈ results
    · exact .inl hok
    · apply Or.inr
      cases hlast : results.getLast? with
      | none =>
          rw [List.getLast?_eq_none_iff.1 hlast]
          rfl
      | some last =>
          have hne : results ≠ [] := by
            rintro rfl
            cases hlast
          have hhead : results.head? = some (results.head hne) := List.head?_eq_some_head hne
          cases last with
          | ok done => exact absurd (List.mem_of_getLast? hlast) hok
          | error later =>
              -- the first error is what comes out, the last one what was promised
              have hpromised := hdocumented.lastError hok later hlast
              rw [hresult, aggregate_eq_head hok hhead] at hpromised
              exact hhead.trans hpromised
  · intro hcondition
    refine
      { attempted := attempted_joinAll leaders send
        success := ?_
        lastError := ?_
        noLeaders := ?_ }
    · rw [hresult, Option.some_inj]
      exact hsuccess
    · intro hfailed err hlast
      rcases hcondition with hok | hsame
      · exact absurd hok hfailed
      · rw [hresult, aggregate_eq_head hfailed (hsame.trans hlast)]
    · intro hnone
      subst hnone
      have hnil : results = [] := by simpa [eq_comm] using h
      subst hnil
      rw [hresult]
      rfl

/-- The comments hold exactly when some send succeeds, or no send is made, or the last leader's
error is that of the first. -/
theorem fan_out_as_documented_iff (api : TransportError E) (stableId : Conn → Nat)
    (network network' : Network Conn) (wireTransaction : List UInt8)
    (wireTransactions : List (List UInt8)) :
    (∀ results,
      network.leaders.mapM (fun addr =>
        transportResult api (sendWireTransactionToAddr stableId network wireTransaction addr)) =
          some results →
      (AsDocumented api network.leaders results
          (attemptWireTransaction api stableId network wireTransaction) ↔
        .ok () ∈ results ∨ results.head? = results.getLast?)) ∧
      (∀ results,
        network'.leaders.mapM (fun addr =>
          transportResult api
            (sendWireTransactionBatchToAddr stableId network' wireTransactions addr)) =
            some results →
        (AsDocumented api network'.leaders results
            (attemptWireTransactionBatch api stableId network' wireTransactions) ↔
          .ok () ∈ results ∨ results.head? = results.getLast?)) ∧
      (network.leaders.mapM (fun addr =>
          transportResult api (sendWireTransactionToAddr stableId network wireTransaction addr)) =
          network'.leaders.mapM (fun addr =>
            transportResult api
              (sendWireTransactionBatchToAddr stableId network' wireTransactions addr)) →
        (attemptWireTransaction api stableId network wireTransaction).result =
          (attemptWireTransactionBatch api stableId network' wireTransactions).result) := by
  refine ⟨fun results hresults => ?_, fun results hresults => ?_, fun hsame => ?_⟩
  · exact joinAll_asDocumented_iff hresults
  · exact joinAll_asDocumented_iff hresults
  · rw [attemptWireTransaction, attemptWireTransactionBatch, result_joinAll, result_joinAll, hsame]

/-- Two leaders that fail differently: the error returned is the first leader's. -/
theorem first_error_returned :
    ∃ results,
      (stoppingNetwork (refusingRun .CidsExhausted)).leaders.mapM (fun addr =>
        transportResult plainErrors (sendWireTransactionToAddr (fun c => c + 1)
          (stoppingNetwork (refusingRun .CidsExhausted)) [7] addr)) = some results ∧
      ¬ AsDocumented plainErrors (stoppingNetwork (refusingRun .CidsExhausted)).leaders results
        (attemptWireTransaction plainErrors (fun c => c + 1)
          (stoppingNetwork (refusingRun .CidsExhausted)) [7]) := by
  refine ⟨[.error (.inl (.ConnectError .EndpointStopping)),
    .error (.inl (.ConnectError .CidsExhausted))], rfl, ?_⟩
  intro hdocumented
  have hlast := hdocumented.lastError (by simp) _ rfl
  cases hlast

end Joined

/-! ## One leader after the other -/

section InTurn

variable {E Conn : Type} {api : TransportError E} {send : SocketAddr → Option (Except E Unit)}

/-- A leader whose send succeeds lets the loop go on. -/
theorem sendInTurn_cons_of_ok {addr : SocketAddr} {leaders : List SocketAddr}
    (h : send addr = some (.ok ())) :
    sendInTurn send (addr :: leaders) =
      { sendInTurn send leaders with
        attempted := addr :: (sendInTurn send leaders).attempted } := by
  simp [sendInTurn, h]

/-- Any other leader is the last one attempted. -/
theorem sendInTurn_cons_of_not_ok {addr : SocketAddr} {leaders : List SocketAddr}
    (h : send addr ≠ some (.ok ())) :
    sendInTurn send (addr :: leaders) =
      { attempted := [addr]
        result := send addr } := by
  cases hsend : send addr with
  | none => simp [sendInTurn, hsend]
  | some result =>
      cases result with
      | error err => simp [sendInTurn, hsend]
      | ok done => exact absurd hsend h

theorem attempted_sendInTurn_prefix (send : SocketAddr → Option (Except E Unit))
    (leaders : List SocketAddr) :
    (sendInTurn send leaders).attempted <+: leaders := by
  induction leaders with
  | nil => exact List.prefix_rfl
  | cons addr leaders ih =>
      by_cases hok : send addr = some (.ok ())
      · rw [sendInTurn_cons_of_ok hok]
        exact (List.prefix_cons_inj addr).2 ih
      · rw [sendInTurn_cons_of_not_ok hok]
        exact ⟨leaders, rfl⟩

theorem result_sendInTurn_eq_ok_iff {leaders : List SocketAddr} :
    (sendInTurn send leaders).result = some (.ok ()) ↔
      ∀ addr ∈ leaders, send addr = some (.ok ()) := by
  induction leaders with
  | nil => simp [sendInTurn]
  | cons addr leaders ih =>
      by_cases hok : send addr = some (.ok ())
      · simp [sendInTurn_cons_of_ok hok, hok, ih]
      · simp [sendInTurn_cons_of_not_ok hok, hok]

/-- The loop gets to the last leader exactly when all the others succeed. -/
theorem attempted_sendInTurn_eq_iff {leaders : List SocketAddr} :
    (sendInTurn send leaders).attempted = leaders ↔
      ∀ addr ∈ leaders.dropLast, send addr = some (.ok ()) := by
  induction leaders with
  | nil => simp [sendInTurn]
  | cons addr leaders ih =>
      by_cases hok : send addr = some (.ok ())
      · cases leaders with
        | nil =>
            rw [sendInTurn_cons_of_ok hok]
            simp [sendInTurn]
        | cons next leaders => simpa [sendInTurn_cons_of_ok hok, hok] using ih
      · cases leaders with
        | nil => simp [sendInTurn_cons_of_not_ok hok]
        | cons next leaders => simp [sendInTurn_cons_of_not_ok hok, hok]

/-! ## The two paths side by side -/

/-- The send to a leader succeeded, and the transaction went out on one of its streams. -/
def SendSucceeded (stableId : Conn → Nat) (network : Network Conn) (wireTransaction : List UInt8)
    (addr : SocketAddr) : Prop :=
  (sendWireTransactionToAddr stableId network wireTransaction addr).result = some (.ok ()) ∧
    ∃ connection, Op.wrote connection wireTransaction .written ∈
      (sendWireTransactionToAddr stableId network wireTransaction addr).ops

/-- Both paths attempt every leader, and neither reports a success without one. -/
structure PathsAgree (api : TransportError E) (stableId : Conn → Nat) (network : Network Conn)
    (wireTransaction : List UInt8) : Prop where
  sameLeaders : ∀ addr,
    addr ∈ (sendTransactionToUpcomingLeaders api stableId network wireTransaction).attempted ↔
      addr ∈ (attemptWireTransaction api stableId network wireTransaction).attempted
  allLeaders : ∀ addr ∈ network.leaders,
    addr ∈ (sendTransactionToUpcomingLeaders api stableId network wireTransaction).attempted
  inTurn_ok :
    (sendTransactionToUpcomingLeaders api stableId network wireTransaction).result =
        some (.ok ()) →
      ∃ addr ∈ network.leaders, SendSucceeded stableId network wireTransaction addr
  joined_ok :
    (attemptWireTransaction api stableId network wireTransaction).result = some (.ok ()) →
      ∃ addr ∈ network.leaders, SendSucceeded stableId network wireTransaction addr

theorem sendSucceeded_of_ok {stableId : Conn → Nat} {network : Network Conn}
    {wireTransaction : List UInt8} (hdata : wireTransaction ≠ []) {addr : SocketAddr}
    (h : (sendWireTransactionToAddr stableId network wireTransaction addr).result =
      some (.ok ())) :
    SendSucceeded stableId network wireTransaction addr :=
  ⟨h, sendOne_ok hdata h⟩

/-- The paths agree exactly when there is a leader and none but the last can fail. -/
theorem send_paths_agree_iff (api : TransportError E) (stableId : Conn → Nat)
    (network : Network Conn) (hunique : network.leaders.Nodup) (wireTransaction : List UInt8)
    (hdata : wireTransaction ≠ []) :
    PathsAgree api stableId network wireTransaction ↔
      network.leaders ≠ [] ∧ ∀ addr ∈ network.leaders.dropLast,
        (sendWireTransactionToAddr stableId network wireTransaction addr).result =
          some (.ok ()) := by
  have hprefix := attempted_sendInTurn_prefix
    (fun addr =>
      transportResult api (sendWireTransactionToAddr stableId network wireTransaction addr))
    network.leaders
  constructor
  · intro hagree
    refine ⟨fun hnone => ?_, ?_⟩
    · -- the loop over no leaders is a success
      have hok : (sendTransactionToUpcomingLeaders api stableId network wireTransaction).result =
          some (.ok ()) :=
        result_sendInTurn_eq_ok_iff.2 (by simp [hnone])
      rcases hagree.inTurn_ok hok with ⟨addr, hmem, _⟩
      rw [hnone] at hmem
      cases hmem
    · -- a prefix that misses no leader is the whole list
      have hall : (sendTransactionToUpcomingLeaders api stableId network
          wireTransaction).attempted = network.leaders :=
        hprefix.eq_of_length_le (hunique.subperm hagree.allLeaders).length_le
      intro addr hmem
      exact (transportResult_eq_ok_iff api).1 (attempted_sendInTurn_eq_iff.1 hall addr hmem)
  · rintro ⟨hleaders, hsends⟩
    have hall : (sendTransactionToUpcomingLeaders api stableId network
        wireTransaction).attempted = network.leaders :=
      attempted_sendInTurn_eq_iff.2 fun addr hmem =>
        (transportResult_eq_ok_iff api).2 (hsends addr hmem)
    have hjoined : (attemptWireTransaction api stableId network wireTransaction).attempted =
        network.leaders :=
      attempted_joinAll network.leaders _
    refine
      { sameLeaders := ?_
        allLeaders := ?_
        inTurn_ok := ?_
        joined_ok := ?_ }
    · intro addr
      rw [hall, hjoined]
    · intro addr hmem
      rwa [hall]
    · intro hok
      rcases List.exists_mem_of_ne_nil network.leaders hleaders with ⟨addr, hmem⟩
      have hsend := result_sendInTurn_eq_ok_iff.1 hok addr hmem
      exact ⟨addr, hmem, sendSucceeded_of_ok hdata ((transportResult_eq_ok_iff api).1 hsend)⟩
    · intro hok
      rw [result_attemptWireTransaction] at hok
      rcases trySendWireTransaction_ok hok with ⟨addr, hmem, hsend⟩
      exact ⟨addr, hmem, sendSucceeded_of_ok hdata hsend⟩

theorem send_paths_agree_iff_stopping :
    PathsAgree plainErrors (fun c => c + 1) (stoppingNetwork (willingRun 0 0)) [7] ↔
      (stoppingNetwork (willingRun 0 0)).leaders ≠ [] ∧
        ∀ addr ∈ (stoppingNetwork (willingRun 0 0)).leaders.dropLast,
          (sendWireTransactionToAddr (fun c => c + 1) (stoppingNetwork (willingRun 0 0)) [7]
            addr).result = some (.ok ()) :=
  send_paths_agree_iff plainErrors (fun c => c + 1) (stoppingNetwork (willingRun 0 0))
    (by decide) [7] (by decide)

/-- The first leader fails and the second would have taken the transaction, but is not attempted;
and without leaders the loop reports a success. -/
theorem leader_not_attempted :
    (¬ PathsAgree plainErrors (fun c => c + 1) (stoppingNetwork (willingRun 0 0)) [7]) ∧
      ¬ PathsAgree plainErrors (fun c => c + 1)
        { stoppingNetwork (willingRun 0 0) with leaders := [] } [7] := by
  constructor
  · intro hagree
    have hmissed := hagree.allLeaders (.V4 0 1) (by decide)
    revert hmissed
    decide
  · intro hagree
    rcases hagree.inTurn_ok rfl with ⟨addr, hmem, _⟩
    cases hmem

end InTurn

end Engine
end TpuSender
