import Mathlib

/-!
# The retry of the gateway

`RpcGateway::request` makes a second call when the first one ends in an
`HttpRequestException`.  The exception says that no answer arrived; it does not
say whether the server has executed the request.  A request is therefore
executed twice exactly if the answer of the first attempt was lost behind the
server and the second attempt was executed as well (`RpcGateway.request_executed`).

The server of this module keeps a log of what it has executed.  What becomes of
one exchange with it is an argument of the call, so that every pattern of
losses is covered.
-/

namespace PrivmxEndpoint

/-- The exceptions that the two layers tell apart. -/
inductive RpcError
  | httpRequest
  | websocketDisconnected
  | ticketsCountIsEqualZero
  | alert (message : String)
  | rpc (code : Int)
  | notConnected
  deriving Repr, DecidableEq

/-- What becomes of one exchange with the server. -/
inductive Exchange
  /-- The request never reaches the server. -/
  | requestLost
  /-- The server executes the method, and its answer is lost. -/
  | responseLost
  /-- The server executes the method, and its answer, a result or the code of
  an error, arrives with new tickets. -/
  | answered (result : Except Int String) (tickets : Nat)
  /-- The server refuses the frame without executing the method. -/
  | refused (message : String)
  deriving DecidableEq

/-- The state of `AuthorizedConnection` that a call reads or changes, and the
log of the server: the requests whose method it has executed, last one first. -/
structure AuthorizedConnection where
  destroyed : Bool
  channelsConnected : Bool
  sessionChecked : Bool
  sessionEstablished : Bool
  tickets : Nat
  executed : List Nat
  deriving Repr, DecidableEq

/-- `AuthorizedConnection::isConnected`. -/
def AuthorizedConnection.isConnected (c : AuthorizedConnection) : Bool :=
  !c.destroyed && c.channelsConnected && c.sessionChecked && c.sessionEstablished

/-- A lost exchange, as the channel reports it. -/
def lostError (webSocket : Bool) : RpcError :=
  if webSocket then .websocketDisconnected else .httpRequest

/-- `AuthorizedConnection::sendRequest`: the frame of request `id` goes out and
the answer is processed. -/
def AuthorizedConnection.sendRequest (c : AuthorizedConnection) (id : Nat) (webSocket : Bool) :
    Exchange → Except RpcError String × AuthorizedConnection
  | .requestLost => (.error (lostError webSocket), c)
  | .responseLost => (.error (lostError webSocket), { c with executed := id :: c.executed })
  | .answered result tickets =>
      (result.mapError .rpc,
        { c with executed := id :: c.executed, tickets := c.tickets + tickets })
  | .refused message => (.error (.alert message), c)

/-- `AuthorizedConnection::call` for request `id`: a ticket is used for the
handshake of the frame, and some exceptions end the session. -/
def AuthorizedConnection.call (c : AuthorizedConnection) (id : Nat) (webSocket : Bool)
    (net : Exchange) : Except RpcError String × AuthorizedConnection :=
  if c.tickets = 0 then
    (.error .ticketsCountIsEqualZero, { c with sessionEstablished := false })
  else
    match ({ c with tickets := c.tickets - 1 } : AuthorizedConnection).sendRequest id webSocket
        net with
    | (.error e, c) =>
        (.error e,
          if e = .alert "Invalid ticket" then { c with sessionEstablished := false } else c)
    | (.ok result, c) => (.ok result, c)

/-- `RpcGateway::request`; the second exchange is the one of the retry. -/
def RpcGateway.request (c : AuthorizedConnection) (id : Nat) (webSocket : Bool)
    (first second : Exchange) : Except RpcError String × AuthorizedConnection :=
  if c.isConnected then
    match c.call id webSocket first with
    | (.error .httpRequest, c) => c.call id webSocket second
    | (result, c) => (result, c)
  else
    (.error .notConnected, c)

/-! ## How often a request is executed -/

/-- The server executes the method in this exchange. -/
def Exchange.Executes : Exchange → Prop
  | .responseLost => True
  | .answered _ _ => True
  | _ => False

/-- No answer arrives in this exchange. -/
def Exchange.Lost : Exchange → Prop
  | .requestLost => True
  | .responseLost => True
  | _ => False

/-- One call of `RpcGateway::request`. -/
structure Request where
  webSocket : Bool
  first : Exchange
  second : Exchange

/-- The answer of the first attempt was lost on the way back, and the retry
reached the server. -/
def Request.ExecutedTwice (r : Request) : Prop :=
  r.webSocket = false ∧ r.first = .responseLost ∧ r.second.Executes

/-- A run of requests, numbered from `id` on. -/
def RpcGateway.requests (id : Nat) (c : AuthorizedConnection) : List Request → AuthorizedConnection
  | [] => c
  | r :: rs =>
      RpcGateway.requests (id + 1) (RpcGateway.request c id r.webSocket r.first r.second).2 rs

section Executions

variable {c : AuthorizedConnection} {id : Nat} {webSocket : Bool}

/-- A call adds its own number to the log, once, if the exchange executes it. -/
theorem AuthorizedConnection.call_executed (c : AuthorizedConnection) (id : Nat)
    (webSocket : Bool) (net : Exchange) :
    (c.call id webSocket net).2.executed = c.executed ∨
      net.Executes ∧ (c.call id webSocket net).2.executed = id :: c.executed := by
  unfold AuthorizedConnection.call
  split
  · exact Or.inl rfl
  · cases net with
    | requestLost => left; simp only [AuthorizedConnection.sendRequest]; split <;> rfl
    | responseLost =>
        right
        simp only [AuthorizedConnection.sendRequest]
        exact ⟨trivial, by split <;> rfl⟩
    | answered result tickets =>
        right
        refine ⟨trivial, ?_⟩
        cases result with
        | error code =>
            simp only [AuthorizedConnection.sendRequest, Except.mapError]
            split <;> rfl
        | ok s => rfl
    | refused message => left; simp only [AuthorizedConnection.sendRequest]; split <;> rfl

/-- A call that ends in an `HttpRequestException` was lost on HTTP. -/
theorem AuthorizedConnection.lost_of_call {net : Exchange} {c' : AuthorizedConnection}
    (h : c.call id webSocket net = (.error .httpRequest, c')) :
    webSocket = false ∧ net.Lost := by
  unfold AuthorizedConnection.call at h
  split at h
  · simp at h
  · cases net with
    | requestLost =>
        simp only [AuthorizedConnection.sendRequest, lostError, Prod.mk.injEq,
          Except.error.injEq] at h
        cases webSocket with
        | false => exact ⟨rfl, trivial⟩
        | true => exact absurd h.1 (by simp)
    | responseLost =>
        simp only [AuthorizedConnection.sendRequest, lostError, Prod.mk.injEq,
          Except.error.injEq] at h
        cases webSocket with
        | false => exact ⟨rfl, trivial⟩
        | true => exact absurd h.1 (by simp)
    | answered result tickets =>
        cases result with
        | error code => simp [AuthorizedConnection.sendRequest, Except.mapError] at h
        | ok s => simp [AuthorizedConnection.sendRequest, Except.mapError] at h
    | refused message => simp [AuthorizedConnection.sendRequest] at h

/-- **One request.**  It adds its number to the log at most twice, and twice
only if the answer of an executed first attempt was lost. -/
theorem RpcGateway.request_executed (c : AuthorizedConnection) (id : Nat) (r : Request) :
    ∃ k, (RpcGateway.request c id r.webSocket r.first r.second).2.executed =
        List.replicate k id ++ c.executed ∧ k ≤ 2 ∧ (1 < k → r.ExecutedTwice) := by
  unfold RpcGateway.request
  split
  · rcases hcall : c.call id r.webSocket r.first with ⟨result, c₁⟩
    have hfirst := AuthorizedConnection.call_executed c id r.webSocket r.first
    rw [hcall] at hfirst
    split
    · rename_i c₂ heq
      obtain ⟨rfl, rfl⟩ := Prod.mk.inj heq
      obtain ⟨hhttp, hlost⟩ := AuthorizedConnection.lost_of_call hcall
      have hsecond := AuthorizedConnection.call_executed c₁ id r.webSocket r.second
      rcases hfirst with h1 | ⟨hx1, h1⟩ <;> rcases hsecond with h2 | ⟨hx2, h2⟩
      · exact ⟨0, by rw [h2, h1]; rfl, by omega, by omega⟩
      · exact ⟨1, by rw [h2, h1]; rfl, by omega, by omega⟩
      · exact ⟨1, by rw [h2, h1]; rfl, by omega, by omega⟩
      · have hresponse : r.first = .responseLost := by
          cases hf : r.first with
          | responseLost => rfl
          | requestLost => rw [hf] at hx1; exact False.elim hx1
          | answered result tickets => rw [hf] at hlost; exact False.elim hlost
          | refused message => rw [hf] at hx1; exact False.elim hx1
        exact ⟨2, by rw [h2, h1]; rfl, le_rfl, fun _ => ⟨hhttp, hresponse, hx2⟩⟩
    · rename_i heq
      obtain ⟨rfl, rfl⟩ := Prod.mk.inj heq
      rcases hfirst with h1 | ⟨-, h1⟩
      · exact ⟨0, h1, by omega, by omega⟩
      · exact ⟨1, h1, by omega, by omega⟩
  · exact ⟨0, rfl, by omega, by omega⟩

/-- Later requests do not add earlier numbers to the log. -/
theorem RpcGateway.count_requests_of_lt (rs : List Request) {i : Nat} (hi : i < id) :
    (RpcGateway.requests id c rs).executed.count i = c.executed.count i := by
  induction rs generalizing id c with
  | nil => rfl
  | cons r rs ih =>
      obtain ⟨k, hlog, -, -⟩ := RpcGateway.request_executed c id r
      rw [RpcGateway.requests, ih (by omega), hlog, List.count_append, List.count_replicate,
        if_neg (by simp; omega), Nat.zero_add]

/-- **A run of requests.**  Every request is executed at most twice, and at
most once unless the answer of its executed first attempt was lost. -/
theorem RpcGateway.count_requests (c : AuthorizedConnection) (id : Nat) (rs : List Request)
    {i : Nat} {r : Request}
    (hr : rs[i]? = some r) (hfresh : ∀ j, id ≤ j → c.executed.count j = 0) :
    (RpcGateway.requests id c rs).executed.count (id + i) ≤ 2 ∧
      (¬ r.ExecutedTwice → (RpcGateway.requests id c rs).executed.count (id + i) ≤ 1) := by
  induction rs generalizing id c i with
  | nil => simp at hr
  | cons q rs ih =>
      obtain ⟨k, hlog, hk, htwice⟩ := RpcGateway.request_executed c id q
      rw [RpcGateway.requests]
      cases i with
      | zero =>
          obtain rfl : q = r := by simpa using hr
          rw [Nat.add_zero, RpcGateway.count_requests_of_lt rs (Nat.lt_succ_self id), hlog,
            List.count_append, List.count_replicate, if_pos (by simp), hfresh id le_rfl]
          refine ⟨by omega, fun hnot => ?_⟩
          by_contra hmany
          exact hnot (htwice (by omega))
      | succ i =>
          have hrest := ih (RpcGateway.request c id q.webSocket q.first q.second).2 (id + 1) (i := i) (by simpa using hr)
            (fun j hj => by
              rw [hlog, List.count_append, List.count_replicate, if_neg (by simp; omega),
                hfresh j (by omega)])
          rwa [Nat.add_assoc, Nat.add_comm 1 i] at hrest

end Executions

/-- **At most once, unless an answer is lost.**  For every connection, every
sequence of requests and every pattern of losses, the server executes each
request at most twice, and more than once only if the request went over HTTP,
its first attempt was executed with the answer lost, and the retry was executed
too. -/
theorem RpcGateway.at_most_once_unless_response_lost (c : AuthorizedConnection)
    (rs : List Request) (i : Nat) (r : Request) (hr : rs[i]? = some r) :
    (RpcGateway.requests 0 { c with executed := [] } rs).executed.count i ≤ 2 ∧
      (¬ r.ExecutedTwice →
        (RpcGateway.requests 0 { c with executed := [] } rs).executed.count i ≤ 1) := by
  have hcount := RpcGateway.count_requests { c with executed := [] } 0 rs hr
    (fun _ _ => rfl)
  rwa [Nat.zero_add] at hcount

/-- A connection with two tickets. -/
def sampleConnection : AuthorizedConnection where
  destroyed := false
  channelsConnected := true
  sessionChecked := true
  sessionEstablished := true
  tickets := 2
  executed := []

theorem RpcGateway.at_most_once_sample :
    (RpcGateway.requests 0 { sampleConnection with executed := [] }
      [⟨false, .requestLost, .answered (.ok "") 0⟩]).executed.count 0 ≤ 1 :=
  (RpcGateway.at_most_once_unless_response_lost sampleConnection _ 0 _ rfl).2
    (fun h => absurd h.2.1 (by decide))

/-- A message whose first answer is lost is sent twice, and the caller sees one
success. -/
theorem RpcGateway.executes_twice :
    RpcGateway.request sampleConnection 0 false .responseLost (.answered (.ok "sent") 0) =
      (.ok "sent", { sampleConnection with tickets := 0, executed := [0, 0] }) := by
  rfl

end PrivmxEndpoint
