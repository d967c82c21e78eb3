import PrivmxEndpoint.BigEndian
import PrivmxEndpoint.GuardedRuns
import PrivmxEndpoint.StoreTypes

/-!
# Matching responses to requests on a web socket

`WebSocketChannel` numbers its requests with a signed 32-bit counter that starts at
one, keeps a promise for each number, and completes the promise when a payload
with the number arrives.  Number zero is reserved for notifications.

A session puts a server next to the channel.  It answers requests it has
received, in any order and as late as it likes, and sends notifications.  The
promises match the requests that can still be answered as long as the counter
does not overflow and no `wsSend` fails: a failed `wsSend` leaves a promise behind
that nobody will ever complete.
-/

namespace PrivmxEndpoint

open Runs

/-- The exceptions of the channel. -/
inductive WebSocketError
  | invalidPayloadLength
  | wsConnect
  | wsSend1
  /-- `std::future_error` of a second `get_future`. -/
  | futureAlreadyRetrieved
  deriving Repr, DecidableEq

/-- `WebSocketChannel::Payload`. -/
structure Payload where
  id : Nat
  data : Bytes
  deriving Repr, DecidableEq

/-- `Payload::fromRaw`. -/
def Payload.fromRaw (rawPayload : Bytes) : Except WebSocketError Payload :=
  if rawPayload.length < 4 then
    .error .invalidPayloadLength
  else
    .ok { id := BigEndian.value (rawPayload.take 4), data := rawPayload.drop 4 }

/-- `Payload::toRaw`, of an id that is not negative. -/
def Payload.toRaw (id : Nat) (data : Bytes) : Bytes :=
  BigEndian.bytes 4 id ++ data

/-- What was written is read. -/
theorem Payload.fromRaw_toRaw {id : Nat} (hid : id < 2 ^ 32) (data : Bytes) :
    Payload.fromRaw (Payload.toRaw id data) = .ok { id := id, data := data } := by
  have hlen : ¬ (Payload.toRaw id data).length < 4 := by
    simp [Payload.toRaw]
  have htake : (Payload.toRaw id data).take 4 = BigEndian.bytes 4 id := by
    simp [Payload.toRaw]
  have hdrop : (Payload.toRaw id data).drop 4 = data := by
    simp [Payload.toRaw]
  rw [Payload.fromRaw, if_neg hlen, htake, hdrop, BigEndian.value_bytes_of_lt (by omega)]

/-- The largest `Poco::Int32`. -/
def INT32_MAX : Nat := 2 ^ 31 - 1

/-- The fields of `WebSocketChannel`: the counter `_id`, which starts at one, and the
promises by their request id.  A promise is named by the number of the `send` that
made it. -/
structure WebSocketChannel where
  id : Nat
  promises : List (Nat × Nat)
  deriving Repr, DecidableEq

/-- How a promise is completed. -/
inductive Completion
  | response (data : Bytes)
  /-- `WebsocketDisconnectedException`. -/
  | disconnected
  deriving Repr, DecidableEq

/-- What a callback of the driver causes. -/
inductive WebSocketEffect
  | complete (call : Nat) (completion : Completion)
  | notify (data : Bytes)
  deriving Repr, DecidableEq

/-- What the driver makes of a `send`. -/
inductive SendStatus
  | connectFailed
  | sendFailed
  | sent
  deriving Repr, DecidableEq

/-- `WebSocketChannel::send`, the `call`-th of its kind.  It returns the future
and the frame that went out.  The increment of the largest counter is undefined
(`none`). -/
def WebSocketChannel.send (c : WebSocketChannel) (call : Nat) (data : Bytes) :
    SendStatus → Option (Except WebSocketError (Nat × Bytes) × WebSocketChannel)
  | .connectFailed => some (.error .wsConnect, c)
  | status =>
      if c.id = INT32_MAX then
        none
      else if c.promises.any (·.1 = c.id) then
        some (.error .futureAlreadyRetrieved, { c with id := c.id + 1 })
      else
        let c' : WebSocketChannel :=
          { id := c.id + 1, promises := (c.id, call) :: c.promises }
        match status with
        | .sent => some (.ok (call, Payload.toRaw c.id data), c')
        | _ => some (.error .wsSend1, c')

/-- `WebSocketChannel::onmessage`. -/
def WebSocketChannel.onmessage (c : WebSocketChannel) (rawPayload : Bytes) :
    List WebSocketEffect × WebSocketChannel :=
  match Payload.fromRaw rawPayload with
  | .error _ => ([], c)
  | .ok payload =>
      if payload.id = 0 then
        ([.notify payload.data], c)
      else
        match c.promises.lookup payload.id with
        | none => ([], c)
        | some call =>
            ([.complete call (.response payload.data)],
              { c with promises := c.promises.filter (·.1 ≠ payload.id) })

/-- `WebSocketChannel::rejectAllPromises`, the effect of `onerror` and of
`onclose`. -/
def WebSocketChannel.rejectAllPromises (c : WebSocketChannel) :
    List WebSocketEffect × WebSocketChannel :=
  (c.promises.map fun p => .complete p.2 .disconnected, { c with promises := [] })

/-! ## Sessions -/

/-- A channel, the requests that went out with it, and what it has caused. -/
structure WebSocketSession where
  channel : WebSocketChannel
  /-- The number of `send` calls so far. -/
  calls : Nat
  /-- Request id and call of every request on the wire. -/
  sent : List (Nat × Nat)
  /-- Requests that the server has not answered. -/
  unanswered : List (Nat × Nat)
  /-- Unanswered requests with no error or close since. -/
  answerable : List (Nat × Nat)
  effects : List WebSocketEffect

/-- A fresh channel. -/
def WebSocketSession.initial : WebSocketSession where
  channel := { id := 1, promises := [] }
  calls := 0
  sent := []
  unanswered := []
  answerable := []
  effects := []

/-- What can happen in a session. -/
inductive WebSocketEvent
  | send (data : Bytes) (status : SendStatus)
  | response (id call : Nat)
  | notification (data : Bytes)
  | error
  | close

/-- The session after a `send`, if it is defined. -/
def WebSocketSession.send (x : WebSocketSession) (data : Bytes) (status : SendStatus) :
    Option WebSocketSession :=
  match x.channel.send x.calls data status with
  | none => none
  | some (.error _, c) => some { x with channel := c, calls := x.calls + 1 }
  | some (.ok (call, _), c) =>
      some
        { x with
          channel := c
          calls := x.calls + 1
          sent := (x.channel.id, call) :: x.sent
          unanswered := (x.channel.id, call) :: x.unanswered
          answerable := (x.channel.id, call) :: x.answerable }

/-- The session after a message. -/
def WebSocketSession.onmessage (x : WebSocketSession) (rawPayload : Bytes) : WebSocketSession :=
  { x with
    channel := (x.channel.onmessage rawPayload).2
    effects := (x.channel.onmessage rawPayload).1 ++ x.effects }

/-- The session after an error or a close. -/
def WebSocketSession.disconnected (x : WebSocketSession) : WebSocketSession :=
  { x with
    channel := x.channel.rejectAllPromises.2
    answerable := []
    effects := x.channel.rejectAllPromises.1 ++ x.effects }

/-- One event.  The server answers a request it has received with the response
to that request.  Anything may come after a `send` that is undefined. -/
def WebSocketEvent.step (respond : Nat → Bytes) (x : WebSocketSession) :
    WebSocketEvent → WebSocketSession → Prop
  | .send data status, y => ∀ z, x.send data status = some z → y = z
  | .response id call, y =>
      (id, call) ∈ x.unanswered ∧
        y =
          { x.onmessage (Payload.toRaw id (respond call)) with
            unanswered := x.unanswered.filter (· ≠ (id, call))
            answerable := x.answerable.filter (· ≠ (id, call)) }
  | .notification data, y => y = x.onmessage (Payload.toRaw 0 data)
  | .error, y => y = x.disconnected
  | .close, y => y = x.disconnected

/-- The counter can be incremented, and `wsSend` does not fail. -/
def WebSocketEvent.Safe (x : WebSocketSession) : WebSocketEvent → Prop
  | .send _ status => status = .connectFailed ∨ x.channel.id ≠ INT32_MAX ∧ status = .sent
  | _ => True

/-- The calls completed so far. -/
def WebSocketSession.completed (x : WebSocketSession) : List Nat :=
  x.effects.filterMap fun
    | .complete call _ => some call
    | .notify _ => none

/-- Responses are matched to requests: no future is completed twice, each is
completed with the response to its own request or an error, no request has id
zero, the id of a pending promise belongs to its request alone, and a pending
promise can still be answered. -/
structure WebSocketSession.Matched (respond : Nat → Bytes) (x : WebSocketSession) : Prop where
  once : x.completed.Nodup
  own : ∀ call completion, .complete call completion ∈ x.effects →
    completion = .response (respond call) ∨ completion = .disconnected
  id_ne_zero : ∀ r ∈ x.sent, r.1 ≠ 0
  unique : ∀ p ∈ x.channel.promises, ∀ r ∈ x.sent, r.1 = p.1 → r = p
  answerable : ∀ p ∈ x.channel.promises, p ∈ x.answerable

/-- The invariant behind `Matched`: all request ids are below the counter, and differ
from each other. -/
structure WebSocketSession.Inv (respond : Nat → Bytes) (x : WebSocketSession) : Prop
    extends x.Matched respond where
  ids : ∀ r ∈ x.sent, r.1 < x.channel.id
  id_pos : 0 < x.channel.id
  id_le : x.channel.id ≤ INT32_MAX
  calls_lt : ∀ r ∈ x.sent, r.2 < x.calls
  ids_nodup : (x.sent.map Prod.fst).Nodup
  calls_nodup : (x.sent.map Prod.snd).Nodup
  unanswered : ∀ r ∈ x.unanswered, r ∈ x.sent
  promises : x.channel.promises.Sublist x.sent
  completed_lt : ∀ call ∈ x.completed, call < x.calls
  not_completed : ∀ p ∈ x.channel.promises, p.2 ∉ x.completed

/-! ## Single events -/

section Steps

variable {respond : Nat → Bytes} {x : WebSocketSession}

/-- Nothing has happened yet. -/
theorem WebSocketSession.Inv.initial : WebSocketSession.initial.Inv respond where
  once := List.nodup_nil
  own := by intro _ _ h; exact absurd h (by simp [WebSocketSession.initial])
  id_ne_zero := by intro _ h; exact absurd h (by simp [WebSocketSession.initial])
  unique := by intro _ h; exact absurd h (by simp [WebSocketSession.initial])
  answerable := by intro _ h; exact absurd h (by simp [WebSocketSession.initial])
  ids := by intro _ h; exact absurd h (by simp [WebSocketSession.initial])
  id_pos := Nat.one_pos
  id_le := by decide
  calls_lt := by intro _ h; exact absurd h (by simp [WebSocketSession.initial])
  ids_nodup := List.nodup_nil
  calls_nodup := List.nodup_nil
  unanswered := by intro _ h; exact absurd h (by simp [WebSocketSession.initial])
  promises := List.Sublist.refl []
  completed_lt := by
    intro _ h
    exact absurd h (by simp [WebSocketSession.completed, WebSocketSession.initial])
  not_completed := by intro _ h; exact absurd h (by simp [WebSocketSession.initial])

/-- A request finds its id unused. -/
theorem WebSocketSession.Inv.send_sent (hx : x.Inv respond) (hid : x.channel.id ≠ INT32_MAX)
    (data : Bytes) :
    x.channel.send x.calls data .sent =
      some (.ok (x.calls, Payload.toRaw x.channel.id data),
        { id := x.channel.id + 1,
          promises := (x.channel.id, x.calls) :: x.channel.promises }) := by
  have hfree : x.channel.promises.any (·.1 = x.channel.id) = false := by
    rw [List.any_eq_false]
    intro p hp
    have hlt := hx.ids p (hx.promises.subset hp)
    simp only [decide_eq_true_eq]
    omega
  simp only [WebSocketChannel.send, if_neg hid, hfree]
  rfl

/-- **A request goes out.** -/
theorem WebSocketSession.Inv.sent (hx : x.Inv respond) (hid : x.channel.id ≠ INT32_MAX)
    (data : Bytes) {y : WebSocketSession} (hy : x.send data .sent = some y) : y.Inv respond := by
  have hnew := hx.ids
  have hcalls := hx.calls_lt
  have hle := hx.id_le
  rw [WebSocketSession.send, hx.send_sent hid] at hy
  obtain rfl := Option.some.inj hy
  refine ⟨⟨hx.once, hx.own, ?_, ?_, ?_⟩, ?_, Nat.succ_pos _, ?_, ?_, ?_, ?_, ?_, ?_, ?_, ?_⟩
  · intro r hr
    rcases List.mem_cons.mp hr with rfl | hr
    · exact Nat.ne_of_gt hx.id_pos
    · exact hx.id_ne_zero r hr
  · intro p hp r hr heq
    rcases List.mem_cons.mp hp with rfl | hp <;> rcases List.mem_cons.mp hr with rfl | hr
    · rfl
    · exact absurd heq (Nat.ne_of_lt (hnew r hr))
    · exact absurd heq.symm (Nat.ne_of_lt (hnew p (hx.promises.subset hp)))
    · exact hx.unique p hp r hr heq
  · intro p hp
    rcases List.mem_cons.mp hp with rfl | hp
    · exact List.mem_cons_self
    · exact List.mem_cons_of_mem _ (hx.answerable p hp)
  · intro r hr
    rcases List.mem_cons.mp hr with rfl | hr
    · exact Nat.lt_succ_self _
    · exact Nat.lt_succ_of_lt (hnew r hr)
  · exact Nat.succ_le_of_lt (Nat.lt_of_le_of_ne hle hid)
  · intro r hr
    rcases List.mem_cons.mp hr with rfl | hr
    · exact Nat.lt_succ_self _
    · exact Nat.lt_succ_of_lt (hcalls r hr)
  · refine List.nodup_cons.mpr ⟨?_, hx.ids_nodup⟩
    intro hmem
    obtain ⟨r, hr, heq⟩ := List.mem_map.mp hmem
    exact absurd heq (Nat.ne_of_lt (hnew r hr))
  · refine List.nodup_cons.mpr ⟨?_, hx.calls_nodup⟩
    intro hmem
    obtain ⟨r, hr, heq⟩ := List.mem_map.mp hmem
    exact absurd heq (Nat.ne_of_lt (hcalls r hr))
  · intro r hr
    rcases List.mem_cons.mp hr with rfl | hr
    · exact List.mem_cons_self
    · exact List.mem_cons_of_mem _ (hx.unanswered r hr)
  · exact hx.promises.cons_cons _
  · intro call hcall
    exact Nat.lt_succ_of_lt (hx.completed_lt call hcall)
  · intro p hp
    rcases List.mem_cons.mp hp with rfl | hp
    · intro hdone
      exact absurd (hx.completed_lt _ hdone) (Nat.lt_irrefl _)
    · exact hx.not_completed p hp

/-- A request that never got a connection changes nothing but the count. -/
theorem WebSocketSession.Inv.connectFailed (hx : x.Inv respond) (data : Bytes)
    {y : WebSocketSession} (hy : x.send data .connectFailed = some y) : y.Inv respond := by
  obtain rfl := Option.some.inj hy
  exact
    { hx with
      calls_lt := fun r hr => Nat.lt_succ_of_lt (hx.calls_lt r hr)
      completed_lt := fun call hcall => Nat.lt_succ_of_lt (hx.completed_lt call hcall) }

/-- **A notification arrives**, and no promise is touched. -/
theorem WebSocketSession.Inv.notification (hx : x.Inv respond) (data : Bytes) :
    (x.onmessage (Payload.toRaw 0 data)).Inv respond := by
  have hmsg : x.channel.onmessage (Payload.toRaw 0 data) = ([.notify data], x.channel) := by
    rw [WebSocketChannel.onmessage, Payload.fromRaw_toRaw (by norm_num)]
    rfl
  rw [WebSocketSession.onmessage, hmsg]
  exact
    { hx with
      once := hx.once
      own := by
        intro call completion hmem
        rcases List.mem_cons.mp hmem with heq | hmem
        · exact absurd heq (by simp)
        · exact hx.own call completion hmem
      completed_lt := hx.completed_lt
      not_completed := hx.not_completed }

/-- A request on the wire has its own promise or none. -/
theorem WebSocketSession.Inv.lookup_eq (hx : x.Inv respond) {id call : Nat}
    (hsent : (id, call) ∈ x.sent) :
    x.channel.promises.lookup id = none ∨
      x.channel.promises.lookup id = some call ∧ (id, call) ∈ x.channel.promises := by
  cases hlook : x.channel.promises.lookup id with
  | none => exact Or.inl rfl
  | some other =>
      have hmem : (id, other) ∈ x.channel.promises := by
        obtain ⟨l₁, l₂, heq, -⟩ := List.lookup_eq_some_iff.mp hlook
        rw [heq]
        simp
      have hown := hx.unique _ hmem _ hsent rfl
      obtain rfl : call = other := congrArg Prod.snd hown
      exact Or.inr ⟨rfl, hmem⟩

/-- **A response arrives.** -/
theorem WebSocketSession.Inv.response (hx : x.Inv respond) {id call : Nat}
    (hmem : (id, call) ∈ x.unanswered) :
    ({ x.onmessage (Payload.toRaw id (respond call)) with
        unanswered := x.unanswered.filter (· ≠ (id, call))
        answerable := x.answerable.filter (· ≠ (id, call)) } : WebSocketSession).Inv respond := by
  have hsent := hx.unanswered _ hmem
  have hlt : id < 2 ^ 32 := by
    have hid : id < x.channel.id := hx.ids _ hsent
    have hle := hx.id_le
    unfold INT32_MAX at hle
    omega
  have hraw := Payload.fromRaw_toRaw hlt (respond call)
  have hne := hx.id_ne_zero _ hsent
  have hkeep : ∀ r ∈ x.unanswered.filter (· ≠ (id, call)), r ∈ x.sent :=
    fun r hr => hx.unanswered r (List.mem_of_mem_filter hr)
  rcases hx.lookup_eq hsent with hnone | ⟨hsome, hpending⟩
  · have hmsg : x.channel.onmessage (Payload.toRaw id (respond call)) = ([], x.channel) := by
      simp only [WebSocketChannel.onmessage, hraw, if_neg hne, hnone]
    have hother : ∀ p ∈ x.channel.promises, p ≠ (id, call) := by
      rintro p hp rfl
      rw [List.lookup_eq_none_iff] at hnone
      exact absurd (hnone _ hp) (by simp)
    rw [WebSocketSession.onmessage, hmsg]
    exact
      { hx with
        answerable := fun p hp =>
          List.mem_filter.mpr ⟨hx.answerable p hp, by simpa using hother p hp⟩
        unanswered := hkeep }
  · have hmsg : x.channel.onmessage (Payload.toRaw id (respond call)) =
        ([.complete call (.response (respond call))],
          { x.channel with promises := x.channel.promises.filter (·.1 ≠ id) }) := by
      simp only [WebSocketChannel.onmessage, hraw, if_neg hne, hsome]
    rw [WebSocketSession.onmessage, hmsg]
    have hstill : ∀ p ∈ x.channel.promises.filter (·.1 ≠ id),
        p ∈ x.channel.promises ∧ p.1 ≠ id := by
      intro p hp
      simpa using List.mem_filter.mp hp
    exact
      { hx with
        once := List.nodup_cons.mpr ⟨hx.not_completed _ hpending, hx.once⟩
        own := by
          intro call' completion hin
          rcases List.mem_cons.mp hin with heq | hin
          · cases heq
            exact Or.inl rfl
          · exact hx.own call' completion hin
        unique := fun p hp => hx.unique p (hstill p hp).1
        answerable := by
          intro p hp
          refine List.mem_filter.mpr ⟨hx.answerable p (hstill p hp).1, ?_⟩
          have hid := (hstill p hp).2
          simp only [ne_eq, decide_not, Bool.not_eq_eq_eq_not, Bool.not_true,
            decide_eq_false_iff_not]
          exact fun heq => hid (congrArg Prod.fst heq)
        unanswered := hkeep
        promises := List.filter_sublist.trans hx.promises
        completed_lt := by
          intro call' hin
          rcases List.mem_cons.mp hin with rfl | hin
          · exact hx.calls_lt _ hsent
          · exact hx.completed_lt call' hin
        not_completed := by
          intro p hp hin
          rcases List.mem_cons.mp hin with heq | hin
          · have hpair := List.inj_on_of_nodup_map hx.calls_nodup
              (hx.promises.subset (hstill p hp).1) hsent heq
            exact (hstill p hp).2 (congrArg Prod.fst hpair)
          · exact hx.not_completed p (hstill p hp).1 hin }

/-- What a disconnect completes. -/
theorem WebSocketSession.completed_disconnected (x : WebSocketSession) :
    x.disconnected.completed = x.channel.promises.map Prod.snd ++ x.completed := by
  simp only [WebSocketSession.completed, WebSocketSession.disconnected,
    WebSocketChannel.rejectAllPromises, List.filterMap_append, List.filterMap_map]
  congr 1
  exact congrFun (List.filterMap_eq_map (f := Prod.snd)) _

/-- **The connection is lost**, and every pending promise is rejected. -/
theorem WebSocketSession.Inv.disconnected (hx : x.Inv respond) : x.disconnected.Inv respond := by
  have hcompleted := x.completed_disconnected
  exact
    { hx with
      once := by
        rw [hcompleted, List.nodup_append']
        refine ⟨(hx.promises.map Prod.snd).nodup hx.calls_nodup, hx.once, ?_⟩
        intro call hpending hdone
        obtain ⟨p, hp, rfl⟩ := List.mem_map.mp hpending
        exact hx.not_completed p hp hdone
      own := by
        intro call completion hmem
        rcases List.mem_append.mp hmem with hrejected | hold
        · obtain ⟨p, -, heq⟩ := List.mem_map.mp hrejected
          cases heq
          exact Or.inr rfl
        · exact hx.own call completion hold
      unique := fun p hp => absurd hp List.not_mem_nil
      answerable := fun p hp => absurd hp List.not_mem_nil
      promises := List.nil_sublist _
      completed_lt := by
        intro call hmem
        rw [hcompleted] at hmem
        rcases List.mem_append.mp hmem with hrejected | hold
        · obtain ⟨p, hp, rfl⟩ := List.mem_map.mp hrejected
          exact hx.calls_lt p (hx.promises.subset hp)
        · exact hx.completed_lt call hold
      not_completed := fun p hp => absurd hp List.not_mem_nil }

/-- **One event.**  Safe events keep the invariant. -/
theorem WebSocketSession.Inv.step (hx : x.Inv respond) {e : WebSocketEvent}
    {y : WebSocketSession} (hsafe : e.Safe x) (hstep : e.step respond x y) : y.Inv respond := by
  cases e with
  | send data status =>
      rcases hsafe with rfl | ⟨hid, rfl⟩
      · obtain rfl := hstep _ rfl
        exact hx.connectFailed data rfl
      · obtain ⟨z, hsend⟩ : ∃ z, x.send data .sent = some z :=
          ⟨_, by rw [WebSocketSession.send, hx.send_sent hid]⟩
        obtain rfl := hstep z hsend
        exact hx.sent hid data hsend
  | response id call =>
      obtain ⟨hmem, rfl⟩ := hstep
      exact hx.response hmem
  | notification data =>
      cases hstep
      exact hx.notification data
  | error =>
      cases hstep
      exact hx.disconnected
  | close =>
      cases hstep
      exact hx.disconnected

end Steps

/-! ## Runs -/

/-- **Responses reach their requests.**  In every run of a channel in which the counter
does not overflow and no `wsSend` fails, requests and responses are matched in every
state reached. -/
theorem WebSocketChannel.matches_responses (respond : Nat → Bytes) (es : List WebSocketEvent)
    (y : WebSocketSession)
    (hrun : Run (guarded (fun x e => WebSocketEvent.Safe x e)
      (WebSocketEvent.step respond)) .initial es y) :
    y.Matched respond := by
  have hinv : y.Inv respond :=
    hrun.preserves (fun x => x.Inv respond)
      (fun _ _ _ hx hstep => hx.step hstep.1 hstep.2) WebSocketSession.Inv.initial
  exact hinv.toMatched

/-- Two requests, a notification, the response to the second request, and an error that
rejects the first one. -/
theorem WebSocketChannel.matches_responses_sample :
    ∃ y, Run (guarded (fun x e => WebSocketEvent.Safe x e)
        (WebSocketEvent.step fun call => [UInt8.ofNat call])) .initial
        [.send [1] .sent, .send [3] .sent, .notification [2], .response 2 1, .error] y ∧
      y.effects = [.complete 0 .disconnected, .complete 1 (.response [1]), .notify [2]] ∧
      y.Matched fun call => [UInt8.ofNat call] := by
  have hrun : ∃ y, Run (guarded (fun x e => WebSocketEvent.Safe x e)
      (WebSocketEvent.step fun call => [UInt8.ofNat call])) .initial
      [.send [1] .sent, .send [3] .sent, .notification [2], .response 2 1, .error] y ∧
      y.effects = [.complete 0 .disconnected, .complete 1 (.response [1]), .notify [2]] := by
    refine ⟨_, .cons ⟨Or.inr ⟨by decide, rfl⟩, fun _ h => Option.some.inj h⟩
      (.cons ⟨Or.inr ⟨by decide, rfl⟩, fun _ h => Option.some.inj h⟩
        (.cons ⟨trivial, rfl⟩ (.cons ⟨trivial, ⟨by decide, rfl⟩⟩
          (.cons ⟨trivial, rfl⟩ (.nil _))))), ?_⟩
    decide
  obtain ⟨y, hy, heffects⟩ := hrun
  exact ⟨y, hy, heffects, WebSocketChannel.matches_responses _ _ y hy⟩

/-- A failed `wsSend` leaves a promise behind that nobody can complete. -/
theorem WebSocketChannel.failed_send_keeps_promise :
    ∃ y, Run (WebSocketEvent.step fun _ => []) .initial [.send [] .sendFailed] y ∧
      y.channel.promises = [(1, 0)] ∧ y.answerable = [] ∧ ¬ y.Matched fun _ => [] := by
  refine ⟨_, .cons (fun _ h => Option.some.inj h) (.nil _), rfl, rfl, ?_⟩
  intro hmatched
  exact absurd (hmatched.answerable (1, 0) (by decide)) (by decide)

end PrivmxEndpoint
