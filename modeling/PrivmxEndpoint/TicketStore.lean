import PrivmxEndpoint.GuardedRuns
import PrivmxEndpoint.PinnedServer

/-!
# A ticket store with many callers

`useTicket` is three critical sections: it drops the expired tickets, counts
what is left, and takes the first one.  Between the second and the third other
callers may take, drop or clear the tickets that were counted, and the first
element of an empty multimap is taken.  Between the first and the third a server
may store tickets that have expired already.  And the product `ttl * 1000` wraps
for lifetimes of more than 24 days, so that the order of the multimap is not
that of the lifetimes.

Every ticket is returned at most once in any run (`Run.once`).  The rest holds
in every run in which none of these three things happens
(`ticket_store_sound`).
-/

namespace PrivmxEndpoint

open Runs Throwing

namespace TicketStore

/-- A ticket in the store: its number among all tickets that were ever stored,
its key in the multimap, and the end of its lifetime, which is the key computed
without wrapping. -/
structure StoredTicket where
  serial : ℕ
  expiry : ℤ
  lifetime : ℤ
  ticket : SessionTicket
  deriving Repr, DecidableEq

/-- `std::multimap::emplace`: behind the tickets with the same key. -/
def emplace (x : StoredTicket) : List StoredTicket → List StoredTicket
  | [] => [x]
  | y :: tickets => if x.expiry < y.expiry then x :: y :: tickets else y :: emplace x tickets

/-- What `dropExpiredTickets` is called for. -/
inductive Task
  | useTicket
  | shouldAskForNewTickets (minCount : ℤ)

/-- Where a caller is between two critical sections, with the times that it has
read. -/
inductive Caller
  | idle
  /-- In `dropExpiredTickets`, before the lock. -/
  | expiring (task : Task) (now : ℤ)
  /-- In `useTicket`, before `ticketsCount`. -/
  | counting (began : ℤ)
  /-- In `on_tickets_equal_zero`. -/
  | waiting (began : ℤ)
  /-- In `useTicket`, before its own lock. -/
  | taking (began : ℤ)
  /-- In `shouldAskForNewTickets`, before it reads the clock. -/
  | asking (minCount : ℤ)
  /-- In `shouldAskForNewTickets`, before its own lock. -/
  | comparing (minCount now : ℤ)

/-- The time at which a caller in `useTicket` has begun the expiry check that it has
behind it. -/
def Caller.since : Caller → Option ℤ
  | .counting began => some began
  | .waiting began => some began
  | .taking began => some began
  | _ => none

/-- How a call ends, with the tickets that were in the store at that time. -/
inductive Outcome
  | returned (ticket : StoredTicket) (began : ℤ) (tickets : List StoredTicket)
  /-- `TicketsCountIsEqualZeroException`. -/
  | noTickets (tickets : List StoredTicket)
  | callbackThrew
  /-- The first element of an empty multimap is read and erased. -/
  | undefinedBehaviour
  | asked (answer : Bool)

/-- The ticket that a call has returned. -/
def Outcome.serial : Outcome → Option ℕ
  | .returned x _ _ => some x.serial
  | _ => none

/-- The members of a `TicketsManager`, the clock, the callers, and what has been
stored and returned so far. -/
structure State where
  tickets : List StoredTicket
  ticketsTtl : ℤ
  clock : ℤ
  stored : ℕ
  callers : ℕ → Caller
  outcomes : List Outcome

namespace State

/-- An empty store that nobody uses. -/
def start (clock : ℤ) : State where
  tickets := []
  ticketsTtl := -1
  clock := clock
  stored := 0
  callers _ := .idle
  outcomes := []

/-- A caller goes on. -/
def goOn (s : State) (t : ℕ) (caller : Caller) : State :=
  { s with callers := Function.update s.callers t caller }

/-- The call of a caller ends. -/
def finish (s : State) (t : ℕ) (outcome : Outcome) : State :=
  { s.goOn t .idle with outcomes := outcome :: s.outcomes }

/-- One ticket is stored. -/
def storeTicket (s : State) (expiry lifetime : ℤ) (ticket : SessionTicket) : State :=
  { s with
    tickets := emplace ⟨s.stored, expiry, lifetime, ticket⟩ s.tickets
    stored := s.stored + 1 }

/-- The loop in `saveTickets`, and whether it ends: an element may be no binary
string. -/
def storeEach (expiry lifetime : ℤ) (masterSecret : Bytes) :
    State → List (Option Bytes) → State × Bool
  | s, [] => (s, true)
  | s, none :: _ => (s, false)
  | s, some id :: tickets =>
      storeEach expiry lifetime masterSecret
        (s.storeTicket expiry lifetime ⟨id, masterSecret⟩) tickets

/-- `saveTickets`. -/
def saveTickets (s : State) (tickets : List (Option Bytes)) (ttl : ℤ) (masterSecret : Bytes) :
    State :=
  let newTicketsTtl := TicketsManager.newTicketsTtl s.clock ttl
  let (s', complete) :=
    s.storeEach newTicketsTtl (s.clock + ttl * 1000 - 5000) masterSecret tickets
  if complete then { s' with ticketsTtl := max s'.ticketsTtl newTicketsTtl } else s'

/-- The critical section of `dropExpiredTickets`. -/
def dropExpiredTickets (s : State) (now : ℤ) : State :=
  { s with tickets := s.tickets.dropWhile (·.expiry ≤ now) }

/-- The comparison in `shouldAskForNewTickets`. -/
def shouldAskForNewTickets (s : State) (minCount now : ℤ) : Bool :=
  decide ((s.tickets.length : ℤ).bmod (2 ^ 32) < minCount) ||
    (s.ticketsTtl != -1 && decide (s.ticketsTtl - 15 * 1000 < now))

end State

/-- The critical sections, the readings of the clock, and what the callback does. -/
inductive Action
  | tick (now : ℤ)
  | saveTickets (tickets : List (Option Bytes)) (ttl : ℤ) (masterSecret : Bytes)
  | clear
  | call (t : ℕ) (task : Task)
  | dropExpiredTickets (t : ℕ)
  | ticketsCount (t : ℕ)
  | callback (t : ℕ) (throws : Bool)
  | take (t : ℕ)
  | readClock (t : ℕ)
  | compare (t : ℕ)

/-- One step: the clock does not go back, and a ttl is an `int`. -/
inductive Step (onTicketsEqualZero : Bool) : State → Action → State → Prop
  | tick {s : State} {now : ℤ} (hnow : s.clock ≤ now) :
      Step onTicketsEqualZero s (.tick now) { s with clock := now }
  | saveTickets (s : State) (tickets : List (Option Bytes)) {ttl : ℤ} (masterSecret : Bytes)
      (hint : -2 ^ 31 ≤ ttl ∧ ttl < 2 ^ 31) :
      Step onTicketsEqualZero s (.saveTickets tickets ttl masterSecret)
        (s.saveTickets tickets ttl masterSecret)
  | clear (s : State) : Step onTicketsEqualZero s .clear { s with tickets := [] }
  | call {s : State} {t : ℕ} (ht : s.callers t = .idle) (task : Task) :
      Step onTicketsEqualZero s (.call t task) (s.goOn t (.expiring task s.clock))
  | dropToUse {s : State} {t : ℕ} {now : ℤ} (ht : s.callers t = .expiring .useTicket now) :
      Step onTicketsEqualZero s (.dropExpiredTickets t)
        ((s.dropExpiredTickets now).goOn t (.counting now))
  | dropToAsk {s : State} {t : ℕ} {minCount now : ℤ}
      (ht : s.callers t = .expiring (.shouldAskForNewTickets minCount) now) :
      Step onTicketsEqualZero s (.dropExpiredTickets t)
        ((s.dropExpiredTickets now).goOn t (.asking minCount))
  | countSome {s : State} {t : ℕ} {began : ℤ} (ht : s.callers t = .counting began)
      (hsome : s.tickets ≠ []) :
      Step onTicketsEqualZero s (.ticketsCount t) (s.goOn t (.taking began))
  | countNone {s : State} {t : ℕ} {began : ℤ} (ht : s.callers t = .counting began)
      (hnone : s.tickets = []) :
      Step onTicketsEqualZero s (.ticketsCount t)
        (if onTicketsEqualZero then s.goOn t (.waiting began)
        else s.finish t (.noTickets s.tickets))
  | callback {s : State} {t : ℕ} {began : ℤ} (ht : s.callers t = .waiting began)
      (throws : Bool) :
      Step onTicketsEqualZero s (.callback t throws)
        (if throws then s.finish t .callbackThrew else s.goOn t (.taking began))
  | take {s : State} {t : ℕ} {began : ℤ} {x : StoredTicket} {tickets : List StoredTicket}
      (ht : s.callers t = .taking began) (hx : s.tickets = x :: tickets) :
      Step onTicketsEqualZero s (.take t)
        ({ s with tickets := tickets }.finish t (.returned x began s.tickets))
  | takeNone {s : State} {t : ℕ} {began : ℤ} (ht : s.callers t = .taking began)
      (hnone : s.tickets = []) :
      Step onTicketsEqualZero s (.take t) (s.finish t .undefinedBehaviour)
  | readClock {s : State} {t : ℕ} {minCount : ℤ} (ht : s.callers t = .asking minCount) :
      Step onTicketsEqualZero s (.readClock t) (s.goOn t (.comparing minCount s.clock))
  | compare {s : State} {t : ℕ} {minCount now : ℤ} (ht : s.callers t = .comparing minCount now) :
      Step onTicketsEqualZero s (.compare t)
        (s.finish t (.asked (s.shouldAskForNewTickets minCount now)))

/-! ## The multimap -/

/-- The keys are in ascending order. -/
def Ascending (tickets : List StoredTicket) : Prop :=
  tickets.Pairwise fun x y => x.expiry ≤ y.expiry

/-- Storing a ticket adds just this one. -/
theorem emplace_perm (x : StoredTicket) (tickets : List StoredTicket) :
    (emplace x tickets).Perm (x :: tickets) := by
  induction tickets with
  | nil => exact .refl _
  | cons y tickets ih =>
      unfold emplace
      split
      · exact .refl _
      · exact (ih.cons y).trans (.swap x y tickets)

/-- What is stored is the new ticket or an old one. -/
theorem mem_emplace {x y : StoredTicket} {tickets : List StoredTicket} :
    y ∈ emplace x tickets ↔ y = x ∨ y ∈ tickets := by
  rw [(emplace_perm x tickets).mem_iff, List.mem_cons]

/-- The store stays in the order of the ends. -/
theorem Ascending.emplace {tickets : List StoredTicket} (h : Ascending tickets)
    (x : StoredTicket) : Ascending (emplace x tickets) := by
  induction tickets with
  | nil => exact List.pairwise_singleton _ x
  | cons y tickets ih =>
      obtain ⟨hy, hrest⟩ := List.pairwise_cons.mp h
      unfold TicketStore.emplace
      by_cases hxy : x.expiry < y.expiry
      · rw [if_pos hxy]
        refine List.pairwise_cons.mpr ⟨fun z hz => ?_, h⟩
        rcases List.mem_cons.mp hz with rfl | hz
        · omega
        · have := hy z hz
          omega
      · rw [if_neg hxy]
        refine List.pairwise_cons.mpr ⟨fun z hz => ?_, ih hrest⟩
        rcases mem_emplace.mp hz with rfl | hz
        · omega
        · exact hy z hz

/-- Dropping what has ended keeps the order. -/
theorem Ascending.dropWhile {tickets : List StoredTicket} (h : Ascending tickets) (now : ℤ) :
    Ascending (tickets.dropWhile (·.expiry ≤ now)) :=
  h.sublist (List.dropWhile_sublist _)

/-- What is dropped is what has expired. -/
theorem Ascending.mem_dropWhile_iff {tickets : List StoredTicket} (h : Ascending tickets)
    (now : ℤ) (x : StoredTicket) :
    x ∈ tickets.dropWhile (·.expiry ≤ now) ↔ x ∈ tickets ∧ now < x.expiry := by
  induction tickets with
  | nil => simp
  | cons y tickets ih =>
      obtain ⟨hy, hrest⟩ := List.pairwise_cons.mp h
      by_cases hnow : y.expiry ≤ now
      · rw [List.dropWhile_cons_of_pos (by simpa using hnow), ih hrest]
        constructor
        · intro hx
          exact ⟨List.mem_cons_of_mem _ hx.1, hx.2⟩
        · intro hx
          obtain ⟨hmem, hlive⟩ := hx
          rcases List.mem_cons.mp hmem with rfl | hmem
          · omega
          · exact ⟨hmem, hlive⟩
      · rw [List.dropWhile_cons_of_neg (by simpa using hnow)]
        constructor
        · intro hx
          refine ⟨hx, ?_⟩
          rcases List.mem_cons.mp hx with rfl | hmem
          · omega
          · have := hy x hmem
            omega
        · intro hx
          exact hx.1

/-! ## Each ticket once -/

/-- The tickets that were returned. -/
def State.returned (s : State) : List ℕ :=
  s.outcomes.filterMap Outcome.serial

/-- The numbers of the tickets in the store and of those that were returned. -/
def State.serials (s : State) : List ℕ :=
  s.tickets.map (·.serial) ++ s.returned

/-- No number occurs twice, and the next one is new. -/
structure Numbered (s : State) : Prop where
  nodup : s.serials.Nodup
  lt : ∀ n ∈ s.serials, n < s.stored

/-- Fewer tickets in the store. -/
theorem Numbered.sublist {s s' : State} (h : Numbered s) (htickets : s'.tickets.Sublist s.tickets)
    (hreturned : s'.returned = s.returned) (hstored : s'.stored = s.stored) : Numbered s' := by
  have hsub : s'.serials.Sublist s.serials := by
    rw [State.serials, State.serials, hreturned]
    exact (htickets.map _).append_right _
  refine ⟨hsub.nodup h.nodup, fun n hn => ?_⟩
  rw [hstored]
  exact h.lt n (hsub.mem hn)

/-- A stored ticket has a new number. -/
theorem Numbered.storeTicket {s : State} (h : Numbered s) (expiry lifetime : ℤ)
    (ticket : SessionTicket) : Numbered (s.storeTicket expiry lifetime ticket) := by
  have hperm : (s.storeTicket expiry lifetime ticket).serials.Perm (s.stored :: s.serials) :=
    ((emplace_perm ⟨s.stored, expiry, lifetime, ticket⟩ s.tickets).map _).append_right _
  constructor
  · refine hperm.nodup_iff.mpr (List.nodup_cons.mpr ⟨fun hmem => ?_, h.nodup⟩)
    exact absurd (h.lt _ hmem) (Nat.lt_irrefl _)
  · intro n hn
    change n < s.stored + 1
    rcases List.mem_cons.mp (hperm.mem_iff.mp hn) with rfl | hmem
    · omega
    · have := h.lt n hmem
      omega

/-- A property that survives the storing of one ticket survives `saveTickets`. -/
theorem State.saveTickets_preserves {P : State → Prop} {s : State} {ttl : ℤ} {masterSecret : Bytes}
    (hticket : ∀ (s' : State) (id : Bytes), P s' →
      P (s'.storeTicket (TicketsManager.newTicketsTtl s.clock ttl) (s.clock + ttl * 1000 - 5000)
        ⟨id, masterSecret⟩))
    (httl : ∀ (s' : State) (ticketsTtl : ℤ), P s' → P { s' with ticketsTtl := ticketsTtl })
    (hs : P s) (tickets : List (Option Bytes)) : P (s.saveTickets tickets ttl masterSecret) := by
  have hloop : ∀ (tickets : List (Option Bytes)) (s' : State), P s' →
      P (s'.storeEach (TicketsManager.newTicketsTtl s.clock ttl) (s.clock + ttl * 1000 - 5000)
        masterSecret tickets).1 := by
    intro tickets
    induction tickets with
    | nil => exact fun s' hs' => hs'
    | cons ticket tickets ih =>
        intro s' hs'
        cases ticket with
        | none => exact hs'
        | some id => exact ih _ (hticket s' id hs')
  unfold State.saveTickets
  dsimp only
  split
  · exact httl _ _ (hloop tickets s hs)
  · exact hloop tickets s hs

/-- **Step.** No two stored tickets share a number. -/
theorem Numbered.step {callback : Bool} {s s' : State} {a : Action} (h : Numbered s)
    (hstep : Step callback s a s') : Numbered s' := by
  cases hstep with
  | tick hnow => exact h.sublist (.refl _) rfl rfl
  | saveTickets tickets masterSecret hint =>
      refine State.saveTickets_preserves (fun s' id hs' => hs'.storeTicket _ _ _) ?_ h tickets
      intro s' ticketsTtl hs'
      exact hs'.sublist (.refl _) rfl rfl
  | clear => exact h.sublist (List.nil_sublist _) rfl rfl
  | call ht task => exact h.sublist (.refl _) rfl rfl
  | dropToUse ht => exact h.sublist (List.dropWhile_sublist _) rfl rfl
  | dropToAsk ht => exact h.sublist (List.dropWhile_sublist _) rfl rfl
  | countSome ht hsome => exact h.sublist (.refl _) rfl rfl
  | countNone ht hnone =>
      split
      · exact h.sublist (.refl _) rfl rfl
      · exact h.sublist (.refl _) rfl rfl
  | callback ht throws =>
      split
      · exact h.sublist (.refl _) rfl rfl
      · exact h.sublist (.refl _) rfl rfl
  | @take t began x tickets ht hx =>
      have hperm : (({ s with tickets := tickets }.finish t
          (.returned x began s.tickets)).serials).Perm s.serials := by
        change (tickets.map (·.serial) ++ x.serial :: s.returned).Perm
          (s.tickets.map (·.serial) ++ s.returned)
        rw [hx, List.map_cons, List.cons_append]
        exact List.perm_middle
      exact ⟨hperm.nodup_iff.mpr h.nodup, fun n hn => h.lt n (hperm.mem_iff.mp hn)⟩
  | takeNone ht hnone => exact h.sublist (.refl _) rfl rfl
  | readClock ht => exact h.sublist (.refl _) rfl rfl
  | compare ht => exact h.sublist (.refl _) rfl rfl

/-- **Each ticket once.**  In every run, no stored ticket is returned twice. -/
theorem once {callback : Bool} {clock : ℤ} {actions : List Action} {s : State}
    (hrun : Run (Step callback) (State.start clock) actions s) : s.returned.Nodup := by
  have hnumbered : Numbered s :=
    hrun.preserves Numbered (fun _ _ _ h hstep => h.step hstep)
      ⟨List.nodup_nil, fun n hn => absurd hn List.not_mem_nil⟩
  exact (List.nodup_append.mp hnumbered.nodup).2.1

/-! ## Tickets that live -/

/-- What a call of `useTicket` gives: a ticket that had not expired when the
expiry check began, of all tickets in the store the one with the earliest end,
or the exception, if the store is empty. -/
def Outcome.Sound : Outcome → Prop
  | .returned x began tickets =>
      began < x.lifetime ∧ x ∈ tickets ∧ ∀ y ∈ tickets, x.lifetime ≤ y.lifetime
  | .noTickets tickets => tickets = []
  | .callbackThrew => False
  | .undefinedBehaviour => False
  | .asked _ => True

/-- Some caller has counted tickets, or has called back, and is about to take
one. -/
def State.Taking (s : State) : Prop :=
  ∃ t began, s.callers t = .taking began

/-- The condition on a step.  The product of a ttl does not wrap, and the tickets
outlive the beginning of every `useTicket` behind its expiry check.  Who clears, drops or takes
tickets leaves one for a caller that is about to take one.  The callback returns
and has put a ticket into the store. -/
def Orderly (s : State) : Action → Prop
  | .saveTickets _ ttl _ => (-2147483 ≤ ttl ∧ ttl ≤ 2147483) ∧
      ∀ t now, (s.callers t).since = some now → now < s.clock + ttl * 1000 - 5000
  | .clear => ¬ s.Taking
  | .dropExpiredTickets t => s.Taking →
      ∀ task now, s.callers t = .expiring task now → ∃ x ∈ s.tickets, now < x.expiry
  | .take t => (∃ u began, u ≠ t ∧ s.callers u = .taking began) → 2 ≤ s.tickets.length
  | .callback _ throws => throws = false ∧ s.tickets ≠ []
  | _ => True

/-- What holds in every state of an orderly run. -/
structure Inv (s : State) : Prop where
  ascending : Ascending s.tickets
  exact : ∀ x ∈ s.tickets, x.expiry = x.lifetime
  /-- A caller that has dropped the expired tickets sees only such as live. -/
  live : ∀ t now, (s.callers t).since = some now → ∀ x ∈ s.tickets, now < x.expiry
  stocked : s.Taking → s.tickets ≠ []
  sound : ∀ outcome ∈ s.outcomes, outcome.Sound

/-- The end of new tickets does not overflow for lifetimes of 24 days. -/
theorem newTicketsTtl_eq {ttl : ℤ} (h : -2147483 ≤ ttl ∧ ttl ≤ 2147483) (now : ℤ) :
    TicketsManager.newTicketsTtl now ttl = now + ttl * 1000 - 5000 := by
  rw [TicketsManager.newTicketsTtl, Int.bmod_eq_of_le (by omega) (by omega)]

namespace Inv

variable {s : State} {t : ℕ}

/-- A caller goes on, and does not come to taking a ticket without reason. -/
theorem goOn (h : Inv s) {caller : Caller}
    (hlive : ∀ now, caller.since = some now → ∀ x ∈ s.tickets, now < x.expiry)
    (hstocked : (∃ began, caller = .taking began) → s.tickets ≠ []) : Inv (s.goOn t caller) where
  ascending := h.ascending
  exact := h.exact
  live u now hsince := by
    change (Function.update s.callers t caller u).since = some now at hsince
    by_cases hu : u = t
    · rw [hu, Function.update_self] at hsince
      exact hlive now hsince
    · rw [Function.update_of_ne hu] at hsince
      exact h.live u now hsince
  stocked htaking := by
    obtain ⟨u, began, hu⟩ := htaking
    change Function.update s.callers t caller u = .taking began at hu
    by_cases hut : u = t
    · rw [hut, Function.update_self] at hu
      exact hstocked ⟨began, hu⟩
    · rw [Function.update_of_ne hut] at hu
      exact h.stocked ⟨u, began, hu⟩
  sound := h.sound

/-- A caller goes on to where it has no expiry check behind it. -/
theorem goOn_free (h : Inv s) {caller : Caller} (hsince : caller.since = none) :
    Inv (s.goOn t caller) := by
  apply h.goOn
  · intro now hnow
    rw [hsince] at hnow
    cases hnow
  · intro htaking
    obtain ⟨began, rfl⟩ := htaking
    cases hsince

/-- A call ends with a sound outcome. -/
theorem finish (h : Inv s) {outcome : Outcome} (hsound : outcome.Sound) :
    Inv (s.finish t outcome) := by
  have hidle : Inv (s.goOn t .idle) := h.goOn_free rfl
  exact
    { ascending := hidle.ascending
      exact := hidle.exact
      live := hidle.live
      stocked := hidle.stocked
      sound := fun o ho => by
        rcases List.mem_cons.mp ho with rfl | hmem
        · exact hsound
        · exact h.sound o hmem }

/-- Fewer tickets, as long as one stays for who is about to take one. -/
theorem fewer (h : Inv s) {tickets : List StoredTicket} (hsub : tickets.Sublist s.tickets)
    (hstocked : s.Taking → tickets ≠ []) : Inv { s with tickets := tickets } where
  ascending := h.ascending.sublist hsub
  exact x hx := h.exact x (hsub.mem hx)
  live u now hsince x hx := h.live u now hsince x (hsub.mem hx)
  stocked := hstocked
  sound := h.sound

/-- One more ticket that outlives the calls under way. -/
theorem storeTicket (h : Inv s) {expiry lifetime : ℤ} (heq : expiry = lifetime)
    (houtlives : ∀ u now, (s.callers u).since = some now → now < expiry)
    (ticket : SessionTicket) : Inv (s.storeTicket expiry lifetime ticket) where
  ascending := h.ascending.emplace _
  exact x hx := by
    rcases mem_emplace.mp hx with rfl | hmem
    · exact heq
    · exact h.exact x hmem
  live u now hsince x hx := by
    rcases mem_emplace.mp hx with rfl | hmem
    · exact houtlives u now hsince
    · exact h.live u now hsince x hmem
  stocked _ := by
    intro hnil
    have hmem : (⟨s.stored, expiry, lifetime, ticket⟩ : StoredTicket) ∈
        emplace ⟨s.stored, expiry, lifetime, ticket⟩ s.tickets := mem_emplace.mpr (Or.inl rfl)
    rw [show emplace ⟨s.stored, expiry, lifetime, ticket⟩ s.tickets = [] from hnil] at hmem
    exact absurd hmem List.not_mem_nil
  sound := h.sound

/-- An orderly `saveTickets`. -/
theorem saveTickets (h : Inv s) {ttl : ℤ} (masterSecret : Bytes)
    (hwrap : -2147483 ≤ ttl ∧ ttl ≤ 2147483)
    (houtlives : ∀ u now, (s.callers u).since = some now → now < s.clock + ttl * 1000 - 5000)
    (tickets : List (Option Bytes)) : Inv (s.saveTickets tickets ttl masterSecret) := by
  have hkept : Inv (s.saveTickets tickets ttl masterSecret) ∧
      (s.saveTickets tickets ttl masterSecret).callers = s.callers := by
    refine State.saveTickets_preserves
      (P := fun s' => Inv s' ∧ s'.callers = s.callers) ?_ ?_ ⟨h, rfl⟩ tickets
    · intro s' id hs'
      refine ⟨hs'.1.storeTicket (newTicketsTtl_eq hwrap s.clock) (fun u now hsince => ?_) _, hs'.2⟩
      rw [newTicketsTtl_eq hwrap]
      rw [hs'.2] at hsince
      exact houtlives u now hsince
    · intro s' ticketsTtl hs'
      exact ⟨⟨hs'.1.ascending, hs'.1.exact, hs'.1.live, hs'.1.stocked, hs'.1.sound⟩, hs'.2⟩
  exact hkept.1

/-- An orderly `dropExpiredTickets`, after which all tickets live. -/
theorem dropExpiredTickets (h : Inv s) {task : Task} {now : ℤ}
    (ht : s.callers t = .expiring task now) (hok : Orderly s (.dropExpiredTickets t)) :
    Inv (s.dropExpiredTickets now) ∧ ∀ x ∈ (s.dropExpiredTickets now).tickets, now < x.expiry := by
  constructor
  · refine h.fewer (List.dropWhile_sublist _) fun htaking hnil => ?_
    obtain ⟨x, hx, hlive⟩ := hok htaking task now ht
    have hmem := (h.ascending.mem_dropWhile_iff now x).mpr ⟨hx, hlive⟩
    rw [hnil] at hmem
    cases hmem
  · intro x hx
    exact ((h.ascending.mem_dropWhile_iff now x).mp hx).2

/-- An orderly `dropExpiredTickets` in `useTicket`. -/
theorem dropToUse (h : Inv s) {now : ℤ} (ht : s.callers t = .expiring .useTicket now)
    (hok : Orderly s (.dropExpiredTickets t)) :
    Inv ((s.dropExpiredTickets now).goOn t (.counting now)) := by
  obtain ⟨hinv, hlive⟩ := h.dropExpiredTickets ht hok
  apply hinv.goOn
  · intro now' hsince
    obtain rfl := Option.some.inj hsince
    exact hlive
  · intro htaking
    obtain ⟨began, heq⟩ := htaking
    cases heq

/-- A caller comes to taking a ticket while there is one. -/
theorem goOn_taking (h : Inv s) {began : ℤ} (hsince : (s.callers t).since = some began)
    (hsome : s.tickets ≠ []) : Inv (s.goOn t (.taking began)) := by
  apply h.goOn
  · intro now hnow
    obtain rfl := Option.some.inj hnow
    exact h.live t began hsince
  · exact fun _ => hsome

/-- A caller that finds the store empty calls back, or throws. -/
theorem countNone (h : Inv s) {callback : Bool} {began : ℤ} (hnone : s.tickets = []) :
    Inv (if callback then s.goOn t (.waiting began) else s.finish t (.noTickets s.tickets)) := by
  split
  · apply h.goOn
    · intro now hsince x hx
      rw [hnone] at hx
      cases hx
    · intro htaking
      obtain ⟨other, heq⟩ := htaking
      cases heq
  · exact h.finish hnone

/-- The first ticket lives, and none ends before it: its key is the end of its lifetime. -/
theorem sound_first (h : Inv s) {began : ℤ} {x : StoredTicket} {tickets : List StoredTicket}
    (ht : s.callers t = .taking began) (hx : s.tickets = x :: tickets) :
    (Outcome.returned x began s.tickets).Sound := by
  have hmem : x ∈ s.tickets := hx ▸ List.mem_cons_self
  have hsorted := h.ascending
  rw [hx] at hsorted
  refine ⟨?_, hmem, fun y hy => ?_⟩
  · rw [← h.exact x hmem]
    exact h.live t began (by rw [ht]; rfl) x hmem
  · rw [← h.exact x hmem, ← h.exact y hy]
    rw [hx] at hy
    rcases List.mem_cons.mp hy with rfl | hrest
    · exact le_refl _
    · exact (List.pairwise_cons.mp hsorted).1 y hrest

/-- An orderly `take` leaves a ticket for every other caller that is about to take one. -/
theorem take (h : Inv s) {began : ℤ} {x : StoredTicket} {tickets : List StoredTicket}
    (ht : s.callers t = .taking began) (hx : s.tickets = x :: tickets)
    (hok : Orderly s (.take t)) :
    Inv ({ s with tickets := tickets }.finish t (.returned x began s.tickets)) := by
  have hidle : Inv (s.goOn t .idle) := h.goOn_free rfl
  have hfewer : Inv { s.goOn t .idle with tickets := tickets } := by
    refine hidle.fewer ?_ fun htaking hnil => ?_
    · change tickets.Sublist s.tickets
      rw [hx]
      exact List.sublist_cons_self x tickets
    · obtain ⟨u, other, hu⟩ := htaking
      change Function.update s.callers t .idle u = .taking other at hu
      have hut : u ≠ t := by
        rintro rfl
        rw [Function.update_self] at hu
        cases hu
      rw [Function.update_of_ne hut] at hu
      have hlen := hok ⟨u, other, hut, hu⟩
      rw [hx, hnil] at hlen
      simp at hlen
  exact
    { ascending := hfewer.ascending
      exact := hfewer.exact
      live := hfewer.live
      stocked := hfewer.stocked
      sound := fun o ho => by
        rcases List.mem_cons.mp ho with rfl | hrest
        · exact h.sound_first ht hx
        · exact h.sound o hrest }

/-- **One orderly step.** -/
theorem step {callback : Bool} {s s' : State} {a : Action} (h : Inv s) (hok : Orderly s a)
    (hstep : Step callback s a s') : Inv s' := by
  cases hstep with
  | tick hnow => exact ⟨h.ascending, h.exact, h.live, h.stocked, h.sound⟩
  | saveTickets tickets masterSecret hint => exact h.saveTickets masterSecret hok.1 hok.2 tickets
  | clear => exact h.fewer (List.nil_sublist _) fun htaking => absurd htaking hok
  | call ht task => exact h.goOn_free rfl
  | dropToUse ht => exact h.dropToUse ht hok
  | dropToAsk ht => exact (h.dropExpiredTickets ht hok).1.goOn_free rfl
  | countSome ht hsome => exact h.goOn_taking (by rw [ht]; rfl) hsome
  | countNone ht hnone => exact h.countNone hnone
  | callback ht throws =>
      obtain ⟨rfl, hsome⟩ := hok
      exact h.goOn_taking (by rw [ht]; rfl) hsome
  | take ht hx => exact h.take ht hx hok
  | @takeNone t began ht hnone => exact absurd hnone (h.stocked ⟨t, began, ht⟩)
  | readClock ht => exact h.goOn_free rfl
  | compare ht => exact h.finish trivial

end Inv

/-- **The ticket store.**  In every run of any number of callers whose steps are
orderly, no stored ticket is returned twice, and every call of `useTicket`
returns a ticket that lived when its expiry check began, of all tickets in the
store the one with the earliest end, or throws, if the store is empty; it never
takes the first element of an empty store. -/
theorem ticket_store_sound (onTicketsEqualZero : Bool) (clock : ℤ) (actions : List Action)
    (s : State) (hrun : Run (guarded Orderly (Step onTicketsEqualZero)) (State.start clock) actions s) :
    s.returned.Nodup ∧ ∀ outcome ∈ s.outcomes, outcome.Sound := by
  constructor
  · exact once (hrun.refines id fun _ _ _ h => h.2)
  · have hstart : Inv (State.start clock) := by
      refine ⟨List.Pairwise.nil, fun x hx => absurd hx List.not_mem_nil, ?_, ?_,
        fun o ho => absurd ho List.not_mem_nil⟩
      · intro t now hsince
        cases hsince
      · intro htaking
        obtain ⟨t, began, heq⟩ := htaking
        cases heq
    exact (hrun.preserves Inv (fun _ _ _ h hstep => h.step hstep.1 hstep.2) hstart).sound

/-! ### The calls of a connection -/

/-- The tickets as a connection sees them. -/
def State.manager (s : State) : TicketsManager where
  tickets := s.tickets.map fun x => (x.expiry, x.ticket)
  ticketsTtl := s.ticketsTtl

/-- The numbered store is the manager's. -/
theorem map_emplace (x : StoredTicket) (tickets : List StoredTicket) :
    (emplace x tickets).map (fun x => (x.expiry, x.ticket)) =
      TicketsManager.emplace x.expiry x.ticket (tickets.map fun x => (x.expiry, x.ticket)) := by
  induction tickets with
  | nil => rfl
  | cons y tickets ih =>
      rw [List.map_cons, emplace, TicketsManager.emplace]
      by_cases hxy : x.expiry < y.expiry
      · rw [if_pos hxy, if_pos hxy]
        rfl
      · rw [if_neg hxy, if_neg hxy, List.map_cons, ih]

/-- So it is after the old tickets are dropped. -/
theorem map_dropWhile (tickets : List StoredTicket) (now : ℤ) :
    (tickets.dropWhile (·.expiry ≤ now)).map (fun x => (x.expiry, x.ticket)) =
      (tickets.map fun x => (x.expiry, x.ticket)).dropWhile (·.1 ≤ now) := by
  rw [List.dropWhile_map]
  rfl

section Connections

variable {H : HandshakeCrypto} {c : Connection H} {s : State}

/-- `saveTickets` of a connection is the one step. -/
theorem saveTickets_manager (hs : c.1.ticketsManager = s.manager) (tickets : List (Option Bytes))
    (ttl : ℤ) (masterSecret : Bytes) :
    (exec (PrivmxEndpoint.saveTickets s.clock tickets ttl masterSecret) c).2.1.ticketsManager =
      (s.saveTickets tickets ttl masterSecret).manager := by
  have hloop : ∀ (tickets : List (Option Bytes)) (c : Connection H) (s' : State),
      c.1.ticketsManager = s'.manager →
        let expiry := TicketsManager.newTicketsTtl s.clock ttl
        let after := exec (saveEach expiry masterSecret tickets) c
        let after' := s'.storeEach expiry (s.clock + ttl * 1000 - 5000) masterSecret tickets
        after.2.1.ticketsManager = after'.1.manager ∧ (after.1.toBool = after'.2) := by
    intro tickets
    induction tickets with
    | nil => exact fun c s' hs' => ⟨hs', rfl⟩
    | cons ticket tickets ih =>
        intro c s' hs'
        cases ticket with
        | none => exact ⟨hs', rfl⟩
        | some id =>
            apply ih
            change ({ c.1.ticketsManager with tickets := _ } : TicketsManager) = _
            rw [hs', State.manager, State.manager, State.storeTicket, map_emplace]
  obtain ⟨hmanager, hcomplete⟩ := hloop tickets c s hs
  unfold PrivmxEndpoint.saveTickets State.saveTickets
  dsimp only
  rw [exec_bind, ← hcomplete]
  cases hresult : exec (saveEach (TicketsManager.newTicketsTtl s.clock ttl) masterSecret tickets) c
    with
  | mk result after =>
      rw [hresult] at hmanager
      cases result with
      | error e => exact hmanager
      | ok done =>
          change ({ after.1.ticketsManager with ticketsTtl := _ } : TicketsManager) = _
          rw [hmanager]
          rfl

/-- `useTicket` of a connection that no other caller disturbs is the sequence of its
critical sections. -/
theorem useTicket_undisturbed {t : ℕ} (ht : s.callers t = .idle)
    (hs : c.1.ticketsManager = s.manager) :
    ∃ rest s' outcome, Run (Step false) s
        (.call t .useTicket :: .dropExpiredTickets t :: .ticketsCount t :: rest) s' ∧
      s'.outcomes = outcome :: s.outcomes ∧
      (exec (PrivmxEndpoint.useTicket s.clock) c).2.1.ticketsManager = s'.manager ∧
      match (exec (PrivmxEndpoint.useTicket s.clock) c).1 with
      | .ok ticket => ∃ x tickets, outcome = .returned x s.clock tickets ∧ x.ticket = ticket
      | .error e => outcome = .noTickets [] ∧ e = .ticketsCountIsEqualZero := by
  have hdropped : c.1.ticketsManager.tickets.dropWhile (·.1 ≤ s.clock) =
      (s.dropExpiredTickets s.clock).manager.tickets := by
    rw [hs]
    exact (map_dropWhile s.tickets s.clock).symm
  have httl : c.1.ticketsManager.ticketsTtl = s.ticketsTtl := by
    rw [hs]
    rfl
  -- the state behind the first two critical sections
  obtain ⟨u, hrun, htickets, hcaller, houtcomes, huttl⟩ : ∃ u, (∀ actions s',
      Run (Step false) u actions s' →
        Run (Step false) s (.call t .useTicket :: .dropExpiredTickets t :: actions) s') ∧
      u.tickets = (s.dropExpiredTickets s.clock).tickets ∧ u.callers t = .counting s.clock ∧
      u.outcomes = s.outcomes ∧ u.ticketsTtl = s.ticketsTtl := by
    refine ⟨((s.goOn t (.expiring .useTicket s.clock)).dropExpiredTickets s.clock).goOn t
      (.counting s.clock), ?_, rfl, Function.update_self .., rfl, rfl⟩
    intro actions s' hrest
    exact .cons (.call ht .useTicket) (.cons (.dropToUse (Function.update_self ..)) hrest)
  unfold PrivmxEndpoint.useTicket updateTickets
  rw [exec_updateClient_bind, exec_get_bind]
  dsimp only
  rw [hdropped]
  cases hleft : (s.dropExpiredTickets s.clock).tickets with
  | nil =>
      rw [hleft] at htickets
      rw [State.manager, hleft]
      refine ⟨[], u.finish t (.noTickets u.tickets), .noTickets [],
        hrun _ _ (.cons (.countNone hcaller htickets) (.nil _)), ?_, ?_, rfl, rfl⟩
      · rw [← houtcomes, ← htickets]
        rfl
      · rw [State.manager]
        change TicketsManager.mk [] c.1.ticketsManager.ticketsTtl =
          TicketsManager.mk (u.tickets.map _) u.ticketsTtl
        rw [htickets, httl, huttl]
        rfl
  | cons x tickets =>
      rw [hleft] at htickets
      have hsome : u.tickets ≠ [] := by
        rw [htickets]
        exact List.cons_ne_nil _ _
      have htaking : (u.goOn t (.taking s.clock)).callers t = .taking s.clock :=
        Function.update_self ..
      rw [State.manager, hleft]
      refine ⟨[.take t], _, .returned x s.clock u.tickets, hrun _ _ (.cons (.countSome hcaller hsome)
        (.cons (.take htaking htickets) (.nil _))), ?_, ?_, x, u.tickets, rfl, rfl⟩
      · rw [← houtcomes]
        rfl
      · rw [State.manager]
        change TicketsManager.mk (tickets.map _) c.1.ticketsManager.ticketsTtl =
          TicketsManager.mk (tickets.map _) u.ticketsTtl
        rw [httl, huttl]

end Connections

/-! ### Three runs -/

/-- Two callers and two tickets.  The second ticket ends first and is stored while
caller 0 is about to take one; caller 1 drops, counts and takes it in between.  Then
caller 0 asks again, and the store is empty. -/
def sampleActions : List Action :=
  [.saveTickets [some [7]] 7200 [1], .call 0 .useTicket, .dropExpiredTickets 0, .ticketsCount 0,
    .saveTickets [some [8]] 3600 [1], .call 1 .useTicket, .dropExpiredTickets 1, .ticketsCount 1,
    .take 1, .take 0, .call 0 .useTicket, .dropExpiredTickets 0, .ticketsCount 0]

/-- The run of these actions, each of them orderly. -/
theorem sampleActions_run : ∃ s,
    Run (guarded Orderly (Step false)) (State.start 0) sampleActions s ∧
      s.outcomes = [.noTickets [],
        .returned ⟨0, 7195000, 7195000, ⟨[7], [1]⟩⟩ 0 [⟨0, 7195000, 7195000, ⟨[7], [1]⟩⟩],
        .returned ⟨1, 3595000, 3595000, ⟨[8], [1]⟩⟩ 0
          [⟨1, 3595000, 3595000, ⟨[8], [1]⟩⟩, ⟨0, 7195000, 7195000, ⟨[7], [1]⟩⟩]] := by
  refine ⟨_, .cons ⟨⟨by decide, ?_⟩, .saveTickets _ _ _ (by decide)⟩
    (.cons ⟨trivial, .call rfl _⟩ (.cons ⟨?_, .dropToUse rfl⟩
      (.cons ⟨trivial, .countSome rfl (List.cons_ne_nil _ _)⟩
        (.cons ⟨⟨by decide, ?_⟩, .saveTickets _ _ _ (by decide)⟩
          (.cons ⟨trivial, .call rfl _⟩ (.cons ⟨?_, .dropToUse rfl⟩
            (.cons ⟨trivial, .countSome rfl (List.cons_ne_nil _ _)⟩
              (.cons ⟨fun _ => Nat.le_refl 2, .take rfl rfl⟩ (.cons ⟨?_, .take rfl rfl⟩
                (.cons ⟨trivial, .call rfl _⟩ (.cons ⟨?_, .dropToUse rfl⟩
                  (.cons ⟨trivial, .countNone rfl rfl⟩ (.nil _))))))))))))), rfl⟩
  · intro t now hsince
    cases hsince
  · intro _ task now hcaller
    cases hcaller
    exact ⟨_, List.mem_cons_self, by decide⟩
  · -- caller 0 has begun at 0
    intro t now hsince
    by_cases ht : t = 0
    · subst ht
      cases hsince
      decide
    · simp [State.goOn, Function.update_of_ne ht, State.dropExpiredTickets, State.saveTickets,
        State.storeEach, State.storeTicket, State.start, Caller.since] at hsince
  · intro _ task now hcaller
    cases hcaller
    exact ⟨_, List.mem_cons_self, by decide⟩
  · -- nobody else is about to take a ticket
    intro hother
    obtain ⟨u, began, hne, hu⟩ := hother
    by_cases h1 : u = 1
    · subst h1
      cases hu
    · simp [State.goOn, State.finish, Function.update_of_ne hne, Function.update_of_ne h1,
        State.dropExpiredTickets, State.saveTickets, State.storeEach, State.storeTicket,
        State.start] at hu
  · intro htaking
    obtain ⟨u, began, hu⟩ := htaking
    by_cases h0 : u = 0
    · subst h0
      cases hu
    by_cases h1 : u = 1
    · subst h1
      cases hu
    · simp [State.goOn, State.finish, Function.update_of_ne h0, Function.update_of_ne h1,
        State.dropExpiredTickets, State.saveTickets, State.storeEach, State.storeTicket,
        State.start] at hu

/-- Both callers are served, each with the ticket that ends first by then, and the third call
finds none. -/
theorem ticket_store_sample : ∃ s,
    Run (guarded Orderly (Step false)) (State.start 0) sampleActions s ∧
      s.returned = [0, 1] ∧ .noTickets [] ∈ s.outcomes ∧
      s.returned.Nodup ∧ ∀ outcome ∈ s.outcomes, outcome.Sound := by
  obtain ⟨s, hrun, houtcomes⟩ := sampleActions_run
  refine ⟨s, hrun, ?_, ?_, ticket_store_sound false 0 sampleActions s hrun⟩
  · rw [State.returned, houtcomes]
    rfl
  · rw [houtcomes]
    exact List.mem_cons_self

/-- Two callers count one ticket, and the second one takes it from the empty store.
And a ticket that has expired at once is returned, as the product of its ttl has
wrapped. -/
theorem ticket_store_unsound :
    (∃ s, Run (Step false) (State.start 0)
      [.saveTickets [some [7]] 3600 [1], .call 0 .useTicket, .call 1 .useTicket,
        .dropExpiredTickets 0, .dropExpiredTickets 1, .ticketsCount 0, .ticketsCount 1, .take 0,
        .take 1] s ∧
      .undefinedBehaviour ∈ s.outcomes ∧ ¬ ∀ outcome ∈ s.outcomes, outcome.Sound) ∧
    ∃ s x tickets, Run (Step false) (State.start 0)
      [.saveTickets [some [7]] (-2147484) [1], .call 0 .useTicket, .dropExpiredTickets 0,
        .ticketsCount 0, .take 0] s ∧
      s.outcomes = [.returned x 0 tickets] ∧ x.lifetime < 0 ∧
      ¬ ∀ outcome ∈ s.outcomes, outcome.Sound := by
  constructor
  · refine ⟨_, .cons (.saveTickets _ _ _ (by decide)) (.cons (.call rfl _) (.cons (.call rfl _)
      (.cons (.dropToUse rfl) (.cons (.dropToUse rfl) (.cons (.countSome rfl (List.cons_ne_nil _ _))
        (.cons (.countSome rfl (List.cons_ne_nil _ _)) (.cons (.take rfl rfl)
          (.cons (.takeNone rfl rfl) (.nil _))))))))), List.mem_cons_self, fun h => ?_⟩
    exact h .undefinedBehaviour List.mem_cons_self
  · refine ⟨_, _, _, .cons (.saveTickets _ _ _ (by decide)) (.cons (.call rfl _)
      (.cons (.dropToUse rfl) (.cons (.countSome rfl (List.cons_ne_nil _ _))
        (.cons (.take rfl rfl) (.nil _))))), rfl, by decide, fun h => ?_⟩
    exact absurd (h _ List.mem_cons_self).1 (by decide)

end TicketStore

end PrivmxEndpoint
