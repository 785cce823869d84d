import Pinch.CircuitBreaker
import Pinch.StateSpec

/-! What recording an event with the circuit breaker does: the event is kept, and at most
the one connection is taken back to full manual. -/

namespace Pinch

/-- The record that a trip leaves. -/
def Connection.afterTrip (now : Int) (c : Connection) : Connection :=
  ConnectionStore.assign (ConnectionStore.assign c { autonomyLevel := some .fullManual } now)
    { circuitBreakerTripped := some true } now

theorem Connection.afterTrip_eq (now : Int) (c : Connection) :
    c.afterTrip now =
      { c with
        autonomyLevel := .fullManual
        circuitBreakerTripped := some true
        lastActivity := isoString now } := by
  simp [afterTrip, ConnectionStore.assign]

namespace CircuitBreaker

variable (config : CircuitBreakerConfig) (now : Int) (address type : String)

/-- `recordMessage` and `recordViolation` differ in the kind of event only. -/
def recordEvent : NodeOp Unit := do
  addEvent config now address type
  checkAndTrip config now address

theorem recordMessage_eq : recordMessage config now address =
    recordEvent config now address TriggerType.messageFlood.name := rfl

/-- The events kept for the connection once another has been added. -/
def eventsAfter (n : Node) : List EventRecord :=
  pruneOldEvents config now ((n.breakerEvents.lookup address).getD [] ++ [⟨now, type⟩])

/-- The connection is not tripped yet and the event makes a counter reach its threshold. -/
def trips (n : Node) : Bool :=
  !isTripped n address && (exceeded config now (eventsAfter config now address type n)).isSome

structure Recorded (n n' : Node) : Prop where
  messageStore : n'.messageStore = n.messageStore
  breakerEvents : n'.breakerEvents =
    n.breakerEvents.insert address (eventsAfter config now address type n)
  getConnection : ∀ p, n'.connectionStore.getConnection p =
    if p = address ∧ trips config now address type n = true then
      (n.connectionStore.getConnection p).map (·.afterTrip now)
    else n.connectionStore.getConnection p
  unawaitedSaves : n'.unawaitedSaves = n.unawaitedSaves +
    if trips config now address type n = true ∧ n.connectionStore.getConnection address ≠ none then 1
    else 0

variable {config now address type}

theorem updateConnection_run {n : Node} {c : Connection} (u : ConnectionUpdates)
    (hc : n.connectionStore.getConnection address = some c) :
    (Node.updateConnection now address u).run n = .ok () { n with
      connectionStore := n.connectionStore.insert address (ConnectionStore.assign c u now) } := by
  simp [Node.updateConnection, ConnectionStore.updateConnection, hc]

/-- A line of the feed about a trip. -/
def TripNote (address : String) (event : ActivityEvent) : Prop :=
  event.eventType = "circuit_breaker_tripped" ∧ event.connectionAddress = address

theorem trip_run {n : Node} {c : Connection}
    (hc : n.connectionStore.getConnection address = some c) (now : Int) (trigger : TriggerType)
    (k : Nat) (threshold windowMs : Int) :
    ∃ n', (trip now address trigger k threshold windowMs).run n = .ok () n' ∧
      n'.messageStore = n.messageStore ∧ n'.breakerEvents = n.breakerEvents ∧
      n'.connectionStore = (n.connectionStore.insert address (ConnectionStore.assign c
        { autonomyLevel := some .fullManual } now)).insert address (c.afterTrip now) ∧
      n'.unawaitedSaves = n.unawaitedSaves + 1 ∧
      ∃ event, TripNote address event ∧ n'.activityFeed = n.activityFeed ++ [event] := by
  have hc' : ConnectionStore.getConnection (n.connectionStore.insert address
      (ConnectionStore.assign c { autonomyLevel := some .fullManual } now)) address =
      some (ConnectionStore.assign c { autonomyLevel := some .fullManual } now) := by
    simp [ConnectionStore.getConnection_insert]
  simp only [trip, EStateM.run_bind, updateConnection_run _ hc]
  rw [updateConnection_run _ (by exact hc')]
  exact ⟨_, rfl, rfl, rfl, rfl, rfl, _, ⟨rfl, rfl⟩, rfl⟩

theorem trip_missing {n : Node} (hc : n.connectionStore.getConnection address = none)
    (trigger : TriggerType) (k : Nat) (threshold windowMs : Int) :
    (trip now address trigger k threshold windowMs).run n =
      .error ("connection not found: " ++ address) n := by
  simp [trip, Node.updateConnection, ConnectionStore.updateConnection, hc]

/-- The clock readings of one call: for the event, for the pruning, for the check, and for what
a trip writes. -/
structure Readings where
  stamp : Int
  prune : Int
  check : Int
  trip : Int

section Readings

variable (config : CircuitBreakerConfig) (r : Readings) (address type : String)

def addEventAt : NodeOp Unit :=
  modify (fun n => { n with
    breakerEvents := n.breakerEvents.insert address
      (pruneOldEvents config r.prune
        ((n.breakerEvents.lookup address).getD [] ++ [⟨r.stamp, type⟩])) })

def checkAndTripAt : NodeOp Unit := do
  let n ← get
  if isTripped n address then pure ()
  else
    let events := (n.breakerEvents.lookup address).getD []
    match exceeded config r.check events with
    | some (trigger, threshold, windowMs) =>
      trip r.trip address trigger (count r.check events trigger windowMs) threshold windowMs
    | none => pure ()

/-- `recordEvent` with the clock read wherever the code reads it. -/
def recordAt : NodeOp Unit := do
  addEventAt config r address type
  checkAndTripAt config r address

theorem recordAt_const (now : Int) :
    recordAt config ⟨now, now, now, now⟩ address type = recordEvent config now address type := rfl

def eventsAt (n : Node) : List EventRecord :=
  pruneOldEvents config r.prune ((n.breakerEvents.lookup address).getD [] ++ [⟨r.stamp, type⟩])

def tripsAt (n : Node) : Bool :=
  !isTripped n address && (exceeded config r.check (eventsAt config r address type n)).isSome

structure RecordedAt (n n' : Node) : Prop where
  messageStore : n'.messageStore = n.messageStore
  breakerEvents : n'.breakerEvents =
    n.breakerEvents.insert address (eventsAt config r address type n)
  getConnection : ∀ p, n'.connectionStore.getConnection p =
    if p = address ∧ tripsAt config r address type n = true then
      (n.connectionStore.getConnection p).map (·.afterTrip r.trip)
    else n.connectionStore.getConnection p
  unawaitedSaves : n'.unawaitedSaves = n.unawaitedSaves +
    if tripsAt config r address type n = true ∧ n.connectionStore.getConnection address ≠ none then 1
    else 0
  activityFeed :
    if tripsAt config r address type n = true ∧
        n.connectionStore.getConnection address ≠ none then
      ∃ event, TripNote address event ∧ n'.activityFeed = n.activityFeed ++ [event]
    else n'.activityFeed = n.activityFeed

end Readings

variable {r : Readings}

theorem recordAt_recorded (n : Node) :
    Spec (fun m => m = n) (recordAt config r address type)
      (fun _ n' => RecordedAt config r address type n n')
      (fun _ n' => RecordedAt config r address type n n' ∧
        n.connectionStore.getConnection address = none) := by
  rintro _ rfl
  rename_i n
  let n₁ : Node := { n with
    breakerEvents := n.breakerEvents.insert address (eventsAt config r address type n) }
  have hadd : (addEventAt config r address type).run n = .ok () n₁ := rfl
  have hlookup : n₁.breakerEvents.lookup address =
      some (eventsAt config r address type n) := AList.lookup_insert _
  have hkept (h : tripsAt config r address type n = false) :
      RecordedAt config r address type n n₁ :=
    ⟨rfl, rfl, fun p => by simp [h, n₁], by simp [h, n₁], by simp [h, n₁]⟩
  simp only [recordAt, EStateM.run_bind, hadd, checkAndTripAt, EStateM.run_get, hlookup,
    Option.getD_some]
  by_cases htripped : isTripped n₁ address = true
  · rw [if_pos htripped]
    exact hkept (by simp [tripsAt, show isTripped n address = true from htripped])
  rw [if_neg htripped]
  have htripped : isTripped n address = false := Bool.eq_false_iff.2 htripped
  cases hex : exceeded config r.check (eventsAt config r address type n) with
  | none => exact hkept (by simp [tripsAt, hex])
  | some check =>
    have htrips : tripsAt config r address type n = true := by simp [tripsAt, htripped, hex]
    cases hc : n.connectionStore.getConnection address with
    | none =>
      simp only [trip_missing (n := n₁) hc]
      refine ⟨⟨rfl, rfl, fun p => ?_, by simp [hc, n₁], by simp [hc, n₁]⟩, trivial⟩
      by_cases hp : p = address
      · subst hp
        simp [n₁, hc]
      · simp [n₁, hp]
    | some c =>
      obtain ⟨n', hrun, hm, hb, hs, hsaves, hfeed⟩ := trip_run (n := n₁) hc r.trip check.1
        (count r.check (eventsAt config r address type n) check.1 check.2.2) check.2.1 check.2.2
      simp only [hrun]
      refine ⟨hm, hb, fun p => ?_, ?_, ?_⟩
      · rw [hs]
        by_cases hp : p = address
        · subst hp
          simp [ConnectionStore.getConnection_insert, htrips, hc]
        · simp [ConnectionStore.getConnection_insert, Ne.symm hp, hp, n₁]
      · rw [if_pos ⟨htrips, by simp [hc]⟩]
        exact hsaves
      · rw [if_pos ⟨htrips, by simp [hc]⟩]
        exact hfeed

theorem recordEvent_recorded (n : Node) :
    Spec (fun m => m = n) (recordEvent config now address type)
      (fun _ n' => Recorded config now address type n n')
      (fun _ n' => Recorded config now address type n n' ∧
        n.connectionStore.getConnection address = none) := by
  rw [← recordAt_const]
  exact (recordAt_recorded n).conseq (fun _ h => h)
    (fun _ _ h => ⟨h.messageStore, h.breakerEvents, h.getConnection, h.unawaitedSaves⟩)
    fun _ _ h => ⟨⟨h.1.messageStore, h.1.breakerEvents, h.1.getConnection, h.1.unawaitedSaves⟩, h.2⟩

theorem recordEvent_keeps {Φ : Node → Prop}
    (h : ∀ n n', Recorded config now address type n n' → Φ n → Φ n') :
    Keeps Φ (recordEvent config now address type) := by
  intro n hn
  have hspec : Spec (fun m => m = n) (recordEvent config now address type)
      (fun _ => Φ) (fun _ => Φ) :=
    (recordEvent_recorded n).conseq (fun _ h => h) (fun _ n' hrec => h n n' hrec hn)
      fun _ n' hrec => h n n' hrec.1 hn
  exact hspec n rfl

/-- The breaker sends nothing. -/
theorem recordEvent_outbox {Φ : List Envelope → Prop} :
    Keeps (fun n : Node => Φ n.outbox) (recordEvent config now address type) := by
  have hupdate (u : ConnectionUpdates) :
      Keeps (fun n : Node => Φ n.outbox) (Node.updateConnection now address u) := by
    refine Spec.read_bind fun n => ?_
    split
    · exact Spec.modify fun _ h => h
    · exact Spec.throw fun _ h => h
  have hadd : Keeps (fun n : Node => Φ n.outbox) (addEvent config now address type) :=
    Spec.modify fun _ h => h
  refine Spec.bind hadd fun _ => Spec.read_bind fun n => ?_
  split
  · exact Spec.pure fun _ h => h
  · dsimp only
    split
    · refine Spec.bind (hupdate _) fun _ => Spec.bind (hupdate _) fun _ => ?_
      exact Spec.bind (Spec.modify fun _ h => h) fun _ => Spec.modify fun _ h => h
    · exact Spec.pure fun _ h => h

theorem Recorded.own {n n' : Node} (h : Recorded config now address type n n') {c : Connection}
    (hc : n.connectionStore.getConnection address = some c) :
    n'.connectionStore.getConnection address =
      some (if trips config now address type n then c.afterTrip now else c) := by
  rw [h.getConnection, hc]
  cases trips config now address type n <;> simp

end CircuitBreaker

end Pinch
