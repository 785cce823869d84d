import Pinch.AutonomyControl
import Pinch.BreakerStep
import Pinch.SlidingWindow
import Mathlib.Data.List.Induction

/-! The counters of the breaker over any sequence of calls. What is pruned could not be counted any
more, so a check on the kept events is a check on all events that were ever recorded. -/

namespace Pinch

open CircuitBreaker SlidingWindow

theorem ConnectionStore.level_setAutonomyInPlace (s : ConnectionStore) (now : Int) (p : String)
    (level : AutonomyLevel) (confirmed : Bool) (q : String) :
    (finalState ((setAutonomyInPlace now p level confirmed).run s)).level q =
      if q = p then (s.level p).map fun v =>
        if level = .fullAuto ∧ v.1 ≠ .fullAuto ∧ confirmed ≠ true then v else (level, false)
      else s.level q := by
  rw [run_setAutonomyInPlace, setAutonomy]
  cases hc : s.getConnection p with
  | none =>
    by_cases hq : q = p
    · subst hq
      simp [finalState, ConnectionStore.level, hc]
    · simp [finalState, hq]
  | some c =>
    by_cases hgate : level = .fullAuto ∧ c.autonomyLevel ≠ .fullAuto ∧ confirmed ≠ true
    · simp only [if_pos hgate, finalState]
      by_cases hq : q = p
      · subst hq
        simp [ConnectionStore.level, hc, hgate]
      · simp [hq]
    · simp only [if_neg hgate, updateConnection, getConnection_insert, if_true, finalState,
        level_insert]
      by_cases hq : q = p
      · subst hq
        rw [if_pos rfl, if_pos rfl, ConnectionStore.level, hc, Option.map_some, Option.map_some,
          if_neg hgate]
        by_cases hflag : c.circuitBreakerTripped = some true <;> simp [assign, hflag]
      · simp [hq, Ne.symm hq]

inductive BreakerCall
  | recordMessage (address : String) (r : Readings)
  | recordViolation (address type : String) (r : Readings)
  | setAutonomy (address : String) (level : AutonomyLevel) (confirmed : Bool) (now : Int)

namespace BreakerCall

def address : BreakerCall → String
  | recordMessage address _ | recordViolation address _ _ | setAutonomy address _ _ _ => address

/-- The event that the call records, and its clock readings. -/
def recorded : BreakerCall → Option (String × Readings)
  | recordMessage _ r => some (TriggerType.messageFlood.name, r)
  | recordViolation _ type r => some (type, r)
  | setAutonomy .. => none

def readings : BreakerCall → List Int
  | recordMessage _ r | recordViolation _ _ r => [r.stamp, r.prune, r.check, r.trip]
  | setAutonomy _ _ _ now => [now]

def perform (config : CircuitBreakerConfig) : BreakerCall → NodeOp Unit
  | recordMessage address r => recordAt config r address TriggerType.messageFlood.name
  | recordViolation address type r => recordAt config r address type
  | setAutonomy address level confirmed now =>
    zoom (·.connectionStore) (fun n store => { n with connectionStore := store })
      (ConnectionStore.setAutonomyInPlace now address level confirmed)

end BreakerCall

/-- The clock does not go back, from one reading to the next. -/
def ClockAdvances (l : List BreakerCall) : Prop :=
  (l.flatMap BreakerCall.readings).Pairwise (· ≤ ·)

instance (l : List BreakerCall) : Decidable (ClockAdvances l) :=
  inferInstanceAs (Decidable (List.Pairwise _ _))

/-- All events of a connection, none of them pruned. -/
def history (p : String) (l : List BreakerCall) : List EventRecord :=
  (l.filter (·.address = p)).filterMap fun call => call.recorded.map fun x => ⟨x.2.stamp, x.1⟩

theorem history_snoc (p : String) (l : List BreakerCall) (call : BreakerCall) :
    history p (l ++ [call]) = history p l ++
      if call.address = p then (call.recorded.map fun x => ⟨x.2.stamp, x.1⟩).toList else [] := by
  rw [history, List.filter_append, List.filterMap_append, ← history]
  by_cases hp : call.address = p
  · cases hrec : call.recorded <;> simp [hp, hrec]
  · simp [hp]

/-- Some trigger has at least its threshold of events strictly inside its window. -/
def OverLimit (config : CircuitBreakerConfig) (now : Int) (events : List EventRecord) : Prop :=
  ∃ check ∈ checks config, check.2.1 ≤ count now events check.1 check.2.2

theorem exceeded_isSome {config : CircuitBreakerConfig} {now : Int} {events : List EventRecord} :
    (exceeded config now events).isSome = true ↔ OverLimit config now events := by
  rw [exceeded, List.find?_isSome]
  simp [OverLimit]

namespace Node

variable (config : CircuitBreakerConfig)

def call (n : Node) (call : BreakerCall) : Node := finalState ((call.perform config).run n)

def calls (n : Node) (l : List BreakerCall) : Node := l.foldl (Node.call config) n

def keptEvents (n : Node) (p : String) : List EventRecord := (n.breakerEvents.lookup p).getD []

theorem calls_snoc (n : Node) (l : List BreakerCall) (x : BreakerCall) :
    n.calls config (l ++ [x]) = (n.calls config l).call config x := by
  rw [calls, List.foldl_append]
  rfl

end Node

section Window

variable {config : CircuitBreakerConfig} {n m n₀ : Node} {l : List BreakerCall} {x : BreakerCall}
  {p type : String} {r : Readings} {t : Int}

theorem readings_recorded (h : x.recorded = some (type, r)) :
    x.readings = [r.stamp, r.prune, r.check, r.trip] := by
  cases x with
  | recordMessage | recordViolation =>
    cases h
    rfl
  | setAutonomy => cases h

theorem call_recorded (h : x.recorded = some (type, r)) :
    RecordedAt config r x.address type n (n.call config x) := by
  have hat (address : String) : RecordedAt config r address type n
      (finalState ((recordAt config r address type).run n)) := by
    have hspec : Spec (fun m => m = n) (recordAt config r address type) _ _ := recordAt_recorded n
    have hrun := hspec n rfl
    revert hrun
    cases (recordAt config r address type).run n with
    | ok a n' => exact id
    | error e n' => exact fun h => h.1
  cases x with
  | recordMessage address r' =>
    obtain ⟨rfl, rfl⟩ := Prod.mk.inj (Option.some.inj h)
    exact hat address
  | recordViolation address type' r' =>
    obtain ⟨rfl, rfl⟩ := Prod.mk.inj (Option.some.inj h)
    exact hat address
  | setAutonomy => cases h

theorem isTripped_eq (n : Node) (p : String) :
    isTripped n p = decide ((n.connectionStore.level p).map (·.2) = some true) := by
  rw [isTripped, ConnectionStore.level]
  cases n.connectionStore.getConnection p <;> simp

theorem finalState_zoom {ε σ τ α : Type} (part : σ → τ) (put : σ → τ → σ) (x : EStateM ε τ α)
    (s : σ) : finalState ((zoom part put x).run s) = put s (finalState (x.run (part s))) := by
  simp only [zoom, EStateM.run]
  cases x (part s) <;> rfl

theorem call_setAutonomy (address : String) (level : AutonomyLevel) (confirmed : Bool) (now : Int) :
    n.call config (.setAutonomy address level confirmed now) =
      { n with connectionStore := finalState ((ConnectionStore.setAutonomyInPlace now address level
          confirmed).run n.connectionStore) } :=
  finalState_zoom ..

theorem call_unrecorded (h : x.recorded = none) :
    (n.call config x).breakerEvents = n.breakerEvents ∧
      (n.call config x).activityFeed = n.activityFeed := by
  cases x with
  | recordMessage | recordViolation => cases h
  | setAutonomy address level confirmed now =>
    rw [call_setAutonomy]
    exact ⟨rfl, rfl⟩

/-- A call changes the level and the flag of its own connection only. -/
theorem level_call_of_ne (h : p ≠ x.address) :
    (n.call config x).connectionStore.level p = n.connectionStore.level p := by
  have hrecord (type : String) (r : Readings) (hrec : x.recorded = some (type, r)) :
      (n.call config x).connectionStore.level p = n.connectionStore.level p := by
    rw [ConnectionStore.level, (call_recorded hrec).getConnection, if_neg fun hp => h hp.1]
    rfl
  cases x with
  | recordMessage address r => exact hrecord _ r rfl
  | recordViolation address type r => exact hrecord type r rfl
  | setAutonomy address level confirmed now =>
    rw [call_setAutonomy, ConnectionStore.level_setAutonomyInPlace]
    exact if_neg h

theorem level_recorded (hrec : x.recorded = some (type, r)) :
    (n.call config x).connectionStore.level x.address =
      if tripsAt config r x.address type n = true then
        (n.connectionStore.level x.address).map fun _ => (.fullManual, true)
      else n.connectionStore.level x.address := by
  rw [ConnectionStore.level, (call_recorded hrec).getConnection]
  split
  · rename_i htrips
    rw [if_pos htrips.2, ConnectionStore.level, Option.map_map, Option.map_map]
    simp [Function.comp_def, Connection.afterTrip_eq]
  · rename_i htrips
    rw [if_neg fun h => htrips ⟨rfl, h⟩]
    rfl

theorem keptEvents_call (p : String) : (n.call config x).keptEvents p =
    match x.recorded with
    | some (type, r) => if p = x.address then eventsAt config r p type n else n.keptEvents p
    | none => n.keptEvents p := by
  cases hrec : x.recorded with
  | none => rw [Node.keptEvents, (call_unrecorded hrec).1, Node.keptEvents]
  | some event =>
    obtain ⟨type, r⟩ := event
    rw [Node.keptEvents, (call_recorded hrec).breakerEvents]
    by_cases hp : p = x.address
    · subst hp
      simp
    · simp [AList.lookup_insert_ne hp, hp, Node.keptEvents]

theorem eventsAt_eq (n : Node) : eventsAt config r p type n =
    after EventRecord.timestamp (r.prune - longestWindow config)
      (n.keptEvents p ++ [⟨r.stamp, type⟩]) := rfl

/-- The kept events are the whole history as far as any later check can look back. -/
theorem covers_calls (hfresh : n₀.breakerEvents = ∅) (l : List BreakerCall) (p : String)
    (ht : ∀ x ∈ l, ∀ type r, x.recorded = some (type, r) → r.prune - longestWindow config ≤ t) :
    Covers EventRecord.timestamp t (history p l) ((n₀.calls config l).keptEvents p) := by
  induction l using List.reverseRec with
  | nil => simp [Node.calls, Node.keptEvents, hfresh, history, Covers]
  | append_singleton l x ih =>
    rw [List.forall_mem_append, List.forall_mem_singleton] at ht
    have hold := ih ht.1
    rw [Node.calls_snoc, keptEvents_call, history_snoc]
    cases hrec : x.recorded with
    | none => simpa using hold
    | some event =>
      obtain ⟨type, r⟩ := event
      by_cases hp : p = x.address
      · subst hp
        simpa [eventsAt_eq] using (hold.push ⟨r.stamp, type⟩).prune (ht.2 type r hrec)
      · simpa [hp, Ne.symm hp] using hold

theorem windows_le (check : TriggerType × Int × Int) (h : check ∈ checks config) :
    check.2.2 ≤ longestWindow config := by
  simp only [checks, List.mem_cons, List.not_mem_nil, or_false] at h
  rcases h with rfl | rfl | rfl | rfl <;> simp only [longestWindow] <;> omega

theorem prune_le_check (hclock : ClockAdvances (l ++ [x])) (hrec : x.recorded = some (type, r)) :
    ∀ y ∈ l ++ [x], ∀ type' r', y.recorded = some (type', r') → r'.prune ≤ r.check := by
  rw [ClockAdvances, List.flatMap_append, List.pairwise_append, List.flatMap_singleton] at hclock
  obtain ⟨-, hown, hbefore⟩ := hclock
  rw [readings_recorded hrec] at hown hbefore
  intro y hy type' r' hrec'
  rcases List.mem_append.1 hy with hy | hy
  · refine hbefore r'.prune (List.mem_flatMap.2 ⟨y, hy, ?_⟩) r.check (by simp)
    simp [readings_recorded hrec']
  · obtain rfl := List.mem_singleton.1 hy
    obtain ⟨rfl, rfl⟩ := Prod.mk.inj (Option.some.inj (hrec.symm.trans hrec'))
    simp only [List.pairwise_cons, List.mem_cons] at hown
    exact hown.2.1 r.check (.inl rfl)

/-- A check on the kept events is a check on all of them. -/
theorem overLimit_eventsAt (hfresh : n₀.breakerEvents = ∅) (hrec : x.recorded = some (type, r))
    (hclock : ClockAdvances (l ++ [x])) :
    OverLimit config r.check (eventsAt config r x.address type (n₀.calls config l)) ↔
      OverLimit config r.check (history x.address (l ++ [x])) := by
  have hprune := prune_le_check hclock hrec
  have hcovers : Covers EventRecord.timestamp (r.check - longestWindow config)
      (history x.address (l ++ [x]))
      (eventsAt config r x.address type (n₀.calls config l)) := by
    have hcalls : Covers EventRecord.timestamp (r.check - longestWindow config)
        (history x.address (l ++ [x])) ((n₀.calls config (l ++ [x])).keptEvents x.address) :=
      covers_calls hfresh (l ++ [x]) x.address fun y hy type' r' hrec' =>
        Int.sub_le_sub_right (hprune y hy type' r' hrec') _
    rw [Node.calls_snoc, keptEvents_call, hrec] at hcalls
    simpa using hcalls
  refine exists_congr fun check => and_congr_right fun hmem => ?_
  have hwindow := windows_le check hmem
  have hcount := hcovers.filter (s := r.check - check.2.2) (by omega)
    fun e => e.type = check.1.name
  rw [count, count, hcount]

/-- What the breaker looks at when it handles a call on `p` is the same. -/
structure SameAt (p : String) (n m : Node) : Prop where
  level : n.connectionStore.level p = m.connectionStore.level p
  kept : n.keptEvents p = m.keptEvents p

theorem SameAt.isTripped (h : SameAt p n m) : isTripped n p = isTripped m p := by
  rw [isTripped_eq, isTripped_eq, h.level]

theorem SameAt.eventsAt (h : SameAt p n m) :
    eventsAt config r p type n = eventsAt config r p type m := by
  rw [eventsAt_eq, eventsAt_eq, h.kept]

theorem SameAt.tripsAt (h : SameAt p n m) :
    tripsAt config r p type n = tripsAt config r p type m := by
  rw [CircuitBreaker.tripsAt, CircuitBreaker.tripsAt, h.isTripped, h.eventsAt]

theorem SameAt.other (h : x.address ≠ p) : SameAt p (n.call config x) n := by
  refine ⟨level_call_of_ne (Ne.symm h), ?_⟩
  rw [keptEvents_call]
  split
  · exact if_neg (Ne.symm h)
  · rfl

theorem SameAt.own (h : SameAt x.address n m) :
    SameAt x.address (n.call config x) (m.call config x) := by
  refine ⟨?_, ?_⟩
  · cases hrec : x.recorded with
    | some event =>
      rw [level_recorded hrec, level_recorded hrec, h.tripsAt, h.level]
    | none =>
      cases x with
      | recordMessage | recordViolation => cases hrec
      | setAutonomy address level confirmed now =>
        have hlevel : n.connectionStore.level address = m.connectionStore.level address := h.level
        show (n.call config (.setAutonomy ..)).connectionStore.level address =
          (m.call config (.setAutonomy ..)).connectionStore.level address
        rw [call_setAutonomy, call_setAutonomy, ConnectionStore.level_setAutonomyInPlace,
          ConnectionStore.level_setAutonomyInPlace, hlevel]
  · rw [keptEvents_call, keptEvents_call]
    split
    · rw [if_pos rfl, if_pos rfl, h.eventsAt]
    · exact h.kept

/-- Calls on other connections change nothing for `p`. -/
theorem SameAt.calls (h : SameAt p n m) (l : List BreakerCall) :
    SameAt p (n.calls config l) (m.calls config (l.filter (·.address = p))) := by
  induction l generalizing n m with
  | nil => exact h
  | cons x l ih =>
    by_cases hp : x.address = p
    · rw [List.filter_cons_of_pos (by simpa using hp)]
      subst hp
      exact ih h.own
    · rw [List.filter_cons_of_neg (by simpa using hp)]
      have hother : SameAt p (n.call config x) n := .other hp
      exact ih ⟨hother.level.trans h.level, hother.kept.trans h.kept⟩

theorem isTripped_call (hrec : x.recorded = some (type, r))
    (hknown : n.connectionStore.getConnection x.address ≠ none) :
    isTripped (n.call config x) x.address = true ↔
      isTripped n x.address = true ∨ tripsAt config r x.address type n = true := by
  obtain ⟨c, hc⟩ := Option.ne_none_iff_exists'.1 hknown
  rw [isTripped_eq, isTripped_eq, level_recorded hrec]
  by_cases htrips : tripsAt config r x.address type n = true
  · simp [htrips, ConnectionStore.level, hc]
  · simp [htrips]

/-- One line of the feed for each trip, and none besides. -/
theorem activityFeed_call (config : CircuitBreakerConfig) (n : Node) (x : BreakerCall) :
    if isTripped n x.address = false ∧ isTripped (n.call config x) x.address = true then
      ∃ event, TripNote x.address event ∧
        (n.call config x).activityFeed = n.activityFeed ++ [event]
    else (n.call config x).activityFeed = n.activityFeed := by
  cases hrec : x.recorded with
  | none =>
    cases x with
    | recordMessage | recordViolation => cases hrec
    | setAutonomy address level confirmed now =>
      have hkept : isTripped (n.call config (.setAutonomy address level confirmed now)) address =
          true → isTripped n address = true := by
        rw [isTripped_eq, isTripped_eq, call_setAutonomy, ConnectionStore.level_setAutonomyInPlace,
          if_pos rfl]
        cases n.connectionStore.level address with
        | none => simp
        | some v =>
          rw [Option.map_some]
          split <;> simp
      rw [if_neg fun h => by simp [hkept h.2, BreakerCall.address] at h]
      exact (call_unrecorded hrec).2
  | some event =>
    obtain ⟨type, r⟩ := event
    have hat : RecordedAt config r x.address type n (n.call config x) := call_recorded hrec
    have hiff : (isTripped n x.address = false ∧ isTripped (n.call config x) x.address = true) ↔
        tripsAt config r x.address type n = true ∧
          n.connectionStore.getConnection x.address ≠ none := by
      by_cases hknown : n.connectionStore.getConnection x.address = none
      · have hgone : (n.call config x).connectionStore.getConnection x.address = none := by
          rw [hat.getConnection]
          split <;> simp [hknown]
        simp [isTripped, hgone, hknown]
      · rw [isTripped_call hrec hknown]
        cases htripped : isTripped n x.address <;> simp [tripsAt, htripped, hknown]
    simp only [hiff]
    exact hat.activityFeed

/-- Once a call has recorded an event, the connection is tripped if it was before or if all its
events together are over a limit at the time of the check. Every trip writes one line of the feed,
and calls on other connections make no difference. -/
theorem sliding_window_exact (config : CircuitBreakerConfig) (hfresh : n₀.breakerEvents = ∅)
    (hclock : ClockAdvances (l ++ [x])) :
    (∀ type r, x.recorded = some (type, r) →
      (n₀.calls config l).connectionStore.getConnection x.address ≠ none →
      (isTripped (n₀.calls config (l ++ [x])) x.address = true ↔
        isTripped (n₀.calls config l) x.address = true ∨
          OverLimit config r.check (history x.address (l ++ [x])))) ∧
    (if isTripped (n₀.calls config l) x.address = false ∧
        isTripped (n₀.calls config (l ++ [x])) x.address = true then
      ∃ event, TripNote x.address event ∧ (n₀.calls config (l ++ [x])).activityFeed =
        (n₀.calls config l).activityFeed ++ [event]
    else (n₀.calls config (l ++ [x])).activityFeed = (n₀.calls config l).activityFeed) ∧
    ∀ p, isTripped (n₀.calls config (l ++ [x])) p =
      isTripped (n₀.calls config ((l ++ [x]).filter (·.address = p))) p := by
  refine ⟨fun type r hrec hknown => ?_, ?_, fun p => ?_⟩
  · rw [Node.calls_snoc, isTripped_call hrec hknown, tripsAt, ← overLimit_eventsAt hfresh hrec hclock,
      ← exceeded_isSome]
    cases isTripped (n₀.calls config l) x.address <;> simp
  · rw [Node.calls_snoc]
    exact activityFeed_call config _ x
  · exact (SameAt.calls ⟨rfl, rfl⟩ (l ++ [x])).isTripped

def watchedNode : Node where
  connectionStore := (∅ : ConnectionStore).insert "a" (ConnectionStore.freshConnection 0
    { peerAddress := "a"
      peerPublicKey := ""
      state := .active
      nickname := ""
      autonomyLevel := some .notify
      shortMessage := none
      expiresAt := none })
  outbox := []
  messageStore := .empty
  breakerEvents := ∅
  activityFeed := []
  flush := ⟨-1, false, false⟩

/-- Two messages trip the connection and the human re-arms it. -/
def rearmed : List BreakerCall :=
  [.recordMessage "a" ⟨0, 0, 1, 1⟩, .recordMessage "a" ⟨40, 41, 42, 42⟩,
    .setAutonomy "a" .notify false 50]

def nextMessage : BreakerCall := .recordMessage "a" ⟨60, 61, 62, 62⟩

def twoPerMinute : CircuitBreakerConfig := { floodThreshold := 2 }

theorem sliding_window_exact_rearmed :
    isTripped (watchedNode.calls twoPerMinute rearmed) "a" = false ∧
    isTripped (watchedNode.calls twoPerMinute (rearmed ++ [nextMessage])) "a" = true ∧
    ∃ event, TripNote "a" event ∧
      (watchedNode.calls twoPerMinute (rearmed ++ [nextMessage])).activityFeed =
        (watchedNode.calls twoPerMinute rearmed).activityFeed ++ [event] := by
  have hfresh : watchedNode.breakerEvents = ∅ := rfl
  have hclock : ClockAdvances (rearmed ++ [nextMessage]) := by decide
  obtain ⟨htrip, hfeed, -⟩ := sliding_window_exact twoPerMinute hfresh hclock
  have hbefore : isTripped (watchedNode.calls twoPerMinute rearmed) "a" = false := by decide +kernel
  have hover : OverLimit twoPerMinute 62 (history "a" (rearmed ++ [nextMessage])) :=
    exceeded_isSome.1 (by decide +kernel)
  have hafter := (htrip _ _ rfl (by decide +kernel)).2 (.inr hover)
  rw [if_pos ⟨hbefore, hafter⟩] at hfeed
  exact ⟨hbefore, hafter, hfeed⟩

end Window

end Pinch
