import Pinch.PipelineRun
import Pinch.Transition

/-! Messages that the enforcer denies for an information boundary, and the breaker that
should count them. The pipeline records such a denial under a name that no counter of
the breaker has. -/

namespace Pinch

open CircuitBreaker EnforcementPipeline Transition

/-- The agent, the times of hard denials since the level was last set, and the latest
reading of the clock. -/
structure Probing where
  node : Node
  denials : List Int
  clock : Int

inductive ProbingLabel
  | process (message : MessageRecord) (answers : Nat → Answer)
  | setAutonomy (now : Int) (level : AutonomyLevel) (confirmed : Bool)

/-- The evaluator denied one of the enforcer's questions. -/
def hardDenied (trace : Trace) : Bool :=
  trace.any fun x =>
    match x.1 with
    | .checking .. => x.2.Denies
    | _ => false

/-- When the message was denied outright, if it was. -/
def denialTimes (trace : Trace) : List Int :=
  if hardDenied trace then
    trace.filterMap fun x =>
      match x.1 with
      | .enforced _ => some x.2.now
      | _ => none
  else []

def latest (clock : Int) (trace : Trace) : Int :=
  (trace.map (·.2.now)).foldl max clock

namespace Probing

variable (config : CircuitBreakerConfig) (address : String)

/-- A call on a stored message to its end, or a change of the level. -/
def step (s : Probing) : ProbingLabel → Option Probing
  | .process message answers =>
    if (s.node.messageStore.getMessage message.id).isSome then
      match (complete config message address answers).run s.node with
      | .ok (_, trace) n =>
        some ⟨n, s.denials ++ denialTimes trace, latest s.clock trace⟩
      | .error _ _ => none
    else none
  | .setAutonomy now level confirmed =>
    match s.node.connectionStore.setAutonomy now address level confirmed with
    | .ok store => some ⟨{ s.node with connectionStore := store }, [], max s.clock now⟩
    | .error _ => some s

/-- How many of the denials are at most a window older than `now`. -/
def probes (denials : List Int) (now : Int) : Nat :=
  (denials.filter fun t => now - config.boundaryProbeWindowMs < t).length

/-- The connection is flagged and back at full manual. -/
def Tripped (n : Node) : Prop :=
  ∃ c ∈ n.connectionStore.getConnection address, c.circuitBreakerTripped = some true ∧
    c.autonomyLevel = .fullManual

instance (n : Node) : Decidable (Tripped address n) :=
  inferInstanceAs (Decidable (∃ c ∈ n.connectionStore.getConnection address, _))

/-- Another counter of the breaker, or an earlier trip, makes up for the one that does not
see the denial at `now`. -/
def Counted (n : Node) (now : Int) : Prop :=
  Tripped address n ∨ isTripped n address = false ∧
    (config.floodThreshold ≤ count now ((n.breakerEvents.lookup address).getD []) .messageFlood
        config.floodWindowMs ∨ config.violationThreshold ≤ 0)

instance (n : Node) (now : Int) : Decidable (Counted config address n now) :=
  inferInstanceAs (Decidable (_ ∨ _))

/-- A call whose denial completes the threshold finds another reason to trip. -/
def Covered (s : Probing) : ProbingLabel → Prop
  | .process message answers =>
    match (complete config message address answers).run s.node with
    | .ok (_, trace) _ => ∀ t ∈ denialTimes trace,
        config.boundaryProbeThreshold ≤ probes config (s.denials ++ [t]) t →
          Counted config address s.node t
    | .error _ _ => True
  | .setAutonomy .. => True

instance (s : Probing) (x : ProbingLabel) : Decidable (Covered config address s x) := by
  cases x with
  | process message answers =>
    simp only [Covered]
    split <;> infer_instance
  | setAutonomy => exact .isTrue trivial

variable {config address} {s s' : Probing} {n n' : Node} {now : Int}

theorem probes_le {denials : List Int} {later : Int} (h : now ≤ later) :
    probes config denials later ≤ probes config denials now := by
  refine List.Sublist.length_le (List.monotone_filter_right _ fun t ht => ?_)
  simp only [decide_eq_true_eq] at ht ⊢
  omega

theorem le_latest (clock : Int) (trace : Trace) : clock ≤ latest clock trace := by
  unfold latest
  induction trace generalizing clock with
  | nil => exact le_rfl
  | cons x trace ih => exact (le_max_left _ _).trans (ih _)

theorem le_latest_of_mem {clock : Int} {trace : Trace} {x : Stage × Answer} (h : x ∈ trace) :
    x.2.now ≤ latest clock trace := by
  unfold latest
  induction trace generalizing clock with
  | nil => simp at h
  | cons y trace ih =>
    rcases List.mem_cons.1 h with rfl | h
    · exact (le_max_right _ _).trans (le_latest _ trace)
    · exact ih h

theorem count_eventsAfter (n : Node) : count now (eventsAfter config now address
      "information_boundary" n) .messageFlood config.floodWindowMs =
    count now ((n.breakerEvents.lookup address).getD []) .messageFlood config.floodWindowMs := by
  have hwindow : config.floodWindowMs ≤ longestWindow config := le_max_left _ _
  simp only [count, eventsAfter, pruneOldEvents, List.filter_filter, List.filter_append]
  have hnew : List.filter (fun e : EventRecord => decide (e.type = TriggerType.messageFlood.name ∧
      now - config.floodWindowMs < e.timestamp) && decide (now - longestWindow config < e.timestamp))
      [⟨now, "information_boundary"⟩] = [] := by
    simp [TriggerType.name]
  rw [hnew, List.append_nil]
  refine congrArg List.length (List.filter_congr fun e _ => ?_)
  rw [Bool.eq_iff_iff]
  simp only [Bool.and_eq_true, decide_eq_true_eq]
  exact and_iff_left_of_imp fun h => by omega

theorem exceeded_of_counted (h : config.floodThreshold ≤ count now
      ((n.breakerEvents.lookup address).getD []) .messageFlood config.floodWindowMs ∨
      config.violationThreshold ≤ 0) :
    (exceeded config now (eventsAfter config now address "information_boundary" n)).isSome =
      true := by
  rw [exceeded, List.find?_isSome]
  rcases h with h | h
  · refine ⟨_, List.mem_cons_self, ?_⟩
    simpa [count_eventsAfter] using h
  · refine ⟨_, List.mem_cons_of_mem _ List.mem_cons_self, ?_⟩
    simp only [decide_eq_true_eq]
    omega

theorem Tripped.of_store (h : Tripped address n) (hs : n'.connectionStore = n.connectionStore) :
    Tripped address n' := by
  rwa [Tripped, hs]

theorem Tripped.recorded {type : String} (h : Tripped address n)
    (hrec : Recorded config now address type n n') : Tripped address n' := by
  obtain ⟨c, hc, hflag, hlevel⟩ := h
  have htrips : trips config now address type n = false := by
    simp [trips, isTripped, show n.connectionStore.getConnection address = some c from hc, hflag]
  refine ⟨c, ?_, hflag, hlevel⟩
  have hown := hrec.own hc
  simpa [htrips] using hown

/-- The denial itself trips the breaker where another counter is at its threshold. -/
theorem Counted.tripped {c : Connection} (h : Counted config address n now)
    (hc : n.connectionStore.getConnection address = some c)
    (hrec : Recorded config now address "information_boundary" n n') : Tripped address n' := by
  rcases h with h | ⟨hflag, h⟩
  · exact h.recorded hrec
  · have htrips : trips config now address "information_boundary" n = true := by
      simp [trips, hflag, exceeded_of_counted h]
    have hown := hrec.own hc
    rw [if_pos htrips, Connection.afterTrip_eq] at hown
    exact ⟨_, hown, rfl, rfl⟩

theorem Tripped.recordedAs {event : Option String} (h : Tripped address n)
    (hrec : RecordedAs config now address event n n') : Tripped address n' := by
  cases event with
  | none => exact h.of_store (congrArg (·.connectionStore) hrec)
  | some type => exact h.recorded ((recordEvent_recorded n).ok rfl hrec)

/-- A call that ends with a denial has recorded it, and nothing else of the kind. -/
theorem denialTimes_enforced {message : MessageRecord} {result : EnforcementResult} {a : Answer}
    {r : RoutedMessage} {pre post : Trace} {questions : List (List String)}
    (hchecked : Checked questions pre result)
    (henforced : Enforced config message address result a n r post n') :
    denialTimes (pre ++ (.enforced result, a) :: post) = [] ∨
      denialTimes (pre ++ (.enforced result, a) :: post) = [a.now] ∧
        result.event = some "information_boundary" := by
  cases hdenied : hardDenied (pre ++ (.enforced result, a) :: post) with
  | false => exact .inl (by simp [denialTimes, hdenied])
  | true =>
    refine .inr ⟨?_, ?_⟩
    · have hpre : pre.filterMap (fun x : Stage × Answer =>
          match x.1 with
          | .enforced _ => some x.2.now
          | _ => none) = [] := by
        refine List.filterMap_eq_nil_iff.2 fun x hx => ?_
        obtain ⟨boundaries, rest, heq⟩ := hchecked.stages x hx
        rw [heq]
      have hpost : post.filterMap (fun x : Stage × Answer =>
          match x.1 with
          | .enforced _ => some x.2.now
          | _ => none) = [] := by
        refine List.filterMap_eq_nil_iff.2 fun x hx => ?_
        obtain ⟨policy, nickname, routed, heq⟩ := henforced.rest x hx
        rw [heq]
      rw [denialTimes, if_pos hdenied, List.filterMap_append, List.filterMap_cons, hpre, hpost]
      rfl
    · obtain ⟨x, hx, hdenies⟩ := List.any_eq_true.1 hdenied
      rcases List.mem_append.1 hx with hx | hx
      · obtain ⟨boundaries, rest, heq⟩ := hchecked.stages x hx
        rw [heq] at hdenies
        exact hchecked.denied x hx (of_decide_eq_true hdenies)
      · rcases List.mem_cons.1 hx with rfl | hx
        · cases hdenies
        · obtain ⟨policy, nickname, routed, heq⟩ := henforced.rest x hx
          rw [heq] at hdenies
          cases hdenies

/-- The denials that still count have tripped the connection. -/
def Guarded (config : CircuitBreakerConfig) (address : String) (s : Probing) : Prop :=
  config.boundaryProbeThreshold ≤ probes config s.denials s.clock → Tripped address s.node

theorem Guarded.complete {message : MessageRecord} {answers : Nat → Answer} {r : RoutedMessage}
    {trace : Trace} (h : Guarded config address s)
    (hcase : CallCase config message address answers s.node r trace n')
    (hcovered : ∀ t ∈ denialTimes trace,
      config.boundaryProbeThreshold ≤ probes config (s.denials ++ [t]) t →
        Counted config address s.node t) :
    Guarded config address ⟨n', s.denials ++ denialTimes trace, latest s.clock trace⟩ := by
  intro hprobes
  have hkept (hnone : denialTimes trace = []) : Tripped address s.node := by
    rw [hnone, List.append_nil] at hprobes
    exact h (hprobes.trans (by exact_mod_cast probes_le (le_latest s.clock trace)))
  cases hcase with
  | early htrace hstore =>
    exact (hkept (by simp [htrace, denialTimes, hardDenied])).of_store hstore
  | enforced pre result k post questions htrace hchecked hopen henforced =>
    obtain ⟨n₁, hrec, hstore, -⟩ := henforced.recorded
    refine Tripped.of_store (n := n₁) ?_ hstore
    rcases denialTimes_enforced hchecked henforced with hnone | ⟨htimes, hevent⟩
    · exact (hkept (by rw [htrace, hnone])).recordedAs hrec
    · rw [← htrace] at htimes
      have hlate : (answers k).now ≤ latest s.clock trace :=
        le_latest_of_mem (x := (.enforced result, answers k)) (by simp [htrace])
      rw [htimes] at hprobes
      have hcounted := hcovered (answers k).now (by simp [htimes])
        (hprobes.trans (by exact_mod_cast probes_le hlate))
      obtain ⟨c, hc, -⟩ := hopen (by simp [hevent])
      rw [hevent] at hrec
      exact hcounted.tripped hc ((recordEvent_recorded s.node).ok rfl hrec)

theorem Guarded.step {x : ProbingLabel} (hpos : 0 < config.boundaryProbeThreshold)
    (h : Guarded config address s) (hcovered : Covered config address s x)
    (hs : step config address s x = some s') : Guarded config address s' := by
  cases x with
  | process message answers =>
    simp only [Probing.step] at hs
    split at hs
    · rename_i hrow
      obtain ⟨r, trace, n', hrun, hcase⟩ := complete_case config message address answers s.node hrow
      simp only [Covered, hrun] at hcovered hs
      obtain rfl := Option.some.inj hs
      exact h.complete hcase hcovered
    · cases hs
  | setAutonomy now level confirmed =>
    simp only [Probing.step] at hs
    split at hs
    · obtain rfl := Option.some.inj hs
      intro hprobes
      simp only [probes, List.filter_nil, List.length_nil] at hprobes
      omega
    · obtain rfl := Option.some.inj hs
      exact h

end Probing

/-- Where every denial that completes the threshold is covered by another reason to trip,
enough probes inside the window leave the connection tripped. -/
theorem probing_trips (config : CircuitBreakerConfig) (address : String)
    (hpos : 0 < config.boundaryProbeThreshold) (n : Node) (now : Int) (l : List ProbingLabel)
    (s : Probing)
    (hrun : Run (Probing.step config address) (Probing.Covered config address) ⟨n, [], now⟩ l s)
    (hprobes : config.boundaryProbeThreshold ≤ Probing.probes config s.denials s.clock) :
    Probing.Tripped address s.node := by
  refine hrun.invariant (P := Probing.Guarded config address) (fun h => ?_)
    (fun _ _ _ h hok hs => h.step hpos hok hs) hprobes
  simp only [Probing.probes, List.filter_nil, List.length_nil] at h
  omega

def probe (id : String) : MessageRecord :=
  { receivedMessage with id := id }

def probedNode : Node :=
  { guardedNode .notify with messageStore := ⟨["m", "1", "2", "3"].map probe, by decide⟩ }

def threeProbes : List ProbingLabel :=
  ["1", "2", "3"].map fun id => .process (probe id) (always 0 .deny)

def floodedProbes : List ProbingLabel :=
  .process (probe "m") (always 0 .allow) :: .setAutonomy 0 .notify false :: threeProbes

theorem probing_trips_flooded : ∃ s,
    Run (Probing.step { floodThreshold := 1 } "a") (Probing.Covered { floodThreshold := 1 } "a")
      ⟨probedNode, [], 0⟩ floodedProbes s ∧
    s.denials = [0, 0, 0] ∧ Probing.Tripped "a" s.node := by
  have h : (exec (Probing.step { floodThreshold := 1 } "a")
      (Probing.Covered { floodThreshold := 1 } "a") ⟨probedNode, [], 0⟩ floodedProbes).map
      (fun s => (s.denials, s.clock)) = some ([0, 0, 0], 0) := by
    decide +kernel
  obtain ⟨s, hs, heq⟩ := Option.map_eq_some_iff.1 h
  obtain ⟨hdenials, hclock⟩ := Prod.mk.inj heq
  refine ⟨s, Run.of_exec hs, hdenials, ?_⟩
  refine probing_trips { floodThreshold := 1 } "a" (by decide) _ _ _ s (Run.of_exec hs) ?_
  rw [hdenials, hclock]
  decide

/-- Three denials inside the window leave an open connection as it was. -/
theorem three_probes_untripped : ∃ s,
    Run (Probing.step {} "a") (fun _ _ => True) ⟨probedNode, [], 0⟩ threeProbes s ∧
    ({} : CircuitBreakerConfig).boundaryProbeThreshold ≤ Probing.probes {} s.denials s.clock ∧
    (∃ c ∈ probedNode.connectionStore.getConnection "a", c.Open) ∧
    ¬ Probing.Tripped "a" s.node := by
  have h : (exec (Probing.step {} "a") (fun _ _ => True) ⟨probedNode, [], 0⟩ threeProbes).map
      (fun s => (s.denials, s.clock, decide (Probing.Tripped "a" s.node))) =
        some ([0, 0, 0], 0, false) := by
    decide +kernel
  obtain ⟨s, hs, heq⟩ := Option.map_eq_some_iff.1 h
  simp only [Prod.mk.injEq, decide_eq_false_iff_not] at heq
  obtain ⟨hdenials, hclock, htripped⟩ := heq
  refine ⟨s, Run.of_exec hs, ?_, ⟨_, rfl, ⟨rfl, ?_, ?_⟩⟩, htripped⟩
  · rw [hdenials, hclock]
    decide
  · decide
  · decide

end Pinch
