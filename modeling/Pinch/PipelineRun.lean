import Pinch.PipelineStep

/-! A whole call of the pipeline that nothing else interrupts. The environment chooses
the clock and what the evaluator answers each time the call goes on. -/

namespace Pinch

/-- What a suspended call finds when it goes on. -/
structure Answer where
  now : Int
  verdict : Verdict

def Answer.Allows (a : Answer) : Prop :=
  a.verdict.map (·.action) = some .allow

def Answer.Denies (a : Answer) : Prop :=
  a.verdict.map (·.action) = some .deny

instance (a : Answer) : Decidable a.Denies :=
  inferInstanceAs (Decidable (_ = _))

/-- The answer asks for the human, or there is none. -/
def Answer.Escalates (a : Answer) : Prop :=
  ∀ d ∈ a.verdict, d.action = .escalate

theorem Answer.Allows.not_denies {a : Answer} (h : a.Allows) : ¬ a.Denies := by
  intro hd
  cases h.symm.trans hd

theorem Answer.Allows.not_escalates {a : Answer} (h : a.Allows) : ¬ a.Escalates := by
  obtain ⟨d, hd, hallow⟩ := Option.map_eq_some_iff.1 h
  intro hescalates
  cases hallow.symm.trans (hescalates d hd)

abbrev Trace := List (Stage × Answer)

/-- An upper bound on how often the call still has to go on. -/
def Stage.rank : Stage → Nat
  | .checking _ rest => rest.length + 3
  | .enforced _ => 2
  | .evaluating .. => 1
  | .done _ => 0

namespace EnforcementPipeline

variable (config : CircuitBreakerConfig) (message : MessageRecord) (address : String)

def settle : (Nat → Answer) → Nat → Stage → NodeOp (Stage × Trace)
  | _, 0, stage => return (stage, [])
  | answers, fuel + 1, stage =>
    if stage.rank = 0 then return (stage, [])
    else do
      let next ← resume config (answers 0).now message address (answers 0).verdict stage
      let (last, trace) ← settle (fun k => answers (k + 1)) fuel next
      return (last, (stage, answers 0) :: trace)

/-- `process`, with the stages in which it went on. -/
def complete (answers : Nat → Answer) : NodeOp (Stage × Trace) := do
  let stage ← process (answers 0).now message address
  settle config message address (fun k => answers (k + 1)) stage.rank stage

end EnforcementPipeline

section Writes

variable {s : ConnectionStore} {b : AList fun _ : String => List EventRecord} {now : Int}
  {message : MessageRecord} {address : String} {n n' : Node}

/-- The parts of the node that routing leaves alone, and a row for the message. -/
structure Holds (s : ConnectionStore) (b : AList fun _ : String => List EventRecord) (id : String)
    (n : Node) : Prop where
  connectionStore : n.connectionStore = s
  breakerEvents : n.breakerEvents = b
  row : (n.messageStore.getMessage id).isSome = true

/-- The same, with the state and the failure reason that were written last. -/
structure Wrote (s : ConnectionStore) (b : AList fun _ : String => List EventRecord)
    (id state : String) (reason : Option String) (n : Node) : Prop where
  connectionStore : n.connectionStore = s
  breakerEvents : n.breakerEvents = b
  row : ∃ row, n.messageStore.getMessage id = some row ∧ row.state = state ∧
    row.failureReason = reason

theorem Wrote.holds {id state : String} {reason : Option String} (h : Wrote s b id state reason n) :
    Holds s b id n := by
  obtain ⟨row, hrow, -⟩ := h.row
  exact ⟨h.connectionStore, h.breakerEvents, by simp [hrow]⟩

theorem Holds.wrote {id : String} (h : Holds s b id n) (now : Int) (state : String)
    (reason : Option String) (feed : List ActivityEvent) :
    Wrote s b id state reason (n.withState now id state reason feed) := by
  obtain ⟨row, hrow⟩ := Option.isSome_iff_exists.1 h.row
  refine ⟨h.connectionStore, h.breakerEvents, MessageStore.written now id state reason row, ?_, ?_⟩
  · simp [Node.withState, MessageStore.getMessage_updateState, hrow]
  · simp [MessageStore.written, MessageStore.getMessage_id hrow]

/-- What the levels let the router write. -/
structure Connection.Routes (c : Connection) (routed : RoutedMessage) : Prop where
  read : routed.state = "read_by_agent" →
    c.autonomyLevel = .notify ∨ c.autonomyLevel = .fullAuto
  pending : routed.state = "pending_policy_eval" ↔ c.autonomyLevel = .autoRespond
  manual : routed.state = "escalated_to_human" ↔ c.autonomyLevel = .fullManual
  reason : routed.failureReason = none

/-- The level leaves every message to the human. -/
def Connection.Manual (c : Connection) : Prop :=
  c.autonomyLevel = .fullManual ∨
    c.autonomyLevel = .autoRespond ∧ c.autoRespondPolicy.getD "" = ""

theorem route_wrote {c : Connection} (hc : s.getConnection address = some c)
    (ha : c.state = .active) :
    Spec (Holds s b message.id) (InboundRouter.route now message address)
      (fun routed n => Wrote s b message.id routed.state routed.failureReason n ∧ c.Routes routed)
      (fun _ _ => False) := by
  refine EnforcementPipeline.route_rule fun n state reason feed hn _ hout => ?_
  refine ⟨hn.wrote now state reason feed, ?_⟩
  rw [hn.connectionStore] at hout
  cases hout with
  | refused h => exact absurd ha (h c hc)
  | read hc' hlevel =>
    obtain rfl := Option.some.inj (hc.symm.trans hc')
    refine ⟨fun _ => hlevel, ?_, ?_, rfl⟩
    · rcases hlevel with hlevel | hlevel <;> simp [MessageRecord.routed, hlevel]
    · rcases hlevel with hlevel | hlevel <;> simp [MessageRecord.routed, hlevel]
  | pending hc' hlevel =>
    obtain rfl := Option.some.inj (hc.symm.trans hc')
    exact ⟨by simp [MessageRecord.routed], by simp [MessageRecord.routed, hlevel],
      by simp [MessageRecord.routed, hlevel], rfl⟩
  | escalated hc' hlevel =>
    obtain rfl := Option.some.inj (hc.symm.trans hc')
    exact ⟨by simp [MessageRecord.routed], by simp [MessageRecord.routed, hlevel],
      by simp [MessageRecord.routed, hlevel], rfl⟩

/-- The stored row is the message that is returned, and no evaluation is left open. -/
structure Reported (id : String) (r : RoutedMessage) (n : Node) : Prop where
  row : ∃ row, n.messageStore.getMessage id = some row ∧ row.state = r.state ∧
    row.failureReason = r.failureReason
  settled : r.state ≠ "pending_policy_eval"

/-- Where a message stands once its result is enforced. -/
def Stands (c : Connection) (id : String) (n : Node) : Stage → Prop
  | .done r => Reported id r n ∧
      (r.state = "read_by_agent" → c.autonomyLevel = .notify ∨ c.autonomyLevel = .fullAuto) ∧
      (r.state = "escalated_to_human" ↔ c.Manual)
  | .evaluating policy _ routed => routed.failureReason = none ∧ c.autonomyLevel = .autoRespond ∧
      policy ≠ "" ∧ c.autoRespondPolicy = some policy
  | _ => False

theorem evaluateAutoRespondPolicy_stands {c : Connection} {routed : RoutedMessage}
    (hc : s.getConnection address = some c) (hr : c.Routes routed)
    (hpending : routed.state = "pending_policy_eval") :
    Spec (Holds s b message.id)
      (EnforcementPipeline.evaluateAutoRespondPolicy now message address routed)
      (fun stage n => Holds s b message.id n ∧ Stands c message.id n stage) (fun _ _ => False) := by
  have hlevel := hr.pending.1 hpending
  refine EnforcementPipeline.evaluateAutoRespondPolicy_rule (fun n c' policy hn hc' hpolicy hne => ?_)
    fun n feed hn _ hnone => ?_
  · rw [hn.connectionStore] at hc'
    obtain rfl := Option.some.inj (hc.symm.trans hc')
    exact ⟨hn, hr.reason, hlevel, hne, hpolicy⟩
  · have hwrote := hn.wrote now "escalated_to_human" none feed
    have hmanual : c.Manual := .inr ⟨hlevel, hnone c (hn.connectionStore ▸ hc)⟩
    exact ⟨hwrote.holds, ⟨hr.reason ▸ hwrote.row, by simp⟩, by simp, iff_of_true rfl hmanual⟩

theorem finish_stands (now : Int) {c : Connection} (hc : s.getConnection address = some c)
    (ha : c.state = .active) {result : EnforcementResult} (hallowed : result.allowed = true) :
    Spec (Holds s b message.id) (EnforcementPipeline.finish now message address result)
      (fun stage n => Holds s b message.id n ∧ Stands c message.id n stage) (fun _ _ => False) := by
  rw [EnforcementPipeline.finish, if_pos hallowed]
  refine Spec.bind (route_wrote hc ha) fun routed => ?_
  split
  · rename_i hpending
    intro n hn
    exact evaluateAutoRespondPolicy_stands hc hn.2 hpending n hn.1.holds
  · rename_i hpending
    refine Spec.pure fun n h => ⟨h.1.holds, ⟨h.1.row, hpending⟩, h.2.read, ?_⟩
    have hlevel : c.autonomyLevel ≠ .autoRespond := mt h.2.pending.2 hpending
    rw [h.2.manual, Connection.Manual]
    simp [hlevel]

theorem finish_refused (now : Int) (address : String) {result : EnforcementResult}
    (hallowed : result.allowed = false) :
    Spec (Holds s b message.id) (EnforcementPipeline.finish now message address result)
      (fun stage n => Holds s b message.id n ∧ ∃ r, stage = .done r ∧ Reported message.id r n ∧
        r.state ≠ "read_by_agent" ∧
        (r.state = "escalated_to_human" ↔ result.escalateToHuman = true)) (fun _ _ => False) := by
  refine EnforcementPipeline.finish_refused_rule hallowed fun n state feed hn _ hstate => ?_
  have hwrote := hn.wrote now state result.reason feed
  refine ⟨hwrote.holds, _, rfl, ⟨hwrote.row, ?_⟩, ?_, ?_⟩
  · rw [hstate]
    cases result.escalateToHuman <;> simp [MessageRecord.routed]
  · rw [hstate]
    cases result.escalateToHuman <;> simp [MessageRecord.routed]
  · rw [hstate]
    cases result.escalateToHuman <;> simp [MessageRecord.routed]

/-- The last answer decides between the three states, and only an allowing one lets the
agent read the message. -/
theorem applyVerdict_wrote (now : Int) (address : String) {routed : RoutedMessage}
    (hr : routed.failureReason = none) (verdict : Verdict) :
    Spec (Holds s b message.id)
      (EnforcementPipeline.applyVerdict now message address routed verdict)
      (fun stage n => Holds s b message.id n ∧ ∃ r, stage = .done r ∧ Reported message.id r n ∧
        (r.state = "read_by_agent" → verdict.map (·.action) = some .allow) ∧
        (r.state = "escalated_to_human" ↔ ∀ d ∈ verdict, d.action = .escalate))
      (fun _ _ => False) := by
  refine EnforcementPipeline.applyVerdict_rule fun n state reason r feed hn _ hruling => ?_
  have hwrote := hn.wrote now state reason feed
  refine ⟨hwrote.holds, r, rfl, ?_⟩
  cases hruling with
  | allowed hallow =>
    exact ⟨⟨hr ▸ hwrote.row, by simp⟩, fun _ => congrArg some hallow, by simp [hallow]⟩
  | denied hdeny => exact ⟨⟨hwrote.row, by simp⟩, by simp, by simp [hdeny]⟩
  | escalated hescalate =>
    exact ⟨⟨hr ▸ hwrote.row, by simp⟩, by simp, iff_of_true rfl hescalate⟩

end Writes

section Settle

open EnforcementPipeline CircuitBreaker PermissionsEnforcer

variable {config : CircuitBreakerConfig} {message : MessageRecord} {address : String}
  {answers : Nat → Answer} {fuel : Nat} {stage : Stage} {n : Node}

@[simp] theorem settle_done (config : CircuitBreakerConfig) (message : MessageRecord)
    (address : String) (answers : Nat → Answer) (fuel : Nat) (r : RoutedMessage) :
    settle config message address answers fuel (.done r) = pure (.done r, []) := by
  cases fuel with
  | zero => rfl
  | succ fuel => simp [settle, Stage.rank]

/-- One resumption, for a stage that is not done. -/
theorem settle_run {next last : Stage} {trace : Trace} {n₁ n' : Node} (hrank : stage.rank ≠ 0)
    (hresume : (resume config (answers 0).now message address (answers 0).verdict stage).run n =
      .ok next n₁)
    (hrest : (settle config message address (fun k => answers (k + 1)) fuel next).run n₁ =
      .ok (last, trace) n') :
    (settle config message address answers (fuel + 1) stage).run n =
      .ok (last, (stage, answers 0) :: trace) n' := by
  simp only [settle, if_neg hrank, EStateM.run_bind, hresume, hrest]
  rfl

/-- The node once the event of a result, if it has one, is recorded. -/
def RecordedAs (config : CircuitBreakerConfig) (now : Int) (address : String) :
    Option String → Node → Node → Prop
  | some type, n, n' => (recordEvent config now address type).run n = .ok () n'
  | none, n, n' => n' = n

/-- What lets the agent read an allowed message: the level, or the policy and the
evaluator's answer to it. -/
def Cleared (c : Connection) (trace : Trace) : Prop :=
  c.autonomyLevel = .notify ∨ c.autonomyLevel = .fullAuto ∨ c.autonomyLevel = .autoRespond ∧
    ∃ policy nickname routed a, policy ≠ "" ∧ c.autoRespondPolicy = some policy ∧
      (Stage.evaluating policy nickname routed, a) ∈ trace ∧ a.Allows

/-- The level leaves the message to the human, or the breaker trips on it. -/
def HandedOver (config : CircuitBreakerConfig) (now : Int) (address : String) (n : Node) : Prop :=
  ∃ c, n.connectionStore.getConnection address = some c ∧
    (trips config now address TriggerType.messageFlood.name n = true ∨ c.Manual)

structure Enforced (config : CircuitBreakerConfig) (message : MessageRecord) (address : String)
    (result : EnforcementResult) (a : Answer) (n : Node) (r : RoutedMessage) (rest : Trace)
    (n' : Node) : Prop where
  recorded : ∃ n₁, RecordedAs config a.now address result.event n n₁ ∧
    n'.connectionStore = n₁.connectionStore ∧ n'.breakerEvents = n₁.breakerEvents
  reported : Reported message.id r n'
  read : r.state = "read_by_agent" → result.allowed = true ∧
    ∃ c, n'.connectionStore.getConnection address = some c ∧ Cleared c rest
  refused : result.allowed = false →
    rest = [] ∧ (r.state = "escalated_to_human" ↔ result.escalateToHuman = true)
  routed : result.allowed = true → HandedOver config a.now address n ∧ rest = [] ∧
      r.state = "escalated_to_human" ∨
    ¬ HandedOver config a.now address n ∧
      (r.state = "escalated_to_human" ↔ ∃ x ∈ rest, x.2.Escalates)
  rest : ∀ x ∈ rest, ∃ policy nickname routed, x.1 = .evaluating policy nickname routed

theorem settle_evaluating {policy nickname : String} {routed : RoutedMessage}
    {s : ConnectionStore} {b : AList fun _ : String => List EventRecord}
    (hn : Holds s b message.id n) (hr : routed.failureReason = none) :
    ∃ r n', (settle config message address answers (fuel + 1)
        (.evaluating policy nickname routed)).run n =
        .ok (.done r, [(.evaluating policy nickname routed, answers 0)]) n' ∧
      Holds s b message.id n' ∧ Reported message.id r n' ∧
      (r.state = "read_by_agent" → (answers 0).Allows) ∧
      (r.state = "escalated_to_human" ↔ (answers 0).Escalates) := by
  obtain ⟨stage, n', hrun, hholds, r, rfl, hrep, hread, hescalated⟩ :=
    (applyVerdict_wrote (answers 0).now address hr (answers 0).verdict).returns hn
  exact ⟨r, n', settle_run (by simp [Stage.rank]) hrun (by simp), hholds, hrep, hread, hescalated⟩

theorem event_of_allowed {result : EnforcementResult} (h : result.allowed = true) :
    result.event = some TriggerType.messageFlood.name := by
  simp [EnforcementResult.event, h]

theorem exists_recordedAs (config : CircuitBreakerConfig) (message : MessageRecord) (now : Int)
    {result : EnforcementResult}
    (hknown : result.event ≠ none → ∃ c, n.connectionStore.getConnection address = some c) :
    ∃ n₁, RecordedAs config now address result.event n n₁ ∧ n₁.messageStore = n.messageStore ∧
      ∀ next n', (finish now message address result).run n₁ = .ok next n' →
        (enforce config now message address result).run n = .ok next n' := by
  rw [enforce_eq]
  cases he : result.event with
  | none => exact ⟨n, rfl, rfl, fun _ _ h => h⟩
  | some type =>
    obtain ⟨c, hc⟩ := hknown (by simp [he])
    have hspec : Spec (fun m => m = n) (recordEvent config now address type)
        (fun _ n' => Recorded config now address type n n') (fun _ _ => False) :=
      (recordEvent_recorded n).conseq (fun _ h => h) (fun _ _ h => h)
        fun _ _ h => by simp [hc] at h
    obtain ⟨⟨⟩, n₁, hrun, hrec⟩ := hspec.returns rfl
    exact ⟨n₁, hrun, hrec.messageStore, fun _ _ h => run_bind_ok.2 ⟨_, _, hrun, h⟩⟩

/-- What the breaker makes of the record is manual exactly if the message is handed over. -/
theorem handedOver_iff (config : CircuitBreakerConfig) (now : Int) {c : Connection}
    (hc : n.connectionStore.getConnection address = some c) :
    HandedOver config now address n ↔
      (if trips config now address TriggerType.messageFlood.name n then c.afterTrip now
        else c).Manual := by
  unfold HandedOver
  simp only [hc, Option.some.injEq, exists_eq_left']
  split
  · rename_i htrips
    exact iff_of_true (.inl htrips) (.inl rfl)
  · rename_i htrips
    exact or_iff_right htrips

theorem settle_enforced (config : CircuitBreakerConfig) (answers : Nat → Answer) (fuel : Nat)
    (result : EnforcementResult)
    (hknown : result.event ≠ none →
      ∃ c, n.connectionStore.getConnection address = some c ∧ c.state = .active)
    (hrow : (n.messageStore.getMessage message.id).isSome = true) :
    ∃ r rest n', (settle config message address answers (fuel + 2) (.enforced result)).run n =
        .ok (.done r, (.enforced result, answers 0) :: rest) n' ∧
      Enforced config message address result (answers 0) n r rest n' := by
  obtain ⟨n₁, hrec, hmsg, henforce⟩ := exists_recordedAs config message (answers 0).now
    fun h => (hknown h).imp fun _ hc => hc.1
  have hn₁ : Holds n₁.connectionStore n₁.breakerEvents message.id n₁ :=
    ⟨rfl, rfl, by rw [hmsg]; exact hrow⟩
  cases hallowed : result.allowed with
  | false =>
    obtain ⟨stage, n', hrun, hholds, r, rfl, hrep, hread, hescalated⟩ :=
      (finish_refused (answers 0).now address hallowed).returns hn₁
    refine ⟨r, [], n', settle_run (by simp [Stage.rank]) (henforce _ _ hrun) (by simp), ?_⟩
    exact ⟨⟨n₁, hrec, hholds.connectionStore, hholds.breakerEvents⟩, hrep,
      fun h => absurd h hread, fun _ => ⟨rfl, hescalated⟩, by simp [hallowed], by simp⟩
  | true =>
    obtain ⟨c, hc, ha⟩ := hknown (by simp [event_of_allowed hallowed])
    have hrec' := hrec
    rw [event_of_allowed hallowed] at hrec'
    have hc₁ := ((recordEvent_recorded n).ok rfl hrec').own hc
    have ha₁ : (if trips config (answers 0).now address TriggerType.messageFlood.name n then
        c.afterTrip (answers 0).now else c).state = .active := by
      split <;> simp [Connection.afterTrip_eq, ha]
    have hover := handedOver_iff config (answers 0).now hc
    obtain ⟨stage, n', hrun, hholds, hstands⟩ :=
      (finish_stands (answers 0).now hc₁ ha₁ hallowed).returns hn₁
    cases stage with
    | done r =>
      refine ⟨r, [], n', settle_run (by simp [Stage.rank]) (henforce _ _ hrun) (by simp), ?_⟩
      obtain ⟨hrep, hread, hmanual⟩ := hstands
      rw [← hover] at hmanual
      refine ⟨⟨n₁, hrec, hholds.connectionStore, hholds.breakerEvents⟩, hrep, fun h => ?_,
        by simp [hallowed], fun _ => ?_, by simp⟩
      · refine ⟨hallowed, _, by rw [hholds.connectionStore, hc₁], ?_⟩
        exact (hread h).imp_right .inl
      · by_cases hhanded : HandedOver config (answers 0).now address n
        · exact .inl ⟨hhanded, rfl, hmanual.2 hhanded⟩
        · exact .inr ⟨hhanded, iff_of_false (mt hmanual.1 hhanded) (by simp)⟩
    | evaluating policy nickname routed =>
      obtain ⟨hreason, hlevel, hne, hpolicy⟩ := hstands
      obtain ⟨r, n₂, hrun₂, hholds₂, hrep, hread, hescalated⟩ := settle_evaluating hholds hreason
      refine ⟨r, _, n₂, settle_run (by simp [Stage.rank]) (henforce _ _ hrun) hrun₂, ?_⟩
      refine ⟨⟨n₁, hrec, hholds₂.connectionStore, hholds₂.breakerEvents⟩, hrep, fun h => ?_,
        by simp [hallowed], fun _ => .inr ⟨?_, by simpa using hescalated⟩, by simp⟩
      · refine ⟨hallowed, _, by rw [hholds₂.connectionStore, hc₁], .inr (.inr ⟨hlevel, ?_⟩)⟩
        exact ⟨policy, nickname, routed, _, hne, hpolicy, List.mem_singleton_self _, hread h⟩
      · rw [hover, Connection.Manual]
        simp [hlevel, hpolicy, hne]
    | checking boundaries rest => exact hstands.elim
    | enforced result => exact hstands.elim

/-- The boundaries that the evaluator was asked about, in order. -/
def asked (trace : Trace) : List (List String) :=
  trace.filterMap fun x =>
    match x.1 with
    | .checking boundaries _ => some boundaries
    | _ => none

/-- How the enforcer came to a result: it allows a message only once every question was
answered with allow. -/
structure Checked (questions : List (List String)) (trace : Trace) (result : EnforcementResult) :
    Prop where
  allowed : result.allowed = true → asked trace = questions ∧ ∀ x ∈ trace, x.2.Allows
  denied : ∀ x ∈ trace, x.2.Denies → result.event = some "information_boundary"
  escalated : result.allowed = false →
    (result.escalateToHuman = true ↔ ∃ x ∈ trace, x.2.Escalates)
  stages : ∀ x ∈ trace, ∃ boundaries rest, x.1 = .checking boundaries rest

def categoryQuestions (categories : List CustomCategory) : List (List String) :=
  categories.map fun category => [category.description]

theorem afterVerdict_allows {rest : List CustomCategory} {a : Answer} (h : a.Allows) :
    afterVerdict rest a.verdict = checkCategories rest := by
  obtain ⟨decision, hv, ha⟩ := Option.map_eq_some_iff.1 h
  simp [afterVerdict, hv, ha]

theorem afterVerdict_refuses {rest : List CustomCategory} {a : Answer} (h : ¬ a.Allows) :
    ∃ result, afterVerdict rest a.verdict = .decided result ∧ result.allowed = false ∧
      (a.Denies → result.event = some "information_boundary") ∧
      (result.escalateToHuman = true ↔ a.Escalates) := by
  cases hv : a.verdict with
  | none => exact ⟨_, rfl, rfl, by simp [Answer.Denies, hv], by simp [Answer.Escalates, hv]⟩
  | some decision =>
    have ha : decision.action ≠ .allow := by simpa [Answer.Allows, hv] using h
    refine ⟨_, if_pos ?_, rfl, fun hd => ?_, by simp [Answer.Escalates, hv]⟩
    · cases hd : decision.action with
      | allow => exact absurd hd ha
      | deny => exact .inl rfl
      | escalate => exact .inr rfl
    · have hd : decision.action = .deny := by simpa [Answer.Denies, hv] using hd
      simp [EnforcementResult.event, hd]

/-- A result that the enforcer reaches with the first answer. -/
theorem settle_decided {boundaries : List String} {rest : List CustomCategory}
    {questions : List (List String)} {result : EnforcementResult}
    (hknown : ∃ c, n.connectionStore.getConnection address = some c ∧ c.state = .active)
    (hrow : (n.messageStore.getMessage message.id).isSome = true)
    (hdecided : afterVerdict rest (answers 0).verdict = .decided result)
    (hchecked : Checked questions [(.checking boundaries rest, answers 0)] result) :
    ∃ pre result k r post n', (settle config message address answers (fuel + 3)
        (.checking boundaries rest)).run n =
        .ok (.done r, pre ++ (.enforced result, answers k) :: post) n' ∧
      Checked questions pre result ∧
      Enforced config message address result (answers k) n r post n' := by
  obtain ⟨r, post, n', hrun, henf⟩ := settle_enforced config
    (fun k => answers (k + 1)) fuel result (fun _ => hknown) hrow
  refine ⟨_, result, 1, r, post, n', settle_run (by simp [Stage.rank]) ?_ hrun, hchecked, henf⟩
  simp [resume, hdecided, CheckStep.stage]

theorem settle_checking (boundaries : List String) (rest : List CustomCategory)
    (hknown : ∃ c, n.connectionStore.getConnection address = some c ∧ c.state = .active)
    (hrow : (n.messageStore.getMessage message.id).isSome = true) :
    ∃ pre result k r post n', (settle config message address answers (fuel + rest.length + 3)
        (.checking boundaries rest)).run n =
        .ok (.done r, pre ++ (.enforced result, answers k) :: post) n' ∧
      Checked (boundaries :: categoryQuestions rest) pre result ∧
      Enforced config message address result (answers k) n r post n' := by
  induction rest generalizing boundaries answers with
  | nil =>
    by_cases ha : (answers 0).Allows
    · exact settle_decided hknown hrow (afterVerdict_allows ha)
        ⟨fun _ => ⟨rfl, by simpa using ha⟩, by simp [ha.not_denies], nofun, by simp⟩
    · obtain ⟨result, hdecided, hallowed, hdenied, hescalated⟩ := afterVerdict_refuses ha
      exact settle_decided hknown hrow hdecided
        ⟨by simp [hallowed], by simpa using hdenied, by simpa using fun _ => hescalated, by simp⟩
  | cons category rest ih =>
    by_cases ha : (answers 0).Allows
    · obtain ⟨pre, result, k, r, post, n', hrun, hchecked, henf⟩ :=
        @ih (fun k => answers (k + 1)) [category.description]
      refine ⟨(.checking boundaries (category :: rest), answers 0) :: pre, result, k + 1, r, post,
        n', settle_run (by simp [Stage.rank]) ?_ hrun, ?_, henf⟩
      · simp [resume, afterVerdict_allows ha, checkCategories, CheckStep.stage]
      · refine ⟨fun h => ?_, by simpa [ha.not_denies] using hchecked.denied,
          by simpa [ha.not_escalates] using hchecked.escalated, ?_⟩
        · obtain ⟨hasked, hallows⟩ := hchecked.allowed h
          exact ⟨congrArg (boundaries :: ·) hasked, by simpa [ha] using hallows⟩
        · simpa using hchecked.stages
    · obtain ⟨result, hdecided, hallowed, hdenied, hescalated⟩ := afterVerdict_refuses ha
      exact settle_decided hknown hrow hdecided
        ⟨by simp [hallowed], by simpa using hdenied, by simpa using fun _ => hescalated, by simp⟩

/-- The questions that the enforcer has for the evaluator about a message of the peer. -/
def Connection.questions (c : Connection) : List (List String) :=
  let manifest := c.permissionsManifest.getD defaultPermissionsManifest
  (if 0 < manifest.informationBoundaries.length then [manifest.informationBoundaries] else []) ++
    categoryQuestions (manifest.customCategories.filter (!·.allowed))

/-- The connection is active and neither muted nor in a human's hands. -/
structure Connection.Open (c : Connection) : Prop where
  active : c.state = .active
  unmuted : c.muted ≠ some true
  noPassthrough : c.passthrough ≠ some true

/-- How a whole call goes: it ends before the enforcer is asked, or a result is enforced. -/
inductive CallCase (config : CircuitBreakerConfig) (message : MessageRecord) (address : String)
    (answers : Nat → Answer) (n : Node) (r : RoutedMessage) (trace : Trace) (n' : Node) : Prop
  | early (htrace : trace = []) (hstore : n'.connectionStore = n.connectionStore)
      (hevents : n'.breakerEvents = n.breakerEvents) (hreported : Reported message.id r n')
      (hread : r.state ≠ "read_by_agent")
  | enforced (pre : Trace) (result : EnforcementResult) (k : Nat) (post : Trace)
      (questions : List (List String))
      (htrace : trace = pre ++ (.enforced result, answers k) :: post)
      (hchecked : Checked questions pre result)
      (hopen : result.event ≠ none → ∃ c, n.connectionStore.getConnection address = some c ∧
        c.Open ∧ questions = c.questions)
      (henforced : Enforced config message address result (answers k) n r post n')

/-- The first part of a call: it is over, and the agent does not read the message, or the
enforcer is asked. -/
theorem process_case (now : Int) (message : MessageRecord) (address : String) {n : Node}
    (hrow : (n.messageStore.getMessage message.id).isSome = true) :
    ∃ stage n', (process now message address).run n = .ok stage n' ∧
      ((∃ r, stage = .done r ∧ n'.connectionStore = n.connectionStore ∧
          n'.breakerEvents = n.breakerEvents ∧ Reported message.id r n' ∧
          r.state ≠ "read_by_agent") ∨
        (n.connectionStore.getConnection address).bind (·.muted) ≠ some true ∧
          (n.connectionStore.getConnection address).bind (·.passthrough) ≠ some true ∧
          stage = (check n.connectionStore address).stage ∧ n' = n) := by
  have hholds : Holds n.connectionStore n.breakerEvents message.id n := ⟨rfl, rfl, hrow⟩
  refine Spec.returns (P := fun m => m = n) (process_rule ?_ ?_ ?_) rfl
  · rintro _ feed rfl - -
    have hwrote := hholds.wrote now "delivered" none feed
    exact .inl ⟨_, rfl, rfl, rfl, ⟨hwrote.row, by simp [MessageRecord.routed]⟩,
      by simp [MessageRecord.routed]⟩
  · rintro _ feed rfl - - -
    have hwrote := hholds.wrote now "escalated_to_human" none feed
    exact .inl ⟨_, rfl, rfl, rfl, ⟨hwrote.row, by simp [MessageRecord.routed]⟩,
      by simp [MessageRecord.routed]⟩
  · rintro _ rfl hm hp
    exact .inr ⟨hm, hp, rfl, rfl⟩

/-- The enforcer's first step: it refuses the sender, has no question, or asks the first. -/
inductive CheckCase (store : ConnectionStore) (address : String) : CheckStep → Prop
  | refused :
      CheckCase store address (.decided { allowed := false, reason := some "unknown sender" })
  | allowed (c : Connection) (hc : store.getConnection address = some c) (ha : c.state = .active)
      (hq : c.questions = []) : CheckCase store address (.decided { allowed := true })
  | asking (c : Connection) (hc : store.getConnection address = some c) (ha : c.state = .active)
      (boundaries : List String) (rest : List CustomCategory)
      (hq : c.questions = boundaries :: categoryQuestions rest) :
      CheckCase store address (.asking boundaries rest)

theorem checkCategories_case {store : ConnectionStore} {c : Connection}
    (hc : store.getConnection address = some c) (ha : c.state = .active)
    (categories : List CustomCategory) (hq : c.questions = categoryQuestions categories) :
    CheckCase store address (checkCategories categories) := by
  cases categories with
  | nil => exact .allowed c hc ha hq
  | cons category rest => exact .asking c hc ha _ _ hq

theorem check_case (store : ConnectionStore) (address : String) :
    CheckCase store address (check store address) := by
  unfold check
  cases hc : store.getConnection address with
  | none => exact .refused
  | some c =>
    by_cases ha : c.state = .active
    · simp only [ha, ne_eq, not_true_eq_false, if_false]
      split
      · rename_i hb
        exact .asking c hc ha _ _ (by simp [Connection.questions, hb])
      · rename_i hb
        exact checkCategories_case hc ha _ (by simp [Connection.questions, hb])
    · simp only [ne_eq, ha, not_false_eq_true, if_true]
      exact .refused

theorem settle_check (hrow : (n.messageStore.getMessage message.id).isSome = true)
    (hm : (n.connectionStore.getConnection address).bind (·.muted) ≠ some true)
    (hp : (n.connectionStore.getConnection address).bind (·.passthrough) ≠ some true) :
    ∃ r trace n', (settle config message address (fun k => answers (k + 1))
        (check n.connectionStore address).stage.rank (check n.connectionStore address).stage).run n =
        .ok (.done r, trace) n' ∧
      CallCase config message address answers n r trace n' := by
  have hopen : ∀ c, n.connectionStore.getConnection address = some c → c.state = .active → c.Open :=
    fun c hc ha => ⟨ha, by simpa [hc] using hm, by simpa [hc] using hp⟩
  have hdecided (result : EnforcementResult) (hquiet : result.escalateToHuman = false)
      (hknown : result.event ≠ none → ∃ c, n.connectionStore.getConnection address = some c ∧
        c.Open ∧ [] = c.questions) :
      ∃ r trace n', (settle config message address (fun k => answers (k + 1)) 2
        (.enforced result)).run n = .ok (.done r, trace) n' ∧
      CallCase config message address answers n r trace n' := by
    obtain ⟨r, post, n', hrun, henf⟩ := settle_enforced config (fun k => answers (k + 1)) 0 result
      (fun h => (hknown h).imp fun c hc => ⟨hc.1, hc.2.1.active⟩) hrow
    exact ⟨r, _, n', hrun, .enforced [] result 1 post [] rfl
      ⟨fun _ => ⟨rfl, by simp⟩, by simp, by simp [hquiet], by simp⟩ hknown henf⟩
  have hcase := check_case n.connectionStore address
  revert hcase
  generalize check n.connectionStore address = step
  intro hcase
  cases hcase with
  | refused => exact hdecided _ rfl fun h => absurd rfl h
  | allowed c hc ha hq => exact hdecided _ rfl fun _ => ⟨c, hc, hopen c hc ha, hq.symm⟩
  | asking c hc ha boundaries rest hq =>
    obtain ⟨pre, result, k, r, post, n', hrun, hchecked, henf⟩ :=
      @settle_checking config message address (fun k => answers (k + 1)) 0 n boundaries rest
        ⟨c, hc, ha⟩ hrow
    rw [Nat.zero_add] at hrun
    exact ⟨r, _, n', hrun, .enforced pre result (k + 1) post _ rfl hchecked
      (fun _ => ⟨c, hc, hopen c hc ha, hq.symm⟩) henf⟩

/-- A call that nothing else interrupts always returns. -/
theorem complete_case (config : CircuitBreakerConfig) (message : MessageRecord) (address : String)
    (answers : Nat → Answer) (n : Node)
    (hrow : (n.messageStore.getMessage message.id).isSome = true) :
    ∃ r trace n', (complete config message address answers).run n = .ok (.done r, trace) n' ∧
      CallCase config message address answers n r trace n' := by
  obtain ⟨stage, n', hprocess, hcase⟩ := process_case (answers 0).now message address hrow
  rcases hcase with ⟨r, rfl, hstore, hevents, hreported, hread⟩ | ⟨hm, hp, rfl, rfl⟩
  · exact ⟨r, [], n', run_bind_ok.2 ⟨_, _, hprocess, by simp⟩,
      .early rfl hstore hevents hreported hread⟩
  · obtain ⟨r, trace, n', hrun, hcase⟩ := settle_check hrow hm hp
    exact ⟨r, trace, n', run_bind_ok.2 ⟨_, _, hprocess, hrun⟩, hcase⟩

/-- What a message has passed when the agent reads it. The records after the call are
those after the breaker has recorded the message. -/
structure Permitted (config : CircuitBreakerConfig) (address : String) (trace : Trace)
    (n n' : Node) : Prop where
  connection : ∃ c, n.connectionStore.getConnection address = some c ∧ c.Open ∧
    asked trace = c.questions
  allowed : ∀ boundaries rest a, (Stage.checking boundaries rest, a) ∈ trace → a.Allows
  recorded : ∃ now n₁, (recordMessage config now address).run n = .ok () n₁ ∧
    n'.connectionStore = n₁.connectionStore
  cleared : ∃ c, n'.connectionStore.getConnection address = some c ∧ Cleared c trace

theorem asked_append (l m : Trace) : asked (l ++ m) = asked l ++ asked m :=
  List.filterMap_append

theorem asked_eq_nil {trace : Trace} (h : ∀ x ∈ trace, ∀ b r, x.1 ≠ .checking b r) :
    asked trace = [] := by
  refine List.filterMap_eq_nil_iff.2 fun x hx => ?_
  have hx := h x hx
  split
  · rename_i boundaries rest heq
    exact absurd heq (hx _ _)
  · rfl

theorem CallCase.permitted {r : RoutedMessage} {trace : Trace} {n' : Node}
    (h : CallCase config message address answers n r trace n') (hread : r.state = "read_by_agent") :
    Permitted config address trace n n' := by
  cases h with
  | early _ _ _ _ hne => exact absurd hread hne
  | enforced pre result k post questions htrace hchecked hopen henforced =>
    obtain ⟨hallowed, c', hc', hcleared⟩ := henforced.read hread
    have hevent := event_of_allowed hallowed
    obtain ⟨c, hc, hc_open, rfl⟩ := hopen (by simp [hevent])
    obtain ⟨hasked, hallows⟩ := hchecked.allowed hallowed
    obtain ⟨n₁, hrec, hstore, -⟩ := henforced.recorded
    have hpost : ∀ x ∈ (Stage.enforced result, answers k) :: post, ∀ b r, x.1 ≠ .checking b r := by
      intro x hx b r hcheck
      rcases List.mem_cons.1 hx with rfl | hx
      · cases hcheck
      · obtain ⟨policy, nickname, routed, heq⟩ := henforced.rest x hx
        rw [heq] at hcheck
        cases hcheck
    rw [hevent] at hrec
    refine ⟨⟨c, hc, hc_open, ?_⟩, ?_, ⟨_, n₁, hrec, hstore⟩, ⟨c', hc', ?_⟩⟩
    · rw [htrace, asked_append, asked_eq_nil hpost, List.append_nil, hasked]
    · intro boundaries rest a hmem
      rw [htrace] at hmem
      rcases List.mem_append.1 hmem with hmem | hmem
      · exact hallows _ hmem
      · exact absurd rfl (hpost _ hmem boundaries rest)
    · refine hcleared.imp_right (Or.imp_right ?_)
      rintro ⟨hlevel, policy, nickname, routed, a, hne, hpolicy, hmem, ha⟩
      exact ⟨hlevel, policy, nickname, routed, a, hne, hpolicy, by simp [htrace, hmem], ha⟩

theorem CallCase.reported {r : RoutedMessage} {trace : Trace} {n' : Node}
    (h : CallCase config message address answers n r trace n') : Reported message.id r n' := by
  cases h with
  | early _ _ _ hreported _ => exact hreported
  | enforced _ _ _ _ _ _ _ _ henforced => exact henforced.reported

/-- A call on a stored message returns, what it returns is what is stored, nothing is left
to evaluate, and the agent reads only what every check has let through. -/
theorem pipeline_sound (config : CircuitBreakerConfig) (message : MessageRecord) (address : String)
    (answers : Nat → Answer) (n : Node)
    (hrow : (n.messageStore.getMessage message.id).isSome = true) :
    ∃ r trace n', (complete config message address answers).run n = .ok (.done r, trace) n' ∧
      Reported message.id r n' ∧
      (r.state = "read_by_agent" → Permitted config address trace n n') := by
  obtain ⟨r, trace, n', hrun, hcase⟩ := complete_case config message address answers n hrow
  exact ⟨r, trace, n', hrun, hcase.reported, hcase.permitted⟩

/-- A connection at a given level whose manifest has a boundary and a denied category. -/
def guardedConnection (level : AutonomyLevel) : Connection where
  peerAddress := "a"
  peerPublicKey := none
  state := .active
  nickname := ""
  autonomyLevel := level
  autoRespondPolicy := none
  circuitBreakerTripped := none
  permissionsManifest := some { defaultPermissionsManifest with
    informationBoundaries := ["no addresses"]
    customCategories := [⟨"finance", "bank details", false⟩] }
  muted := none
  passthrough := none
  shortMessage := none
  createdAt := ""
  lastActivity := ""
  expiresAt := none

def receivedMessage : MessageRecord where
  id := "m"
  connectionAddress := "a"
  direction := .inbound
  body := "hello"
  threadId := none
  replyTo := none
  priority := .normal
  sequence := 1
  state := "delivered"
  attribution := none
  createdAt := ""
  updatedAt := ""

def guardedNode (level : AutonomyLevel) : Node where
  connectionStore := (∅ : ConnectionStore).insert "a" (guardedConnection level)
  outbox := []
  messageStore := ⟨[receivedMessage], List.nodup_singleton _⟩
  breakerEvents := ∅
  activityFeed := []
  flush := ⟨-1, false, false⟩

/-- The evaluator answers every question alike. -/
def always (now : Int) (action : PolicyAction) : Nat → Answer :=
  fun _ => ⟨now, some ⟨action, .high, ""⟩⟩

theorem pipeline_sound_notify : ∃ r trace n',
    (complete {} receivedMessage "a" (always 0 .allow)).run (guardedNode .notify) =
        .ok (.done r, trace) n' ∧
      r.state = "read_by_agent" ∧ Permitted {} "a" trace (guardedNode .notify) n' := by
  obtain ⟨r, trace, n', hrun, -, hread⟩ := pipeline_sound {} receivedMessage "a" (always 0 .allow)
    (guardedNode .notify) (by decide)
  have hstate : (returned ((complete {} receivedMessage "a" (always 0 .allow)).run
      (guardedNode .notify))).map (fun x => x.1) =
      some (.done (receivedMessage.routed "a" "read_by_agent")) := by
    decide +kernel
  rw [hrun] at hstate
  obtain rfl : r = receivedMessage.routed "a" "read_by_agent" :=
    Stage.done.inj (Option.some.inj hstate)
  exact ⟨_, trace, n', hrun, rfl, hread rfl⟩

end Settle

end Pinch
