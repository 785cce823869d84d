import Pinch.BreakerStep
import Pinch.EnforcementPipeline

/-! What each part of the pipeline writes and returns, stated once as a rule for pre- and
postconditions. A part writes the state of its message and at most one line of the feed; nothing
but the recording of an event can throw. -/

namespace Pinch

/-- At most one event is added to the feed. -/
inductive Node.Noted (now : Int) (n : Node) : List ActivityEvent → Prop
  | same : Noted now n n.activityFeed
  | event (event : ActivityEvent) : Noted now n (n.activityFeed ++
      [{ event with
          actionType := some (event.actionType.getD event.eventType)
          createdAt := isoString now }])

/-- The node with the state of one message and the feed rewritten. -/
def Node.withState (n : Node) (now : Int) (id state : String) (reason : Option String)
    (feed : List ActivityEvent) : Node :=
  { n with
    messageStore := n.messageStore.updateState now id state reason
    activityFeed := feed }

namespace InboundRouter

/-- The state and the reason that the router writes for a peer. -/
inductive Outcome (store : ConnectionStore) (address : String) : String → Option String → Prop
  | refused (h : ∀ c, store.getConnection address = some c → c.state ≠ .active) :
      Outcome store address "failed" (some unknownSender)
  | read {c : Connection} (hc : store.getConnection address = some c)
      (hlevel : c.autonomyLevel = .notify ∨ c.autonomyLevel = .fullAuto) :
      Outcome store address "read_by_agent" none
  | pending {c : Connection} (hc : store.getConnection address = some c)
      (hlevel : c.autonomyLevel = .autoRespond) : Outcome store address "pending_policy_eval" none
  | escalated {c : Connection} (hc : store.getConnection address = some c)
      (hlevel : c.autonomyLevel = .fullManual) : Outcome store address "escalated_to_human" none

end InboundRouter

/-- The kind of event that the pipeline records for a result of the enforcer. -/
def EnforcementResult.event (result : EnforcementResult) : Option String :=
  if result.allowed then some TriggerType.messageFlood.name
  else if result.escalateToHuman then none
  else result.violationType.filter (· ≠ "")

namespace EnforcementPipeline

variable {config : CircuitBreakerConfig} {now : Int} {message : MessageRecord} {address : String}
  {P : Node → Prop} {E : String → Node → Prop}

theorem route_rule {Q : RoutedMessage → Node → Prop}
    (h : ∀ n state reason feed, P n → n.Noted now feed →
      InboundRouter.Outcome n.connectionStore address state reason →
      Q (message.routed address state reason) (n.withState now message.id state reason feed)) :
    Spec P (InboundRouter.route now message address) Q E := by
  refine Spec.get_bind fun n => ?_
  rintro _ ⟨rfl, hn⟩
  rename_i n
  cases hc : n.connectionStore.getConnection address with
  | none => exact h n _ _ _ hn .same (.refused fun c hc' => by simp [hc] at hc')
  | some c =>
    dsimp only
    by_cases ha : c.state = .active
    · rw [if_neg (not_not.2 ha)]
      cases hl : c.autonomyLevel with
      | fullManual => exact h n _ _ _ hn .same (.escalated hc hl)
      | notify => exact h n _ _ _ hn (.event _) (.read hc (.inl hl))
      | autoRespond => exact h n _ _ _ hn .same (.pending hc hl)
      | fullAuto => exact h n _ _ _ hn .same (.read hc (.inr hl))
    · rw [if_pos ha]
      refine h n _ _ _ hn .same (.refused fun c' hc' => ?_)
      obtain rfl := Option.some.inj (hc.symm.trans hc')
      exact ha

theorem evaluateAutoRespondPolicy_rule {Q : Stage → Node → Prop} {routed : RoutedMessage}
    (heval : ∀ n c policy, P n → n.connectionStore.getConnection address = some c →
      c.autoRespondPolicy = some policy → policy ≠ "" →
      Q (.evaluating policy c.nickname routed) n)
    (hescalate : ∀ n feed, P n → n.Noted now feed →
      (∀ c, n.connectionStore.getConnection address = some c → c.autoRespondPolicy.getD "" = "") →
      Q (.done { routed with state := "escalated_to_human" })
        (n.withState now message.id "escalated_to_human" none feed)) :
    Spec P (evaluateAutoRespondPolicy now message address routed) Q E := by
  refine Spec.get_bind fun n => ?_
  rintro _ ⟨rfl, hn⟩
  rename_i n
  cases hc : n.connectionStore.getConnection address with
  | none => exact hescalate n _ hn (.event _) fun c hc' => by simp [hc] at hc'
  | some c =>
    dsimp only
    cases hp : c.autoRespondPolicy.filter (· ≠ "") with
    | none =>
      refine hescalate n _ hn (.event _) fun c' hc' => ?_
      obtain rfl := Option.some.inj (hc.symm.trans hc')
      cases hpolicy : c.autoRespondPolicy with
      | none => rfl
      | some policy => simpa [hpolicy] using hp
    | some policy =>
      obtain ⟨hpolicy, hne⟩ := Option.filter_eq_some_iff.1 hp
      exact heval n c policy hn hc hpolicy (by simpa using hne)

/-- What the last answer of the evaluator makes of a message. -/
inductive Ruling (routed : RoutedMessage) : Verdict → String → Option String → RoutedMessage → Prop
  | allowed {d : PolicyDecision} (h : d.action = .allow) :
      Ruling routed (some d) "read_by_agent" none { routed with state := "read_by_agent" }
  | denied {d : PolicyDecision} (h : d.action = .deny) :
      Ruling routed (some d) "failed" (some d.reasoning)
        { routed with state := "failed", failureReason := some d.reasoning }
  | escalated {verdict : Verdict} (h : ∀ d ∈ verdict, d.action = .escalate) :
      Ruling routed verdict "escalated_to_human" none
        { routed with state := "escalated_to_human" }

theorem applyVerdict_rule {Q : Stage → Node → Prop} {routed : RoutedMessage} {verdict : Verdict}
    (h : ∀ n state reason r feed, P n → n.Noted now feed → Ruling routed verdict state reason r →
      Q (.done r) (n.withState now message.id state reason feed)) :
    Spec P (applyVerdict now message address routed verdict) Q E := by
  intro n hn
  cases verdict with
  | none => exact h n _ _ _ _ hn (.event _) (.escalated (by simp))
  | some d =>
    rw [applyVerdict]
    cases hd : d.action with
    | allow => exact h n _ _ _ _ hn (.event _) (.allowed hd)
    | deny => exact h n _ _ _ _ hn (.event _) (.denied hd)
    | escalate => exact h n _ _ _ _ hn (.event _) (.escalated (by simpa using hd))

theorem process_rule {Q : Stage → Node → Prop}
    (hmuted : ∀ n feed, P n → n.Noted now feed →
      (n.connectionStore.getConnection address).bind (·.muted) = some true →
      Q (.done (message.routed address "delivered"))
        (n.withState now message.id "delivered" none feed))
    (hpassthrough : ∀ n feed, P n → n.Noted now feed →
      (n.connectionStore.getConnection address).bind (·.muted) ≠ some true →
      (n.connectionStore.getConnection address).bind (·.passthrough) = some true →
      Q (.done (message.routed address "escalated_to_human"))
        (n.withState now message.id "escalated_to_human" none feed))
    (hcheck : ∀ n, P n → (n.connectionStore.getConnection address).bind (·.muted) ≠ some true →
      (n.connectionStore.getConnection address).bind (·.passthrough) ≠ some true →
      Q (PermissionsEnforcer.check n.connectionStore address).stage n) :
    Spec P (process now message address) Q E := by
  refine Spec.get_bind fun n => ?_
  rintro _ ⟨rfl, hn⟩
  rename_i n
  dsimp only
  by_cases hm : (n.connectionStore.getConnection address).bind (·.muted) = some true
  · rw [if_pos hm]
    exact hmuted n _ hn (.event _) hm
  · rw [if_neg hm]
    by_cases hp : (n.connectionStore.getConnection address).bind (·.passthrough) = some true
    · rw [if_pos hp]
      exact hpassthrough n _ hn (.event _) hm hp
    · rw [if_neg hp]
      exact hcheck n hn hm hp

/-- What `enforce` does once the event is recorded. -/
def finish (now : Int) (message : MessageRecord) (address : String)
    (result : EnforcementResult) : NodeOp Stage := do
  if result.allowed then
    let routed ← InboundRouter.route now message address
    if routed.state = "pending_policy_eval" then
      evaluateAutoRespondPolicy now message address routed
    else return .done routed
  else if result.escalateToHuman then
    Node.updateState now message.id "escalated_to_human" result.reason
    return .done (message.routed address "escalated_to_human" result.reason)
  else
    Node.updateState now message.id "failed" result.reason
    return .done (message.routed address "failed" result.reason)

theorem enforce_eq (result : EnforcementResult) : enforce config now message address result =
    match result.event with
    | some type => do
      CircuitBreaker.recordEvent config now address type
      finish now message address result
    | none => finish now message address result := by
  obtain ⟨allowed, reason, violationType, escalate⟩ := result
  cases allowed with
  | true => simp [enforce, EnforcementResult.event, finish, CircuitBreaker.recordMessage_eq]
  | false =>
    cases escalate with
    | true => simp [enforce, EnforcementResult.event, finish]
    | false =>
      unfold enforce EnforcementResult.event finish
      dsimp only
      cases violationType.filter (· ≠ "") <;> rfl

theorem finish_refused_rule {Q : Stage → Node → Prop} {result : EnforcementResult}
    (hallowed : result.allowed = false)
    (h : ∀ n state feed, P n → n.Noted now feed →
      state = (if result.escalateToHuman then "escalated_to_human" else "failed") →
      Q (.done (message.routed address state result.reason))
        (n.withState now message.id state result.reason feed)) :
    Spec P (finish now message address result) Q E := by
  rw [finish, if_neg (by simp [hallowed])]
  split
  · rename_i hescalate
    exact fun n hn => h n _ _ hn .same (if_pos hescalate).symm
  · rename_i hescalate
    exact fun n hn => h n _ _ hn .same (if_neg hescalate).symm

end EnforcementPipeline

end Pinch
