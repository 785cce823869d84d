import Pinch.CircuitBreaker

/-! The processing of a decrypted message. It stops wherever the code awaits the
policy evaluator or another asynchronous function, and other code may run before
it goes on; a `Stage` is the point it has reached. -/

namespace Pinch

/-- What the evaluator answered; `none` when it threw. -/
abbrev Verdict := Option PolicyDecision

structure EnforcementResult where
  allowed : Bool
  reason : Option String := none
  violationType : Option String := none
  escalateToHuman : Bool := false
  deriving DecidableEq

/-- `PermissionsEnforcer.check` has decided, or asks the evaluator about boundaries
with the given denied categories still to come. -/
inductive CheckStep
  | decided (result : EnforcementResult)
  | asking (boundaries : List String) (rest : List CustomCategory)
  deriving DecidableEq

namespace PermissionsEnforcer

def checkCategories : List CustomCategory → CheckStep
  | [] => .decided { allowed := true }
  | category :: rest => .asking [category.description] rest

def check (store : ConnectionStore) (connectionAddress : String) : CheckStep :=
  match store.getConnection connectionAddress with
  | none => .decided { allowed := false, reason := some "unknown sender" }
  | some connection =>
    if connection.state ≠ .active then
      .decided { allowed := false, reason := some "unknown sender" }
    else
      let manifest := connection.permissionsManifest.getD defaultPermissionsManifest
      let deniedCategories := manifest.customCategories.filter (!·.allowed)
      if 0 < manifest.informationBoundaries.length then
        .asking manifest.informationBoundaries deniedCategories
      else checkCategories deniedCategories

def afterVerdict (rest : List CustomCategory) : Verdict → CheckStep
  | some decision =>
    if decision.action = .deny ∨ decision.action = .escalate then
      .decided
        { allowed := false
          reason := some decision.reasoning
          violationType := some "information_boundary"
          escalateToHuman := decision.action = .escalate }
    else checkCategories rest
  | none => .decided
      { allowed := false
        reason := some "Policy evaluation unavailable -- escalating to human"
        escalateToHuman := true }

end PermissionsEnforcer

structure RoutedMessage where
  messageId : String
  senderAddress : String
  body : String
  threadId : Option String
  replyTo : Option String
  priority : Priority
  state : String
  failureReason : Option String := none
  deriving DecidableEq

def MessageRecord.routed (message : MessageRecord) (connectionAddress state : String)
    (failureReason : Option String := none) : RoutedMessage where
  messageId := message.id
  senderAddress := connectionAddress
  body := message.body
  threadId := message.threadId
  replyTo := message.replyTo
  priority := message.priority
  state := state
  failureReason := failureReason

namespace InboundRouter

variable (now : Int)

def unknownSender : String := "Message from unknown or inactive sender"

def route (message : MessageRecord) (connectionAddress : String) : NodeOp RoutedMessage := do
  match (← get).connectionStore.getConnection connectionAddress with
  | some connection =>
    if connection.state ≠ .active then
      Node.updateState now message.id "failed" (some unknownSender)
      return message.routed connectionAddress "failed" (some unknownSender)
    else
      match connection.autonomyLevel with
      | .fullAuto =>
        Node.updateState now message.id "read_by_agent"
        return message.routed connectionAddress "read_by_agent"
      | .notify =>
        Node.recordActivity now
          { connectionAddress := connectionAddress
            eventType := "message_processed_autonomously"
            messageId := some message.id
            badge := some "processed_autonomously" }
        Node.updateState now message.id "read_by_agent"
        return message.routed connectionAddress "read_by_agent"
      | .autoRespond =>
        Node.updateState now message.id "pending_policy_eval"
        return message.routed connectionAddress "pending_policy_eval"
      | .fullManual =>
        Node.updateState now message.id "escalated_to_human"
        return message.routed connectionAddress "escalated_to_human"
  | none =>
    Node.updateState now message.id "failed" (some unknownSender)
    return message.routed connectionAddress "failed" (some unknownSender)

inductive ApproveAction
  | agentHandle
  | humanRespond
  deriving DecidableEq

def ApproveAction.newState : ApproveAction → String
  | agentHandle => "read_by_agent"
  | humanRespond => "delivered"

def approveMessage (messageId : String) (action : ApproveAction) :
    NodeOp (Option MessageRecord) := do
  match (← get).messageStore.getMessage messageId with
  | none => return none
  | some message =>
    if message.state ≠ "escalated_to_human" then return none
    else
      Node.updateState now messageId action.newState
      return (← get).messageStore.getMessage messageId

end InboundRouter

inductive Stage
  | checking (boundaries : List String) (rest : List CustomCategory)
  | enforced (result : EnforcementResult)
  | evaluating (policy nickname : String) (routed : RoutedMessage)
  | done (routed : RoutedMessage)
  deriving DecidableEq

def CheckStep.stage : CheckStep → Stage
  | .decided result => .enforced result
  | .asking boundaries rest => .checking boundaries rest

namespace EnforcementPipeline

variable (config : CircuitBreakerConfig) (now : Int) (message : MessageRecord)
  (connectionAddress : String)

/-- The part of `process` before its first `await`. -/
def process : NodeOp Stage := do
  let store := (← get).connectionStore
  let connection := store.getConnection connectionAddress
  if connection.bind (·.muted) = some true then
    Node.recordActivity now
      { connectionAddress := connectionAddress
        eventType := "message_received_muted"
        messageId := some message.id
        actionType := some "message_receive_muted"
        badge := some "muted" }
    Node.updateState now message.id "delivered"
    return .done (message.routed connectionAddress "delivered")
  else if connection.bind (·.passthrough) = some true then
    Node.updateState now message.id "escalated_to_human"
    Node.recordActivity now
      { connectionAddress := connectionAddress
        eventType := "message_during_intervention"
        messageId := some message.id
        actionType := some "message_receive_intervention"
        badge := some "intervention" }
    return .done (message.routed connectionAddress "escalated_to_human")
  else
    return (PermissionsEnforcer.check store connectionAddress).stage

def recordAutoRespondDecision (decision : PolicyDecision) : NodeOp Unit :=
  Node.recordActivity now
    { connectionAddress := connectionAddress
      eventType := "auto_respond_decision"
      messageId := some message.id
      badge := some "auto_respond"
      details := some (.decision decision) }

def noPolicy : PolicyDecision :=
  ⟨.escalate, .low, "No auto-respond policy configured -- escalating to human"⟩

def evaluationError : PolicyDecision :=
  ⟨.escalate, .low, "Policy evaluation error -- escalating to human"⟩

/-- The part of `evaluateAutoRespondPolicy` before it awaits the evaluator. An empty
policy counts as none. -/
def evaluateAutoRespondPolicy (routed : RoutedMessage) : NodeOp Stage := do
  match (← get).connectionStore.getConnection connectionAddress with
  | some connection =>
    match connection.autoRespondPolicy.filter (· ≠ "") with
    | some policy => return .evaluating policy connection.nickname routed
    | none => escalate
  | none => escalate
where
  escalate : NodeOp Stage := do
    Node.updateState now message.id "escalated_to_human"
    recordAutoRespondDecision now message connectionAddress noPolicy
    return .done { routed with state := "escalated_to_human" }

def applyVerdict (routed : RoutedMessage) : Verdict → NodeOp Stage
  | some decision =>
    match decision.action with
    | .allow => do
      Node.updateState now message.id "read_by_agent"
      recordAutoRespondDecision now message connectionAddress decision
      return .done { routed with state := "read_by_agent" }
    | .deny => do
      Node.updateState now message.id "failed" (some decision.reasoning)
      recordAutoRespondDecision now message connectionAddress decision
      return .done { routed with state := "failed", failureReason := some decision.reasoning }
    | .escalate => do
      Node.updateState now message.id "escalated_to_human"
      recordAutoRespondDecision now message connectionAddress decision
      return .done { routed with state := "escalated_to_human" }
  | none => do
    Node.updateState now message.id "escalated_to_human"
    recordAutoRespondDecision now message connectionAddress evaluationError
    return .done { routed with state := "escalated_to_human" }

def enforce (result : EnforcementResult) : NodeOp Stage := do
  if result.allowed then
    CircuitBreaker.recordMessage config now connectionAddress
    let routed ← InboundRouter.route now message connectionAddress
    if routed.state = "pending_policy_eval" then
      evaluateAutoRespondPolicy now message connectionAddress routed
    else return .done routed
  else if result.escalateToHuman then
    Node.updateState now message.id "escalated_to_human" result.reason
    return .done (message.routed connectionAddress "escalated_to_human" result.reason)
  else
    match result.violationType.filter (· ≠ "") with
    | some violation => CircuitBreaker.recordViolation config now connectionAddress violation
    | none => pure ()
    Node.updateState now message.id "failed" result.reason
    return .done (message.routed connectionAddress "failed" result.reason)

/-- What happens when a suspended `process` goes on; the evaluator's answer is only
read where it is awaited. -/
def resume (verdict : Verdict) : Stage → NodeOp Stage
  | .checking _ rest => return (PermissionsEnforcer.afterVerdict rest verdict).stage
  | .enforced result => enforce config now message connectionAddress result
  | .evaluating _ _ routed => applyVerdict now message connectionAddress routed verdict
  | .done routed => return .done routed

end EnforcementPipeline

end Pinch
