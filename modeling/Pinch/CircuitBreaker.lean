import Pinch.ConnectionManager
import Pinch.MessageStore

/-! The state behind an agent's message handling, its activity log, and the circuit
breaker that takes a connection back to full manual. -/

namespace Pinch

inductive TriggerType
  | messageFlood
  | permissionViolation
  | spendingExceeded
  | boundaryProbe
  deriving DecidableEq

def TriggerType.name : TriggerType → String
  | messageFlood => "message_flood"
  | permissionViolation => "permission_violation"
  | spendingExceeded => "spending_exceeded"
  | boundaryProbe => "boundary_probe"

structure EventRecord where
  timestamp : Int
  type : String
  deriving DecidableEq

inductive PolicyAction
  | allow
  | deny
  | escalate
  deriving DecidableEq

inductive Confidence
  | high
  | medium
  | low
  deriving DecidableEq

structure PolicyDecision where
  action : PolicyAction
  confidence : Confidence
  reasoning : String
  deriving DecidableEq

inductive EventDetails
  | trip (trigger : TriggerType) (count : Nat) (threshold windowMs : Int)
  | decision (value : PolicyDecision)
  deriving DecidableEq

structure ActivityEvent where
  connectionAddress : String
  eventType : String
  messageId : Option String := none
  badge : Option String := none
  actionType : Option String := none
  details : Option EventDetails := none
  createdAt : String := ""
  deriving DecidableEq

structure FlushState where
  remaining : Int
  queueStatusReceived : Bool
  /-- A caller of `waitForFlush` holds an unresolved promise. -/
  waiting : Bool
  deriving DecidableEq

structure Node extends Agent where
  messageStore : MessageStore
  breakerEvents : AList (fun _ : String => List EventRecord)
  activityFeed : List ActivityEvent
  flush : FlushState
  /-- The writes of the store file that were started and that nothing waits for. -/
  unawaitedSaves : Nat := 0

abbrev NodeOp := EStateM String Node

namespace Node

def updateState (now : Int) (id state : String) (failureReason : Option String := none) :
    NodeOp Unit :=
  modify (fun n => { n with
    messageStore := n.messageStore.updateState now id state failureReason })

def saveMessage (msg : MessageRecord) : NodeOp Unit := do
  match (← get).messageStore.saveMessage msg with
  | .ok s => modify (fun n => { n with messageStore := s })
  | .error e => throw e

def updateConnection (now : Int) (p : String) (u : ConnectionUpdates) : NodeOp Unit := do
  match (← get).connectionStore.updateConnection now p u with
  | .ok s => modify (fun n => { n with connectionStore := s })
  | .error e => throw e

/-- `ActivityFeed.record`, without the identifier and the hash columns. -/
def recordActivity (now : Int) (event : ActivityEvent) : NodeOp Unit :=
  modify (fun n => { n with activityFeed := n.activityFeed ++
    [{ event with
        actionType := some (event.actionType.getD event.eventType)
        createdAt := isoString now }] })

/-- A call of `save()` that is not awaited: a write that fails is an unhandled rejection. -/
def startSave : NodeOp Unit :=
  modify (fun n => { n with unawaitedSaves := n.unawaitedSaves + 1 })

end Node

structure CircuitBreakerConfig where
  floodThreshold : Int := 50
  floodWindowMs : Int := 60000
  violationThreshold : Int := 5
  violationWindowMs : Int := 300000
  boundaryProbeThreshold : Int := 3
  boundaryProbeWindowMs : Int := 600000

namespace CircuitBreaker

variable (config : CircuitBreakerConfig) (now : Int)

def longestWindow : Int :=
  max config.floodWindowMs (max config.violationWindowMs config.boundaryProbeWindowMs)

def pruneOldEvents (events : List EventRecord) : List EventRecord :=
  events.filter (fun e => now - longestWindow config < e.timestamp)

def addEvent (connectionAddress type : String) : NodeOp Unit :=
  modify (fun n => { n with
    breakerEvents := n.breakerEvents.insert connectionAddress
      (pruneOldEvents config now
        ((n.breakerEvents.lookup connectionAddress).getD [] ++ [⟨now, type⟩])) })

def isTripped (n : Node) (connectionAddress : String) : Bool :=
  (n.connectionStore.getConnection connectionAddress).bind (·.circuitBreakerTripped) = some true

def checks : List (TriggerType × Int × Int) :=
  [(.messageFlood, config.floodThreshold, config.floodWindowMs),
   (.permissionViolation, config.violationThreshold, config.violationWindowMs),
   (.spendingExceeded, config.violationThreshold, config.violationWindowMs),
   (.boundaryProbe, config.boundaryProbeThreshold, config.boundaryProbeWindowMs)]

def count (events : List EventRecord) (type : TriggerType) (windowMs : Int) : Nat :=
  (events.filter (fun e => e.type = type.name ∧ now - windowMs < e.timestamp)).length

def exceeded (events : List EventRecord) : Option (TriggerType × Int × Int) :=
  (checks config).find? (fun c => c.2.1 ≤ count now events c.1 c.2.2)

def trip (connectionAddress : String) (trigger : TriggerType) (count : Nat)
    (threshold windowMs : Int) : NodeOp Unit := do
  Node.updateConnection now connectionAddress { autonomyLevel := some .fullManual }
  Node.updateConnection now connectionAddress { circuitBreakerTripped := some true }
  Node.startSave
  Node.recordActivity now
    { connectionAddress := connectionAddress
      eventType := "circuit_breaker_tripped"
      badge := some "circuit_breaker"
      details := some (.trip trigger count threshold windowMs) }

def checkAndTrip (connectionAddress : String) : NodeOp Unit := do
  let n ← get
  if isTripped n connectionAddress then pure ()
  else
    let events := (n.breakerEvents.lookup connectionAddress).getD []
    match exceeded config now events with
    | some (trigger, threshold, windowMs) =>
      trip now connectionAddress trigger (count now events trigger windowMs) threshold windowMs
    | none => pure ()

def recordMessage (connectionAddress : String) : NodeOp Unit := do
  addEvent config now connectionAddress TriggerType.messageFlood.name
  checkAndTrip config now connectionAddress

def recordViolation (connectionAddress type : String) : NodeOp Unit := do
  addEvent config now connectionAddress type
  checkAndTrip config now connectionAddress

end CircuitBreaker

end Pinch
