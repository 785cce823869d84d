import Pinch.EnforcementPipeline
import Mathlib.Data.Nat.Log

/-! Receiving messages and delivery confirmations. Handlers run up to their first
`await` when an envelope arrives; what is left of them is a task that goes on
later, in any order with the other tasks. -/

namespace Pinch

/-- A value `JSON.parse` returns. A number is kept as the text SQLite stores for it. -/
inductive Json
  | null
  | bool (value : Bool)
  | number (text : String)
  | string (value : String)
  | array (elements : List Json)
  | object (fields : List (String × Json))

def Json.get (key : String) : Json → Option Json
  | .object fields => fields.lookup key
  | _ => none

/-- The libraries the message handling rests on. `none` stands for an exception. -/
structure Libraries where
  sha256 : Bytes → Bytes
  pkToCurve25519 : Bytes → Option Bytes
  skToCurve25519 : Bytes → Option Bytes
  /-- `crypto_box_open_easy(ciphertext, nonce, publicKey, secretKey)`. -/
  boxOpenEasy : Bytes → Bytes → Bytes → Bytes → Option Bytes
  /-- `crypto_sign_detached(message, secretKey)`. -/
  signDetached : Bytes → Bytes → Option Bytes
  /-- `crypto_sign_verify_detached(signature, message, publicKey)`. -/
  verifyDetached : Bytes → Bytes → Bytes → Option Bool
  plaintextFromBinary : Bytes → Option PlaintextPayload
  parseJson : String → Option Json

structure Setup where
  lib : Libraries
  privateKey : Bytes
  breakerConfig : CircuitBreakerConfig

def nonceBytes : Nat := 24

def decrypt (lib : Libraries) (sealed senderX25519Pub recipientX25519Priv : Bytes) : Option Bytes :=
  lib.boxOpenEasy (sealed.drop nonceBytes) (sealed.take nonceBytes) senderX25519Pub
    recipientX25519Priv

/-- `Number` of a 64-bit integer: the nearest double, ties to even. -/
def toDouble (n : Nat) : Nat :=
  let unit := 2 ^ (Nat.log 2 n - 52)
  let q := n / unit
  let r := n % unit
  if unit < 2 * r ∨ (2 * r = unit ∧ q % 2 = 1) then (q + 1) * unit else q * unit

/-- The part of a plaintext that is stored; `body` is `none` for a value that cannot
be bound to the column. -/
structure Content where
  body : Option String
  attribution : Attribution := .agent
  threadId : Option String := none
  replyTo : Option String := none
  deriving DecidableEq

def pinchJson : String := "application/x-pinch+json"

def jsonString : Option Json → Option String
  | some (.string s) => some s
  | _ => none

/-- The fields read from a parsed wrapper. `null` has no fields to read, so the
exception puts the raw text back. -/
def wrapperContent (rawBody : String) (parsed : Json) : Content :=
  match parsed with
  | .null => { body := some rawBody }
  | _ =>
    { body := match parsed.get "text" with
        | none | some .null => some rawBody
        | some (.string s) | some (.number s) => some s
        | some _ => none
      attribution := if jsonString (parsed.get "attribution") = some "human" then .human else .agent
      threadId := jsonString (parsed.get "threadId")
      replyTo := jsonString (parsed.get "replyTo") }

def readContent (lib : Libraries) (plaintext : PlaintextPayload) : Content :=
  let rawBody := textDecode plaintext.content
  if plaintext.contentType = pinchJson then
    match lib.parseJson rawBody with
    | some parsed => wrapperContent rawBody parsed
    | none => { body := some rawBody }
  else { body := some rawBody }

def bigInt64Bytes (n : Int) : Bytes :=
  (List.range 8).map (fun i => UInt8.ofNat ((n % 2 ^ 64).toNat / 256 ^ (7 - i)))

def buildPayload (messageId : Bytes) (timestamp : Int) : Bytes :=
  messageId ++ bigInt64Bytes timestamp

inductive Task
  | processing (message : MessageRecord) (senderAddress : String) (stage : Stage)
  | signing (messageId senderAddress : String) (timestamp : Int)
  | verifying (confirm : DeliveryConfirm) (peerPubKey : Bytes)
  deriving DecidableEq

namespace MessageManager

def orThrow {α : Type} (error : String) : Option α → NodeOp α
  | some a => pure a
  | none => throw error

section

variable (setup : Setup) (ctx : CallContext)

def inboundMessage (senderAddress : String) (messageId : String) (plaintext : PlaintextPayload)
    (content : Content) (body : String) : MessageRecord where
  id := messageId
  connectionAddress := senderAddress
  direction := .inbound
  body := body
  threadId := content.threadId
  replyTo := content.replyTo
  sequence := toDouble plaintext.sequence
  state := "delivered"
  priority := .normal
  attribution := some content.attribution
  createdAt := isoString ctx.now
  updatedAt := isoString ctx.now

def openPayload (payload : EncryptedPayload) : NodeOp PlaintextPayload := do
  let senderX25519Pub ← orThrow "invalid key" (setup.lib.pkToCurve25519 payload.senderPublicKey)
  let recipientX25519Priv ← orThrow "invalid key" (setup.lib.skToCurve25519 setup.privateKey)
  let decryptedBytes ← orThrow "incorrect key pair for the given ciphertext"
    (decrypt setup.lib (payload.nonce ++ payload.ciphertext) senderX25519Pub recipientX25519Priv)
  orThrow "invalid wire format" (setup.lib.plaintextFromBinary decryptedBytes)

/-- The sender is the address on the envelope; the key that opens the payload is the
one inside it. -/
def handleIncomingMessage (envelope : Envelope) : NodeOp (Option Task) :=
  match envelope.payload with
  | .encrypted payload => do
    let plaintext ← openPayload setup payload
    let content := readContent setup.lib plaintext
    let body ← orThrow "SQLite3 can only bind numbers, strings, bigints, buffers, and null"
      content.body
    let message := inboundMessage ctx envelope.fromAddress (textDecode envelope.messageId) plaintext
      content body
    Node.saveMessage message
    let stage ← EnforcementPipeline.process ctx.now message envelope.fromAddress
    return some (.processing message envelope.fromAddress stage)
  | _ => throw "Expected encrypted payload"

/-- The part of `sendDeliveryConfirmation` before the signature is awaited. -/
def sendDeliveryConfirmation (messageId senderAddress : String) : NodeOp (Option Task) :=
  return some (.signing messageId senderAddress ctx.now)

def confirmEnvelope (own senderAddress : String) (messageIdBytes signature : Bytes)
    (timestamp : Int) : Envelope where
  version := 1
  fromAddress := own
  toAddress := senderAddress
  type := .deliveryConfirm
  timestamp := timestamp
  payload := .deliveryConfirm ⟨messageIdBytes, signature, timestamp, "delivered", false⟩

def sendEnvelope (envelope : Envelope) : NodeOp Unit :=
  if ctx.connected then modify (fun n => { n with outbox := n.outbox ++ [envelope] })
  else throw "not connected"

def sendSigned (messageId senderAddress : String) (timestamp : Int) : NodeOp (Option Task) := do
  let messageIdBytes := textEncode messageId
  let signature ← orThrow "invalid privateKey length"
    (setup.lib.signDetached (buildPayload messageIdBytes timestamp) setup.privateKey)
  match ctx.assignedAddress.filter (· ≠ "") with
  | some own =>
    sendEnvelope ctx (confirmEnvelope own senderAddress messageIdBytes signature timestamp)
    return none
  | none => return none

def handleDeliveryConfirmation (envelope : Envelope) : NodeOp (Option Task) :=
  match envelope.payload with
  | .deliveryConfirm confirm => do
    let n ← get
    match n.messageStore.getMessage (textDecode confirm.messageId) with
    | none => return none
    | some _ =>
      match n.connectionStore.getPeerPublicKey setup.lib.sha256 envelope.fromAddress with
      | none => return none
      | some peerPubKey => return some (.verifying confirm peerPubKey)
  | _ => throw "Expected deliveryConfirm payload"

def verifyDeliveryConfirmation (confirm : DeliveryConfirm) (peerPubKey : Bytes) : Option Bool :=
  setup.lib.verifyDetached confirm.signature (buildPayload confirm.messageId confirm.timestamp)
    peerPubKey

/-- The rest of `handleDeliveryConfirmation`: any row of that id is written. -/
def applyConfirmation (confirm : DeliveryConfirm) (peerPubKey : Bytes) : NodeOp (Option Task) := do
  let valid ← orThrow "invalid signature length" (verifyDeliveryConfirmation setup confirm peerPubKey)
  if valid then
    Node.updateState ctx.now (textDecode confirm.messageId) confirm.state
  return none

def handleQueueStatus (envelope : Envelope) : NodeOp (Option Task) :=
  match envelope.payload with
  | .queueStatus status => do
    modify (fun n => { n with
      flush := { n.flush with remaining := status.pendingCount, queueStatusReceived := true } })
    return none
  | _ => return none

def trackFlush : NodeOp Unit :=
  modify (fun n =>
    if 0 < n.flush.remaining then
      { n with flush := { n.flush with
          remaining := n.flush.remaining - 1
          waiting := n.flush.waiting && decide (0 < n.flush.remaining - 1) } }
    else n)

/-- The dispatch that `setupHandlers` registers. Notices of a full queue or a rate
limit are only logged. -/
def dispatch (envelope : Envelope) : NodeOp (Option Task) := do
  trackFlush
  match envelope.type with
  | .message => handleIncomingMessage setup ctx envelope
  | .deliveryConfirm => handleDeliveryConfirmation setup envelope
  | .queueStatus => handleQueueStatus envelope
  | _ => return none

def resume (verdict : Verdict) : Task → NodeOp (Option Task)
  | .processing message senderAddress (.done _) =>
    sendDeliveryConfirmation ctx message.id senderAddress
  | .processing message senderAddress stage => do
    let next ← EnforcementPipeline.resume setup.breakerConfig ctx.now message senderAddress verdict
      stage
    return some (.processing message senderAddress next)
  | .signing messageId senderAddress timestamp =>
    sendSigned setup ctx messageId senderAddress timestamp
  | .verifying confirm peerPubKey => applyConfirmation setup ctx confirm peerPubKey

end

end MessageManager

structure Process where
  node : Node
  tasks : Nat → Option Task
  /-- Tasks are numbered in the order they started. -/
  started : Nat

def Process.idle (node : Node) : Process := ⟨node, fun _ => none, 0⟩

inductive ProcessLabel
  | incoming (ctx : CallContext) (envelope : Envelope)
  | resume (task : Nat) (ctx : CallContext) (verdict : Verdict)
  | approveMessage (now : Int) (messageId : String) (action : InboundRouter.ApproveAction)
  /-- The connection records change under the message handlers. -/
  | connections (store : ConnectionStore)

def Process.step (setup : Setup) (s : Process) : ProcessLabel → Option Process
  | .incoming ctx envelope =>
    let r := (MessageManager.dispatch setup ctx envelope).run s.node
    some
      { node := finalState r
        tasks := Function.update s.tasks s.started (returned r).join
        started := s.started + 1 }
  | .resume task ctx verdict =>
    (s.tasks task).map (fun t =>
      let r := (MessageManager.resume setup ctx verdict t).run s.node
      { s with node := finalState r, tasks := Function.update s.tasks task (returned r).join })
  | .approveMessage now messageId action =>
    some { s with
      node := finalState ((InboundRouter.approveMessage now messageId action).run s.node) }
  | .connections store => some { s with node := { s.node with connectionStore := store } }

end Pinch
