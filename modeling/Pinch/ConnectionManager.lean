import Pinch.Envelope
import Pinch.ConnectionStore
import Pinch.StateSpec

/-! The connection lifecycle of one agent: the local operations and the handlers
of incoming connection envelopes. Each runs without interruption up to its
final `save`, so one call is one step on the records in memory. -/

namespace Pinch

structure Agent where
  connectionStore : ConnectionStore
  /-- Envelopes handed to the relay connection so far, oldest first. -/
  outbox : List Envelope
  deriving DecidableEq

/-- What one call finds outside the store: the address the relay assigned, whether
the socket is open and authenticated, the agent's key, the clock, and the error,
if any, that writing the store file ends in. -/
structure CallContext where
  assignedAddress : Option String
  connected : Bool
  publicKey : Option Bytes
  now : Int
  saveError : Option String

/-- A call that throws keeps what it has already written. -/
abbrev Op := EStateM String Agent

def maxMessageLength : Nat := 280

def requestTtlSeconds : Int := 604800

namespace ConnectionManager

def ownAddress (ctx : CallContext) : Op String :=
  match ctx.assignedAddress with
  | some a => if a = "" then throw "Not connected to relay" else pure a
  | none => throw "Not connected to relay"

def sendEnvelope (ctx : CallContext) (e : Envelope) : Op Unit :=
  if ctx.connected then modify (fun a => { a with outbox := a.outbox ++ [e] })
  else throw "not connected"

def save (ctx : CallContext) : Op Unit :=
  match ctx.saveError with
  | some e => throw e
  | none => pure ()

def getConnection (p : String) : Op (Option Connection) :=
  return (← get).connectionStore.getConnection p

def setStore : Except String ConnectionStore → Op Unit
  | .ok s => modify (fun a => { a with connectionStore := s })
  | .error e => throw e

def addConnection (ctx : CallContext) (c : NewConnection) : Op Unit := do
  setStore ((← get).connectionStore.addConnection ctx.now c)

def updateConnection (ctx : CallContext) (p : String) (u : ConnectionUpdates) : Op Unit := do
  setStore ((← get).connectionStore.updateConnection ctx.now p u)

def isoOrThrow (ms : Int) : Op String :=
  match toISOString ms with
  | some t => pure t
  | none => throw "Invalid time value"

def requestExpiry (now : Int) : Int := now.fdiv 1000 + requestTtlSeconds

def requestEnvelope (own toAddress message : String) (key : Bytes) (expiresAt : Int) :
    Envelope where
  version := 1
  fromAddress := own
  toAddress := toAddress
  type := .connectionRequest
  payload := .connectionRequest ⟨own, toAddress, message, key, expiresAt⟩

def responseEnvelope (own peerAddress : String) (key : Bytes) : Envelope where
  version := 1
  fromAddress := own
  toAddress := peerAddress
  type := .connectionResponse
  payload := .connectionResponse ⟨own, peerAddress, true, key⟩

def revokeEnvelope (own peerAddress : String) : Envelope where
  version := 1
  fromAddress := own
  toAddress := peerAddress
  type := .connectionRevoke
  payload := .connectionRevoke ⟨own, peerAddress⟩

def blockEnvelope (own peerAddress : String) : Envelope where
  version := 1
  fromAddress := own
  type := .blockNotification
  payload := .blockNotification ⟨own, peerAddress⟩

def unblockEnvelope (own peerAddress : String) : Envelope where
  version := 1
  fromAddress := own
  type := .unblockNotification
  payload := .unblockNotification ⟨own, peerAddress⟩

def sendRequest (ctx : CallContext) (toAddress message : String) : Op Unit := do
  if maxMessageLength < utf16Length message then
    throw "Message exceeds 280 character limit"
  let own ← ownAddress ctx
  let expiresAt := requestExpiry ctx.now
  sendEnvelope ctx (requestEnvelope own toAddress message (ctx.publicKey.getD []) expiresAt)
  let expiry ← isoOrThrow (expiresAt * 1000)
  addConnection ctx
    { peerAddress := toAddress
      peerPublicKey := ""
      state := .pendingOutbound
      nickname := ""
      autonomyLevel := some .fullManual
      shortMessage := some message
      expiresAt := some expiry }
  save ctx

def publicKeyText (key : Bytes) : String := if key = [] then "" else Base64.encode key

/-- `expiresAt` of a request; `0n` counts as absent. -/
def requestDeadline (expiresAt : Int) : Op (Option String) :=
  if expiresAt = 0 then pure none else some <$> isoOrThrow (expiresAt * 1000)

def handleIncomingRequest (ctx : CallContext) (envelope : Envelope) : Op Unit :=
  match envelope.payload with
  | .connectionRequest request => do
    let deadline ← requestDeadline request.expiresAt
    addConnection ctx
      { peerAddress := request.fromAddress
        peerPublicKey := publicKeyText request.senderPublicKey
        state := .pendingInbound
        nickname := ""
        autonomyLevel := some .fullManual
        shortMessage := some request.message
        expiresAt := deadline }
    save ctx
  | _ => pure ()

def requirePendingInbound (verb peerAddress : String) : Op Unit := do
  match ← getConnection peerAddress with
  | none => throw ("No connection found for " ++ peerAddress)
  | some conn =>
    if conn.state ≠ .pendingInbound then
      throw ("Cannot " ++ verb ++ " connection in state: " ++ conn.state.name)

def approveRequest (ctx : CallContext) (peerAddress : String) : Op Unit := do
  requirePendingInbound "approve" peerAddress
  let own ← ownAddress ctx
  sendEnvelope ctx (responseEnvelope own peerAddress (ctx.publicKey.getD []))
  updateConnection ctx peerAddress { state := some .active }
  save ctx

def rejectRequest (ctx : CallContext) (peerAddress : String) : Op Unit := do
  requirePendingInbound "reject" peerAddress
  updateConnection ctx peerAddress { state := some .revoked }
  save ctx

/-- An accepted response is applied whatever the record's state is, and one
without a key clears the stored key. -/
def handleIncomingResponse (ctx : CallContext) (envelope : Envelope) : Op Unit :=
  match envelope.payload with
  | .connectionResponse response => do
    if response.accepted then
      let key := publicKeyText response.responderPublicKey
      updateConnection ctx response.fromAddress
        { state := some .active, peerPublicKey := some (if key = "" then none else some key) }
    else
      updateConnection ctx response.fromAddress { state := some .revoked }
    save ctx
  | _ => pure ()

def setBlocked (ctx : CallContext) (peerAddress : String) (state : ConnectionState)
    (notification : String → String → Envelope) : Op Unit := do
  let own ← ownAddress ctx
  updateConnection ctx peerAddress { state := some state }
  sendEnvelope ctx (notification own peerAddress)
  save ctx

def blockConnection (ctx : CallContext) (peerAddress : String) : Op Unit :=
  setBlocked ctx peerAddress .blocked blockEnvelope

def unblockConnection (ctx : CallContext) (peerAddress : String) : Op Unit :=
  setBlocked ctx peerAddress .active unblockEnvelope

def revokeConnection (ctx : CallContext) (peerAddress : String) : Op Unit := do
  let own ← ownAddress ctx
  sendEnvelope ctx (revokeEnvelope own peerAddress)
  updateConnection ctx peerAddress { state := some .revoked }
  save ctx

def handleIncomingRevoke (ctx : CallContext) (envelope : Envelope) : Op Unit :=
  match envelope.payload with
  | .connectionRevoke revoke => do
    match ← getConnection revoke.fromAddress with
    | some _ =>
      updateConnection ctx revoke.fromAddress { state := some .revoked }
      save ctx
    | none => pure ()
  | _ => pure ()

def dispatch (ctx : CallContext) (envelope : Envelope) : Op Unit :=
  match envelope.type with
  | .connectionRequest => handleIncomingRequest ctx envelope
  | .connectionResponse => handleIncomingResponse ctx envelope
  | .connectionRevoke => handleIncomingRevoke ctx envelope
  | _ => pure ()

end ConnectionManager

inductive ConnectionEvent
  | sendRequest (toAddress message : String)
  | approveRequest (peerAddress : String)
  | rejectRequest (peerAddress : String)
  | blockConnection (peerAddress : String)
  | unblockConnection (peerAddress : String)
  | revokeConnection (peerAddress : String)
  | incoming (envelope : Envelope)
  deriving DecidableEq

open ConnectionManager in
def ConnectionEvent.perform (ctx : CallContext) : ConnectionEvent → Op Unit
  | .sendRequest toAddress message => ConnectionManager.sendRequest ctx toAddress message
  | .approveRequest p => ConnectionManager.approveRequest ctx p
  | .rejectRequest p => ConnectionManager.rejectRequest ctx p
  | .blockConnection p => ConnectionManager.blockConnection ctx p
  | .unblockConnection p => ConnectionManager.unblockConnection ctx p
  | .revokeConnection p => ConnectionManager.revokeConnection ctx p
  | .incoming envelope => dispatch ctx envelope

def finalState {ε σ α : Type} : EStateM.Result ε σ α → σ
  | .ok _ s => s
  | .error _ s => s

theorem Spec.finalState {ε σ α : Type} {P Q : σ → Prop} {x : EStateM ε σ α} {s : σ}
    (h : Spec P x (fun _ => Q) (fun _ => Q)) (hs : P s) : Q (finalState (x.run s)) := by
  have hh := h s hs
  revert hh
  cases x.run s with
  | ok a t => exact id
  | error e t => exact id

def returned {ε σ α : Type} : EStateM.Result ε σ α → Option α
  | .ok a _ => some a
  | .error _ _ => none

theorem eq_ok_of_returned {ε σ α : Type} {r : EStateM.Result ε σ α} {a : α}
    (h : returned r = some a) : r = .ok a (finalState r) := by
  cases r with
  | ok b s => rw [Option.some.inj h]; rfl
  | error e s => simp [returned] at h

/-- One call to completion; an exception ends the call, not the agent. -/
def Agent.step (a : Agent) (call : CallContext × ConnectionEvent) : Agent :=
  finalState ((call.2.perform call.1).run a)

def Agent.run (a : Agent) (calls : List (CallContext × ConnectionEvent)) : Agent :=
  calls.foldl Agent.step a

def Agent.initial : Agent := ⟨∅, []⟩

end Pinch
