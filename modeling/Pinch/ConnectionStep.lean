import Pinch.ConnectionManager

/-! What one call does to the record of one peer and to the outbox. Every later
statement about connections goes through the two equations proved here. -/

namespace Pinch

open ConnectionManager

inductive RecordEffect
  | keep
  | create (c : NewConnection)
  | update (u : ConnectionUpdates)

def RecordEffect.apply (now : Int) (r : Option Connection) : RecordEffect → Option Connection
  | .keep => r
  | .create c => some (ConnectionStore.freshConnection now c)
  | .update u => r.map (fun c => ConnectionStore.assign c u now)

def CallContext.own (ctx : CallContext) : Option String := ctx.assignedAddress.filter (· ≠ "")

def deadlineOf (expiresAt : Int) : Option (Option String) :=
  if expiresAt = 0 then some none else (toISOString (expiresAt * 1000)).map some

def outboundRecord (toAddress message expiry : String) : NewConnection where
  peerAddress := toAddress
  peerPublicKey := ""
  state := .pendingOutbound
  nickname := ""
  autonomyLevel := some .fullManual
  shortMessage := some message
  expiresAt := some expiry

def inboundRecord (r : ConnectionRequest) (deadline : Option String) : NewConnection where
  peerAddress := r.fromAddress
  peerPublicKey := publicKeyText r.senderPublicKey
  state := .pendingInbound
  nickname := ""
  autonomyLevel := some .fullManual
  shortMessage := some r.message
  expiresAt := deadline

def responseUpdate (r : ConnectionResponse) : ConnectionUpdates :=
  if r.accepted then
    { state := some .active
      peerPublicKey := some (if publicKeyText r.responderPublicKey = "" then none
        else some (publicKeyText r.responderPublicKey)) }
  else { state := some .revoked }

def incomingEffect (p : String) (e : Envelope) : RecordEffect :=
  match e.type, e.payload with
  | .connectionRequest, .connectionRequest r =>
    if r.fromAddress = p ∧ utf16Length r.message ≤ 280 then
      match deadlineOf r.expiresAt with
      | some deadline => .create (inboundRecord r deadline)
      | none => .keep
    else .keep
  | .connectionResponse, .connectionResponse r =>
    if r.fromAddress = p then .update (responseUpdate r) else .keep
  | .connectionRevoke, .connectionRevoke r =>
    if r.fromAddress = p then .update { state := some .revoked } else .keep
  | _, _ => .keep

/-- `st` is the state of the record before the call. -/
def ConnectionEvent.effect (ctx : CallContext) (p : String) (st : Option ConnectionState) :
    ConnectionEvent → RecordEffect
  | .sendRequest toAddress message =>
    if toAddress = p ∧ utf16Length message ≤ 280 ∧ ctx.own.isSome ∧ ctx.connected then
      match toISOString (requestExpiry ctx.now * 1000) with
      | some expiry => .create (outboundRecord toAddress message expiry)
      | none => .keep
    else .keep
  | .approveRequest q =>
    if q = p ∧ st = some .pendingInbound ∧ ctx.own.isSome ∧ ctx.connected then
      .update { state := some .active }
    else .keep
  | .rejectRequest q =>
    if q = p ∧ st = some .pendingInbound then .update { state := some .revoked } else .keep
  | .blockConnection q =>
    if q = p ∧ ctx.own.isSome then .update { state := some .blocked } else .keep
  | .unblockConnection q =>
    if q = p ∧ ctx.own.isSome then .update { state := some .active } else .keep
  | .revokeConnection q =>
    if q = p ∧ ctx.own.isSome ∧ ctx.connected then .update { state := some .revoked } else .keep
  | .incoming envelope => incomingEffect p envelope

def ConnectionEvent.sent (ctx : CallContext) (store : ConnectionStore) :
    ConnectionEvent → List Envelope
  | .sendRequest toAddress message =>
    match ctx.own with
    | some own =>
      if utf16Length message ≤ 280 ∧ ctx.connected then
        [requestEnvelope own toAddress message (ctx.publicKey.getD []) (requestExpiry ctx.now)]
      else []
    | none => []
  | .approveRequest q =>
    match ctx.own with
    | some own =>
      if (store.getConnection q).map (·.state) = some .pendingInbound ∧ ctx.connected then
        [responseEnvelope own q (ctx.publicKey.getD [])]
      else []
    | none => []
  | .rejectRequest _ => []
  | .blockConnection q =>
    match ctx.own with
    | some own =>
      if (store.getConnection q).isSome ∧ ctx.connected then [blockEnvelope own q] else []
    | none => []
  | .unblockConnection q =>
    match ctx.own with
    | some own =>
      if (store.getConnection q).isSome ∧ ctx.connected then [unblockEnvelope own q] else []
    | none => []
  | .revokeConnection q =>
    match ctx.own with
    | some own => if ctx.connected then [revokeEnvelope own q] else []
    | none => []
  | .incoming _ => []

section Primitives

variable (ctx : CallContext) (a : Agent)

theorem finalState_bind {ε σ α β : Type} (x : EStateM ε σ α) (f : α → EStateM ε σ β) (s : σ) :
    finalState ((x >>= f).run s) =
      match x.run s with
      | .ok v t => finalState ((f v).run t)
      | .error _ t => t := by
  simp only [EStateM.run, bind, EStateM.bind]
  cases x s <;> rfl

theorem ownAddress_run : (ownAddress ctx).run a =
    match ctx.own with
    | some own => .ok own a
    | none => .error "Not connected to relay" a := by
  cases h : ctx.assignedAddress with
  | none =>
    simp only [ownAddress, CallContext.own, h, Option.filter]
    rfl
  | some o =>
    by_cases ho : o = ""
    · simp only [ownAddress, CallContext.own, h, ho, Option.filter]
      rfl
    · simp only [ownAddress, CallContext.own, h, ho, Option.filter, ne_eq, not_false_eq_true,
        decide_true, if_true, if_false]
      rfl

theorem sendEnvelope_run (e : Envelope) : (sendEnvelope ctx e).run a =
    if ctx.connected then .ok () { a with outbox := a.outbox ++ [e] }
    else .error "not connected" a := by
  unfold sendEnvelope
  split_ifs <;> rfl

@[simp] theorem finalState_save : finalState ((save ctx).run a) = a := by
  unfold save
  split <;> rfl

theorem isoOrThrow_run (ms : Int) : (isoOrThrow ms).run a =
    match toISOString ms with
    | some t => .ok t a
    | none => .error "Invalid time value" a := by
  unfold isoOrThrow
  cases toISOString ms <;> rfl

theorem requestDeadline_run (expiresAt : Int) : (requestDeadline expiresAt).run a =
    match deadlineOf expiresAt with
    | some d => .ok d a
    | none => .error "Invalid time value" a := by
  by_cases h : expiresAt = 0
  · simp only [requestDeadline, deadlineOf, h, if_true]
    rfl
  · have hr := isoOrThrow_run a (expiresAt * 1000)
    simp only [EStateM.run] at hr
    simp only [requestDeadline, deadlineOf, h, if_false, EStateM.run, Functor.map, EStateM.map, hr]
    cases toISOString (expiresAt * 1000) <;> rfl

theorem addConnection_run (c : NewConnection) : (addConnection ctx c).run a =
    if 280 < utf16Length (c.shortMessage.getD "") then
      .error "shortMessage exceeds 280 character limit" a
    else .ok () { a with connectionStore :=
      a.connectionStore.insert c.peerAddress (ConnectionStore.freshConnection ctx.now c) } := by
  change (setStore (a.connectionStore.addConnection ctx.now c)).run a = _
  unfold ConnectionStore.addConnection ConnectionStore.maxShortMessageLength
  split_ifs <;> rfl

theorem updateConnection_run (p : String) (u : ConnectionUpdates) :
    (updateConnection ctx p u).run a =
    match a.connectionStore.getConnection p with
    | none => .error ("connection not found: " ++ p) a
    | some c => .ok () { a with connectionStore :=
        a.connectionStore.insert p (ConnectionStore.assign c u ctx.now) } := by
  change (setStore (a.connectionStore.updateConnection ctx.now p u)).run a = _
  unfold ConnectionStore.updateConnection
  cases a.connectionStore.getConnection p <;> rfl

theorem finalState_requirePendingInbound (verb p : String) (k : Op Unit) :
    finalState ((requirePendingInbound verb p >>= fun _ => k).run a) =
      if (a.connectionStore.getConnection p).map (·.state) = some .pendingInbound then
        finalState (k.run a)
      else a := by
  rw [finalState_bind]
  have hr : (requirePendingInbound verb p).run a =
      match a.connectionStore.getConnection p with
      | none => .error ("No connection found for " ++ p) a
      | some c => if c.state ≠ .pendingInbound then
          .error ("Cannot " ++ verb ++ " connection in state: " ++ c.state.name) a
        else .ok () a := by
    simp only [requirePendingInbound, getConnection, EStateM.run_bind, EStateM.run_get,
      EStateM.run_pure]
    cases a.connectionStore.getConnection p with
    | none => rfl
    | some c =>
      simp only
      split_ifs <;> rfl
  rw [hr]
  cases a.connectionStore.getConnection p with
  | none => rfl
  | some c => by_cases hc : c.state = .pendingInbound <;> simp [hc]

end Primitives

section Calls

variable (ctx : CallContext) (a : Agent)

def Agent.updated (a : Agent) (now : Int) (p : String) (u : ConnectionUpdates) : Agent :=
  match a.connectionStore.getConnection p with
  | none => a
  | some c => { a with connectionStore :=
      a.connectionStore.insert p (ConnectionStore.assign c u now) }

def Agent.created (a : Agent) (now : Int) (c : NewConnection) : Agent :=
  { a with connectionStore :=
      a.connectionStore.insert c.peerAddress (ConnectionStore.freshConnection now c) }

def Agent.sending (a : Agent) (e : Envelope) : Agent := { a with outbox := a.outbox ++ [e] }

@[simp] theorem Agent.updated_outbox (now : Int) (p : String) (u : ConnectionUpdates) :
    (a.updated now p u).outbox = a.outbox := by
  unfold Agent.updated
  split <;> rfl

theorem Agent.getConnection_updated (now : Int) (p q : String) (u : ConnectionUpdates) :
    (a.updated now q u).connectionStore.getConnection p =
      if q = p then (a.connectionStore.getConnection p).map (ConnectionStore.assign · u now)
      else a.connectionStore.getConnection p := by
  unfold Agent.updated
  by_cases h : q = p
  · subst h
    cases hc : a.connectionStore.getConnection q <;>
      simp [hc, ConnectionStore.getConnection_insert]
  · cases hc : a.connectionStore.getConnection q <;>
      simp [h, ConnectionStore.getConnection_insert]

theorem Agent.getConnection_created (now : Int) (p : String) (c : NewConnection) :
    (a.created now c).connectionStore.getConnection p =
      if c.peerAddress = p then some (ConnectionStore.freshConnection now c)
      else a.connectionStore.getConnection p :=
  ConnectionStore.getConnection_insert _ _ _ _

theorem finalState_update (p : String) (u : ConnectionUpdates) :
    finalState ((do updateConnection ctx p u; save ctx : Op Unit).run a) =
      a.updated ctx.now p u := by
  rw [finalState_bind, updateConnection_run]
  unfold Agent.updated
  cases a.connectionStore.getConnection p <;> simp

theorem finalState_create (c : NewConnection) :
    finalState ((do addConnection ctx c; save ctx : Op Unit).run a) =
      if utf16Length (c.shortMessage.getD "") ≤ 280 then a.created ctx.now c else a := by
  rw [finalState_bind, addConnection_run]
  by_cases h : utf16Length (c.shortMessage.getD "") ≤ 280
  · simp [h, Nat.not_lt.mpr h, Agent.created]
  · simp [h, Nat.lt_of_not_le h]

theorem step_sendRequest (toAddress message : String) :
    a.step (ctx, .sendRequest toAddress message) =
      match ctx.own with
      | none => a
      | some own =>
        if utf16Length message ≤ 280 ∧ ctx.connected then
          let b := a.sending
            (requestEnvelope own toAddress message (ctx.publicKey.getD []) (requestExpiry ctx.now))
          match toISOString (requestExpiry ctx.now * 1000) with
          | none => b
          | some expiry => b.created ctx.now (outboundRecord toAddress message expiry)
        else a := by
  by_cases hm : utf16Length message ≤ 280
  · have hlt : ¬ maxMessageLength < utf16Length message := Nat.not_lt.mpr hm
    simp only [Agent.step, ConnectionEvent.perform, sendRequest, hlt, if_false]
    change finalState ((ownAddress ctx >>= _).run a) = _
    rw [finalState_bind, ownAddress_run]
    cases ctx.own with
    | none => rfl
    | some own =>
      simp only
      rw [finalState_bind, sendEnvelope_run]
      by_cases hc : ctx.connected = true
      · simp only [hc, if_true, hm, and_self]
        rw [finalState_bind, isoOrThrow_run]
        cases toISOString (requestExpiry ctx.now * 1000) with
        | none => rfl
        | some expiry =>
          simp only
          refine (finalState_create ctx _ _).trans ?_
          simp only [Option.getD_some, hm, if_true]
          rfl
      · simp [hc]
  · have hlt : maxMessageLength < utf16Length message := Nat.lt_of_not_le hm
    simp only [Agent.step, ConnectionEvent.perform, sendRequest, hlt, if_true, hm, false_and,
      if_false]
    cases ctx.own <;> rfl

theorem step_approveRequest (q : String) :
    a.step (ctx, .approveRequest q) =
      match ctx.own with
      | none => a
      | some own =>
        if (a.connectionStore.getConnection q).map (·.state) = some .pendingInbound ∧
            ctx.connected then
          (a.sending (responseEnvelope own q (ctx.publicKey.getD []))).updated ctx.now q
            { state := some .active }
        else a := by
  simp only [Agent.step, ConnectionEvent.perform, approveRequest]
  rw [finalState_requirePendingInbound, finalState_bind, ownAddress_run]
  cases ctx.own with
  | none => simp
  | some own =>
    simp only
    rw [finalState_bind, sendEnvelope_run]
    by_cases hc : ctx.connected = true
    · simp only [hc, if_true, and_true]
      rw [finalState_update]
      rfl
    · simp [hc]

theorem step_rejectRequest (q : String) :
    a.step (ctx, .rejectRequest q) =
      if (a.connectionStore.getConnection q).map (·.state) = some .pendingInbound then
        a.updated ctx.now q { state := some .revoked }
      else a := by
  simp only [Agent.step, ConnectionEvent.perform, rejectRequest]
  rw [finalState_requirePendingInbound, finalState_update]

theorem step_setBlocked (q : String) (st : ConnectionState) (note : String → String → Envelope) :
    finalState ((setBlocked ctx q st note).run a) =
      match ctx.own with
      | none => a
      | some own =>
        let b := a.updated ctx.now q { state := some st }
        if (a.connectionStore.getConnection q).isSome ∧ ctx.connected then b.sending (note own q)
        else b := by
  unfold setBlocked
  rw [finalState_bind, ownAddress_run]
  cases ctx.own with
  | none => rfl
  | some own =>
    simp only
    rw [finalState_bind, updateConnection_run]
    cases hq : a.connectionStore.getConnection q with
    | none => simp [Agent.updated, hq]
    | some c =>
      simp only
      rw [finalState_bind, sendEnvelope_run]
      by_cases hc : ctx.connected = true <;> simp [hc, Agent.updated, hq, Agent.sending]

theorem step_revokeConnection (q : String) :
    a.step (ctx, .revokeConnection q) =
      match ctx.own with
      | none => a
      | some own =>
        if ctx.connected then
          (a.sending (revokeEnvelope own q)).updated ctx.now q { state := some .revoked }
        else a := by
  simp only [Agent.step, ConnectionEvent.perform, revokeConnection]
  rw [finalState_bind, ownAddress_run]
  cases ctx.own with
  | none => rfl
  | some own =>
    simp only
    rw [finalState_bind, sendEnvelope_run]
    by_cases hc : ctx.connected = true
    · simp only [hc, if_true]
      rw [finalState_update]
      rfl
    · simp [hc]

theorem step_request {e : Envelope} {r : ConnectionRequest} (ht : e.type = .connectionRequest)
    (hp : e.payload = .connectionRequest r) :
    a.step (ctx, .incoming e) =
      match deadlineOf r.expiresAt with
      | none => a
      | some deadline =>
        if utf16Length r.message ≤ 280 then a.created ctx.now (inboundRecord r deadline) else a := by
  simp only [Agent.step, ConnectionEvent.perform, dispatch, ht, handleIncomingRequest, hp]
  rw [finalState_bind, requestDeadline_run]
  cases deadlineOf r.expiresAt with
  | none => rfl
  | some deadline => exact finalState_create ctx a (inboundRecord r deadline)

theorem step_response {e : Envelope} {r : ConnectionResponse} (ht : e.type = .connectionResponse)
    (hp : e.payload = .connectionResponse r) :
    a.step (ctx, .incoming e) = a.updated ctx.now r.fromAddress (responseUpdate r) := by
  simp only [Agent.step, ConnectionEvent.perform, dispatch, ht, handleIncomingResponse, hp]
  by_cases hr : r.accepted = true
  · simp only [hr, if_true, responseUpdate]
    exact finalState_update ctx a _ _
  · simp only [hr, responseUpdate, Bool.false_eq_true, if_false]
    exact finalState_update ctx a _ _

theorem step_revoke {e : Envelope} {r : ConnectionRevoke} (ht : e.type = .connectionRevoke)
    (hp : e.payload = .connectionRevoke r) :
    a.step (ctx, .incoming e) = a.updated ctx.now r.fromAddress { state := some .revoked } := by
  simp only [Agent.step, ConnectionEvent.perform, dispatch, ht, handleIncomingRevoke, hp]
  rw [finalState_bind]
  simp only [getConnection, EStateM.run_bind, EStateM.run_get, EStateM.run_pure]
  cases hc : a.connectionStore.getConnection r.fromAddress with
  | none => simp only [Agent.updated, hc]; rfl
  | some c => exact finalState_update ctx a _ _

/-- What an envelope is to the connection handlers; any other type, and any payload
that is not the one its type announces, is ignored. -/
inductive Envelope.Kind (e : Envelope) : Prop
  | request (r : ConnectionRequest) (ht : e.type = .connectionRequest)
      (hp : e.payload = .connectionRequest r)
  | response (r : ConnectionResponse) (ht : e.type = .connectionResponse)
      (hp : e.payload = .connectionResponse r)
  | revoke (r : ConnectionRevoke) (ht : e.type = .connectionRevoke)
      (hp : e.payload = .connectionRevoke r)
  | ignored (hs : ∀ (ctx : CallContext) (a : Agent), a.step (ctx, .incoming e) = a)
      (he : ∀ p, incomingEffect p e = .keep)

theorem Envelope.kind (e : Envelope) : e.Kind := by
  cases ht : e.type with
  | connectionRequest =>
    cases hp : e.payload with
    | connectionRequest r => exact .request r ht hp
    | _ =>
      refine .ignored (fun ctx a => ?_) (fun p => by simp only [incomingEffect, ht, hp])
      simp only [Agent.step, ConnectionEvent.perform, dispatch, ht, handleIncomingRequest, hp]
      rfl
  | connectionResponse =>
    cases hp : e.payload with
    | connectionResponse r => exact .response r ht hp
    | _ =>
      refine .ignored (fun ctx a => ?_) (fun p => by simp only [incomingEffect, ht, hp])
      simp only [Agent.step, ConnectionEvent.perform, dispatch, ht, handleIncomingResponse, hp]
      rfl
  | connectionRevoke =>
    cases hp : e.payload with
    | connectionRevoke r => exact .revoke r ht hp
    | _ =>
      refine .ignored (fun ctx a => ?_) (fun p => by simp only [incomingEffect, ht, hp])
      simp only [Agent.step, ConnectionEvent.perform, dispatch, ht, handleIncomingRevoke, hp]
      rfl
  | _ =>
    refine .ignored (fun ctx a => ?_) (fun p => by simp only [incomingEffect, ht])
    simp only [Agent.step, ConnectionEvent.perform, dispatch, ht]
    rfl

/-- Everything a call can do to the record of `p`, with the guards it passed. -/
inductive EffectCase (ctx : CallContext) (p : String) (st : Option ConnectionState) :
    ConnectionEvent → RecordEffect → Prop
  | keep (ev : ConnectionEvent) : EffectCase ctx p st ev .keep
  | sendRequest (message expiry : String) :
      EffectCase ctx p st (.sendRequest p message) (.create (outboundRecord p message expiry))
  | approveRequest (hs : st = some .pendingInbound) :
      EffectCase ctx p st (.approveRequest p) (.update { state := some .active })
  | rejectRequest (hs : st = some .pendingInbound) :
      EffectCase ctx p st (.rejectRequest p) (.update { state := some .revoked })
  | blockConnection : EffectCase ctx p st (.blockConnection p) (.update { state := some .blocked })
  | unblockConnection (ho : ctx.own.isSome) :
      EffectCase ctx p st (.unblockConnection p) (.update { state := some .active })
  | revokeConnection :
      EffectCase ctx p st (.revokeConnection p) (.update { state := some .revoked })
  | request (e : Envelope) (r : ConnectionRequest) (deadline : Option String)
      (ht : e.type = .connectionRequest) (hp : e.payload = .connectionRequest r)
      (hq : r.fromAddress = p) (hm : utf16Length r.message ≤ 280)
      (hd : deadlineOf r.expiresAt = some deadline) :
      EffectCase ctx p st (.incoming e) (.create (inboundRecord r deadline))
  | response (e : Envelope) (r : ConnectionResponse) (ht : e.type = .connectionResponse)
      (hp : e.payload = .connectionResponse r) (hq : r.fromAddress = p) :
      EffectCase ctx p st (.incoming e) (.update (responseUpdate r))
  | revoke (e : Envelope) (r : ConnectionRevoke) (ht : e.type = .connectionRevoke)
      (hp : e.payload = .connectionRevoke r) (hq : r.fromAddress = p) :
      EffectCase ctx p st (.incoming e) (.update { state := some .revoked })

theorem ConnectionEvent.effect_case (p : String) (st : Option ConnectionState)
    (ev : ConnectionEvent) :
    EffectCase ctx p st ev (ev.effect ctx p st) := by
  cases ev with
  | incoming e =>
    cases e.kind with
    | ignored _ he =>
      rw [ConnectionEvent.effect, he]
      exact .keep _
    | request r ht hp =>
      simp only [ConnectionEvent.effect, incomingEffect, ht, hp]
      split_ifs with h
      · cases hd : deadlineOf r.expiresAt with
        | none => exact .keep _
        | some d => exact .request e r d ht hp h.1 h.2 hd
      · exact .keep _
    | response r ht hp =>
      simp only [ConnectionEvent.effect, incomingEffect, ht, hp]
      split_ifs with h
      · exact .response e r ht hp h
      · exact .keep _
    | revoke r ht hp =>
      simp only [ConnectionEvent.effect, incomingEffect, ht, hp]
      split_ifs with h
      · exact .revoke e r ht hp h
      · exact .keep _
  | sendRequest target message =>
    simp only [ConnectionEvent.effect]
    split_ifs with h
    · cases toISOString (requestExpiry ctx.now * 1000) with
      | none => exact .keep _
      | some expiry => exact h.1 ▸ .sendRequest message expiry
    · exact .keep _
  | approveRequest q =>
    simp only [ConnectionEvent.effect]
    split_ifs with h
    · exact h.1 ▸ .approveRequest h.2.1
    · exact .keep _
  | rejectRequest q =>
    simp only [ConnectionEvent.effect]
    split_ifs with h
    · exact h.1 ▸ .rejectRequest h.2
    · exact .keep _
  | blockConnection q =>
    simp only [ConnectionEvent.effect]
    split_ifs with h
    · exact h.1 ▸ .blockConnection
    · exact .keep _
  | unblockConnection q =>
    simp only [ConnectionEvent.effect]
    split_ifs with h
    · exact h.1 ▸ .unblockConnection h.2
    · exact .keep _
  | revokeConnection q =>
    simp only [ConnectionEvent.effect]
    split_ifs with h
    · exact h.1 ▸ .revokeConnection
    · exact .keep _

theorem responseUpdate_state (r : ConnectionResponse) :
    (responseUpdate r).state = some (if r.accepted then .active else .revoked) := by
  unfold responseUpdate
  split_ifs <;> rfl

theorem getConnection_incoming (e : Envelope) (p : String) :
    (a.step (ctx, .incoming e)).connectionStore.getConnection p =
      (incomingEffect p e).apply ctx.now (a.connectionStore.getConnection p) := by
  cases e.kind with
  | ignored hs he => rw [hs, he, RecordEffect.apply]
  | request r ht hp =>
    rw [step_request ctx a ht hp]
    simp only [incomingEffect, ht, hp]
    by_cases hm : utf16Length r.message ≤ 280
    · by_cases hq : r.fromAddress = p
      · cases deadlineOf r.expiresAt <;>
          simp [hm, hq, RecordEffect.apply, Agent.getConnection_created, inboundRecord]
      · cases deadlineOf r.expiresAt <;>
          simp [hm, hq, RecordEffect.apply, Agent.getConnection_created, inboundRecord]
    · cases deadlineOf r.expiresAt <;> simp [hm, RecordEffect.apply]
  | response r ht hp =>
    rw [step_response ctx a ht hp, Agent.getConnection_updated]
    by_cases hq : r.fromAddress = p <;> simp [incomingEffect, ht, hp, hq, RecordEffect.apply]
  | revoke r ht hp =>
    rw [step_revoke ctx a ht hp, Agent.getConnection_updated]
    by_cases hq : r.fromAddress = p <;> simp [incomingEffect, ht, hp, hq, RecordEffect.apply]

theorem getConnection_step (ev : ConnectionEvent) (p : String) :
    (a.step (ctx, ev)).connectionStore.getConnection p =
      (ev.effect ctx p ((a.connectionStore.getConnection p).map (·.state))).apply ctx.now
        (a.connectionStore.getConnection p) := by
  cases ev with
  | incoming e => exact getConnection_incoming ctx a e p
  | sendRequest target message =>
    rw [step_sendRequest]
    cases ho : ctx.own with
    | none => simp [ConnectionEvent.effect, ho, RecordEffect.apply]
    | some own =>
      by_cases hm : utf16Length message ≤ 280 ∧ ctx.connected = true
      · cases hx : toISOString (requestExpiry ctx.now * 1000) with
        | none => simp [ConnectionEvent.effect, hm, hx, RecordEffect.apply, Agent.sending]
        | some expiry =>
          by_cases hq : target = p <;>
            simp [ConnectionEvent.effect, ho, hm, hx, hq, RecordEffect.apply,
              Agent.getConnection_created, outboundRecord, Agent.sending]
      · have hn : ¬ (target = p ∧ utf16Length message ≤ 280 ∧ ctx.own.isSome ∧ ctx.connected) :=
          fun h => hm ⟨h.2.1, h.2.2.2⟩
        simp only [hm, if_false, ConnectionEvent.effect, hn, RecordEffect.apply]
  | approveRequest q =>
    rw [step_approveRequest]
    by_cases hq : q = p
    · subst hq
      cases ho : ctx.own with
      | none => simp [ConnectionEvent.effect, ho, RecordEffect.apply]
      | some own =>
        by_cases hs : (a.connectionStore.getConnection q).map (·.state) = some .pendingInbound ∧
            ctx.connected = true
        · simp [ConnectionEvent.effect, ho, hs, RecordEffect.apply, Agent.getConnection_updated,
            Agent.sending]
        · simp only [hs, if_false, ConnectionEvent.effect, ho, Option.isSome_some, true_and,
            RecordEffect.apply]
    · simp only [ConnectionEvent.effect, hq, false_and, if_false, RecordEffect.apply]
      cases ctx.own with
      | none => rfl
      | some own => split_ifs <;> simp [Agent.getConnection_updated, hq, Agent.sending]
  | rejectRequest q =>
    rw [step_rejectRequest]
    by_cases hq : q = p
    · subst hq
      by_cases hs : (a.connectionStore.getConnection q).map (·.state) = some .pendingInbound <;>
        simp [ConnectionEvent.effect, hs, RecordEffect.apply, Agent.getConnection_updated]
    · simp only [ConnectionEvent.effect, hq, false_and, if_false, RecordEffect.apply]
      split_ifs <;> simp [Agent.getConnection_updated, hq]
  | blockConnection q =>
    rw [show a.step (ctx, .blockConnection q) = _ from
      step_setBlocked ctx a q .blocked blockEnvelope]
    cases ho : ctx.own with
    | none => simp [ConnectionEvent.effect, ho, RecordEffect.apply]
    | some own =>
      by_cases hq : q = p <;> simp only [ConnectionEvent.effect, ho, hq] <;>
        split_ifs <;> simp_all [RecordEffect.apply, Agent.getConnection_updated, Agent.sending]
  | unblockConnection q =>
    rw [show a.step (ctx, .unblockConnection q) = _ from
      step_setBlocked ctx a q .active unblockEnvelope]
    cases ho : ctx.own with
    | none => simp [ConnectionEvent.effect, ho, RecordEffect.apply]
    | some own =>
      by_cases hq : q = p <;> simp only [ConnectionEvent.effect, ho, hq] <;>
        split_ifs <;> simp_all [RecordEffect.apply, Agent.getConnection_updated, Agent.sending]
  | revokeConnection q =>
    rw [step_revokeConnection]
    cases ho : ctx.own with
    | none => simp [ConnectionEvent.effect, ho, RecordEffect.apply]
    | some own =>
      by_cases hc : ctx.connected = true <;> by_cases hq : q = p <;>
        simp [ConnectionEvent.effect, ho, hc, hq, RecordEffect.apply, Agent.getConnection_updated,
          Agent.sending]

theorem outbox_step (ev : ConnectionEvent) :
    (a.step (ctx, ev)).outbox = a.outbox ++ ev.sent ctx a.connectionStore := by
  cases ev with
  | incoming e =>
    cases e.kind with
    | ignored hs _ => simp [hs, ConnectionEvent.sent]
    | request r ht hp =>
      rw [step_request ctx a ht hp]
      cases deadlineOf r.expiresAt with
      | none => simp [ConnectionEvent.sent]
      | some d => split_ifs <;> simp [ConnectionEvent.sent, Agent.created]
    | response r ht hp => simp [step_response ctx a ht hp, ConnectionEvent.sent]
    | revoke r ht hp => simp [step_revoke ctx a ht hp, ConnectionEvent.sent]
  | sendRequest target message =>
    rw [step_sendRequest]
    cases ho : ctx.own with
    | none => simp [ConnectionEvent.sent, ho]
    | some own =>
      simp only [ConnectionEvent.sent, ho]
      split_ifs
      · cases toISOString (requestExpiry ctx.now * 1000) <;> rfl
      · simp
  | approveRequest q =>
    rw [step_approveRequest]
    cases ho : ctx.own <;> simp only [ConnectionEvent.sent, ho] <;> [simp; split_ifs] <;>
      simp [Agent.sending]
  | rejectRequest q =>
    rw [step_rejectRequest]
    split_ifs <;> simp [ConnectionEvent.sent]
  | blockConnection q =>
    rw [show a.step (ctx, .blockConnection q) = _ from
      step_setBlocked ctx a q .blocked blockEnvelope]
    cases ho : ctx.own <;> simp only [ConnectionEvent.sent, ho] <;> [simp; split_ifs] <;>
      simp [Agent.sending]
  | unblockConnection q =>
    rw [show a.step (ctx, .unblockConnection q) = _ from
      step_setBlocked ctx a q .active unblockEnvelope]
    cases ho : ctx.own <;> simp only [ConnectionEvent.sent, ho] <;> [simp; split_ifs] <;>
      simp [Agent.sending]
  | revokeConnection q =>
    rw [step_revokeConnection]
    cases ho : ctx.own <;> simp only [ConnectionEvent.sent, ho] <;> [simp; split_ifs] <;>
      simp [Agent.sending]

end Calls

end Pinch
