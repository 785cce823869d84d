import Pinch.HumanReview
import Pinch.PipelineRun

/-! What message handling leaves alone. A property that the few primitive writes keep is
kept by every handler and by every part of a suspended call. -/

namespace Pinch

open CircuitBreaker EnforcementPipeline MessageManager

section Handlers

variable {setup : Setup} {ctx : CallContext} {envelope : Envelope} {Φ : Node → Prop}

theorem handleIncomingMessage_keeps
    (hsave : ∀ message : MessageRecord, message.id = textDecode envelope.messageId →
      message.direction = .inbound → Keeps Φ (Node.saveMessage message))
    (hprocess : ∀ message, Keeps Φ (process ctx.now message envelope.fromAddress)) :
    Keeps Φ (handleIncomingMessage setup ctx envelope) := by
  unfold MessageManager.handleIncomingMessage
  split
  · refine Spec.bind (R := fun _ => Φ) ?_ fun plaintext => ?_
    · unfold openPayload
      refine Spec.bind (orThrow_keeps _) fun _ => ?_
      refine Spec.bind (orThrow_keeps _) fun _ => ?_
      exact Spec.bind (orThrow_keeps _) fun _ => orThrow_keeps _
    · refine Spec.bind (orThrow_keeps _) fun body => ?_
      refine Spec.bind (hsave _ rfl rfl) fun _ => ?_
      exact Spec.bind (hprocess _) fun _ => Spec.pure fun _ h => h
  · exact Spec.throw fun _ h => h

theorem handleDeliveryConfirmation_keeps :
    Keeps Φ (handleDeliveryConfirmation setup envelope) := by
  unfold handleDeliveryConfirmation
  split
  · refine Spec.read_bind fun n => ?_
    split
    · exact Spec.pure fun _ h => h
    · split
      · exact Spec.pure fun _ h => h
      · exact Spec.pure fun _ h => h
  · exact Spec.throw fun _ h => h

theorem dispatch_keeps (hflush : ∀ n flush, Φ n → Φ { n with flush := flush })
    (hmessage : envelope.type = .message → Keeps Φ (handleIncomingMessage setup ctx envelope)) :
    Keeps Φ (dispatch setup ctx envelope) := by
  refine Spec.bind (R := fun _ => Φ) (Spec.modify fun n hn => ?_) fun _ => ?_
  · simp only
    split
    · exact hflush _ _ hn
    · exact hn
  split
  · rename_i htype
    exact hmessage htype
  · exact handleDeliveryConfirmation_keeps
  · unfold handleQueueStatus
    split
    · exact Spec.bind (R := fun _ => Φ) (Spec.modify fun n hn => hflush n _ hn) fun _ =>
        Spec.pure fun _ h => h
    · exact Spec.pure fun _ h => h
  · exact Spec.pure fun _ h => h

theorem sendSigned_frame {messageId address : String} {timestamp : Int}
    (h : ∀ envelope, Keeps Φ (sendEnvelope ctx envelope)) :
    Keeps Φ (sendSigned setup ctx messageId address timestamp) := by
  refine Spec.bind (orThrow_keeps _) fun signature => ?_
  split
  · exact Spec.bind (h _) fun _ => Spec.pure fun _ h => h
  · exact Spec.pure fun _ h => h

theorem applyConfirmation_frame {confirm : DeliveryConfirm} {peerPubKey : Bytes}
    (h : ∀ id state, Keeps Φ (Node.updateState ctx.now id state)) :
    Keeps Φ (applyConfirmation setup ctx confirm peerPubKey) := by
  refine Spec.bind (orThrow_keeps _) fun valid => ?_
  split
  · exact Spec.bind (h _ _) fun _ => Spec.pure fun _ h => h
  · exact Spec.pure fun _ h => h

end Handlers

/-- What the handling of a message writes into the tables. -/
structure RowWrites (id : String) (Φ : Node → Prop) : Prop where
  updateState : ∀ now state reason, Keeps Φ (Node.updateState now id state reason)
  recordActivity : ∀ now event, Keeps Φ (Node.recordActivity now event)

namespace RowWrites

variable {Φ : Node → Prop} {now : Int} {message : MessageRecord} {address : String}

theorem withState (h : RowWrites message.id Φ) {n : Node} (hn : Φ n)
    {feed : List ActivityEvent} (hfeed : n.Noted now feed) (state : String)
    (reason : Option String) : Φ (n.withState now message.id state reason feed) := by
  cases hfeed with
  | same => exact h.updateState now state reason n hn
  | event event => exact h.updateState now state reason _ (h.recordActivity now event n hn)

theorem process (h : RowWrites message.id Φ) : Keeps Φ (process now message address) :=
  process_rule (fun _ _ hn hfeed _ => h.withState hn hfeed _ _)
    (fun _ _ hn hfeed _ _ => h.withState hn hfeed _ _) fun _ hn _ _ => hn

theorem route (h : RowWrites message.id Φ) :
    Keeps Φ (InboundRouter.route now message address) :=
  route_rule fun _ _ _ _ hn hfeed _ => h.withState hn hfeed _ _

theorem evaluateAutoRespondPolicy (h : RowWrites message.id Φ) (routed : RoutedMessage) :
    Keeps Φ (evaluateAutoRespondPolicy now message address routed) :=
  evaluateAutoRespondPolicy_rule (fun _ _ _ hn _ _ _ => hn)
    fun _ _ hn hfeed _ => h.withState hn hfeed _ _

theorem finish (h : RowWrites message.id Φ) (result : EnforcementResult) :
    Keeps Φ (finish now message address result) := by
  cases hallowed : result.allowed with
  | true =>
    rw [EnforcementPipeline.finish, if_pos hallowed]
    refine Spec.bind h.route fun routed => ?_
    split
    · exact h.evaluateAutoRespondPolicy routed
    · exact Spec.pure fun _ h => h
  | false => exact finish_refused_rule hallowed fun _ _ _ hn hfeed _ => h.withState hn hfeed _ _

end RowWrites

/-- The writes of the handling of one message. -/
structure OwnRow (config : CircuitBreakerConfig) (id : String) (Φ : Node → Prop) : Prop
    extends RowWrites id Φ where
  recordEvent : ∀ now address type, Keeps Φ (recordEvent config now address type)

namespace OwnRow

variable {config : CircuitBreakerConfig} {Φ : Node → Prop} {now : Int} {message : MessageRecord}
  {address : String}

theorem and {Ψ : Node → Prop} {id : String} (h : OwnRow config id Φ) (h' : OwnRow config id Ψ) :
    OwnRow config id fun n => Φ n ∧ Ψ n where
  updateState now state reason := (h.updateState now state reason).and
    (h'.updateState now state reason)
  recordActivity now event := (h.recordActivity now event).and (h'.recordActivity now event)
  recordEvent now address type := (h.recordEvent now address type).and
    (h'.recordEvent now address type)

theorem pipeline (h : OwnRow config message.id Φ) (verdict : Verdict) (stage : Stage) :
    Keeps Φ (EnforcementPipeline.resume config now message address verdict stage) := by
  cases stage with
  | checking boundaries rest => exact Spec.pure fun _ h => h
  | enforced result =>
    rw [EnforcementPipeline.resume, enforce_eq]
    split
    · exact Spec.bind (h.recordEvent _ _ _) fun _ => h.finish result
    · exact h.finish result
  | evaluating policy nickname routed =>
    exact applyVerdict_rule fun _ _ _ _ _ hn hfeed _ => h.withState hn hfeed _ _
  | done routed => exact Spec.pure fun _ h => h

end OwnRow

/-- The writes of message handling, apart from the row of a new message and what is sent. -/
structure Quiet (config : CircuitBreakerConfig) (Φ : Node → Prop) : Prop where
  updateState : ∀ now id state reason, Keeps Φ (Node.updateState now id state reason)
  recordActivity : ∀ now event, Keeps Φ (Node.recordActivity now event)
  recordEvent : ∀ now address type, Keeps Φ (recordEvent config now address type)
  flush : ∀ n flush, Φ n → Φ { n with flush := flush }

namespace Quiet

variable {setup : Setup} {config : CircuitBreakerConfig} {Φ Ψ : Node → Prop} {now : Int}
  {message : MessageRecord} {address : String} {ctx : CallContext} {envelope : Envelope}

theorem and (h : Quiet config Φ) (h' : Quiet config Ψ) : Quiet config fun n => Φ n ∧ Ψ n where
  updateState now id state reason := (h.updateState now id state reason).and
    (h'.updateState now id state reason)
  recordActivity now event := (h.recordActivity now event).and (h'.recordActivity now event)
  recordEvent now address type := (h.recordEvent now address type).and
    (h'.recordEvent now address type)
  flush n flush hn := ⟨h.flush n flush hn.1, h'.flush n flush hn.2⟩

theorem of_outbox (Φ : List Envelope → Prop) (config : CircuitBreakerConfig) :
    Quiet config fun n => Φ n.outbox where
  updateState _ _ _ _ := Spec.modify fun _ h => h
  recordActivity _ _ := Spec.modify fun _ h => h
  recordEvent _ _ _ := recordEvent_outbox
  flush _ _ h := h

theorem ownRow (h : Quiet config Φ) (id : String) : OwnRow config id Φ :=
  ⟨⟨fun now state reason => h.updateState now id state reason, h.recordActivity⟩, h.recordEvent⟩

theorem process (h : Quiet config Φ) : Keeps Φ (process now message address) :=
  (h.ownRow message.id).process

theorem pipeline (h : Quiet config Φ) (verdict : Verdict) (stage : Stage) :
    Keeps Φ (EnforcementPipeline.resume config now message address verdict stage) :=
  (h.ownRow message.id).pipeline verdict stage

theorem handleIncomingMessage (h : Quiet config Φ)
    (hsave : ∀ message : MessageRecord, message.id = textDecode envelope.messageId →
      message.direction = .inbound → Keeps Φ (Node.saveMessage message)) :
    Keeps Φ (handleIncomingMessage setup ctx envelope) :=
  handleIncomingMessage_keeps hsave fun _ => h.process

/-- One envelope, from what storing its message can do. -/
theorem dispatch (h : Quiet config Φ)
    (hsave : envelope.type = .message → ∀ message : MessageRecord,
      message.id = textDecode envelope.messageId → message.direction = .inbound →
      Keeps Φ (Node.saveMessage message)) :
    Keeps Φ (dispatch setup ctx envelope) :=
  dispatch_keeps h.flush fun htype => h.handleIncomingMessage (hsave htype)

end Quiet

/-- The writes of message handling, apart from the row of a new message. -/
structure Stable (config : CircuitBreakerConfig) (Φ : Node → Prop) : Prop where
  updateState : ∀ now id state reason, Keeps Φ (Node.updateState now id state reason)
  recordActivity : ∀ now event, Keeps Φ (Node.recordActivity now event)
  recordEvent : ∀ now address type, Keeps Φ (recordEvent config now address type)
  sendEnvelope : ∀ ctx envelope, Keeps Φ (MessageManager.sendEnvelope ctx envelope)
  flush : ∀ n flush, Φ n → Φ { n with flush := flush }

namespace Stable

variable {setup : Setup} {config : CircuitBreakerConfig} {Φ : Node → Prop} {now : Int}
  {message : MessageRecord} {address : String}

theorem quiet (h : Stable config Φ) : Quiet config Φ :=
  ⟨h.updateState, h.recordActivity, h.recordEvent, h.flush⟩

variable {ctx : CallContext}

theorem sendEnvelope_keeps {envelope : Envelope}
    (h : ∀ n outbox, Φ n → Φ { n with outbox := outbox }) :
    Keeps Φ (MessageManager.sendEnvelope ctx envelope) := by
  unfold MessageManager.sendEnvelope
  split
  · exact Spec.modify fun _ hn => h _ _ hn
  · exact Spec.throw fun _ hn => hn

theorem sendSigned (h : Stable config Φ) (messageId : String) (timestamp : Int) :
    Keeps Φ (sendSigned setup ctx messageId address timestamp) :=
  sendSigned_frame (h.sendEnvelope ctx)

theorem applyConfirmation (h : Stable config Φ) (confirm : DeliveryConfirm) (peerPubKey : Bytes) :
    Keeps Φ (applyConfirmation setup ctx confirm peerPubKey) :=
  applyConfirmation_frame fun id state => h.updateState ctx.now id state none

/-- One part of a suspended call. -/
theorem resume (h : Stable setup.breakerConfig Φ) (verdict : Verdict) (t : Task) :
    Keeps Φ (resume setup ctx verdict t) := by
  cases t with
  | processing message address stage =>
    cases hf : stage.finished with
    | true =>
      cases stage with
      | done routed => exact Spec.pure fun _ h => h
      | _ => simp [Stage.finished] at hf
    | false =>
      rw [resume_unfinished hf]
      exact Spec.bind (h.quiet.pipeline verdict stage) fun _ => Spec.pure fun _ h => h
  | signing messageId address timestamp => exact h.sendSigned messageId timestamp
  | verifying confirm peerPubKey => exact h.applyConfirmation confirm peerPubKey

theorem approveMessage (h : Stable config Φ) (messageId : String)
    (action : InboundRouter.ApproveAction) :
    Keeps Φ (InboundRouter.approveMessage now messageId action) := by
  refine Spec.read_bind fun n => ?_
  split
  · exact Spec.pure fun _ h => h
  · split
    · exact Spec.pure fun _ h => h
    · exact Spec.bind (h.updateState _ _ _ _) fun _ => Spec.read_bind fun n =>
        Spec.pure fun _ h => h

/-- A property of the message table and of what was sent. -/
theorem of_messages (Φ : MessageStore → List Envelope → Prop) (config : CircuitBreakerConfig)
    (hupdate : ∀ s o now id state reason, Φ s o → Φ (s.updateState now id state reason) o)
    (hsend : ∀ s o envelope, Φ s o → Φ s (o ++ [envelope])) :
    Stable config (fun n => Φ n.messageStore n.outbox) where
  updateState _ _ _ _ := Spec.modify fun _ hn => hupdate _ _ _ _ _ _ hn
  recordActivity _ _ := Spec.modify fun _ hn => hn
  recordEvent now address type := by
    intro n hn
    have houtbox := @recordEvent_outbox config now address type (· = n.outbox)
    refine ((recordEvent_keeps_messages (· = n.messageStore) type).and houtbox).conseq
      (fun m hm => ?_) (fun _ m hm => ?_) (fun _ m hm => ?_) n rfl
    · rw [hm]
      exact ⟨rfl, rfl⟩
    · rwa [hm.1, hm.2]
    · rwa [hm.1, hm.2]
  sendEnvelope _ _ := by
    unfold MessageManager.sendEnvelope
    split
    · exact Spec.modify fun _ hn => hsend _ _ _ hn
    · exact Spec.throw fun _ hn => hn
  flush _ _ hn := hn

/-- A property of the message table alone. -/
theorem of_messageStore (Φ : MessageStore → Prop) (config : CircuitBreakerConfig)
    (h : ∀ s now id state reason, Φ s → Φ (s.updateState now id state reason)) :
    Stable config (fun n => Φ n.messageStore) :=
  .of_messages (fun s _ => Φ s) config (fun s _ => h s) fun _ _ _ hn => hn

/-- A property of the connection records alone, which only the breaker changes. -/
theorem of_connectionStore {Φ : ConnectionStore → Prop} {config : CircuitBreakerConfig}
    (h : ∀ now address type n n', Recorded config now address type n n' →
      Φ n.connectionStore → Φ n'.connectionStore) :
    Stable config (fun n => Φ n.connectionStore) where
  updateState _ _ _ _ := Spec.modify fun _ hn => hn
  recordActivity _ _ := Spec.modify fun _ hn => hn
  recordEvent _ _ _ := recordEvent_keeps fun _ _ hrec hn => h _ _ _ _ _ hrec hn
  sendEnvelope _ _ := sendEnvelope_keeps fun _ _ hn => hn
  flush _ _ hn := hn

end Stable

end Pinch
