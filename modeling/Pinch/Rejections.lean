import Pinch.JsHeap
import Pinch.RemoteInput
import Pinch.Replay

/-! Handlers that throw. Nobody awaits their promises, so an exception in one of them ends the
process, and so does the failure of a write that they start and do not wait for. The suspended
parts of a call find the record that the check has found, since no record is ever deleted, and so
the envelope and the call's surroundings alone decide. The senders are addresses for which the
store is a finite map. -/

namespace Pinch

open CircuitBreaker EnforcementPipeline MessageManager Transition

/-- The payload as `handleIncomingMessage` opens it. -/
def Setup.opened (setup : Setup) (payload : EncryptedPayload) : Option PlaintextPayload := do
  let x ← setup.lib.pkToCurve25519 payload.senderPublicKey
  let y ← setup.lib.skToCurve25519 setup.privateKey
  let bytes ← decrypt setup.lib (payload.nonce ++ payload.ciphertext) x y
  setup.lib.plaintextFromBinary bytes

/-- The connection handlers can act on the envelope: a request has a text and a deadline that
can be stored, a response is from a known peer, and the store file can be written. -/
def Envelope.Actionable (envelope : Envelope) (ctx : CallContext) (store : ConnectionStore) : Prop :=
  match envelope.type, envelope.payload with
  | .connectionRequest, .connectionRequest r =>
    (deadlineOf r.expiresAt).isSome = true ∧ utf16Length r.message ≤ 280 ∧ ctx.saveError = none
  | .connectionResponse, .connectionResponse r =>
    (store.getConnection r.fromAddress).isSome = true ∧ ctx.saveError = none
  | .connectionRevoke, .connectionRevoke r =>
    (store.getConnection r.fromAddress).isSome = true → ctx.saveError = none
  | _, _ => True

/-- The message handlers can read the envelope: a message opens, its text is a string or a
number and its id is new, and a confirmation carries one. -/
def Envelope.Readable (envelope : Envelope) (setup : Setup) (store : MessageStore) : Prop :=
  match envelope.type, envelope.payload with
  | .message, .encrypted payload =>
    ((setup.opened payload).bind fun plaintext => (readContent setup.lib plaintext).body).isSome =
      true ∧ textDecode envelope.messageId ∉ store.ids
  | .message, _ => False
  | .deliveryConfirm, .deliveryConfirm _ => True
  | .deliveryConfirm, _ => False
  | _, _ => True

/-- The address under which the handlers look up the record of the sender. -/
def Envelope.sender (envelope : Envelope) : Option String :=
  match envelope.type, envelope.payload with
  | .connectionRequest, .connectionRequest r => some r.fromAddress
  | .connectionResponse, .connectionResponse r => some r.fromAddress
  | .connectionRevoke, .connectionRevoke r => some r.fromAddress
  | .message, _ => some envelope.fromAddress
  | .deliveryConfirm, _ => some envelope.fromAddress
  | _, _ => none

/-- The part records an event that makes the breaker trip. -/
def Stage.trips (stage : Stage) (config : CircuitBreakerConfig) (now : Int) (address : String)
    (n : Node) : Bool :=
  match stage with
  | .enforced result => result.event.any fun type => CircuitBreaker.trips config now address type n
  | _ => false

/-- The rest of a call can go on: the store file can be written if the breaker trips, and a
confirmation is signed and sent or verified. -/
def Task.Resumable (t : Task) (setup : Setup) (ctx : CallContext) (n : Node) : Prop :=
  match t with
  | .processing _ address stage =>
    stage.trips setup.breakerConfig ctx.now address n = true → ctx.saveError = none
  | .signing messageId _ timestamp =>
    (setup.lib.signDetached (buildPayload (textEncode messageId) timestamp)
      setup.privateKey).isSome = true ∧
    ((ctx.assignedAddress.filter (· ≠ "")).isSome = true → ctx.connected = true)
  | .verifying confirm peerPubKey =>
    (verifyDeliveryConfirmation setup confirm peerPubKey).isSome = true

section Connections

open ConnectionManager

variable {ctx : CallContext} {a : Agent} {e : Envelope}

theorem returns_save : Returns (save ctx) a ↔ ctx.saveError = none := by
  unfold save
  cases ctx.saveError <;> simp

theorem returns_update_save {p : String} {u : ConnectionUpdates} :
    Returns (do
      updateConnection ctx p u
      save ctx) a ↔ (a.connectionStore.getConnection p).isSome = true ∧ ctx.saveError = none := by
  have hrun := updateConnection_run ctx a p u
  cases hc : a.connectionStore.getConnection p with
  | none =>
    rw [hc] at hrun
    simp [not_returns_bind_of_run hrun]
  | some c =>
    rw [hc] at hrun
    simp [returns_bind_of_run hrun, returns_save]

theorem returns_request {r : ConnectionRequest} (hp : e.payload = .connectionRequest r) :
    Returns (handleIncomingRequest ctx e) a ↔ (deadlineOf r.expiresAt).isSome = true ∧
      utf16Length r.message ≤ 280 ∧ ctx.saveError = none := by
  unfold handleIncomingRequest
  rw [hp]
  have hdeadline := requestDeadline_run a r.expiresAt
  cases hd : deadlineOf r.expiresAt with
  | none =>
    rw [hd] at hdeadline
    simp [not_returns_bind_of_run hdeadline]
  | some deadline =>
    rw [hd] at hdeadline
    have hadd := addConnection_run ctx a (inboundRecord r deadline)
    rw [returns_bind_of_run hdeadline]
    by_cases hm : 280 < utf16Length r.message
    · rw [if_pos (show 280 < utf16Length ((inboundRecord r deadline).shortMessage.getD "") from hm)]
        at hadd
      exact iff_of_false (not_returns_bind_of_run hadd) fun h => absurd h.2.1 (by omega)
    · rw [if_neg (show ¬ 280 < utf16Length ((inboundRecord r deadline).shortMessage.getD "") from hm)]
        at hadd
      refine (returns_bind_of_run hadd).trans (returns_save.trans ?_)
      simp [Nat.not_lt.1 hm]

theorem returns_response {r : ConnectionResponse} (hp : e.payload = .connectionResponse r) :
    Returns (handleIncomingResponse ctx e) a ↔
      (a.connectionStore.getConnection r.fromAddress).isSome = true ∧ ctx.saveError = none := by
  unfold handleIncomingResponse
  rw [hp]
  dsimp only
  split
  · exact returns_update_save
  · exact returns_update_save

theorem returns_revoke {r : ConnectionRevoke} (hp : e.payload = .connectionRevoke r) :
    Returns (handleIncomingRevoke ctx e) a ↔
      ((a.connectionStore.getConnection r.fromAddress).isSome = true → ctx.saveError = none) := by
  unfold handleIncomingRevoke
  rw [hp]
  have hget : (ConnectionManager.getConnection r.fromAddress).run a =
      .ok (a.connectionStore.getConnection r.fromAddress) a := rfl
  refine (returns_bind_of_run hget).trans ?_
  cases hc : a.connectionStore.getConnection r.fromAddress with
  | none => simp
  | some c =>
    refine returns_update_save.trans ?_
    simp [hc]

theorem returns_connections (ctx : CallContext) (a : Agent) (e : Envelope) :
    Returns (ConnectionManager.dispatch ctx e) a ↔ e.Actionable ctx a.connectionStore := by
  unfold ConnectionManager.dispatch Envelope.Actionable
  cases ht : e.type with
  | connectionRequest =>
    cases hp : e.payload with
    | connectionRequest r => exact returns_request hp
    | _ => simp [handleIncomingRequest, hp]
  | connectionResponse =>
    cases hp : e.payload with
    | connectionResponse r => exact returns_response hp
    | _ => simp [handleIncomingResponse, hp]
  | connectionRevoke =>
    cases hp : e.payload with
    | connectionRevoke r => exact returns_revoke hp
    | _ => simp [handleIncomingRevoke, hp]
  | _ => simp

end Connections

section Pipeline

variable {config : CircuitBreakerConfig} {now : Int} {message : MessageRecord} {address : String}

/-- A later part of the call may record an event. -/
def Stage.recording : Stage → Prop
  | .checking .. => True
  | .enforced result => result.event.isSome = true
  | .evaluating .. => False
  | .done _ => False

/-- The record that the recording needs is there. -/
def Stage.Backed (stage : Stage) (address : String) (n : Node) : Prop :=
  stage.recording → (n.connectionStore.getConnection address).isSome = true

theorem check_backed (n : Node) (address : String) :
    (PermissionsEnforcer.check n.connectionStore address).stage.Backed address n := by
  intro hrec
  unfold PermissionsEnforcer.check at hrec
  cases hc : n.connectionStore.getConnection address with
  | none =>
    rw [hc] at hrec
    cases hrec
  | some c => rfl

theorem process_returns (now : Int) (message : MessageRecord) (address : String) :
    Spec (fun _ => True) (process now message address) (fun stage n => stage.Backed address n)
      (fun _ _ => False) :=
  process_rule (fun _ _ _ _ _ hrec => hrec.elim) (fun _ _ _ _ _ _ hrec => hrec.elim)
    fun n _ _ _ => check_backed n address

theorem rowWrites_unawaitedSaves (id : String) (k : ℕ) :
    RowWrites id fun n => n.unawaitedSaves = k where
  updateState _ _ _ := Spec.modify fun _ h => h
  recordActivity _ _ := Spec.modify fun _ h => h

theorem finish_returns (result : EnforcementResult) :
    Spec (fun _ => True) (finish now message address result) (fun stage _ => ¬ stage.recording)
      (fun _ _ => False) := by
  cases hallowed : result.allowed with
  | true =>
    rw [finish, if_pos hallowed]
    refine Spec.bind (R := fun _ _ => True) (route_rule fun _ _ _ _ _ _ _ => trivial)
      fun routed => ?_
    split
    · exact evaluateAutoRespondPolicy_rule (fun _ _ _ _ _ _ _ hrec => hrec)
        fun _ _ _ _ _ hrec => hrec
    · exact Spec.pure fun _ _ hrec => hrec
  | false => exact finish_refused_rule hallowed fun _ _ _ _ _ _ hrec => hrec

theorem recordEvent_returns {type : String} :
    Spec (fun n => (n.connectionStore.getConnection address).isSome = true)
      (recordEvent config now address type) (fun _ _ => True) (fun _ _ => False) := by
  intro n hn
  refine (recordEvent_recorded n).conseq (fun _ h => h) (fun _ _ _ => trivial) ?_ n rfl
  rintro _ _ ⟨-, hnone⟩
  simp [hnone] at hn

theorem enforce_returns {result : EnforcementResult} :
    Spec (fun n => (Stage.enforced result).Backed address n)
      (enforce config now message address result) (fun stage _ => ¬ stage.recording)
      (fun _ _ => False) := by
  rw [enforce_eq]
  split
  · rename_i type htype
    refine Spec.bind (recordEvent_returns.conseq (fun n hn => hn ?_) (fun _ _ h => h)
      fun _ _ h => h) fun _ => finish_returns result
    simp [Stage.recording, htype]
  · exact (finish_returns result).conseq (fun _ _ => trivial) (fun _ _ h => h) fun _ _ h => h

theorem pipeline_returns (verdict : Verdict) (stage : Stage) :
    Spec (fun n => stage.Backed address n)
      (EnforcementPipeline.resume config now message address verdict stage)
      (fun stage n => stage.Backed address n) (fun _ _ => False) := by
  cases stage with
  | checking boundaries rest => exact Spec.pure fun n hn _ => hn trivial
  | enforced result =>
    exact enforce_returns.conseq (fun _ h => h) (fun _ _ h hrec => absurd hrec h) fun _ _ h => h
  | evaluating policy nickname routed =>
    exact applyVerdict_rule fun _ _ _ _ _ _ _ _ hrec => hrec.elim
  | done routed => exact Spec.pure fun _ _ hrec => hrec.elim

/-- A part of the pipeline starts a write of the store file exactly if the breaker trips. -/
theorem pipeline_unawaitedSaves (verdict : Verdict) {stage : Stage} {n : Node}
    (h : stage.Backed address n) :
    Spec (· = n) (EnforcementPipeline.resume config now message address verdict stage)
      (fun _ m => m.unawaitedSaves = n.unawaitedSaves +
        if stage.trips config now address n = true then 1 else 0) (fun _ _ => True) := by
  have hquiet : ∀ k, RowWrites message.id fun n => n.unawaitedSaves = k :=
    rowWrites_unawaitedSaves message.id
  cases stage with
  | checking boundaries rest => exact Spec.pure fun _ hm => hm ▸ rfl
  | enforced result =>
    rw [EnforcementPipeline.resume, enforce_eq]
    split
    · rename_i type htype
      have hne : n.connectionStore.getConnection address ≠ none :=
        Option.isSome_iff_ne_none.1 (h (by simp [Stage.recording, htype]))
      refine Spec.bind ((recordEvent_recorded n).conseq (fun _ h => h) (fun _ _ hrec =>
        hrec.unawaitedSaves) fun _ _ _ => trivial) fun _ => ?_
      refine ((hquiet _).finish result).conseq (fun _ h => h) (fun _ m hm => ?_)
        fun _ _ _ => trivial
      simpa [Stage.trips, htype, hne] using hm
    · rename_i hevent
      refine ((hquiet n.unawaitedSaves).finish result).conseq (fun _ h => h ▸ rfl)
        (fun _ m hm => ?_) fun _ _ _ => trivial
      simpa [Stage.trips, hevent] using hm
  | evaluating policy nickname routed =>
    refine applyVerdict_rule fun m feed state reason hne hm hfeed _ => ?_
    subst hm
    cases hfeed <;> rfl
  | done routed => exact Spec.pure fun _ hm => hm ▸ rfl

end Pipeline

/-- The handler returns, and no write of the store file fails that it has started without waiting
for it. -/
def Fulfils (ctx : CallContext) (x : NodeOp (Option Task)) (n : Node) : Prop :=
  Returns x n ∧ (ctx.saveError = none ∨ (finalState (x.run n)).unawaitedSaves = n.unawaitedSaves)

instance (ctx : CallContext) (x : NodeOp (Option Task)) (n : Node) : Decidable (Fulfils ctx x n) :=
  inferInstanceAs (Decidable (_ ∧ _))

/-- A handler that starts no such write. -/
theorem fulfils_of_keeps {ctx : CallContext} {x : NodeOp (Option Task)} {n : Node}
    (h : ∀ k, Keeps (fun n : Node => n.unawaitedSaves = k) x) : Fulfils ctx x n ↔ Returns x n :=
  and_iff_left (.inr ((h n.unawaitedSaves).finalState rfl))

section Messages

variable {setup : Setup} {ctx : CallContext} {n : Node}

theorem returns_orThrow_bind {α β : Type} {error : String} {o : Option α} {f : α → NodeOp β} :
    Returns (orThrow error o >>= f) n ↔ ∃ a, o = some a ∧ Returns (f a) n := by
  cases o with
  | none => exact iff_of_false (not_returns_bind_of_run rfl) fun ⟨_, h, _⟩ => by cases h
  | some a =>
    refine (returns_bind_of_run rfl).trans ⟨fun h => ⟨a, rfl, h⟩, ?_⟩
    rintro ⟨_, ⟨⟩, h⟩
    exact h

theorem returns_openPayload_bind {β : Type} {payload : EncryptedPayload}
    {f : PlaintextPayload → NodeOp β} : Returns (openPayload setup payload >>= f) n ↔
      ∃ plaintext, setup.opened payload = some plaintext ∧ Returns (f plaintext) n := by
  simp only [openPayload, bind_assoc, returns_orThrow_bind, Setup.opened, Option.bind_eq_bind,
    Option.bind_eq_some_iff]
  constructor
  · rintro ⟨x, hx, y, hy, bytes, hb, plaintext, hp, h⟩
    exact ⟨plaintext, ⟨x, hx, y, hy, bytes, hb, hp⟩, h⟩
  · rintro ⟨plaintext, ⟨x, hx, y, hy, bytes, hb, hp⟩, h⟩
    exact ⟨x, hx, y, hy, bytes, hb, plaintext, hp, h⟩

theorem returns_store_process {message : MessageRecord} {address : String} :
    Returns (do
      Node.saveMessage message
      let stage ← process ctx.now message address
      return some (Task.processing message address stage)) n ↔ message.id ∉ n.messageStore.ids := by
  by_cases hid : message.id ∈ n.messageStore.ids
  · have hsave : n.messageStore.saveMessage message =
        .error "UNIQUE constraint failed: messages.id" := dif_pos hid
    have hrun : (Node.saveMessage message).run n =
        .error "UNIQUE constraint failed: messages.id" n := by
      simp [Node.saveMessage, hsave]
    exact iff_of_false (not_returns_bind_of_run hrun) fun h => h hid
  · obtain ⟨store, hsave⟩ : ∃ store, n.messageStore.saveMessage message = .ok store :=
      ⟨_, dif_neg hid⟩
    have hrun : (Node.saveMessage message).run n = .ok () { n with messageStore := store } := by
      simp [Node.saveMessage, hsave]
    obtain ⟨stage, n', hprocess, -⟩ := (process_returns ctx.now message address).returns
      (s := { n with messageStore := store }) trivial
    refine iff_of_true ((returns_bind_of_run hrun).2 ?_) hid
    exact (returns_bind_of_run hprocess).2 returns_pure

theorem returns_message {envelope : Envelope} {payload : EncryptedPayload}
    (hp : envelope.payload = .encrypted payload) :
    Returns (handleIncomingMessage setup ctx envelope) n ↔
      ((setup.opened payload).bind fun plaintext => (readContent setup.lib plaintext).body).isSome =
        true ∧ textDecode envelope.messageId ∉ n.messageStore.ids := by
  unfold handleIncomingMessage
  rw [hp]
  simp only [returns_openPayload_bind, returns_orThrow_bind]
  rw [Option.isSome_iff_exists]
  simp only [Option.bind_eq_some_iff]
  constructor
  · rintro ⟨plaintext, hopen, body, hbody, h⟩
    exact ⟨⟨body, plaintext, hopen, hbody⟩, returns_store_process.1 h⟩
  · rintro ⟨⟨body, plaintext, hopen, hbody⟩, hid⟩
    exact ⟨plaintext, hopen, body, hbody, returns_store_process.2 hid⟩

theorem returns_confirmation {envelope : Envelope} {confirm : DeliveryConfirm}
    (hp : envelope.payload = .deliveryConfirm confirm) :
    Returns (handleDeliveryConfirmation setup envelope) n := by
  unfold handleDeliveryConfirmation
  rw [hp]
  refine returns_get_bind.2 ?_
  split
  · exact returns_pure
  · split
    · exact returns_pure
    · exact returns_pure

theorem returns_messages (setup : Setup) (ctx : CallContext) (n : Node) (e : Envelope) :
    Returns (dispatch setup ctx e) n ↔ e.Readable setup n.messageStore := by
  obtain ⟨m, htrack, hm⟩ : ∃ m, trackFlush.run n = .ok () m ∧ m.messageStore = n.messageStore := by
    refine ⟨_, rfl, ?_⟩
    dsimp only
    split <;> rfl
  refine (returns_bind_of_run htrack).trans ?_
  unfold Envelope.Readable
  rw [← hm]
  cases ht : e.type with
  | message =>
    cases hp : e.payload with
    | encrypted payload => exact returns_message hp
    | _ => simp [handleIncomingMessage, hp]
  | deliveryConfirm =>
    cases hp : e.payload with
    | deliveryConfirm confirm => exact iff_of_true (returns_confirmation hp) trivial
    | _ => simp [handleDeliveryConfirmation, hp]
  | queueStatus =>
    refine iff_of_true ?_ (by simp)
    simp only [handleQueueStatus]
    split
    · exact returns_modify_bind.2 returns_pure
    · exact returns_pure
  | _ => simp

theorem fulfils_messages (setup : Setup) (ctx : CallContext) (n : Node) (e : Envelope) :
    Fulfils ctx (dispatch setup ctx e) n ↔ e.Readable setup n.messageStore := by
  refine (fulfils_of_keeps fun k => ?_).trans (returns_messages setup ctx n e)
  refine dispatch_keeps (fun _ _ h => h) fun _ => handleIncomingMessage_keeps (fun message _ _ => ?_)
    fun message => (rowWrites_unawaitedSaves message.id k).process
  refine Spec.read_bind fun m => ?_
  split
  · exact Spec.modify fun _ h => h
  · exact Spec.throw fun _ h => h

theorem returns_signing {messageId address : String} {timestamp : Int} :
    Returns (sendSigned setup ctx messageId address timestamp) n ↔
      (Task.signing messageId address timestamp).Resumable setup ctx n := by
  unfold sendSigned
  refine returns_orThrow_bind.trans ?_
  simp only [Task.Resumable, Option.isSome_iff_exists]
  rw [← exists_and_right]
  refine exists_congr fun signature => and_congr_right fun _ => ?_
  cases hown : ctx.assignedAddress.filter (· ≠ "") with
  | none => simp
  | some own =>
    by_cases hconnected : ctx.connected = true
    · refine iff_of_true ?_ fun _ => hconnected
      simp only [sendEnvelope, if_pos hconnected]
      exact returns_modify_bind.2 returns_pure
    · have hrun (e : Envelope) : (sendEnvelope ctx e).run n = .error "not connected" n := by
        rw [sendEnvelope, if_neg hconnected]
        rfl
      exact iff_of_false (not_returns_bind_of_run (hrun _)) fun h => hconnected (h ⟨own, rfl⟩)

theorem returns_verifying {confirm : DeliveryConfirm} {peerPubKey : Bytes} :
    Returns (applyConfirmation setup ctx confirm peerPubKey) n ↔
      (Task.verifying confirm peerPubKey).Resumable setup ctx n := by
  unfold applyConfirmation
  refine returns_orThrow_bind.trans ?_
  simp only [Task.Resumable, Option.isSome_iff_exists]
  refine exists_congr fun valid => and_iff_left ?_
  cases valid with
  | true => exact returns_modify_bind.2 returns_pure
  | false => exact returns_pure

/-- The rest of a message's processing finds its record. -/
def Task.Backed (t : Task) (n : Node) : Prop :=
  match t with
  | .processing _ address stage => stage.Backed address n
  | _ => True

theorem resume_processing (verdict : Verdict) {message : MessageRecord} {address : String}
    {stage : Stage} :
    Spec (fun n => (Task.processing message address stage).Backed n)
      (resume setup ctx verdict (.processing message address stage))
      (fun next n => ∀ t ∈ next, t.Backed n) (fun _ _ => False) := by
  cases hf : stage.finished with
  | true =>
    cases stage with
    | done routed =>
      refine Spec.pure fun n _ t ht => ?_
      obtain rfl := Option.some.inj ht
      trivial
    | _ => simp [Stage.finished] at hf
  | false =>
    rw [resume_unfinished hf]
    refine Spec.bind (pipeline_returns verdict stage) fun next => Spec.pure fun n hn t ht => ?_
    obtain rfl := Option.some.inj ht
    exact hn

theorem resume_unawaitedSaves (verdict : Verdict) {message : MessageRecord} {address : String}
    {stage : Stage} (h : stage.Backed address n) :
    Spec (· = n) (resume setup ctx verdict (.processing message address stage))
      (fun _ m => m.unawaitedSaves = n.unawaitedSaves +
        if stage.trips setup.breakerConfig ctx.now address n = true then 1 else 0)
      (fun _ _ => True) := by
  cases hf : stage.finished with
  | true =>
    cases stage with
    | done routed => exact Spec.pure fun _ hm => hm ▸ rfl
    | _ => simp [Stage.finished] at hf
  | false =>
    rw [resume_unfinished hf]
    exact Spec.bind (pipeline_unawaitedSaves verdict h) fun _ => Spec.pure fun _ hm => hm

theorem fulfils_resume (verdict : Verdict) {t : Task} (h : t.Backed n) :
    Fulfils ctx (resume setup ctx verdict t) n ↔ t.Resumable setup ctx n := by
  cases t with
  | processing message address stage =>
    obtain ⟨next, n', hrun, -⟩ := (resume_processing verdict).returns h
    have hsaves := (resume_unawaitedSaves verdict h).ok rfl hrun
    refine (and_iff_right ⟨next, n', hrun⟩).trans ?_
    rw [hrun]
    simp only [finalState, hsaves, Task.Resumable]
    cases stage.trips setup.breakerConfig ctx.now address n <;> simp
  | signing messageId address timestamp =>
    refine (fulfils_of_keeps fun k => ?_).trans returns_signing
    exact sendSigned_frame fun _ => Stable.sendEnvelope_keeps fun _ _ h => h
  | verifying confirm peerPubKey =>
    refine (fulfils_of_keeps fun k => ?_).trans returns_verifying
    exact applyConfirmation_frame fun _ _ => Spec.modify fun _ h => h

/-- What is left of a call after its next part is backed as well. -/
theorem resume_backed (verdict : Verdict) (t : Task) :
    Spec (fun n => t.Backed n) (resume setup ctx verdict t) (fun next n => ∀ u ∈ next, u.Backed n)
      (fun _ _ => True) := by
  have hnone : ∀ n : Node, True → ∀ u ∈ (none : Option Task), u.Backed n := by simp
  cases t with
  | processing message address stage =>
    exact (resume_processing verdict).conseq (fun _ h => h) (fun _ _ h => h) fun _ _ _ => trivial
  | signing messageId address timestamp =>
    refine Spec.bind (orThrow_keeps (P := fun _ => True) _) fun signature => ?_
    split
    · exact Spec.bind (Stable.sendEnvelope_keeps fun _ _ h => h) fun _ => Spec.pure hnone
    · exact Spec.pure hnone
  | verifying confirm peerPubKey =>
    refine Spec.bind (orThrow_keeps (P := fun _ => True) _) fun valid => ?_
    split
    · exact Spec.bind (Spec.modify fun _ h => h) fun _ => Spec.pure hnone
    · exact Spec.pure hnone

theorem dispatch_backed (setup : Setup) (ctx : CallContext) (envelope : Envelope) :
    Spec (fun _ => True) (dispatch setup ctx envelope) (fun next n => ∀ u ∈ next, u.Backed n)
      (fun _ _ => True) := by
  have hnone : ∀ n : Node, True → ∀ u ∈ (none : Option Task), u.Backed n := by simp
  refine Spec.bind (R := fun _ _ => True) (Spec.modify fun _ _ => trivial) fun _ => ?_
  split
  · unfold handleIncomingMessage
    split
    · rename_i payload _
      refine Spec.bind (R := fun _ _ => True) ?_ fun plaintext => ?_
      · refine Spec.bind (orThrow_keeps _) fun _ => ?_
        refine Spec.bind (orThrow_keeps _) fun _ => ?_
        exact Spec.bind (orThrow_keeps _) fun _ => orThrow_keeps _
      · refine Spec.bind (orThrow_keeps _) fun body => ?_
        refine Spec.bind (saveMessage_connections (Φ := fun _ => True) _) fun _ => ?_
        refine Spec.bind ((process_returns ctx.now _ envelope.fromAddress).conseq (fun _ h => h)
          (fun _ _ h => h) fun _ _ _ => trivial) fun stage => Spec.pure fun n hn u hu => ?_
        obtain rfl := Option.some.inj hu
        exact hn
    · exact Spec.throw fun _ h => h
  · unfold handleDeliveryConfirmation
    split
    · refine Spec.read_bind fun n => ?_
      split
      · exact Spec.pure hnone
      · split
        · exact Spec.pure hnone
        · refine Spec.pure fun n _ u hu => ?_
          obtain rfl := Option.some.inj hu
          trivial
    · exact Spec.throw fun _ h => h
  · unfold handleQueueStatus
    split
    · exact Spec.bind (R := fun _ _ => True) (Spec.modify fun _ h => h) fun _ => Spec.pure hnone
    · exact Spec.pure hnone
  · exact Spec.pure hnone

end Messages

/-- No record is gone. -/
def Node.Persists (n n' : Node) : Prop :=
  ∀ p, (n.connectionStore.getConnection p).isSome = true →
    (n'.connectionStore.getConnection p).isSome = true

theorem Task.Backed.persists {t : Task} {n n' : Node} (h : t.Backed n) (hn : n.Persists n') :
    t.Backed n' := by
  cases t with
  | processing message address stage => exact fun hrec => hn address (h hrec)
  | _ => trivial

inductive HandlerLabel
  | input (x : InputLabel)
  /-- Whatever else the agent does meanwhile. -/
  | other (node : Node)

namespace Process

def handle (setup : Setup) (s : Process) : HandlerLabel → Option Process
  | .input x => s.input setup x
  | .other node => some { s with node := node }

/-- The sender is no name that every object has, and the agent deletes no record. -/
def Spares (s : Process) : HandlerLabel → Prop
  | .input (.incoming _ envelope) => ∀ a ∈ envelope.sender, a ∉ inheritedNames
  | .input (.resume ..) => True
  | .other node => s.node.Persists node

/-- The handlers that a step runs return, and so does what they start. -/
def Finishes (setup : Setup) (s : Process) : InputLabel → Prop
  | .incoming ctx envelope => Returns (ConnectionManager.dispatch ctx envelope) s.node.toAgent ∧
      Fulfils ctx (MessageManager.dispatch setup ctx envelope) (s.node.receive ctx envelope)
  | .resume task ctx verdict =>
    ∀ t ∈ s.tasks task, Fulfils ctx (MessageManager.resume setup ctx verdict t) s.node

def Contained (setup : Setup) (s : Process) : InputLabel → Prop
  | .incoming ctx envelope => envelope.Actionable ctx s.node.connectionStore ∧
      envelope.Readable setup s.node.messageStore
  | .resume task ctx _ => ∀ t ∈ s.tasks task, t.Resumable setup ctx s.node

/-- Every suspended call that may still record an event has its record. -/
def Backed (s : Process) : Prop := ∀ k t, s.tasks k = some t → t.Backed s.node

variable {setup : Setup} {s s' : Process}

theorem persists_receive (n : Node) (ctx : CallContext) (envelope : Envelope) :
    n.Persists (n.receive ctx envelope) := by
  intro p hp
  have hget : (n.receive ctx envelope).connectionStore.getConnection p = _ :=
    getConnection_incoming ctx n.toAgent envelope p
  rw [hget]
  cases incomingEffect p envelope with
  | keep => exact hp
  | create c => rfl
  | update u => simpa [RecordEffect.apply] using hp

theorem stable_known (config : CircuitBreakerConfig) (p : String) :
    Stable config fun n => (n.connectionStore.getConnection p).isSome = true := by
  refine .of_connectionStore (Φ := fun store => (store.getConnection p).isSome = true)
    fun now address type n n' hrec h => ?_
  rw [hrec.getConnection]
  split
  · simpa using h
  · exact h

theorem persists_dispatch (n : Node) (ctx : CallContext) (envelope : Envelope) :
    n.Persists (finalState ((dispatch setup ctx envelope).run (n.receive ctx envelope))) := by
  intro p hp
  have hstable := stable_known setup.breakerConfig p
  have hkeeps : Keeps (fun n : Node => (n.connectionStore.getConnection p).isSome = true)
      (dispatch setup ctx envelope) :=
    hstable.quiet.dispatch fun _ message _ _ =>
      saveMessage_connections (Φ := fun store => (store.getConnection p).isSome = true) message
  exact hkeeps.finalState (persists_receive n ctx envelope p hp)

theorem persists_resume (n : Node) (ctx : CallContext) (verdict : Verdict) (t : Task) :
    n.Persists (finalState ((MessageManager.resume setup ctx verdict t).run n)) :=
  fun p hp => ((stable_known setup.breakerConfig p).resume verdict t).finalState hp

/-- One task is replaced by what its part returns, and the others keep their records. -/
theorem Backed.update {node : Node} {next : Option Task} {k : ℕ} {started : ℕ} (h : s.Backed)
    (hn : s.node.Persists node) (hnext : ∀ t ∈ next, t.Backed node) :
    Backed ⟨node, Function.update s.tasks k next, started⟩ := by
  intro j t ht
  change Function.update s.tasks k next j = some t at ht
  by_cases hj : j = k
  · subst hj
    rw [Function.update_self] at ht
    exact hnext t ht
  · rw [Function.update_of_ne hj] at ht
    exact (h j t ht).persists hn

theorem backed_returned {x : NodeOp (Option Task)} {P : Node → Prop} {n : Node}
    (hspec : Spec P x (fun next n => ∀ t ∈ next, t.Backed n) (fun _ _ => True)) (hn : P n) :
    ∀ t ∈ (returned (x.run n)).join, t.Backed (finalState (x.run n)) := by
  intro t ht
  have hrun := eq_ok_of_returned (Option.join_eq_some_iff.1 ht)
  exact hspec.ok hn hrun t rfl

theorem backed_handle {x : HandlerLabel} (h : s.Backed) (hx : s.Spares x)
    (hs : s.handle setup x = some s') : s'.Backed := by
  cases x with
  | input x =>
    cases x with
    | incoming ctx envelope =>
      obtain rfl := Option.some.inj hs
      exact h.update (persists_dispatch s.node ctx envelope)
        (backed_returned (dispatch_backed setup ctx envelope) trivial)
    | resume task ctx verdict =>
      obtain ⟨t, ht, rfl⟩ := Option.map_eq_some_iff.1 hs
      exact h.update (persists_resume s.node ctx verdict t)
        (backed_returned (resume_backed verdict t) (h task t ht))
  | other node =>
    obtain rfl := Option.some.inj hs
    exact fun k t ht => (h k t ht).persists hx

end Process

/-- In every state that a process reaches, the handlers return and every write that they start
succeeds, exactly if the envelope and the surroundings of the call are as they need them. The
suspended processing of a message returns whatever it finds, but it starts a write if the breaker
trips. -/
theorem handlers_return_iff {setup : Setup} {node : Node} {l : List HandlerLabel} {s : Process}
    (hrun : Run (Process.handle setup) Process.Spares (Process.idle node) l s) :
    ∀ x, s.Spares (.input x) → (s.Finishes setup x ↔ s.Contained setup x) := by
  rintro x -
  have hbacked : s.Backed := hrun.invariant (P := Process.Backed) (fun _ _ h => by cases h)
    fun _ _ _ h hx hs => Process.backed_handle h hx hs
  cases x with
  | incoming ctx envelope =>
    exact and_congr (returns_connections ctx s.node.toAgent envelope)
      (fulfils_messages setup ctx (s.node.receive ctx envelope) envelope)
  | resume task ctx verdict =>
    exact forall₂_congr fun t ht => fulfils_resume verdict (hbacked task t ht)

instance (t : Task) (setup : Setup) (ctx : CallContext) (n : Node) :
    Decidable (t.Resumable setup ctx n) :=
  match t with
  | .processing .. => inferInstanceAs (Decidable (_ → _))
  | .signing .. => inferInstanceAs (Decidable (_ ∧ _))
  | .verifying .. => inferInstanceAs (Decidable (_ = _))

instance (setup : Setup) (s : Process) (ctx : CallContext) (envelope : Envelope) :
    Decidable (s.Finishes setup (.incoming ctx envelope)) :=
  inferInstanceAs (Decidable (_ ∧ _))

instance (setup : Setup) (s : Process) (task : ℕ) (ctx : CallContext) (verdict : Verdict) :
    Decidable (s.Finishes setup (.resume task ctx verdict)) :=
  inferInstanceAs (Decidable (∀ t ∈ s.tasks task, _))

def greeted : Process :=
  ((Process.idle (.withConnections peerStore)).input sentSetup
    (.incoming otherContext sentEnvelope)).get rfl

theorem plain_sentEnvelope : ∀ a ∈ sentEnvelope.sender, a ∉ inheritedNames := by decide +kernel

/-- The greeting, and what goes on with it, are contained; the greeting once more is not. -/
theorem handlers_return_iff_greeted :
    greeted.Finishes sentSetup (.resume 0 otherContext none) ∧
    (greeted.tasks 0).isSome = true ∧
    ¬ greeted.Finishes sentSetup (.incoming otherContext sentEnvelope) := by
  have hrun : Run (Process.handle sentSetup) Process.Spares (.idle (.withConnections peerStore))
      [.input (.incoming otherContext sentEnvelope)] greeted := .snoc .nil plain_sentEnvelope rfl
  refine ⟨(handlers_return_iff hrun (.resume 0 otherContext none) trivial).2 fun t ht => ?_,
    by decide +kernel, fun h => ?_⟩
  · have hresumable : ∀ t ∈ greeted.tasks 0, t.Resumable sentSetup otherContext greeted.node := by
      decide +kernel
    exact hresumable t ht
  · have hcontained :=
      (handlers_return_iff hrun (.incoming otherContext sentEnvelope) plain_sentEnvelope).1 h
    exact hcontained.2.2 (by decide +kernel)

def longText : String := String.ofList (List.replicate 281 'a')

/-- A message without a payload, with a key of no length, with a broken box and with an id that
is taken; a response from a stranger; requests with a long text and a late deadline; and a
confirmation without one. -/
def uncontained : List Envelope :=
  [{ type := .message },
   { sentEnvelope with
     messageId := []
     payload := .encrypted { sentPayload with senderPublicKey := [] } },
   { sentEnvelope with
     messageId := []
     payload := .encrypted { sentPayload with ciphertext := [] } },
   sentEnvelope,
   { type := .connectionResponse, payload := .connectionResponse ⟨thirdAddress, "", true, []⟩ },
   { type := .connectionRequest
     payload := .connectionRequest ⟨thirdAddress, "", longText, [], 0⟩ },
   { type := .connectionRequest
     payload := .connectionRequest ⟨thirdAddress, "", "", [], 8640000000001⟩ },
   { type := .deliveryConfirm }]

/-- The fiftieth message of a minute has arrived. -/
def flooded : Process :=
  ((Process.idle { Node.withConnections peerStore with
      breakerEvents := AList.insert vectorAddress
        (List.replicate 49 ⟨otherContext.now, "message_flood"⟩) ∅ }).input sentSetup
    (.incoming otherContext sentEnvelope)).get rfl

def unwritable : CallContext := { otherContext with saveError := some "EACCES: permission denied" }

/-- Each of the envelopes makes a handler throw. A message that makes the breaker trip while the
store file cannot be written leaves a rejection that nobody handles. -/
theorem uncontained_rejected :
    Run (Process.handle sentSetup) Process.Spares (.idle (.withConnections peerStore))
      [.input (.incoming otherContext sentEnvelope)] greeted ∧
    (∀ e ∈ uncontained, (∀ a ∈ e.sender, a ∉ inheritedNames) ∧
      ¬ greeted.Finishes sentSetup (.incoming otherContext e)) ∧
    flooded.Finishes sentSetup (.resume 0 otherContext none) ∧
    ¬ flooded.Finishes sentSetup (.resume 0 unwritable none) :=
  ⟨.snoc .nil plain_sentEnvelope rfl, by decide +kernel, by decide +kernel, by decide +kernel⟩

end Pinch
