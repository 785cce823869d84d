import Pinch.Blindness
import Pinch.Journal

/-! The structural permissions of a manifest: calendar, files, actions and spending. They are
stored and validated, but nothing an agent does with its messages and connections depends on
them. -/

namespace Pinch

open Transition

/-- The manifest with its structural permissions denied; the boundaries and categories stay. -/
def PermissionsManifest.unstructured (m : PermissionsManifest) : PermissionsManifest :=
  { defaultPermissionsManifest with
    informationBoundaries := m.informationBoundaries
    customCategories := m.customCategories }

def Connection.unstructured (c : Connection) : Connection :=
  { c with permissionsManifest := c.permissionsManifest.map (·.unstructured) }

def ConnectionStore.unstructured (s : ConnectionStore) : ConnectionStore :=
  s.mapRecords Connection.unstructured

def Agent.unstructured (a : Agent) : Agent :=
  { a with connectionStore := a.connectionStore.unstructured }

def Node.unstructured (n : Node) : Node := { n with toAgent := n.toAgent.unstructured }

def Sender.unstructured (s : Sender) : Sender := { s with toNode := s.toNode.unstructured }

def Process.unstructured (p : Process) : Process := { p with node := p.node.unstructured }

def ToolProcess.unstructured (t : ToolProcess) : ToolProcess :=
  { t with process := t.process.unstructured }

def Host.unstructured (s : Host) : Host :=
  { s with
    connectionsJson := s.connectionsJson.unstructured
    running := s.running.map (·.unstructured) }

/-! ### The records -/

namespace ConnectionStore

section MapRecords

variable {f g : Connection → Connection}

theorem mapRecords_insert (s : ConnectionStore) (p : String) (c : Connection) :
    mapRecords (s.insert p c) f = AList.insert p (f c) (s.mapRecords f) := by
  let onRecord : (Σ _ : String, Connection) → Σ _ : String, Connection := fun e => ⟨e.1, f e.2⟩
  have herase (l : List (Σ _ : String, Connection)) :
      (l.kerase p).map onRecord = (l.map onRecord).kerase p := by
    induction l with
    | nil => rfl
    | cons e l ih =>
      by_cases hp : p = e.1
      · have hp' : p = (onRecord e).1 := hp
        rw [List.kerase_cons_eq hp, List.map_cons, List.kerase_cons_eq hp']
      · have hp' : p ≠ (onRecord e).1 := hp
        rw [List.kerase_cons_ne hp, List.map_cons, List.map_cons, List.kerase_cons_ne hp', ih]
  refine AList.ext ?_
  simp only [mapRecords, AList.entries_insert, List.map_cons]
  exact congrArg (List.cons (⟨p, f c⟩ : Σ _ : String, Connection)) (herase s.entries)

theorem mapRecords_comm (h : ∀ c, f (g c) = g (f c)) (s : ConnectionStore) :
    (s.mapRecords g).mapRecords f = (s.mapRecords f).mapRecords g := by
  refine AList.ext ?_
  simp only [mapRecords, List.map_map]
  refine List.map_congr_left fun e _ => ?_
  simp only [Function.comp_apply, Sigma.map, h]

end MapRecords

variable (s : ConnectionStore)

@[simp] theorem getConnection_unstructured (p : String) :
    s.unstructured.getConnection p = (s.getConnection p).map Connection.unstructured :=
  getConnection_mapRecords s _ p

theorem insert_unstructured (p : String) (c : Connection) :
    AList.insert p c.unstructured s.unstructured = unstructured (s.insert p c) :=
  (mapRecords_insert s p c).symm

theorem clearPassthroughFlags_unstructured :
    s.unstructured.clearPassthroughFlags = s.clearPassthroughFlags.unstructured := by
  refine (mapRecords_comm (fun c => ?_) s).symm
  unfold clearPassthrough
  split
  · rename_i hflag
    exact (if_pos hflag).symm
  · rename_i hflag
    exact (if_neg hflag).symm

theorem getPeerPublicKey_unstructured (sha256 : Bytes → Bytes) (p : String) :
    s.unstructured.getPeerPublicKey sha256 p = s.getPeerPublicKey sha256 p := by
  unfold getPeerPublicKey
  rw [getConnection_unstructured]
  cases s.getConnection p <;> rfl

theorem assign_unstructured {u : ConnectionUpdates} (hu : u.permissionsManifest = none)
    (c : Connection) (now : Int) :
    assign c.unstructured u now = (assign c u now).unstructured := by
  simp [assign, Connection.unstructured, hu]

theorem addConnection_unstructured {conn : NewConnection} (hconn : conn.permissionsManifest = none)
    (now : Int) : s.unstructured.addConnection now conn =
      (s.addConnection now conn).map unstructured := by
  have hfresh : freshConnection now conn = (freshConnection now conn).unstructured := by
    simp [freshConnection, Connection.unstructured, hconn]
    rfl
  unfold addConnection
  split
  · rfl
  · rw [hfresh, insert_unstructured, ← hfresh]
    rfl

theorem updateConnection_unstructured {u : ConnectionUpdates} (hu : u.permissionsManifest = none)
    (now : Int) (p : String) : s.unstructured.updateConnection now p u =
      (s.updateConnection now p u).map unstructured := by
  unfold updateConnection
  rw [getConnection_unstructured]
  cases s.getConnection p with
  | none => rfl
  | some c =>
    change Except.ok _ = Except.ok _
    rw [assign_unstructured hu, insert_unstructured]

theorem check_unstructured (p : String) :
    PermissionsEnforcer.check s.unstructured p = PermissionsEnforcer.check s p := by
  unfold PermissionsEnforcer.check
  rw [getConnection_unstructured]
  cases s.getConnection p with
  | none => rfl
  | some c =>
    -- only the boundaries and the categories of the manifest are read
    have hmanifest : c.unstructured.permissionsManifest.getD defaultPermissionsManifest =
        (c.permissionsManifest.getD defaultPermissionsManifest).unstructured := by
      simp only [Connection.unstructured]
      cases c.permissionsManifest <;> rfl
    simp only [Option.map_some, hmanifest]
    rfl

end ConnectionStore

/-! ### The connection manager -/

section Connections

open ConnectionManager

variable {ctx : CallContext} {p : String}

theorem ownAddress_blind : Blind Agent.unstructured (ownAddress ctx) := by
  unfold ownAddress
  split
  · exact .ite .throw .pure
  · exact .throw

theorem sendEnvelope_blind (e : Envelope) : Blind Agent.unstructured (sendEnvelope ctx e) :=
  .ite (.modify fun _ => rfl) .throw

theorem save_blind : Blind Agent.unstructured (save ctx) := by
  unfold save
  split
  · exact .throw
  · exact .pure

theorem isoOrThrow_blind (ms : Int) : Blind Agent.unstructured (isoOrThrow ms) := by
  unfold isoOrThrow
  split
  · exact .pure
  · exact .throw

/-- Every write of the connection manager goes through the store's own operations. -/
theorem setStore_blind {f : ConnectionStore → Except String ConnectionStore}
    (hf : ∀ s, f s.unstructured = (f s).map ConnectionStore.unstructured) :
    Blind Agent.unstructured (do setStore (f (← get).connectionStore)) := by
  refine .write fun a => ?_
  change (setStore (f a.connectionStore.unstructured)).run _ = _
  rw [hf]
  cases f a.connectionStore with
  | error e => rfl
  | ok s => rfl

theorem addConnection_blind {c : NewConnection} (hc : c.permissionsManifest = none) :
    Blind Agent.unstructured (addConnection ctx c) :=
  setStore_blind (f := fun s => s.addConnection ctx.now c) fun s =>
    s.addConnection_unstructured hc ctx.now

theorem updateConnection_blind {u : ConnectionUpdates} (hu : u.permissionsManifest = none) :
    Blind Agent.unstructured (updateConnection ctx p u) :=
  setStore_blind (f := fun s => s.updateConnection ctx.now p u) fun s =>
    s.updateConnection_unstructured hu ctx.now p

theorem getConnection_bind_blind {α : Type} {f : Option Connection → Op α}
    (hread : ∀ c : Connection, f (some c.unstructured) = f (some c))
    (hf : ∀ c, Blind Agent.unstructured (f c)) :
    Blind Agent.unstructured (getConnection p >>= f) := by
  intro a
  change (f (a.connectionStore.unstructured.getConnection p)).run _ =
    mapState _ ((f (a.connectionStore.getConnection p)).run a)
  rw [ConnectionStore.getConnection_unstructured]
  cases a.connectionStore.getConnection p with
  | none => exact hf _ a
  | some c =>
    rw [Option.map_some, hread]
    exact hf _ a

theorem requirePendingInbound_blind (verb : String) :
    Blind Agent.unstructured (requirePendingInbound verb p) := by
  refine getConnection_bind_blind (fun _ => rfl) fun c => ?_
  cases c with
  | none => exact .throw
  | some conn => exact .ite .throw .pure

theorem handleIncomingRequest_blind (envelope : Envelope) :
    Blind Agent.unstructured (handleIncomingRequest ctx envelope) := by
  unfold handleIncomingRequest
  split
  · refine .bind ?_ fun _ => .seq (addConnection_blind rfl) save_blind
    unfold requestDeadline
    exact .ite .pure (.bind (isoOrThrow_blind _) fun _ => .pure)
  · exact .pure

theorem handleIncomingResponse_blind (envelope : Envelope) :
    Blind Agent.unstructured (handleIncomingResponse ctx envelope) := by
  unfold handleIncomingResponse
  split
  · dsimp only
    split
    · exact .seq (updateConnection_blind rfl) save_blind
    · exact .seq (updateConnection_blind rfl) save_blind
  · exact .pure

theorem handleIncomingRevoke_blind (envelope : Envelope) :
    Blind Agent.unstructured (handleIncomingRevoke ctx envelope) := by
  unfold handleIncomingRevoke
  split
  · refine getConnection_bind_blind (fun _ => rfl) fun c => ?_
    cases c with
    | none => exact .pure
    | some conn => exact .seq (updateConnection_blind rfl) save_blind
  · exact .pure

theorem dispatch_blind (envelope : Envelope) :
    Blind Agent.unstructured (dispatch ctx envelope) := by
  unfold dispatch
  split
  · exact handleIncomingRequest_blind envelope
  · exact handleIncomingResponse_blind envelope
  · exact handleIncomingRevoke_blind envelope
  · exact .pure

theorem perform_blind (event : ConnectionEvent) :
    Blind Agent.unstructured (event.perform ctx) := by
  cases event with
  | sendRequest toAddress message =>
    change Blind _ (ConnectionManager.sendRequest ctx toAddress message)
    unfold ConnectionManager.sendRequest
    split
    · exact .throw_bind
    · refine .bind ownAddress_blind fun own => .seq (sendEnvelope_blind _) ?_
      exact .bind (isoOrThrow_blind _) fun _ => .seq (addConnection_blind rfl) save_blind
  | approveRequest p =>
    refine .seq (requirePendingInbound_blind _) ?_
    refine .bind ownAddress_blind fun own => .seq (sendEnvelope_blind _) ?_
    exact .seq (updateConnection_blind rfl) save_blind
  | rejectRequest p =>
    exact .seq (requirePendingInbound_blind _) (.seq (updateConnection_blind rfl) save_blind)
  | blockConnection p | unblockConnection p =>
    refine .bind ownAddress_blind fun own => ?_
    exact .seq (updateConnection_blind rfl) (.seq (sendEnvelope_blind _) save_blind)
  | revokeConnection p =>
    refine .bind ownAddress_blind fun own => ?_
    exact .seq (sendEnvelope_blind _) (.seq (updateConnection_blind rfl) save_blind)
  | incoming envelope => exact dispatch_blind envelope

end Connections

/-! ### The message handlers -/

@[simp] theorem Node.connectionStore_unstructured (n : Node) :
    n.unstructured.connectionStore = n.connectionStore.unstructured := rfl

section Handlers

open CircuitBreaker MessageManager

variable {config : CircuitBreakerConfig} {now : Int} {message : MessageRecord} {p : String}

theorem updateState_blind (id state : String) (failureReason : Option String) :
    Blind Node.unstructured (Node.updateState now id state failureReason) :=
  .modify fun _ => rfl

theorem recordActivity_blind (event : ActivityEvent) :
    Blind Node.unstructured (Node.recordActivity now event) :=
  .modify fun _ => rfl

theorem saveMessage_blind (msg : MessageRecord) :
    Blind Node.unstructured (Node.saveMessage msg) := by
  refine .read (fun _ => rfl) fun n => ?_
  split
  · exact .modify fun _ => rfl
  · exact .throw

theorem nodeUpdate_blind {u : ConnectionUpdates} (hu : u.permissionsManifest = none) :
    Blind Node.unstructured (Node.updateConnection now p u) := by
  refine .write fun n => ?_
  rw [Node.connectionStore_unstructured, ConnectionStore.updateConnection_unstructured _ hu]
  cases n.connectionStore.updateConnection now p u with
  | error e => rfl
  | ok s => rfl

theorem trip_blind (trigger : TriggerType) (count : Nat) (threshold windowMs : Int) :
    Blind Node.unstructured (trip now p trigger count threshold windowMs) :=
  .seq (nodeUpdate_blind rfl) (.seq (nodeUpdate_blind rfl)
    (.seq (.modify fun _ => rfl) (recordActivity_blind _)))

theorem checkAndTrip_blind : Blind Node.unstructured (checkAndTrip config now p) := by
  refine .read (fun n => ?_) fun n => .ite .pure ?_
  · have htripped : isTripped n.unstructured p = isTripped n p := by
      simp only [isTripped, Node.connectionStore_unstructured,
        ConnectionStore.getConnection_unstructured]
      cases n.connectionStore.getConnection p <;> rfl
    rw [htripped]
    rfl
  · dsimp only
    split
    · exact trip_blind _ _ _ _
    · exact .pure

theorem recordViolation_blind (type : String) :
    Blind Node.unstructured (recordViolation config now p type) :=
  .seq (.modify fun _ => rfl) checkAndTrip_blind

theorem route_blind : Blind Node.unstructured (InboundRouter.route now message p) := by
  refine .read (fun n => ?_) fun n => ?_
  · rw [Node.connectionStore_unstructured, ConnectionStore.getConnection_unstructured]
    cases n.connectionStore.getConnection p <;> rfl
  · split
    · refine .ite (.seq (updateState_blind _ _ _) .pure) ?_
      split
      · exact .seq (updateState_blind _ _ _) .pure
      · exact .seq (recordActivity_blind _) (.seq (updateState_blind _ _ _) .pure)
      · exact .seq (updateState_blind _ _ _) .pure
      · exact .seq (updateState_blind _ _ _) .pure
    · exact .seq (updateState_blind _ _ _) .pure

theorem process_blind :
    Blind Node.unstructured (EnforcementPipeline.process now message p) := by
  refine .read (fun n => ?_) fun n => ?_
  · simp only [Node.connectionStore_unstructured, ConnectionStore.getConnection_unstructured,
      ConnectionStore.check_unstructured]
    cases n.connectionStore.getConnection p <;> rfl
  · refine .ite ?_ (.ite ?_ .pure)
    · exact .seq (recordActivity_blind _) (.seq (updateState_blind _ _ _) .pure)
    · exact .seq (updateState_blind _ _ _) (.seq (recordActivity_blind _) .pure)

/-- The message gets its state, and the feed says what was decided. -/
theorem decided_blind (state : String) (reason : Option String) (decision : PolicyDecision)
    (stage : Stage) : Blind Node.unstructured (do
      Node.updateState now message.id state reason
      EnforcementPipeline.recordAutoRespondDecision now message p decision
      return stage) :=
  .seq (updateState_blind _ _ _) (.seq (recordActivity_blind _) .pure)

theorem evaluateAutoRespondPolicy_blind (routed : RoutedMessage) :
    Blind Node.unstructured
      (EnforcementPipeline.evaluateAutoRespondPolicy now message p routed) := by
  refine .read (fun n => ?_) fun n => ?_
  · rw [Node.connectionStore_unstructured, ConnectionStore.getConnection_unstructured]
    cases n.connectionStore.getConnection p <;> rfl
  · split
    · split
      · exact .pure
      · exact decided_blind _ _ _ _
    · exact decided_blind _ _ _ _

theorem applyVerdict_blind (routed : RoutedMessage) (verdict : Verdict) :
    Blind Node.unstructured (EnforcementPipeline.applyVerdict now message p routed verdict) := by
  cases verdict with
  | none => exact decided_blind _ _ _ _
  | some decision =>
    obtain ⟨action, confidence, reasoning⟩ := decision
    cases action with
    | allow => exact decided_blind _ _ _ _
    | deny => exact decided_blind _ _ _ _
    | escalate => exact decided_blind _ _ _ _

theorem enforce_blind (result : EnforcementResult) :
    Blind Node.unstructured (EnforcementPipeline.enforce config now message p result) := by
  refine .ite ?_ (.ite (.seq (updateState_blind _ _ _) .pure) ?_)
  · refine .seq (recordViolation_blind _) (.bind route_blind fun routed => ?_)
    exact .ite (evaluateAutoRespondPolicy_blind _) .pure
  · split
    · exact .seq (recordViolation_blind _) (.seq (updateState_blind _ _ _) .pure)
    · exact .seq (updateState_blind _ _ _) .pure

theorem pipelineResume_blind (verdict : Verdict) (stage : Stage) :
    Blind Node.unstructured
      (EnforcementPipeline.resume config now message p verdict stage) := by
  cases stage with
  | checking boundaries rest => exact .pure
  | enforced result => exact enforce_blind result
  | evaluating policy nickname routed => exact applyVerdict_blind routed verdict
  | done routed => exact .pure

variable {setup : Setup} {ctx : CallContext}

theorem orThrow_blind {α : Type} (error : String) (o : Option α) :
    Blind Node.unstructured (orThrow error o) := by
  cases o with
  | none => exact .throw
  | some a => exact .pure

theorem transmit_blind (envelope : Envelope) :
    Blind Node.unstructured (MessageManager.sendEnvelope ctx envelope) :=
  .ite (.modify fun _ => rfl) .throw

theorem openPayload_blind (payload : EncryptedPayload) :
    Blind Node.unstructured (openPayload setup payload) := by
  refine .bind (orThrow_blind _ _) fun senderX25519Pub => ?_
  refine .bind (orThrow_blind _ _) fun recipientX25519Priv => ?_
  exact .bind (orThrow_blind _ _) fun decryptedBytes => orThrow_blind _ _

theorem handleIncomingMessage_blind (envelope : Envelope) :
    Blind Node.unstructured (handleIncomingMessage setup ctx envelope) := by
  unfold handleIncomingMessage
  split
  · refine .bind (openPayload_blind _) fun plaintext => .bind (orThrow_blind _ _) fun body => ?_
    exact .seq (saveMessage_blind _) (.bind process_blind fun _ => .pure)
  · exact .throw

theorem handleDeliveryConfirmation_blind (envelope : Envelope) :
    Blind Node.unstructured (handleDeliveryConfirmation setup envelope) := by
  unfold handleDeliveryConfirmation
  split
  · refine .read (fun n => ?_) fun n => ?_
    · rw [Node.connectionStore_unstructured, ConnectionStore.getPeerPublicKey_unstructured]
      rfl
    · split
      · exact .pure
      · split
        · exact .pure
        · exact .pure
  · exact .throw

theorem trackFlush_blind : Blind Node.unstructured trackFlush := by
  refine .modify fun n => ?_
  by_cases hremaining : 0 < n.flush.remaining
  · have hremaining' : 0 < n.unstructured.flush.remaining := hremaining
    rw [if_pos hremaining, if_pos hremaining']
    rfl
  · have hremaining' : ¬ 0 < n.unstructured.flush.remaining := hremaining
    rw [if_neg hremaining, if_neg hremaining']

theorem messageDispatch_blind (envelope : Envelope) :
    Blind Node.unstructured (MessageManager.dispatch setup ctx envelope) := by
  refine .seq trackFlush_blind ?_
  split
  · exact handleIncomingMessage_blind envelope
  · exact handleDeliveryConfirmation_blind envelope
  · unfold handleQueueStatus
    split
    · exact .seq (.modify fun _ => rfl) .pure
    · exact .pure
  · exact .pure

theorem resume_blind (verdict : Verdict) (task : Task) :
    Blind Node.unstructured (MessageManager.resume setup ctx verdict task) := by
  cases task with
  | processing message address stage =>
    cases stage with
    | done routed => exact .pure
    | checking boundaries rest => exact .bind (pipelineResume_blind _ _) fun _ => .pure
    | enforced result => exact .bind (pipelineResume_blind _ _) fun _ => .pure
    | evaluating policy nickname routed =>
      exact .bind (pipelineResume_blind _ _) fun _ => .pure
  | signing messageId address timestamp =>
    refine .bind (orThrow_blind _ _) fun signature => ?_
    split
    · exact .seq (transmit_blind _) .pure
    · exact .pure
  | verifying confirm key =>
    refine .bind (orThrow_blind _ _) fun valid => ?_
    split
    · exact .seq (updateState_blind _ _ _) .pure
    · exact .pure

end Handlers

/-! ### The tools -/

theorem Sender.connectionStore_unstructured (s : Sender) :
    s.unstructured.connectionStore = s.connectionStore.unstructured := rfl

section Tools

variable {ctx : SendContext} {p : String} {α : Type}

theorem run_setRecord_unstructured (s : ConnectionStore) (c : Connection) :
    (ConnectionStore.setRecord p c.unstructured).run s.unstructured =
      mapState ConnectionStore.unstructured ((ConnectionStore.setRecord p c).run s) :=
  congrArg (EStateM.Result.ok ()) (s.insert_unstructured p c)

theorem updateInPlace_blind {u : ConnectionUpdates} (hu : u.permissionsManifest = none)
    (now : Int) : Blind ConnectionStore.unstructured (ConnectionStore.updateInPlace now p u) := by
  refine .write fun s => ?_
  rw [ConnectionStore.getConnection_unstructured]
  cases s.getConnection p with
  | none => rfl
  | some c =>
    simp only [Option.map_some, ConnectionStore.assign_unstructured hu]
    exact run_setRecord_unstructured s _

theorem setAutonomyInPlace_blind (now : Int) (level : AutonomyLevel) (confirmed : Bool) :
    Blind ConnectionStore.unstructured
      (ConnectionStore.setAutonomyInPlace now p level confirmed) := by
  refine .write fun s => ?_
  rw [ConnectionStore.getConnection_unstructured]
  cases s.getConnection p with
  | none => rfl
  | some c =>
    have hwrite (c : Connection) : (ConnectionStore.setRecord p c.unstructured >>= fun _ =>
        ConnectionStore.updateInPlace now p { autonomyLevel := some level }).run s.unstructured =
        mapState ConnectionStore.unstructured ((ConnectionStore.setRecord p c >>= fun _ =>
          ConnectionStore.updateInPlace now p { autonomyLevel := some level }).run s) := by
      rw [EStateM.run_bind, EStateM.run_bind, run_setRecord_unstructured]
      exact updateInPlace_blind rfl now _
    by_cases hgate : level = .fullAuto ∧ c.autonomyLevel ≠ .fullAuto ∧ confirmed ≠ true
    · have hgate' : level = .fullAuto ∧ c.unstructured.autonomyLevel ≠ .fullAuto ∧
        confirmed ≠ true := hgate
      simp only [Option.map_some, if_pos hgate, if_pos hgate']
      rfl
    · have hgate' : ¬ (level = .fullAuto ∧ c.unstructured.autonomyLevel ≠ .fullAuto ∧
        confirmed ≠ true) := hgate
      simp only [Option.map_some, if_neg hgate, if_neg hgate']
      by_cases htripped : c.circuitBreakerTripped = some true
      · have htripped' : c.unstructured.circuitBreakerTripped = some true := htripped
        simp only [if_pos htripped, if_pos htripped']
        exact hwrite { c with circuitBreakerTripped := some false }
      · have htripped' : c.unstructured.circuitBreakerTripped ≠ some true := htripped
        simp only [if_neg htripped, if_neg htripped']
        exact hwrite c

theorem throwIf_blind (e : Option String) : Blind ConnectionStore.unstructured (throwIf e) := by
  cases e with
  | none => exact .pure
  | some e => exact .throw

theorem changeLevel_blind (now : Int) (saveError : Option String) (request : AutonomyRequest) :
    Blind ConnectionStore.unstructured (changeLevel now saveError request) := by
  refine .read (fun s => ?_) fun s => ?_
  · rw [ConnectionStore.getConnection_unstructured]
    cases s.getConnection request.address <;> rfl
  · split
    · exact .pure
    · refine .ite .pure (.seq (setAutonomyInPlace_blind _ _ _) ?_)
      refine .seq ?_ (.seq (throwIf_blind _) .pure)
      unfold storePolicy
      split
      · exact .ite (updateInPlace_blind rfl _) .pure
      · exact .pure

theorem onNode_eq_zoom (x : NodeOp α) :
    Sender.onNode x = zoom (·.toNode) (fun s n => { s with toNode := n }) x := by
  funext s
  unfold Sender.onNode zoom
  cases x.run s.toNode <;> rfl

theorem onNode_blind {x : NodeOp α} (hx : Blind Node.unstructured x) :
    Blind Sender.unstructured (Sender.onNode x) := by
  rw [onNode_eq_zoom]
  exact .zoom hx (fun _ => rfl) fun _ _ => rfl

theorem onAgent_blind {x : Op α} (hx : Blind Agent.unstructured x) :
    Blind Sender.unstructured (Sender.onAgent x) :=
  .zoom hx (fun _ => rfl) fun _ _ => rfl

theorem onStore_blind {x : StoreOp α} (hx : Blind ConnectionStore.unstructured x) :
    Blind Sender.unstructured (Sender.onStore x) :=
  .zoom hx (fun _ => rfl) fun _ _ => rfl

theorem senderOrThrow_blind (error : String) (o : Option α) :
    Blind Sender.unstructured (Sender.orThrow error o) := by
  cases o with
  | none => exact .throw
  | some a => exact .pure

theorem applySetting_blind (setting : ConnectionStore.Setting) (eventType badge : String)
    (hsetting : ∀ u, setting.updates = .ok u → u.permissionsManifest = none) :
    Blind Sender.unstructured (Tool.applySetting ctx p setting eventType badge) := by
  refine .seq (onStore_blind ?_)
    (.seq (onStore_blind (throwIf_blind _)) (onNode_blind (recordActivity_blind _)))
  unfold ConnectionStore.applySetting
  split
  · rename_i u hu
    exact updateInPlace_blind (hsetting u hu) _
  · exact .throw

/-- Only whether the connection is active matters to the sender. -/
theorem orThrow_unstructured (error : String) (o : Option Connection)
    (f : Connection → SenderOp α) (hf : ∀ c, f c.unstructured = f c) :
    Sender.orThrow error ((o.map Connection.unstructured).filter (·.state = .active)) >>= f =
      Sender.orThrow error (o.filter (·.state = .active)) >>= f := by
  cases o with
  | none => rfl
  | some c =>
    have hstate : c.unstructured.state = c.state := rfl
    simp only [Option.map_some, Option.filter, hstate]
    split
    · exact hf c
    · rfl

theorem nextSequence_blind (recipient : String) :
    Blind Sender.unstructured (Sender.nextSequence recipient) :=
  .read (fun _ => rfl) fun _ => .seq (.modify fun _ => rfl) .pure

theorem sealMessage_blind {setup : SendSetup} (params : SendMessageParams) (key : Bytes)
    (threadId : String) (sequence : Nat) : Blind Sender.unstructured
      (MessageManager.sealMessage setup ctx params key threadId sequence) := by
  refine .bind (senderOrThrow_blind _ _) fun wrappedContent => ?_
  refine .bind (senderOrThrow_blind _ _) fun plaintextBytes => ?_
  refine .bind (senderOrThrow_blind _ _) fun senderX25519Priv => ?_
  exact .bind (senderOrThrow_blind _ _) fun recipientX25519Pub => senderOrThrow_blind _ _

theorem sendMessage_blind {setup : SendSetup} (params : SendMessageParams) :
    Blind Sender.unstructured (MessageManager.sendMessage setup ctx params) := by
  refine .read (fun s => ?_) fun s => ?_
  · rw [Sender.connectionStore_unstructured, ConnectionStore.getConnection_unstructured,
      ConnectionStore.getPeerPublicKey_unstructured, orThrow_unstructured _ _ _ fun _ => rfl]
    rfl
  · refine .bind (senderOrThrow_blind _ _) fun _ => .bind (senderOrThrow_blind _ _) fun key => ?_
    refine .bind (nextSequence_blind _) fun sequence => ?_
    refine .bind (sealMessage_blind _ _ _ _) fun sealed => ?_
    refine .bind (senderOrThrow_blind _ _) fun fromAddress => ?_
    refine .bind (senderOrThrow_blind _ _) fun envelopeBytes => .ite .throw ?_
    exact .seq (onNode_blind (saveMessage_blind _)) (.seq (onNode_blind (transmit_blind _)) .pure)

/-- The tool is about to write a manifest. -/
def Tool.setsPermissions : Tool → Bool
  | .permissions _ (some _) => true
  | _ => false

theorem command_blind {setup : SendSetup} {tool : Tool} (htool : tool.setsPermissions = false) :
    Blind Sender.unstructured (tool.command setup ctx) := by
  cases tool with
  | accept p => exact onAgent_blind (perform_blind _)
  | autonomy request => exact .map (onStore_blind (changeLevel_blind _ _ _))
  | connect toAddress message => exact onAgent_blind (perform_blind _)
  | intervene mode p =>
    cases mode with
    | start | stop =>
      refine applySetting_blind _ _ _ fun u hu => ?_
      cases hu
      rfl
    | send body => exact .map (sendMessage_blind _)
  | mute p unmute =>
    refine applySetting_blind _ _ _ fun u hu => ?_
    cases hu
    rfl
  | permissions address change =>
    cases change with
    | some change => cases htool
    | none =>
      refine .read (fun s => ?_) fun s => ?_
      · rw [Sender.connectionStore_unstructured, ConnectionStore.getConnection_unstructured]
        cases s.connectionStore.getConnection address <;> rfl
      · cases s.connectionStore.getConnection address <;> exact .pure
  | reject p => exact onAgent_blind (perform_blind _)
  | send params => exact .map (sendMessage_blind _)
  | activity | auditExport | auditVerify | contacts | history | status => exact .pure

end Tools

/-! ### Whole runs -/

section Runs

theorem Blind.finalState {ε σ α : Type} {m : σ → σ} {x : EStateM ε σ α} (h : Blind m x) (s : σ) :
    finalState (x.run (m s)) = m (finalState (x.run s)) := by
  rw [h s]
  cases x.run s <;> rfl

theorem Blind.returned {ε σ α : Type} {m : σ → σ} {x : EStateM ε σ α} (h : Blind m x) (s : σ) :
    returned (x.run (m s)) = returned (x.run s) := by
  rw [h s]
  cases x.run s <;> rfl

theorem Node.receive_unstructured (n : Node) (ctx : CallContext) (envelope : Envelope) :
    n.unstructured.receive ctx envelope = (n.receive ctx envelope).unstructured := by
  have hincoming : Blind Agent.unstructured ((ConnectionEvent.incoming envelope).perform ctx) :=
    perform_blind _
  exact congrArg (fun a => { n with toAgent := a }) (hincoming.finalState n.toAgent)

theorem Process.input_unstructured (setup : Setup) (s : Process) (x : InputLabel) :
    s.unstructured.input setup x = (s.input setup x).map Process.unstructured := by
  cases x with
  | incoming ctx envelope =>
    have hdispatch : Blind Node.unstructured (MessageManager.dispatch setup ctx envelope) :=
      messageDispatch_blind envelope
    simp only [Process.input, Process.step, Process.unstructured, Node.receive_unstructured,
      hdispatch.finalState, hdispatch.returned, Option.map_some]
  | resume task ctx verdict =>
    simp only [Process.input, Process.step, Process.unstructured, Option.map_map]
    refine congrArg (fun f => (s.tasks task).map f) (funext fun t => ?_)
    have hresume : Blind Node.unstructured (MessageManager.resume setup ctx verdict t) :=
      resume_blind verdict t
    simp only [Function.comp_apply, hresume.finalState, hresume.returned]
    rfl

namespace Host

/-- The step in which `pinch-permissions` writes a manifest. -/
def setsPermissions (s : Host) : HostLabel → Bool
  | .command _ => s.running.any (·.tool.setsPermissions)
  | _ => false

theorem bootstrap_unstructured (s : Host) (tool : Tool) :
    s.unstructured.bootstrap tool = (s.bootstrap tool).unstructured := by
  simp only [bootstrap, unstructured, ConnectionStore.clearPassthroughFlags_unstructured]
  rfl

theorem runCommand_unstructured (setup : HostSetup) (ctx : SendContext) {t : ToolProcess}
    (ht : t.tool.setsPermissions = false) :
    runCommand setup ctx t.unstructured = (runCommand setup ctx t).unstructured := by
  have hcommand : Blind Sender.unstructured (t.tool.command setup.send ctx) := command_blind ht
  exact congrArg (fun s : Sender => { t with
      process := { t.process with node := s.toNode }
      sequences := s.sequences
      commanded := true }) (hcommand.finalState ⟨t.process.node, t.sequences⟩)

theorem step_unstructured (setup : HostSetup) {s : Host} {x : HostLabel}
    (hx : s.setsPermissions x = false) :
    step setup s.unstructured x = (step setup s x).map unstructured := by
  obtain ⟨json, database, running⟩ := s
  cases x with
  | invoke tool =>
    cases running with
    | none => exact congrArg some (bootstrap_unstructured _ tool)
    | some t => rfl
  | command ctx =>
    cases running with
    | none => rfl
    | some t =>
      simp only [step, unstructured, Option.map_some, runCommand_unstructured setup ctx hx]
      rw [apply_ite (Option.map unstructured)]
      rfl
  | input x =>
    cases running with
    | none => rfl
    | some t =>
      simp only [step, unstructured, Option.map_some, ToolProcess.unstructured]
      split
      · rfl
      · rw [Process.input_unstructured, Option.map_map, Option.map_map]
        rfl
  | save =>
    cases running with
    | none => rfl
    | some t => rfl
  | exit =>
    cases running with
    | none => rfl
    | some t => rfl

variable {setup : HostSetup} {s s' t : Host} {l : List HostLabel}

theorem setsPermissions_unstructured (s : Host) (x : HostLabel) :
    s.unstructured.setsPermissions x = s.setsPermissions x := by
  obtain ⟨json, database, running⟩ := s
  cases x with
  | command ctx => cases running <;> rfl
  | _ => rfl

theorem journal_unstructured (s : Host) : s.unstructured.journal = s.journal := by
  obtain ⟨json, database, running⟩ := s
  cases running <;> rfl

/-- Two hosts that differ in structural permissions only, and are given the same calls, envelopes
and verdicts, have the same rows, feed, numbers and envelopes at the end, and differ in
structural permissions only. -/
theorem structural_permissions_inert
    (hrun : Run (step setup) (fun s x => s.setsPermissions x = false) s l t)
    (halike : s.unstructured = s'.unstructured) :
    ∃ t', Run (step setup) (fun s x => s.setsPermissions x = false) s' l t' ∧
      t'.journal = t.journal ∧ t'.unstructured = t.unstructured := by
  have hok (s s' : Host) (x : HostLabel) (h : s.unstructured = s'.unstructured)
      (hx : s.setsPermissions x = false) : s'.setsPermissions x = false := by
    rw [← setsPermissions_unstructured s', ← h, setsPermissions_unstructured]
    exact hx
  obtain ⟨t', hrun', ht'⟩ := hrun.forget hok (fun s x hx => step_unstructured setup hx) halike
  refine ⟨t', hrun', ?_, ht'.symm⟩
  rw [← journal_unstructured t', ← ht', journal_unstructured]

/-- Everything structural is granted. -/
def grantingManifest : PermissionsManifest where
  calendar := .proposeAndBook
  files := .everything
  actions := .full
  spending := ⟨1000, 1000, 1000⟩
  informationBoundaries := []
  customCategories := []

def withManifest (manifest : PermissionsManifest) : Host where
  connectionsJson := peerStore.mapRecords fun c => { c with permissionsManifest := some manifest }
  database := ⟨.empty, [], ∅⟩
  running := none

/-- A tool is started, a message comes in and is decided. -/
def visit : List HostLabel :=
  [.invoke .history, .input (.incoming otherContext sentEnvelope),
    .input (.resume 0 otherContext none)]

theorem structural_permissions_inert_granted : ∃ t t',
    Run (step toolSetup) (fun s x => s.setsPermissions x = false)
      (withManifest defaultPermissionsManifest) visit t ∧
    Run (step toolSetup) (fun s x => s.setsPermissions x = false)
      (withManifest grantingManifest) visit t' ∧
    (t.journal.messageStore.getMessage sentId).map (·.state) = some "read_by_agent" ∧
      t'.journal = t.journal := by
  have heval : (exec (step toolSetup) (fun s x => s.setsPermissions x = false)
      (withManifest defaultPermissionsManifest) visit).bind
        (fun t => (t.journal.messageStore.getMessage sentId).map (·.state)) =
      some "read_by_agent" := by decide +kernel
  obtain ⟨t, ht, hstate⟩ := Option.bind_eq_some_iff.1 heval
  have halike : (withManifest defaultPermissionsManifest).unstructured =
      (withManifest grantingManifest).unstructured := rfl
  obtain ⟨t', hrun', hjournal, -⟩ := structural_permissions_inert (Run.of_exec ht) halike
  exact ⟨t, t', Run.of_exec ht, hrun', hstate, hjournal⟩

end Host

end Runs

end Pinch
