import Pinch.SameMessage
import Pinch.Tools

/-! How long a connection stays handed over to the human. The flag is written by one tool, and
every tool that is started clears it again. -/

namespace Pinch

open CircuitBreaker MessageManager Transition

namespace ConnectionStore

/-- The two flags that the pipeline looks at first. -/
def flags (s : ConnectionStore) (p : String) : Option (Option Bool × Option Bool) :=
  (s.getConnection p).map fun c => (c.muted, c.passthrough)

def passthrough (s : ConnectionStore) (p : String) : Option Bool :=
  (s.getConnection p).bind (·.passthrough)

/-- An unmuted connection in passthrough. -/
def HandedOver (s : ConnectionStore) (p : String) : Prop :=
  ∃ muted, muted ≠ some true ∧ s.flags p = some (muted, some true)

theorem passthrough_eq (s : ConnectionStore) (p : String) :
    s.passthrough p = (s.flags p).bind (·.2) := by
  rw [flags, passthrough]
  cases s.getConnection p <;> rfl

theorem HandedOver.passthrough {s : ConnectionStore} {p : String} (h : s.HandedOver p) :
    s.passthrough p = some true := by
  obtain ⟨muted, -, hflags⟩ := h
  rw [passthrough_eq, hflags]
  rfl

theorem HandedOver.muted {s : ConnectionStore} {p : String} (h : s.HandedOver p) :
    (s.getConnection p).bind (·.muted) ≠ some true := by
  obtain ⟨muted, hmuted, hflags⟩ := h
  obtain ⟨c, hc, heq⟩ := Option.map_eq_some_iff.1 hflags
  have heq' : c.muted = muted := (Prod.mk.inj heq).1
  simpa [hc, heq'] using hmuted

theorem passthrough_clearPassthroughFlags (s : ConnectionStore) (p : String) :
    s.clearPassthroughFlags.passthrough p ≠ some true := by
  rw [passthrough, clearPassthroughFlags, getConnection_mapRecords]
  cases s.getConnection p with
  | none => simp
  | some c =>
    by_cases hc : c.passthrough = some true <;> simp [clearPassthrough, hc]

end ConnectionStore

/-- A connection request that is taken: it writes a new record over the peer's old one. -/
def Envelope.replaces (e : Envelope) (p : String) : Bool :=
  match incomingEffect p e with
  | .create _ => true
  | _ => false

/-- No operation on connections sets one of the flags. -/
def RecordEffect.Unflagged : RecordEffect → Prop
  | .keep => True
  | .update u => u.muted = none ∧ u.passthrough = none
  | .create new => new.passthrough = none

section Flags

variable {effect : RecordEffect} {p : String} {n : Node} {ctx : CallContext} {e : Envelope}

theorem ConnectionEvent.unflagged (ctx : CallContext) (p : String) (st : Option ConnectionState)
    (ev : ConnectionEvent) : (ev.effect ctx p st).Unflagged := by
  have hcase := ConnectionEvent.effect_case ctx p st ev
  generalize ev.effect ctx p st = effect at hcase
  cases hcase with
  | keep => exact trivial
  | sendRequest => exact rfl
  | request => exact rfl
  | response _ r =>
    show (responseUpdate r).muted = none ∧ (responseUpdate r).passthrough = none
    rw [responseUpdate_eq]
    exact ⟨rfl, rfl⟩
  | _ => exact ⟨rfl, rfl⟩

theorem RecordEffect.Unflagged.passthrough (h : effect.Unflagged) (now : Int)
    {r : Option Connection} (hr : r.bind (·.passthrough) ≠ some true) :
    (effect.apply now r).bind (·.passthrough) ≠ some true := by
  cases effect with
  | keep => exact hr
  | create new =>
    have hnew : new.passthrough = none := h
    simp [RecordEffect.apply, ConnectionStore.freshConnection, hnew]
  | update u =>
    cases r with
    | none => simp [RecordEffect.apply]
    | some c => simpa [RecordEffect.apply, ConnectionStore.assign, h.2] using hr

theorem flags_receive (he : e.replaces p = false) :
    (n.receive ctx e).connectionStore.flags p = n.connectionStore.flags p := by
  have hget : (n.receive ctx e).connectionStore.getConnection p = _ :=
    getConnection_incoming ctx n.toAgent e p
  have hunflagged : (incomingEffect p e).Unflagged :=
    ConnectionEvent.unflagged ctx p none (.incoming e)
  unfold ConnectionStore.flags
  rw [hget]
  cases heffect : incomingEffect p e with
  | keep => rfl
  | create new => simp [Envelope.replaces, heffect] at he
  | update u =>
    rw [heffect] at hunflagged
    rw [RecordEffect.apply, Option.map_map]
    simp [ConnectionStore.assign, hunflagged.1, hunflagged.2, Function.comp_def]

theorem passthrough_step (call : CallContext × ConnectionEvent) {a : Agent}
    (h : a.connectionStore.passthrough p ≠ some true) :
    (a.step call).connectionStore.passthrough p ≠ some true := by
  rw [ConnectionStore.passthrough, getConnection_step]
  exact (ConnectionEvent.unflagged _ _ _ _).passthrough _ h

/-- What a trip of the breaker leaves alone. -/
theorem flags_recorded {config : CircuitBreakerConfig} {now : Int} {address type : String}
    {n n' : Node} (hrec : Recorded config now address type n n') (p : String) :
    n'.connectionStore.flags p = n.connectionStore.flags p := by
  rw [ConnectionStore.flags, hrec.getConnection]
  split
  · rw [Option.map_map]
    simp [Connection.afterTrip_eq, Function.comp_def, ConnectionStore.flags]
  · rfl

theorem stable_flags (config : CircuitBreakerConfig) (p : String) (f : Option (Option Bool × Option Bool)) :
    Stable config fun n => n.connectionStore.flags p = f :=
  .of_connectionStore (Φ := fun store => store.flags p = f) fun _ _ _ _ _ hrec h =>
    (flags_recorded hrec p).trans h

theorem flags_dispatch (setup : Setup) (ctx : CallContext) (e : Envelope) (n : Node) (p : String) :
    (finalState ((dispatch setup ctx e).run n)).connectionStore.flags p =
      n.connectionStore.flags p := by
  have hstable := stable_flags setup.breakerConfig p (n.connectionStore.flags p)
  have hkeeps : Keeps (fun m : Node => m.connectionStore.flags p = n.connectionStore.flags p)
      (dispatch setup ctx e) :=
    hstable.quiet.dispatch fun _ message _ _ =>
      saveMessage_connections (Φ := fun store => store.flags p = n.connectionStore.flags p) message
  exact hkeeps.finalState rfl

theorem flags_resume (setup : Setup) (ctx : CallContext) (verdict : Verdict) (t : Task) (n : Node)
    (p : String) :
    (finalState ((MessageManager.resume setup ctx verdict t).run n)).connectionStore.flags p =
      n.connectionStore.flags p :=
  ((stable_flags setup.breakerConfig p (n.connectionStore.flags p)).resume verdict t).finalState rfl

end Flags

section Commands

variable {p : String} {α : Type}

/-- The tool asks for passthrough on the connection. -/
def Tool.starts (p : String) : Tool → Bool
  | .intervene .start connection => connection = p
  | _ => false

abbrev Unset (p : String) (store : ConnectionStore) : Prop := store.passthrough p ≠ some true

theorem Sender.onStore_spec {Φ Ψ : ConnectionStore → Prop} {x : StoreOp α}
    (h : Spec Φ x (fun _ => Ψ) (fun _ => Ψ)) :
    Spec (fun s : Sender => Φ s.connectionStore) (Sender.onStore x)
      (fun _ s => Ψ s.connectionStore) (fun _ s => Ψ s.connectionStore) :=
  Spec.zoom fun _ hs => h.conseq (fun _ ht => ht ▸ hs) (fun _ _ ht => ht) fun _ _ ht => ht

theorem Sender.onNode_keeps {Φ : ConnectionStore → Prop} {x : NodeOp α}
    (h : Keeps (fun n : Node => Φ n.connectionStore) x) :
    Keeps (fun s : Sender => Φ s.connectionStore) (Sender.onNode x) := by
  have heq : Sender.onNode x = zoom (·.toNode) (fun s n => { s with toNode := n }) x := by
    funext s
    simp only [Sender.onNode, zoom]
    cases x.run s.toNode <;> rfl
  rw [heq]
  exact Spec.zoom fun _ hs => h.conseq (fun _ ht => ht ▸ hs) (fun _ _ ht => ht) fun _ _ ht => ht

theorem Sender.onAgent_unset (ctx : CallContext) (ev : ConnectionEvent) :
    Keeps (fun s : Sender => Unset p s.connectionStore) (Sender.onAgent (ev.perform ctx)) := by
  refine Spec.zoom fun s hs => ?_
  have hstep := passthrough_step (ctx, ev) (a := s.toAgent) hs
  rintro _ rfl
  rw [Agent.step] at hstep
  revert hstep
  cases (ev.perform ctx).run s.toAgent with
  | ok a agent => exact id
  | error e agent => exact id

theorem setRecord_unset {q : String} {c : Connection} (hc : q = p → c.passthrough ≠ some true) :
    Keeps (Unset p) (ConnectionStore.setRecord q c) := by
  refine Spec.modify fun store hstore => ?_
  rw [Unset, ConnectionStore.passthrough, ConnectionStore.getConnection_insert]
  split
  · rename_i hq
    exact hc hq
  · exact hstore

theorem Unset.getConnection {store : ConnectionStore} (h : Unset p store) {q : String}
    {c : Connection} (hc : store.getConnection q = some c) (hq : q = p) :
    c.passthrough ≠ some true := by
  subst hq
  simpa [Unset, ConnectionStore.passthrough, hc] using h

theorem updateInPlace_unset {now : Int} {q : String} {u : ConnectionUpdates}
    (hu : q = p → u.passthrough ≠ some true) :
    Keeps (Unset p) (ConnectionStore.updateInPlace now q u) := by
  refine Spec.get_bind fun store => ?_
  cases hc : store.getConnection q with
  | none => exact Spec.throw fun _ h => h.2
  | some c =>
    rintro _ ⟨rfl, hstore⟩
    refine setRecord_unset (fun hq => ?_) _ hstore
    have hc' := hstore.getConnection hc hq
    have hu' := hu hq
    cases hup : u.passthrough <;> simp_all [ConnectionStore.assign]

theorem changeLevel_unset {now : Int} {saveError : Option String} {request : AutonomyRequest} :
    Keeps (Unset p) (changeLevel now saveError request) := by
  have hfree : ConnectionStore.LevelFree Connection.passthrough :=
    ⟨fun _ => rfl, fun _ _ _ => rfl, fun _ _ _ => rfl⟩
  have hcolumn : ∀ store : ConnectionStore,
      store.passthrough p = (store.column Connection.passthrough p).join := by
    intro store
    unfold ConnectionStore.passthrough ConnectionStore.column
    cases store.getConnection p <;> rfl
  intro store hstore
  refine (hfree.changeLevel.conseq (fun _ h => h) (fun _ t h => ?_) fun _ t h => ?_) store rfl
  · rw [Unset, hcolumn, h, ← hcolumn]
    exact hstore
  · rw [Unset, hcolumn, h, ← hcolumn]
    exact hstore

theorem applySetting_unset {now : Int} {q : String} {setting : ConnectionStore.Setting}
    (hset : setting = .passthrough true → q ≠ p) :
    Keeps (Unset p) (ConnectionStore.applySetting now q setting) := by
  cases setting with
  | permissions manifest =>
    unfold ConnectionStore.applySetting ConnectionStore.Setting.updates
    cases hv : validateManifest manifest with
    | nil =>
      simp only [hv]
      exact updateInPlace_unset (by simp)
    | cons error errors =>
      simp only [hv]
      exact Spec.throw fun _ h => h
  | passthrough value =>
    refine updateInPlace_unset fun hq hv => ?_
    exact hset (by cases hv; rfl) hq
  | nickname text => exact updateInPlace_unset (by simp)
  | muted value => exact updateInPlace_unset (by simp)

theorem sendMessage_keeps {Φ : ConnectionStore → Prop} (setup : SendSetup) (ctx : SendContext)
    (params : SendMessageParams) :
    Keeps (fun s : Sender => Φ s.connectionStore) (sendMessage setup ctx params) := by
  have hthrow {β : Type} (error : String) (o : Option β) :
      Keeps (fun s : Sender => Φ s.connectionStore) (Sender.orThrow error o) := by
    cases o with
    | none => exact Spec.throw fun _ h => h
    | some b => exact Spec.pure fun _ h => h
  refine Spec.read_bind fun s => ?_
  refine Spec.bind (hthrow _ _) fun _ => Spec.bind (hthrow _ _) fun key => ?_
  have hsequence : Keeps (fun s : Sender => Φ s.connectionStore)
      (Sender.nextSequence params.recipient) :=
    Spec.read_bind fun _ => Spec.bind (Spec.modify fun _ h => h) fun _ => Spec.pure fun _ h => h
  refine Spec.bind hsequence fun sequence => ?_
  refine Spec.bind (R := fun _ s => Φ s.connectionStore) ?_ fun _ => ?_
  · refine Spec.bind (hthrow _ _) fun _ => Spec.bind (hthrow _ _) fun _ => ?_
    refine Spec.bind (hthrow _ _) fun _ => Spec.bind (hthrow _ _) fun _ => ?_
    exact hthrow _ _
  · refine Spec.bind (hthrow _ _) fun own => Spec.bind (hthrow _ _) fun bytes => ?_
    split
    · exact Spec.throw fun _ h => h
    · refine Spec.bind (Sender.onNode_keeps (saveMessage_connections _)) fun _ => ?_
      refine Spec.bind (Sender.onNode_keeps (Stable.sendEnvelope_keeps fun _ _ h => h)) fun _ => ?_
      exact Spec.pure fun _ h => h

theorem Tool.applySetting_unset {ctx : SendContext} {q : String} {setting : ConnectionStore.Setting}
    (hset : setting = .passthrough true → q ≠ p) (eventType badge : String) :
    Keeps (fun s : Sender => Unset p s.connectionStore)
      (Tool.applySetting ctx q setting eventType badge) := by
  refine Spec.bind (Sender.onStore_spec (Pinch.applySetting_unset hset)) fun _ => ?_
  refine Spec.bind (Sender.onStore_spec (ConnectionStore.throwIf_keeps _)) fun _ => ?_
  exact Sender.onNode_keeps (Spec.modify fun _ h => h)

theorem Tool.setPermissions_unset {ctx : SendContext} {address : String}
    {change : Option (PermissionsManifest → PermissionsManifest)} :
    Keeps (fun s : Sender => Unset p s.connectionStore) (Tool.setPermissions ctx address change) := by
  refine Spec.read_bind fun s => ?_
  split
  · refine Spec.tryCatch (F := fun _ s => Unset p s.connectionStore) ?_ fun _ => Spec.pure fun _ h => h
    refine Spec.bind (Sender.onStore_spec (Pinch.applySetting_unset (by simp))) fun _ => ?_
    exact Sender.onStore_spec (ConnectionStore.throwIf_keeps _)
  · exact Spec.pure fun _ h => h

theorem updateInPlace_spec {now : Int} {c : Connection} {u : ConnectionUpdates} :
    Spec (fun store => store.getConnection p = some c) (ConnectionStore.updateInPlace now p u)
      (fun _ store => store.getConnection p = some (ConnectionStore.assign c u now))
      (fun _ store => store.getConnection p = some (ConnectionStore.assign c u now)) := by
  refine Spec.get_bind fun store => ?_
  rintro _ ⟨rfl, hc⟩
  simp [hc, ConnectionStore.setRecord, ConnectionStore.getConnection_insert]

theorem Tool.start_flags (setup : SendSetup) (ctx : SendContext) {c : Connection} :
    Spec (fun s : Sender => s.connectionStore.getConnection p = some c)
      ((Tool.intervene .start p).command setup ctx)
      (fun _ s => s.connectionStore.flags p = some (c.muted, some true))
      (fun _ s => s.connectionStore.flags p = some (c.muted, some true)) := by
  have hset : Spec (fun store : ConnectionStore => store.getConnection p = some c)
      (ConnectionStore.applySetting ctx.now p (.passthrough true))
      (fun _ store => store.flags p = some (c.muted, some true))
      (fun _ store => store.flags p = some (c.muted, some true)) := by
    refine updateInPlace_spec.conseq (fun _ h => h) (fun _ store h => ?_) fun _ store h => ?_
    · simp [ConnectionStore.flags, h, ConnectionStore.assign]
    · simp [ConnectionStore.flags, h, ConnectionStore.assign]
  refine Spec.bind (Sender.onStore_spec hset) fun _ => ?_
  have hsave : Keeps (fun store => store.flags p = some (c.muted, some true))
      (throwIf ctx.saveError) := ConnectionStore.throwIf_keeps _
  refine Spec.bind (Sender.onStore_spec hsave) fun _ => ?_
  exact Sender.onNode_keeps (Φ := fun store => store.flags p = some (c.muted, some true))
    (Spec.modify fun _ h => h)

/-- Only `pinch-intervene --start` sets the flag. -/
theorem Tool.command_unset (setup : SendSetup) (ctx : SendContext) {tool : Tool}
    (htool : tool.starts p = false) :
    Keeps (fun s : Sender => Unset p s.connectionStore) (tool.command setup ctx) := by
  have hdiscard {β : Type} {x : SenderOp β}
      (h : Keeps (fun s : Sender => Unset p s.connectionStore) x) :
      Keeps (fun s : Sender => Unset p s.connectionStore) (discard x) :=
    Spec.bind h fun _ => Spec.pure fun _ h => h
  cases tool with
  | accept q => exact Sender.onAgent_unset _ _
  | connect q message => exact Sender.onAgent_unset _ _
  | reject q => exact Sender.onAgent_unset _ _
  | autonomy request => exact hdiscard (Sender.onStore_spec changeLevel_unset)
  | mute q unmute => exact Tool.applySetting_unset (by simp) _ _
  | permissions address change => exact Tool.setPermissions_unset
  | send params => exact hdiscard (sendMessage_keeps setup ctx params)
  | intervene mode q =>
    cases mode with
    | start =>
      have hq : q ≠ p := by simpa [Tool.starts] using htool
      exact Tool.applySetting_unset (fun _ => hq) _ _
    | stop => exact Tool.applySetting_unset (by simp) _ _
    | send body => exact hdiscard (sendMessage_keeps setup ctx _)
  | _ => exact Spec.pure fun _ h => h

end Commands

section Input

variable {setup : Setup} {p : String} {s s' : Process} {x : InputLabel}

def InputLabel.replaces (p : String) : InputLabel → Bool
  | .incoming _ envelope => envelope.replaces p
  | .resume .. => false

theorem flags_input (hx : x.replaces p = false) (hs : s.input setup x = some s') :
    s'.node.connectionStore.flags p = s.node.connectionStore.flags p := by
  cases x with
  | incoming ctx envelope =>
    obtain rfl := Option.some.inj hs
    exact (flags_dispatch setup ctx envelope _ p).trans (flags_receive hx)
  | resume task ctx verdict =>
    obtain ⟨t, -, rfl⟩ := Option.map_eq_some_iff.1 hs
    exact flags_resume setup ctx verdict t s.node p

theorem unset_input (h : Unset p s.node.connectionStore) (hs : s.input setup x = some s') :
    Unset p s'.node.connectionStore := by
  cases x with
  | incoming ctx envelope =>
    obtain rfl := Option.some.inj hs
    have hreceive : Unset p (s.node.receive ctx envelope).connectionStore :=
      passthrough_step (ctx, .incoming envelope) (a := s.node.toAgent) h
    rw [Unset, ConnectionStore.passthrough_eq] at hreceive ⊢
    rw [flags_dispatch]
    exact hreceive
  | resume task ctx verdict =>
    obtain ⟨t, -, rfl⟩ := Option.map_eq_some_iff.1 hs
    rw [Unset, ConnectionStore.passthrough_eq] at h ⊢
    rw [flags_resume]
    exact h

/-- The human gets the message, and the pipeline is done with it. -/
def Task.Escalated (p : String) (n : Node) (task : Task) : Prop :=
  ∃ message r, task = .processing message p (.done r) ∧ r.state = "escalated_to_human" ∧
    (n.messageStore.getMessage message.id).map (·.state) = some "escalated_to_human"

theorem dispatch_escalated {ctx : CallContext} {e : Envelope} {n n' : Node} {next : Option Task}
    (h : n.connectionStore.HandedOver e.fromAddress) (htype : e.type = .message)
    (hrun : (dispatch setup ctx e).run n = .ok next n') :
    ∀ task ∈ next, task.Escalated e.fromAddress n' := by
  intro task htask
  obtain ⟨m, htrack, hconns⟩ : ∃ m, trackFlush.run n = .ok () m ∧
      m.connectionStore = n.connectionStore := by
    refine ⟨_, rfl, ?_⟩
    dsimp only
    split <;> rfl
  have hhandle : (handleIncomingMessage setup ctx e).run m = .ok next n' := by
    rw [dispatch, EStateM.run_bind, htrack] at hrun
    simpa only [htype] using hrun
  cases hp : e.payload with
  | encrypted payload =>
    obtain ⟨-, -, -, message, stage, store, -, -, -, hsave, -, -, -, hprocess, rfl⟩ :=
      handleIncomingMessage_ok hp hhandle
    obtain rfl := Option.some.inj htask
    have hspec : Spec (fun k => k = { m with messageStore := store })
        (EnforcementPipeline.process ctx.now message e.fromAddress)
        (fun stage k => ∃ feed,
          stage = .done (message.routed e.fromAddress "escalated_to_human") ∧
          k = { m with messageStore := store }.withState ctx.now message.id "escalated_to_human"
            none feed) (fun _ _ => True) := by
      refine EnforcementPipeline.process_rule ?_ ?_ ?_
      · rintro _ feed rfl - hmuted
        rw [hconns] at hmuted
        exact absurd hmuted h.muted
      · rintro _ feed rfl - - -
        exact ⟨feed, rfl, rfl⟩
      · rintro _ rfl - hpass
        rw [hconns] at hpass
        exact absurd h.passthrough hpass
    obtain ⟨feed, rfl, rfl⟩ := hspec.ok rfl hprocess
    refine ⟨message, _, rfl, rfl, ?_⟩
    have hget := (MessageStore.getMessage_saveMessage hsave).2 message.id
    rw [if_pos rfl] at hget
    simp [Node.withState, MessageStore.getMessage_updateState, hget, MessageStore.written]
  | _ =>
    simp only [handleIncomingMessage, hp] at hhandle
    cases hhandle

theorem incoming_escalated {ctx : CallContext} {e : Envelope}
    (h : s.node.connectionStore.HandedOver e.fromAddress) (htype : e.type = .message)
    (hs : s.input setup (.incoming ctx e) = some s') :
    ∀ task ∈ s'.tasks s.started, task.Escalated e.fromAddress s'.node := by
  obtain rfl := Option.some.inj hs
  intro task htask
  have hreplaces : e.replaces e.fromAddress = false := by
    simp [Envelope.replaces, incomingEffect, htype]
  obtain ⟨muted, hmuted, hflags⟩ := h
  have hreceived : (s.node.receive ctx e).connectionStore.HandedOver e.fromAddress :=
    ⟨muted, hmuted, (flags_receive hreplaces).trans hflags⟩
  simp only [Function.update_self] at htask
  have hrun := eq_ok_of_returned (Option.join_eq_some_iff.1 htask)
  exact dispatch_escalated hreceived htype hrun task rfl

end Input

namespace HostLabel

def invokes : HostLabel → Bool
  | .invoke _ => true
  | _ => false

/-- No other `--start` on the connection, and no new request from the peer. -/
def spares (p : String) : HostLabel → Bool
  | .invoke tool => !tool.starts p
  | .input x => !x.replaces p
  | _ => true

end HostLabel

namespace Host

variable {setup : HostSetup} {p : String} {s s' : Host} {x : HostLabel} {l : List HostLabel}

/-- The running tool has handed the connection over. -/
def Intervened (p : String) (s : Host) : Prop :=
  ∀ t ∈ s.running, t.commanded = true ∧ t.store.HandedOver p

/-- The flag is gone from the file and from memory, and the running tool will not set it. -/
structure Ended (p : String) (s : Host) : Prop where
  file : Unset p s.connectionsJson
  memory : ∀ t ∈ s.running, t.tool.starts p = false ∧ Unset p t.store

theorem command_eq_some {ctx : SendContext} (hs : s.step setup (.command ctx) = some s') :
    ∃ t, s.running = some t ∧ t.commanded = false ∧
      s' = { s with running := some (runCommand setup ctx t) } := by
  rw [step] at hs
  split at hs
  · rename_i t ht
    split at hs
    · simp at hs
    · rename_i hcommanded
      exact ⟨t, ht, by simpa using hcommanded, (Option.some.inj hs).symm⟩
  · simp at hs

theorem input_eq_some {x : InputLabel} (hs : s.step setup (.input x) = some s') :
    ∃ t process, s.running = some t ∧ t.process.input setup.receive x = some process ∧
      s' = { s with running := some { t with process := process } } := by
  rw [step] at hs
  split at hs
  · rename_i t ht
    split at hs
    · simp at hs
    · obtain ⟨process, hprocess, rfl⟩ := Option.map_eq_some_iff.1 hs
      exact ⟨t, process, ht, hprocess, rfl⟩
  · simp at hs

theorem intervened_step (h : s.Intervened p) (hx : x.invokes = false) (hspares : x.spares p = true)
    (hs : s.step setup x = some s') : s'.Intervened p ∧
      (x = .save → s'.connectionsJson.HandedOver p) ∧
      (x ≠ .save → s'.connectionsJson = s.connectionsJson) := by
  cases x with
  | invoke tool => simp [HostLabel.invokes] at hx
  | command ctx =>
    obtain ⟨t, ht, hcommanded, -⟩ := command_eq_some hs
    simp [(h t ht).1] at hcommanded
  | input x =>
    obtain ⟨t, process, ht, hprocess, rfl⟩ := input_eq_some hs
    refine ⟨?_, by simp, fun _ => rfl⟩
    rintro _ ⟨⟩
    obtain ⟨hcommanded, muted, hmuted, hflags⟩ := h t ht
    have hx' : x.replaces p = false := by simpa [HostLabel.spares] using hspares
    exact ⟨hcommanded, muted, hmuted, (flags_input hx' hprocess).trans hflags⟩
  | save =>
    obtain ⟨t, ht, rfl⟩ := Option.map_eq_some_iff.1 hs
    exact ⟨h, fun _ => (h t ht).2, by simp⟩
  | exit =>
    obtain ⟨t, -, rfl⟩ := Option.map_eq_some_iff.1 hs
    exact ⟨by simp [Intervened], by simp, fun _ => rfl⟩

theorem ended_invoke {tool : Tool} (hspares : (HostLabel.invoke tool).spares p = true)
    (hs : s.step setup (.invoke tool) = some s') : s'.Ended p := by
  rw [step] at hs
  split at hs
  · obtain rfl := Option.some.inj hs
    have hcleared := ConnectionStore.passthrough_clearPassthroughFlags s.connectionsJson p
    refine ⟨hcleared, ?_⟩
    rintro _ ⟨⟩
    exact ⟨by simpa [HostLabel.spares] using hspares, hcleared⟩
  · simp at hs

theorem ended_step (h : s.Ended p) (hspares : x.spares p = true)
    (hs : s.step setup x = some s') : s'.Ended p := by
  cases x with
  | invoke tool => exact ended_invoke hspares hs
  | command ctx =>
    obtain ⟨t, ht, -, rfl⟩ := command_eq_some hs
    refine ⟨h.file, ?_⟩
    rintro _ ⟨⟩
    obtain ⟨htool, hunset⟩ := h.memory t ht
    have hcommand := (Tool.command_unset setup.send ctx htool).finalState
      (s := ⟨t.process.node, t.sequences⟩) hunset
    exact ⟨htool, hcommand⟩
  | input x =>
    obtain ⟨t, process, ht, hprocess, rfl⟩ := input_eq_some hs
    refine ⟨h.file, ?_⟩
    rintro _ ⟨⟩
    obtain ⟨htool, hunset⟩ := h.memory t ht
    exact ⟨htool, unset_input hunset hprocess⟩
  | save =>
    obtain ⟨t, ht, rfl⟩ := Option.map_eq_some_iff.1 hs
    exact ⟨(h.memory t ht).2, h.memory⟩
  | exit =>
    obtain ⟨t, -, rfl⟩ := Option.map_eq_some_iff.1 hs
    exact ⟨h.file, by simp⟩

/-- `pinch-intervene --start` on a connection that has a record and is not muted. -/
theorem intervened_command {ctx : SendContext} {t : ToolProcess} {c : Connection}
    (ht : s.running = some t) (htool : t.tool = .intervene .start p)
    (hc : t.store.getConnection p = some c) (hmuted : c.muted ≠ some true)
    (hs : s.step setup (.command ctx) = some s') : s'.Intervened p := by
  obtain ⟨t', ht', -, rfl⟩ := command_eq_some hs
  obtain rfl := Option.some.inj (ht.symm.trans ht')
  rintro _ ⟨⟩
  have hflags := (Tool.start_flags setup.send ctx).finalState
    (s := ⟨t.process.node, t.sequences⟩) hc
  exact ⟨rfl, c.muted, hmuted, by rw [← hflags, ← htool]; rfl⟩

/-- As long as no tool is invoked the connection stays handed over, and the file says so from the
first save on. Once one is, the flag is gone. -/
theorem intervened_or_ended {u : Host} (h : s.Intervened p)
    (hrun : Run (step setup) (fun _ x => x.spares p = true) s l u) :
    (∀ x ∈ l, x.invokes = false) ∧ u.Intervened p ∧
        (HostLabel.save ∈ l → u.connectionsJson.HandedOver p) ∨
      (∃ x ∈ l, x.invokes = true) ∧ u.Ended p := by
  induction hrun with
  | nil => exact .inl ⟨by simp, h, by simp⟩
  | @snoc l t u x _ hok hs ih =>
    rcases ih with ⟨hnone, hint, hsaved⟩ | ⟨⟨y, hy, hinvokes⟩, hended⟩
    · cases hx : x.invokes with
      | true =>
        cases x with
        | invoke tool => exact .inr ⟨⟨.invoke tool, by simp, hx⟩, ended_invoke hok hs⟩
        | _ => simp [HostLabel.invokes] at hx
      | false =>
        obtain ⟨hint', hsave, hother⟩ := intervened_step hint hx hok hs
        refine .inl ⟨?_, hint', fun hmem => ?_⟩
        · simpa [or_imp, forall_and, hx] using hnone
        · by_cases hxs : x = .save
          · exact hsave hxs
          · rw [hother hxs]
            exact hsaved (by simpa [Ne.symm hxs] using hmem)
    · exact .inr ⟨⟨y, by simp [hy], hinvokes⟩, ended_step hended hok hs⟩

def toolSetup : HostSetup := ⟨sentSetup, ⟨helloLibraries, otherKey, otherPrivateKey⟩⟩

def toolContext : SendContext := { helloContext with toCallContext := otherContext }

/-- `pinch-intervene --start` on a trusted connection, up to its work. -/
def intervening : Host :=
  Host.bootstrap ⟨peerStore, ⟨.empty, [], ∅⟩, none⟩ (.intervene .start vectorAddress)

def intervened : Host := (intervening.step toolSetup (.command toolContext)).get rfl

def saved : Host := (intervened.step toolSetup .save).get rfl

end Host

end Pinch
