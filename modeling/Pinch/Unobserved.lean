import Pinch.AutonomyControl
import Pinch.Rejections

/-! What a peer can see of the way its envelopes are handled. The only thing the handlers send is
one confirmation for each message that opens, and whether they throw is decided by the stored ids
and the peers' keys. The rest of a record, its state and its settings, never shows. -/

namespace Pinch

open CircuitBreaker EnforcementPipeline MessageManager

/-- What the handling of one envelope finds: its surroundings and, each time it goes on, the clock
and the evaluator's answer. -/
structure Handling where
  ctx : CallContext
  answers : ℕ → Answer

/-- How often a task still has to go on, at most. -/
def Task.rank : Task → ℕ
  | .processing _ _ stage => stage.rank + 2
  | .signing .. => 1
  | .verifying .. => 1

def CallContext.at (ctx : CallContext) (now : Int) : CallContext := { ctx with now := now }

namespace MessageManager

variable (setup : Setup) (ctx : CallContext)

def finishTask : (ℕ → Answer) → ℕ → Task → NodeOp Unit
  | _, 0, _ => pure ()
  | answers, fuel + 1, t => do
    match ← resume setup (ctx.at (answers 0).now) (answers 0).verdict t with
    | none => pure ()
    | some next => finishTask (fun k => answers (k + 1)) fuel next

end MessageManager

namespace Node

variable (setup : Setup)

def onAgent {α : Type} (x : Op α) : NodeOp α :=
  zoom (·.toAgent) (fun n agent => { n with toAgent := agent }) x

/-- One envelope through both managers, until nothing is left to do for it. An exception in a
handler ends the process. -/
def handle (w : Handling) (envelope : Envelope) : NodeOp Unit := do
  onAgent (ConnectionManager.dispatch w.ctx envelope)
  match ← dispatch setup w.ctx envelope with
  | none => pure ()
  | some t => finishTask setup w.ctx w.answers t.rank t

def handleAll : List (Handling × Envelope) → NodeOp Unit
  | [] => pure ()
  | (w, envelope) :: rest => do
    handle setup w envelope
    handleAll rest

end Node

/-- An envelope without its time and the signature over it. -/
def Envelope.untimed (e : Envelope) : Envelope :=
  { e with
    timestamp := 0
    payload := match e.payload with
      | .deliveryConfirm confirm => .deliveryConfirm { confirm with signature := [], timestamp := 0 }
      | payload => payload }

/-- All that decides what is sent. -/
structure View where
  ids : List String
  keys : String → Option (Option String)
  sent : List Envelope

def Node.view (n : Node) : View where
  ids := n.messageStore.ids
  keys p := (n.connectionStore.getConnection p).map (·.peerPublicKey)
  sent := n.outbox.map (·.untimed)

def RecordEffect.key (k : Option (Option String)) : RecordEffect → Option (Option String)
  | .keep => k
  | .create new => some (some new.peerPublicKey)
  | .update u => k.map fun key => u.peerPublicKey.getD key

/-- What a task has still to do that can be seen from outside. -/
inductive Awaited
  | confirming (messageId senderAddress : String)
  | verifying (confirm : DeliveryConfirm) (peerPubKey : Bytes)

def Task.awaits : Task → Awaited
  | .processing message senderAddress _ => .confirming message.id senderAddress
  | .signing messageId senderAddress _ => .confirming messageId senderAddress
  | .verifying confirm peerPubKey => .verifying confirm peerPubKey

namespace View

def received (v : View) (e : Envelope) : View :=
  { v with keys := fun p => (incomingEffect p e).key (v.keys p) }

def arrived (v : View) (e : Envelope) : View :=
  if e.type = .message then { v with ids := v.ids ++ [textDecode e.messageId] } else v

def peerKey (v : View) (sha256 : Bytes → Bytes) (p : String) : Option Bytes :=
  match (v.keys p).join with
  | some key => if key ≠ "" then some (Base64.decode key) else embeddedKey sha256 p
  | none => embeddedKey sha256 p

def task (v : View) (sha256 : Bytes → Bytes) (e : Envelope) : Option Awaited :=
  match e.type, e.payload with
  | .message, _ => some (.confirming (textDecode e.messageId) e.fromAddress)
  | .deliveryConfirm, .deliveryConfirm confirm =>
    if textDecode confirm.messageId ∈ v.ids then
      (v.peerKey sha256 e.fromAddress).map (.verifying confirm)
    else none
  | _, _ => none

/-- Once nothing is left to do: a confirmation is out. -/
def settled (v : View) (ctx : CallContext) : Option Awaited → View
  | some (.confirming messageId senderAddress) =>
    { v with sent := v.sent ++ (ctx.own.map fun own =>
        confirmEnvelope own senderAddress (textEncode messageId) [] 0).toList }
  | _ => v

end View

/-- What is left to do can be done. -/
def CanSettle (setup : Setup) (ctx : CallContext) : Option Awaited → Prop
  | some (.confirming ..) => (setup.lib.signDetached [] setup.privateKey).isSome = true ∧
      (ctx.own.isSome = true → ctx.connected = true)
  | some (.verifying confirm peerPubKey) =>
    (verifyDeliveryConfirmation setup confirm peerPubKey).isSome = true
  | none => True

/-- Whether signing succeeds is a matter of the key. -/
def Setup.SignsByKey (setup : Setup) : Prop :=
  ∀ message, (setup.lib.signDetached message setup.privateKey).isSome =
    (setup.lib.signDetached [] setup.privateKey).isSome

section Connections

variable {ctx ctx' : CallContext} {n n' : Node} {e : Envelope}

theorem outbox_incoming (ctx : CallContext) (a : Agent) (e : Envelope) :
    (a.step (ctx, .incoming e)).outbox = a.outbox := by
  cases e.kind with
  | ignored hs he => rw [hs]
  | request r ht hp =>
    rw [step_request ctx a ht hp]
    cases deadlineOf r.expiresAt with
    | none => rfl
    | some deadline =>
      dsimp only
      split <;> rfl
  | response r ht hp => rw [step_response ctx a ht hp, Agent.updated_outbox]
  | revoke r ht hp => rw [step_revoke ctx a ht hp, Agent.updated_outbox]

theorem map_key_apply (effect : RecordEffect) (now : Int) (r : Option Connection) :
    (effect.apply now r).map (·.peerPublicKey) = effect.key (r.map (·.peerPublicKey)) := by
  cases effect with
  | keep => rfl
  | create new => rfl
  | update u =>
    cases r with
    | none => rfl
    | some c => rfl

theorem view_receive (ctx : CallContext) (n : Node) (e : Envelope) :
    (n.receive ctx e).view = n.view.received e := by
  have hget (p : String) : (n.receive ctx e).connectionStore.getConnection p = _ :=
    getConnection_incoming ctx n.toAgent e p
  have hsent : (n.receive ctx e).outbox = n.outbox := outbox_incoming ctx n.toAgent e
  unfold Node.view View.received
  simp only [hget, hsent, map_key_apply]
  rfl

/-- The connection handlers by themselves. -/
theorem onAgent_dispatch_spec (ctx : CallContext) (n : Node) (e : Envelope) :
    Spec (fun m => m = n) (Node.onAgent (ConnectionManager.dispatch ctx e))
      (fun _ m => m.view = n.view.received e) (fun _ m => m.view = n.view.received e) := by
  refine Spec.zoom fun m hm => ?_
  subst hm
  rintro _ rfl
  have hview := view_receive ctx m e
  simp only [Node.receive, Agent.step, ConnectionEvent.perform] at hview
  revert hview
  cases (ConnectionManager.dispatch ctx e).run m.toAgent with
  | ok a agent => exact id
  | error err agent => exact id

theorem Node.view_isSome (h : n.view = n'.view) (p : String) :
    (n.connectionStore.getConnection p).isSome = (n'.connectionStore.getConnection p).isSome := by
  have hkeys := congrArg (fun v : View => (v.keys p).isSome) h
  simpa [Node.view] using hkeys

theorem actionable_congr (h : n.view = n'.view) (hsave : ctx.saveError = ctx'.saveError) :
    e.Actionable ctx n.connectionStore ↔ e.Actionable ctx' n'.connectionStore := by
  unfold Envelope.Actionable
  split
  · rw [hsave]
  · rw [Node.view_isSome h, hsave]
  · rw [Node.view_isSome h, hsave]
  · exact Iff.rfl

end Connections

section Messages

variable {setup : Setup} {ctx ctx' : CallContext} {n n' : Node} {e : Envelope} {v : View}
  {messageId senderAddress : String}

theorem quiet_view (config : CircuitBreakerConfig) (v : View) :
    Quiet config fun n => n.view = v := by
  have hkeys : Stable config fun n =>
      (fun p => (n.connectionStore.getConnection p).map (·.peerPublicKey)) = v.keys := by
    refine .of_connectionStore
      (Φ := fun s => (fun p => (s.getConnection p).map (·.peerPublicKey)) = v.keys)
      fun now address type n n' hrec h => ?_
    rw [← h]
    funext p
    rw [hrec.getConnection]
    split
    · simp [Connection.afterTrip_eq, Function.comp_def]
    · rfl
  have hall := ((Receiving.stable_ids config v.ids).quiet.and hkeys.quiet).and
    (Quiet.of_outbox (fun outbox => outbox.map (·.untimed) = v.sent) config)
  have heq : (fun n : Node => n.view = v) = fun n => (n.messageStore.ids = v.ids ∧
      (fun p => (n.connectionStore.getConnection p).map (·.peerPublicKey)) = v.keys) ∧
      n.outbox.map (·.untimed) = v.sent := by
    funext n
    obtain ⟨ids, keys, sent⟩ := v
    simp [Node.view, and_assoc]
  rw [heq]
  exact hall

theorem readable_congr (h : n.view = n'.view) :
    e.Readable setup n.messageStore ↔ e.Readable setup n'.messageStore := by
  have hids : n.messageStore.ids = n'.messageStore.ids := congrArg View.ids h
  unfold Envelope.Readable
  rw [hids]

theorem saveMessage_view (message : MessageRecord) (v : View) :
    Spec (fun n => n.view = v) (Node.saveMessage message)
      (fun _ n => n.view = { v with ids := v.ids ++ [message.id] }) (fun _ n => n.view = v) := by
  rintro n rfl
  simp only [Node.saveMessage, EStateM.run_bind, EStateM.run_get]
  cases hs : n.messageStore.saveMessage message with
  | error e => rfl
  | ok s =>
    have hids : s.ids = n.messageStore.ids ++ [message.id] := by
      unfold MessageStore.saveMessage at hs
      split_ifs at hs
      obtain rfl := Except.ok.inj hs
      simp [MessageStore.ids]
    show Node.view _ = _
    simp [Node.view, hids]

/-- What is left to do for an envelope once its handlers have run up to their first `await`. -/
structure LeavesTask (sha256 : Bytes → Bytes) (e : Envelope) (v : View) (next : Option Task)
    (n : Node) : Prop where
  view : n.view = v.arrived e
  awaits : next.map (·.awaits) = v.task sha256 e
  backed : ∀ t ∈ next, t.Backed n

theorem handleIncomingMessage_view (ht : e.type = .message) (v : View) :
    Spec (fun n => n.view = v) (handleIncomingMessage setup ctx e)
      (LeavesTask setup.lib.sha256 e v) (fun _ n => n.view = v) := by
  unfold handleIncomingMessage
  split
  · refine Spec.bind (R := fun _ n => n.view = v) ?_ fun plaintext => ?_
    · refine Spec.bind (orThrow_keeps _) fun _ => ?_
      refine Spec.bind (orThrow_keeps _) fun _ => ?_
      exact Spec.bind (orThrow_keeps _) fun _ => orThrow_keeps _
    · refine Spec.bind (orThrow_keeps _) fun body => ?_
      refine Spec.bind (saveMessage_view _ v) fun _ => ?_
      have hprocess (message : MessageRecord) (w : View) :
          Spec (fun n => n.view = w) (process ctx.now message e.fromAddress)
            (fun stage n => n.view = w ∧ stage.Backed e.fromAddress n) (fun _ n => n.view = v) :=
        ((quiet_view setup.breakerConfig w).process.and
          (process_returns ctx.now message e.fromAddress)).conseq (fun _ h => ⟨h, trivial⟩)
          (fun _ _ h => h) fun _ _ h => h.2.elim
      refine Spec.bind (hprocess _ _) fun stage => Spec.pure fun n hn => ⟨?_, ?_, ?_⟩
      · rw [hn.1, View.arrived, if_pos ht]
        rfl
      · simp [View.task, ht, Task.awaits, inboundMessage]
      · rintro _ ⟨⟩
        exact hn.2
  · exact Spec.throw fun _ h => h

theorem Node.view_peerKey (n : Node) (sha256 : Bytes → Bytes) (p : String) :
    n.connectionStore.getPeerPublicKey sha256 p = n.view.peerKey sha256 p := by
  unfold ConnectionStore.getPeerPublicKey View.peerKey
  simp only [Node.view]
  cases n.connectionStore.getConnection p <;> rfl

theorem Node.view_row (n : Node) (id : String) :
    (n.messageStore.getMessage id).isSome = true ↔ id ∈ n.view.ids := by
  simp [Node.view, MessageStore.ids, MessageStore.getMessage]

theorem dispatch_view (setup : Setup) (ctx : CallContext) (e : Envelope) (v : View) :
    Spec (fun n => n.view = v) (dispatch setup ctx e)
      (LeavesTask setup.lib.sha256 e v) (fun _ n => n.view = v) := by
  have hquiet (ht : e.type ≠ .message) (htask : v.task setup.lib.sha256 e = none) (n : Node)
      (hn : n.view = v) : LeavesTask setup.lib.sha256 e v none n :=
    ⟨by rw [hn, View.arrived, if_neg ht], by simp [htask], by simp⟩
  refine Spec.bind (R := fun _ n => n.view = v) (Spec.modify fun n hn => ?_) fun _ => ?_
  · simp only
    split
    · exact hn
    · exact hn
  split
  · rename_i ht
    exact handleIncomingMessage_view ht v
  · rename_i ht
    unfold handleDeliveryConfirmation
    split
    · rename_i confirm hp
      refine Spec.get_bind fun n => ?_
      rintro _ ⟨rfl, rfl⟩
      rename_i n
      cases hrow : n.messageStore.getMessage (textDecode confirm.messageId) with
      | none =>
        have hid : textDecode confirm.messageId ∉ n.view.ids := by
          rw [← n.view_row, hrow]
          simp
        exact hquiet (by simp [ht]) (by simp [View.task, ht, hp, hid]) n rfl
      | some row =>
        have hid : textDecode confirm.messageId ∈ n.view.ids := by
          rw [← n.view_row, hrow]
          rfl
        have htask : n.view.task setup.lib.sha256 e =
            (n.connectionStore.getPeerPublicKey setup.lib.sha256 e.fromAddress).map
              (.verifying confirm) := by
          simp [View.task, ht, hp, hid, n.view_peerKey]
        dsimp only
        cases hkey : n.connectionStore.getPeerPublicKey setup.lib.sha256 e.fromAddress with
        | none => exact hquiet (by simp [ht]) (by simp [htask, hkey]) n rfl
        | some key =>
          refine ⟨?_, by simp [htask, hkey, Task.awaits], ?_⟩
          · simp [View.arrived, ht]
          · rintro _ ⟨⟩
            trivial
    · exact Spec.throw fun _ h => h
  · rename_i ht
    have hnone := hquiet (by simp [ht]) (by simp [View.task, ht])
    unfold handleQueueStatus
    split
    · exact Spec.bind (R := fun _ n => n.view = v) (Spec.modify fun _ h => h) fun _ =>
        Spec.pure hnone
    · exact Spec.pure hnone
  · rename_i hmessage hconfirm hqueue
    exact Spec.pure (hquiet hmessage (by unfold View.task; split <;> simp_all))

end Messages

section Tasks

variable {setup : Setup} {ctx : CallContext} {v : View} {config : CircuitBreakerConfig} {now : Int}
  {message : MessageRecord} {messageId address : String}

theorem checkCategories_rank (categories : List CustomCategory) :
    (PermissionsEnforcer.checkCategories categories).stage.rank < categories.length + 3 := by
  cases categories with
  | nil => simp [PermissionsEnforcer.checkCategories, CheckStep.stage, Stage.rank]
  | cons c rest => simp [PermissionsEnforcer.checkCategories, CheckStep.stage, Stage.rank]

theorem finish_rank (result : EnforcementResult) :
    Spec (fun _ => True) (finish now message address result) (fun next _ => next.rank < 2)
      (fun _ _ => True) := by
  cases hallowed : result.allowed with
  | true =>
    rw [EnforcementPipeline.finish, if_pos hallowed]
    refine Spec.bind (route_rule (Q := fun _ _ => True) fun _ _ _ _ _ _ _ => trivial)
      fun routed => ?_
    split
    · exact evaluateAutoRespondPolicy_rule (fun _ _ _ _ _ _ _ => by simp [Stage.rank])
        fun _ _ _ _ _ => by simp [Stage.rank]
    · exact Spec.pure fun _ _ => by simp [Stage.rank]
  | false => exact finish_refused_rule hallowed fun _ _ _ _ _ _ => by simp [Stage.rank]

/-- A call that goes on gets nearer to its end. -/
theorem resume_rank (verdict : Verdict) {stage : Stage} (hf : stage.finished = false) :
    Spec (fun _ => True) (EnforcementPipeline.resume config now message address verdict stage)
      (fun next _ => next.rank < stage.rank) (fun _ _ => True) := by
  cases stage with
  | checking boundaries rest =>
    refine Spec.pure fun n _ => ?_
    show (PermissionsEnforcer.afterVerdict rest verdict).stage.rank < rest.length + 3
    unfold PermissionsEnforcer.afterVerdict
    split
    · split
      · simp [CheckStep.stage, Stage.rank]
      · exact checkCategories_rank rest
    · simp [CheckStep.stage, Stage.rank]
  | enforced result =>
    rw [EnforcementPipeline.resume, enforce_eq]
    split
    · refine Spec.bind (recordEvent_keeps (Φ := fun _ => True) fun _ _ _ _ => trivial) fun _ => ?_
      exact finish_rank result
    · exact finish_rank result
  | evaluating policy nickname routed =>
    exact applyVerdict_rule fun _ _ _ _ _ _ _ _ => by simp [Stage.rank]
  | done routed => simp [Stage.finished] at hf

/-- What one part of the processing leaves to do. -/
structure Proceeds (v : View) (t : Task) (next : Option Task) (n : Node) : Prop where
  view : n.view = v
  task : ∃ u, next = some u ∧ u.rank < t.rank ∧ u.awaits = t.awaits ∧ u.Backed n

theorem resume_proceeds (verdict : Verdict) (stage : Stage) :
    Spec (fun n => n.view = v ∧ (Task.processing message address stage).Backed n)
      (resume setup ctx verdict (.processing message address stage))
      (Proceeds v (.processing message address stage)) (fun _ _ => False) := by
  cases hf : stage.finished with
  | true =>
    cases stage with
    | done routed =>
      exact Spec.pure fun n hn => ⟨hn.1, _, rfl, by simp [Task.rank], rfl, trivial⟩
    | _ => simp [Stage.finished] at hf
  | false =>
    rw [resume_unfinished hf]
    have hrank : Spec (fun _ => True) (EnforcementPipeline.resume setup.breakerConfig ctx.now message
        address verdict stage) (fun next _ => next.rank < stage.rank) (fun _ _ => True) :=
      resume_rank verdict hf
    have hpipeline := (((quiet_view setup.breakerConfig v).pipeline verdict stage).and hrank).and
      (pipeline_returns verdict stage)
    refine Spec.bind (hpipeline.conseq (fun n hn => ⟨⟨hn.1, trivial⟩, hn.2⟩) (fun _ _ h => h)
      fun _ _ h => h.2) fun next => Spec.pure fun n hn => ?_
    refine ⟨hn.1.1, _, rfl, ?_, rfl, hn.2⟩
    simpa [Task.rank] using hn.1.2

theorem orThrow_rule {α : Type} {error : String} {o : Option α} {P : Node → Prop}
    {Q : α → Node → Prop} {E : String → Node → Prop} (hsome : ∀ a n, o = some a → P n → Q a n)
    (hnone : ∀ n, o = none → P n → E error n) : Spec P (orThrow error o) Q E := by
  cases o with
  | none => exact Spec.throw fun n hn => hnone n rfl hn
  | some a => exact Spec.pure fun n hn => hsome a n rfl hn

theorem sendSigned_view (hsign : setup.SignsByKey) (timestamp : Int) :
    Spec (fun n => n.view = v) (sendSigned setup ctx messageId address timestamp)
      (fun next n => next = none ∧ n.view = v.settled ctx (some (.confirming messageId address)) ∧
        CanSettle setup ctx (some (.confirming messageId address)))
      (fun _ n => n.view = v ∧ ¬ CanSettle setup ctx (some (.confirming messageId address))) := by
  have hsigned := hsign (buildPayload (textEncode messageId) timestamp)
  refine Spec.bind (R := fun _ n => n.view = v ∧
    (setup.lib.signDetached [] setup.privateKey).isSome = true) ?_ fun signature => ?_
  · refine orThrow_rule (fun signature n hs hn => ⟨hn, ?_⟩) fun n hs hn => ⟨hn, fun h => ?_⟩
    · rw [← hsigned, hs]
      rfl
    · have hkey := h.1
      rw [← hsigned, hs] at hkey
      cases hkey
  split
  · rename_i own hown
    have hown' : ctx.own = some own := hown
    by_cases hc : ctx.connected = true
    · rw [MessageManager.sendEnvelope, if_pos hc]
      rintro n ⟨rfl, hkey⟩
      refine ⟨rfl, ?_, hkey, fun _ => hc⟩
      simp [Node.view, View.settled, hown', Envelope.untimed, confirmEnvelope]
    · rw [MessageManager.sendEnvelope, if_neg hc]
      rintro n ⟨rfl, -⟩
      exact ⟨rfl, fun h => hc (h.2 (by simp [hown']))⟩
  · rename_i hown
    have hown' : ctx.own = none := hown
    refine Spec.pure fun n hn => ⟨rfl, ?_, hn.2, by simp [hown']⟩
    rw [hn.1]
    simp [View.settled, hown']

theorem applyConfirmation_view (confirm : DeliveryConfirm) (peerPubKey : Bytes) :
    Spec (fun n => n.view = v) (applyConfirmation setup ctx confirm peerPubKey)
      (fun next n => next = none ∧ n.view = v ∧
        CanSettle setup ctx (some (.verifying confirm peerPubKey)))
      (fun _ n => n.view = v ∧ ¬ CanSettle setup ctx (some (.verifying confirm peerPubKey))) := by
  refine Spec.bind (R := fun _ n => n.view = v ∧
    CanSettle setup ctx (some (.verifying confirm peerPubKey))) ?_ fun valid => ?_
  · exact orThrow_rule (fun valid n hv hn => ⟨hn, by simp [CanSettle, hv]⟩)
      fun n hv hn => ⟨hn, by simp [CanSettle, hv]⟩
  split
  · have hquiet := (quiet_view setup.breakerConfig v).updateState ctx.now
      (textDecode confirm.messageId) confirm.state none
    exact fun n hn => ⟨rfl, hquiet n hn.1, hn.2⟩
  · exact Spec.pure fun n hn => ⟨rfl, hn.1, hn.2⟩

/-- A task that is run to its end. The fuel is enough for it. -/
theorem finishTask_view (hsign : setup.SignsByKey) (answers : ℕ → Answer) (fuel : ℕ) (t : Task)
    (hfuel : t.rank ≤ fuel) :
    Spec (fun n => n.view = v ∧ t.Backed n) (finishTask setup ctx answers fuel t)
      (fun _ n => n.view = v.settled ctx (some t.awaits) ∧ CanSettle setup ctx (some t.awaits))
      (fun _ n => n.view = v ∧ ¬ CanSettle setup ctx (some t.awaits)) := by
  induction fuel generalizing answers t with
  | zero => cases t <;> simp [Task.rank] at hfuel
  | succ fuel ih =>
    cases t with
    | processing message address stage =>
      refine Spec.bind ((resume_proceeds (answers 0).verdict stage).conseq (fun _ h => h)
        (fun _ _ h => h) fun _ _ h => h.elim) fun next => ?_
      rintro n ⟨hview, u, rfl, hrank, hawaits, hbacked⟩
      rw [← hawaits]
      exact ih _ u (by omega) n ⟨hview, hbacked⟩
    | signing messageId address timestamp =>
      refine Spec.bind ((sendSigned_view hsign timestamp).conseq (fun _ h => h.1) (fun _ _ h => h)
        fun _ _ h => h) fun next => ?_
      rintro n ⟨rfl, hview, hcan⟩
      exact ⟨hview, hcan⟩
    | verifying confirm peerPubKey =>
      refine Spec.bind ((applyConfirmation_view confirm peerPubKey).conseq (fun _ h => h.1)
        (fun _ _ h => h) fun _ _ h => h) fun next => ?_
      rintro n ⟨rfl, hview, hcan⟩
      exact ⟨hview, hcan⟩

end Tasks

/-- Surroundings that differ in the clock only. -/
structure CallContext.Matches (ctx ctx' : CallContext) : Prop where
  assignedAddress : ctx.assignedAddress = ctx'.assignedAddress
  connected : ctx.connected = ctx'.connected
  saveError : ctx.saveError = ctx'.saveError

/-- The same envelope in the same surroundings; the clock and the answers may differ. -/
def SameInput (x y : Handling × Envelope) : Prop := x.2 = y.2 ∧ x.1.ctx.Matches y.1.ctx

section Runs

variable {setup : Setup} {ctx ctx' : CallContext} {n n' : Node} {e : Envelope} {p : String}

abbrev SameView (n n' : Node) : Prop := n.view = n'.view

theorem CallContext.Matches.own (h : ctx.Matches ctx') : ctx.own = ctx'.own := by
  unfold CallContext.own
  rw [h.assignedAddress]

theorem settled_congr (h : ctx.Matches ctx') (v : View) (task : Option Awaited) :
    v.settled ctx task = v.settled ctx' task := by
  unfold View.settled
  rw [h.own]

theorem canSettle_congr (h : ctx.Matches ctx') (task : Option Awaited) :
    CanSettle setup ctx task ↔ CanSettle setup ctx' task := by
  unfold CanSettle
  rw [h.own, h.connected]

/-- A message that opens is confirmed, whatever the record of its sender says. -/
theorem handle_confirms (hsign : setup.SignsByKey) {w : Handling} {own : String}
    (hown : w.ctx.own = some own)
    (hcan : CanSettle setup w.ctx (some (.confirming (textDecode e.messageId) e.fromAddress)))
    (htype : e.type = .message) (hreadable : e.Readable setup n.messageStore) :
    ∃ m, (Node.handle setup w e).run n = .ok () m ∧ m.outbox.map (·.untimed) =
      n.outbox.map (·.untimed) ++
        [confirmEnvelope own e.fromAddress (textEncode (textDecode e.messageId)) [] 0] := by
  have hactionable : e.Actionable w.ctx n.connectionStore := by simp [Envelope.Actionable, htype]
  obtain ⟨_, n₁, hrun₁⟩ : Returns (Node.onAgent (ConnectionManager.dispatch w.ctx e)) n :=
    returns_zoom.2 ((returns_connections w.ctx n.toAgent e).2 hactionable)
  have hview₁ := (onAgent_dispatch_spec w.ctx n e).ok rfl hrun₁
  have hreadable₁ : e.Readable setup n₁.messageStore := by
    have hids : n.messageStore.ids = n₁.messageStore.ids := (congrArg View.ids hview₁).symm
    unfold Envelope.Readable at hreadable ⊢
    rwa [hids] at hreadable
  obtain ⟨next, n₂, hrun₂⟩ := (returns_messages setup w.ctx n₁ e).2 hreadable₁
  have hleft := (dispatch_view setup w.ctx e n₁.view).ok rfl hrun₂
  obtain ⟨t, rfl, hawaits⟩ : ∃ t, next = some t ∧
      t.awaits = .confirming (textDecode e.messageId) e.fromAddress := by
    have htask := hleft.awaits
    simp only [View.task, htype] at htask
    exact Option.map_eq_some_iff.1 htask
  have hspec : Spec (fun m => m.view = n₂.view ∧ t.Backed m)
      (finishTask setup w.ctx w.answers t.rank t) _ _ :=
    finishTask_view hsign w.answers t.rank t (Nat.le_refl _)
  rw [hawaits] at hspec
  obtain ⟨_, n₃, hrun₃⟩ := (hspec.returns_iff ⟨rfl, hleft.backed t rfl⟩).2 hcan
  have hview₃ := (hspec.ok ⟨rfl, hleft.backed t rfl⟩ hrun₃).1
  refine ⟨n₃, ?_, ?_⟩
  · rw [Node.handle, EStateM.run_bind, hrun₁]
    dsimp only
    rw [EStateM.run_bind, hrun₂]
    exact hrun₃
  · have hsent := congrArg View.sent hview₃
    have hsent₂ : n₂.view.sent = n.view.sent := by
      rw [hleft.view, View.arrived, if_pos htype, hview₁]
      rfl
    simp only [View.settled, hown, hsent₂, Option.map_some, Option.toList_some] at hsent
    exact hsent

/-- Both runs to the end of what is left to do for an envelope. -/
theorem finishTask_agrees (hsign : setup.SignsByKey) (hctx : ctx.Matches ctx')
    (hview : SameView n n') {t t' : Task} (hawaits : t.awaits = t'.awaits) (ht : t.Backed n)
    (ht' : t'.Backed n') (answers answers' : ℕ → Answer) :
    Agree (fun _ m _ m' => SameView m m') SameView
      ((finishTask setup ctx answers t.rank t).run n)
      ((finishTask setup ctx' answers' t'.rank t').run n') := by
  have hleft : Spec (fun m => m.view = n.view ∧ t.Backed m) (finishTask setup ctx answers t.rank t)
      _ _ := finishTask_view hsign answers t.rank t (Nat.le_refl _)
  have hright : Spec (fun m => m.view = n.view ∧ t'.Backed m)
      (finishTask setup ctx' answers' t'.rank t') _ _ :=
    finishTask_view hsign answers' t'.rank t' (Nat.le_refl _)
  rw [← hawaits, ← settled_congr hctx] at hright
  have hreturns := (hleft.returns_iff ⟨rfl, ht⟩).trans
    ((canSettle_congr hctx _).trans (hright.returns_iff ⟨hview.symm, ht'⟩).symm)
  refine Agree.of_spec hreturns (hleft.conseq ?_ (fun _ _ h => h.1) fun _ _ h => h.1)
    (hright.conseq ?_ (fun _ _ h => h.1) fun _ _ h => h.1)
    (fun _ _ _ _ h h' => h.trans h'.symm) fun _ _ h h' => h.trans h'.symm
  · rintro _ rfl
    exact ⟨rfl, ht⟩
  · rintro _ rfl
    exact ⟨hview.symm, ht'⟩

theorem connections_agree (hctx : ctx.Matches ctx') (hview : SameView n n') (e : Envelope) :
    Agree (fun _ m _ m' => SameView m m') SameView
      ((Node.onAgent (ConnectionManager.dispatch ctx e)).run n)
      ((Node.onAgent (ConnectionManager.dispatch ctx' e)).run n') := by
  have hreturns : Returns (Node.onAgent (ConnectionManager.dispatch ctx e)) n ↔
      Returns (Node.onAgent (ConnectionManager.dispatch ctx' e)) n' :=
    returns_zoom.trans ((returns_connections ctx n.toAgent e).trans
      ((actionable_congr hview hctx.saveError).trans
        ((returns_connections ctx' n'.toAgent e).symm.trans returns_zoom.symm)))
  have htrans (m m' : Node) (h : m.view = n.view.received e) (h' : m'.view = n'.view.received e) :
      SameView m m' := by
    rw [SameView, h, h', hview]
  exact Agree.of_spec hreturns (onAgent_dispatch_spec ctx n e) (onAgent_dispatch_spec ctx' n' e)
    (fun _ m _ m' => htrans m m') htrans

theorem messages_agree (hview : SameView n n') (e : Envelope) :
    Agree (fun next m next' m' => LeavesTask setup.lib.sha256 e n.view next m ∧
        LeavesTask setup.lib.sha256 e n.view next' m') SameView
      ((dispatch setup ctx e).run n) ((dispatch setup ctx' e).run n') := by
  have hreturns := (returns_messages setup ctx n e).trans
    ((readable_congr hview).trans (returns_messages setup ctx' n' e).symm)
  refine Agree.of_spec hreturns ((dispatch_view setup ctx e n.view).conseq ?_ (fun _ _ h => h)
    fun _ _ h => h) ((dispatch_view setup ctx' e n.view).conseq ?_ (fun _ _ h => h) fun _ _ h => h)
    (fun _ _ _ _ h h' => ⟨h, h'⟩) fun _ _ h h' => h.trans h'.symm
  · rintro _ rfl
    rfl
  · rintro _ rfl
    exact hview.symm

theorem handle_agrees (hsign : setup.SignsByKey) (hview : SameView n n') {w w' : Handling}
    (hctx : w.ctx.Matches w'.ctx) (e : Envelope) :
    Agree (fun _ m _ m' => SameView m m') SameView ((Node.handle setup w e).run n)
      ((Node.handle setup w' e).run n') := by
  refine Agree.bind (connections_agree hctx hview e) fun _ m _ m' hm => ?_
  refine Agree.bind (messages_agree hm e) fun next k next' k' hk => ?_
  obtain ⟨h, h'⟩ := hk
  have hk : SameView k k' := h.view.trans h'.view.symm
  have hawaits := h.awaits.trans h'.awaits.symm
  cases next with
  | none =>
    cases next' with
    | none => exact hk
    | some t' => cases hawaits
  | some t =>
    cases next' with
    | none => cases hawaits
    | some t' =>
      exact finishTask_agrees hsign hctx hk (Option.some.inj hawaits) (h.backed t rfl)
        (h'.backed t' rfl) _ _

/-- A whole sequence of envelopes. -/
theorem handleAll_agrees (hsign : setup.SignsByKey) {l l' : List (Handling × Envelope)}
    (hl : List.Forall₂ SameInput l l') (hview : SameView n n') :
    Agree (fun _ m _ m' => SameView m m') SameView ((Node.handleAll setup l).run n)
      ((Node.handleAll setup l').run n') := by
  induction hl generalizing n n' with
  | nil => exact hview
  | @cons x y l l' hxy _ ih =>
    obtain ⟨w, e⟩ := x
    obtain ⟨w', e'⟩ := y
    obtain ⟨rfl, hctx⟩ := hxy
    exact Agree.bind (handle_agrees hsign hview hctx e) fun _ m _ m' hm => ih hm

end Runs

/-- A record and what it is once the peer is muted or unmuted, or its request is rejected. -/
inductive Connection.Hushed (c : Connection) : Connection → Prop
  | muted (value : Option Bool) (lastActivity : String) :
      Hushed c { c with muted := value, lastActivity := lastActivity }
  | rejected (hs : c.state = .pendingInbound) (lastActivity : String) :
      Hushed c { c with state := .revoked, lastActivity := lastActivity }

/-- The stores differ in that one record. -/
def ConnectionStore.DiffersAt (p : String) (s s' : ConnectionStore) : Prop :=
  ∃ c c', s.getConnection p = some c ∧ s'.getConnection p = some c' ∧ c.Hushed c' ∧
    ∀ q, q ≠ p → s'.getConnection q = s.getConnection q

section Hushed

variable {p : String} {s s' : ConnectionStore} {n n' : Node}

/-- What `pinch-mute` does. -/
theorem differsAt_muted {c : Connection} (hc : s.getConnection p = some c) (now : Int)
    (value : Bool) :
    s.DiffersAt p (finalState ((ConnectionStore.applySetting now p (.muted value)).run s)) := by
  have hrun : (ConnectionStore.applySetting now p (.muted value)).run s =
      .ok () (s.insert p (ConnectionStore.assign c { muted := some value } now)) := by
    simp [ConnectionStore.applySetting, ConnectionStore.Setting.updates,
      ConnectionStore.updateInPlace, hc, ConnectionStore.setRecord]
  rw [hrun]
  refine ⟨c, ConnectionStore.assign c { muted := some value } now, hc, ?_,
    .muted (some value) (isoString now), fun q hq => ?_⟩
  · rw [finalState, ConnectionStore.getConnection_insert, if_pos rfl]
  · rw [finalState, ConnectionStore.getConnection_insert, if_neg (Ne.symm hq)]

theorem differsAt_rejected {a : Agent} {c : Connection}
    (hc : a.connectionStore.getConnection p = some c) (hs : c.state = .pendingInbound)
    (ctx : CallContext) :
    a.connectionStore.DiffersAt p (a.step (ctx, .rejectRequest p)).connectionStore := by
  have hget := getConnection_step ctx a (.rejectRequest p)
  refine ⟨c, ConnectionStore.assign c { state := some .revoked } ctx.now, hc, ?_,
    .rejected hs (isoString ctx.now), fun q hq => ?_⟩
  · rw [hget, hc]
    simp [ConnectionEvent.effect, hs, RecordEffect.apply]
  · rw [hget]
    simp [ConnectionEvent.effect, Ne.symm hq, RecordEffect.apply]

theorem DiffersAt.sameView (hdiff : n.connectionStore.DiffersAt p n'.connectionStore)
    (hmessages : n.messageStore = n'.messageStore) (hsent : n.outbox = n'.outbox) :
    SameView n n' := by
  obtain ⟨c, c', hc, hc', hhushed, hothers⟩ := hdiff
  unfold SameView Node.view
  rw [hmessages, hsent]
  congr 1
  funext q
  by_cases hq : q = p
  · subst hq
    rw [hc, hc']
    cases hhushed <;> rfl
  · rw [hothers q hq]

end Hushed

/-- Muting a peer, or rejecting its request, changes nothing that it can see: whatever it sends
afterwards, the agent answers with the same envelopes, and fails at the same one if it fails. -/
theorem hushed_peer_unobservable {setup : Setup} (hsign : setup.SignsByKey) {p : String}
    {n n' : Node} (hdiff : n.connectionStore.DiffersAt p n'.connectionStore)
    (hmessages : n.messageStore = n'.messageStore) (hsent : n.outbox = n'.outbox)
    {l l' : List (Handling × Envelope)} (hl : List.Forall₂ SameInput l l') :
    let r := (Node.handleAll setup l).run n
    let r' := (Node.handleAll setup l').run n'
    (finalState r).outbox.map (·.untimed) = (finalState r').outbox.map (·.untimed) ∧
      (returned r).isSome = (returned r').isSome := by
  have hagree := handleAll_agrees hsign hl (DiffersAt.sameView hdiff hmessages hsent)
  dsimp only
  revert hagree
  cases (Node.handleAll setup l).run n with
  | ok a m =>
    cases (Node.handleAll setup l').run n' with
    | ok a' m' => exact fun h => ⟨congrArg View.sent h, rfl⟩
    | error e' m' => exact False.elim
  | error e m =>
    cases (Node.handleAll setup l').run n' with
    | ok a' m' => exact False.elim
    | error e' m' => exact fun h => ⟨congrArg View.sent h, rfl⟩

/-- The second identity's Ed25519 signature over the greeting's id and the time zero. -/
def greetingSignature : Bytes :=
  [61, 25, 107, 30, 233, 44, 252, 23, 45, 110, 157, 153, 44, 163, 98, 181,
   176, 98, 77, 41, 159, 208, 73, 218, 231, 254, 76, 4, 174, 215, 58, 115,
   232, 174, 64, 13, 98, 111, 187, 206, 130, 26, 13, 49, 179, 177, 227, 194,
   157, 64, 31, 228, 229, 91, 80, 187, 59, 247, 109, 247, 249, 148, 164, 7]

/-- The libraries as they act on the greeting and on its confirmation at the time zero. -/
def greetingSetup : Setup where
  lib := { sentLibraries with
    signDetached := fun _ key => if key.length = 64 then some greetingSignature else none }
  privateKey := otherPrivateKey
  breakerConfig := {}

def greetingHandled : List (Handling × Envelope) :=
  [(⟨otherContext, fun _ => ⟨0, none⟩⟩, sentEnvelope)]

/-- The trusted peer, muted. -/
def mutedPeerStore : ConnectionStore :=
  finalState ((ConnectionStore.applySetting 0 vectorAddress (.muted true)).run peerStore)

/-- The same peer before its request is answered. -/
def pendingPeer : Connection := { trustedPeer with
  peerAddress := vectorAddress
  peerPublicKey := some (Base64.encode vectorKey)
  state := .pendingInbound }

def pendingAgent : Agent := ⟨AList.insert vectorAddress pendingPeer ∅, []⟩

def rejectedAgent : Agent := pendingAgent.step (otherContext, .rejectRequest vectorAddress)

def greetingRun (store : ConnectionStore) : EStateM.Result String Node Unit :=
  (Node.handleAll greetingSetup greetingHandled).run (.withConnections store)

/-- The agent reads one message by itself and puts the other aside, and confirms both. It also
confirms a message of a peer whose request is pending or rejected. -/
theorem hushed_peer_unobservable_greeting :
    ((finalState (greetingRun peerStore)).outbox.map (·.untimed) =
        (finalState (greetingRun mutedPeerStore)).outbox.map (·.untimed) ∧
      (returned (greetingRun peerStore)).isSome = (returned (greetingRun mutedPeerStore)).isSome) ∧
    (finalState (greetingRun peerStore)).outbox.map (·.toAddress) = [vectorAddress] ∧
    ((finalState (greetingRun peerStore)).messageStore.rows.map (·.state),
      (finalState (greetingRun mutedPeerStore)).messageStore.rows.map (·.state)) =
      (["read_by_agent"], ["delivered"]) ∧
    (finalState (greetingRun pendingAgent.connectionStore)).outbox.map (·.untimed) =
      (finalState (greetingRun rejectedAgent.connectionStore)).outbox.map (·.untimed) := by
  have hpeer : peerStore.getConnection vectorAddress = some { trustedPeer with
      peerAddress := vectorAddress
      peerPublicKey := some (Base64.encode vectorKey) } := by decide +kernel
  have hpending : pendingAgent.connectionStore.getConnection vectorAddress = some pendingPeer := by
    decide +kernel
  have hl : List.Forall₂ SameInput greetingHandled greetingHandled :=
    .cons ⟨rfl, rfl, rfl, rfl⟩ .nil
  have hsign : greetingSetup.SignsByKey := fun _ => rfl
  have hmuted : (Node.withConnections peerStore).connectionStore.DiffersAt vectorAddress
      (Node.withConnections mutedPeerStore).connectionStore := differsAt_muted hpeer 0 true
  have hrejected : (Node.withConnections pendingAgent.connectionStore).connectionStore.DiffersAt
      vectorAddress (Node.withConnections rejectedAgent.connectionStore).connectionStore :=
    differsAt_rejected hpending rfl otherContext
  refine ⟨?_, by decide +kernel, by decide +kernel, ?_⟩
  · unfold greetingRun
    exact hushed_peer_unobservable hsign hmuted rfl rfl hl
  · unfold greetingRun
    exact (hushed_peer_unobservable hsign hrejected rfl rfl hl).1

end Pinch
