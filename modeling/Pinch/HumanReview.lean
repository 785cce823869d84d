import Pinch.SenderAuthenticity
import Pinch.Transition

/-! Messages that wait for a human. A row leaves review only by `approveMessage`,
as long as no delivery confirmation that verifies names an inbound row. -/

namespace Pinch

open MessageManager Transition

def underReviewState : String := "escalated_to_human"

/-- The only row that differs is that of `id`, which keeps its direction. -/
structure Touches (id : String) (s s' : MessageStore) : Prop where
  others : ∀ j, j ≠ id → s'.getMessage j = s.getMessage j
  direction : (s'.getMessage id).map (·.direction) = (s.getMessage id).map (·.direction)

def NotEscalated (id : String) (s : MessageStore) : Prop :=
  ∀ r, s.getMessage id = some r → r.state ≠ underReviewState

theorem Touches.refl (id : String) (s : MessageStore) : Touches id s s := ⟨fun _ _ => rfl, rfl⟩

theorem Touches.updateState {id : String} {s t : MessageStore} (h : Touches id s t) (now : Int)
    (state : String) (reason : Option String) :
    Touches id s (t.updateState now id state reason) := by
  refine ⟨fun j hj => ?_, ?_⟩
  · rw [MessageStore.getMessage_updateState_ne t now state reason hj]
    exact h.others j hj
  · rw [MessageStore.getMessage_updateState, Option.map_map, ← h.direction]
    congr 1
    funext r
    simp

theorem notEscalated_updateState (s : MessageStore) (now : Int) (id : String) {state : String}
    (reason : Option String) (h : state ≠ underReviewState) :
    NotEscalated id (s.updateState now id state reason) := by
  intro r hr
  rw [MessageStore.getMessage_updateState, Option.map_eq_some_iff] at hr
  obtain ⟨r', hr', rfl⟩ := hr
  simpa [MessageStore.written, MessageStore.getMessage_id hr'] using h

def Stage.finished : Stage → Bool
  | .done _ => true
  | _ => false

section Pipeline

variable {message : MessageRecord} {address : String} {now : Int} {s : MessageStore}
  {config : CircuitBreakerConfig}

def Unsettled (id : String) (s : MessageStore) (n : Node) : Prop :=
  Touches id s n.messageStore ∧ NotEscalated id n.messageStore

def Settles (id : String) (s : MessageStore) (stage : Stage) (n : Node) : Prop :=
  Touches id s n.messageStore ∧ (stage.finished = false → NotEscalated id n.messageStore)

theorem recordEvent_keeps_messages (Φ : MessageStore → Prop) (type : String) :
    Keeps (fun n => Φ n.messageStore) (CircuitBreaker.recordEvent config now address type) :=
  CircuitBreaker.recordEvent_keeps fun _ _ hrec h => by rwa [hrec.messageStore]

theorem settles_done {id : String} {r : RoutedMessage} {n : Node}
    (h : Touches id s n.messageStore) : Settles id s (.done r) n :=
  ⟨h, fun hf => absurd hf (by simp [Stage.finished])⟩

theorem process_settles :
    Spec (Unsettled message.id s) (EnforcementPipeline.process now message address)
      (Settles message.id s) (fun _ n => Touches message.id s n.messageStore) :=
  EnforcementPipeline.process_rule (fun _ _ h _ _ => settles_done (h.1.updateState now _ _))
    (fun _ _ h _ _ _ => settles_done (h.1.updateState now _ _)) fun _ h _ _ => ⟨h.1, fun _ => h.2⟩

theorem route_settles :
    Spec (fun n => Touches message.id s n.messageStore) (InboundRouter.route now message address)
      (fun r n => Touches message.id s n.messageStore ∧
        (r.state = "pending_policy_eval" → NotEscalated message.id n.messageStore))
      (fun _ n => Touches message.id s n.messageStore) := by
  refine EnforcementPipeline.route_rule fun n state reason feed h _ _ => ?_
  refine ⟨h.updateState now state reason, fun hs => ?_⟩
  obtain rfl : state = "pending_policy_eval" := hs
  exact notEscalated_updateState n.messageStore now message.id reason (by decide)

theorem evaluateAutoRespondPolicy_settles (routed : RoutedMessage) :
    Spec (Unsettled message.id s)
      (EnforcementPipeline.evaluateAutoRespondPolicy now message address routed)
      (Settles message.id s) (fun _ n => Touches message.id s n.messageStore) :=
  EnforcementPipeline.evaluateAutoRespondPolicy_rule (fun _ _ _ h _ _ _ => ⟨h.1, fun _ => h.2⟩)
    fun _ _ h _ _ => settles_done (h.1.updateState now _ _)

theorem applyVerdict_settles (routed : RoutedMessage) (verdict : Verdict) :
    Spec (Unsettled message.id s)
      (EnforcementPipeline.applyVerdict now message address routed verdict)
      (Settles message.id s) (fun _ n => Touches message.id s n.messageStore) :=
  EnforcementPipeline.applyVerdict_rule fun _ _ _ _ _ h _ _ =>
    settles_done (h.1.updateState now _ _)

theorem finish_settles (result : EnforcementResult) :
    Spec (fun n => Touches message.id s n.messageStore)
      (EnforcementPipeline.finish now message address result)
      (Settles message.id s) (fun _ n => Touches message.id s n.messageStore) := by
  cases hallowed : result.allowed with
  | true =>
    rw [EnforcementPipeline.finish, if_pos hallowed]
    refine Spec.bind route_settles fun routed => ?_
    split
    · rename_i hstate
      exact (evaluateAutoRespondPolicy_settles routed).conseq
        (fun _ h => ⟨h.1, h.2 hstate⟩) (fun _ _ h => h) (fun _ _ h => h)
    · exact Spec.pure fun _ h => settles_done h.1
  | false =>
    exact EnforcementPipeline.finish_refused_rule hallowed fun _ _ _ h _ _ =>
      settles_done (h.updateState now _ _)

theorem enforce_settles (result : EnforcementResult) :
    Spec (Unsettled message.id s)
      (EnforcementPipeline.enforce config now message address result)
      (Settles message.id s) (fun _ n => Touches message.id s n.messageStore) := by
  refine Spec.conseq (R := fun n => Touches message.id s n.messageStore) ?_ (fun _ h => h.1)
    (fun _ _ h => h) (fun _ _ h => h)
  rw [EnforcementPipeline.enforce_eq]
  split
  · exact Spec.bind (recordEvent_keeps_messages _ _) fun _ => finish_settles result
  · exact finish_settles result

theorem resume_settles (message : MessageRecord) (address : String) (now : Int)
    (config : CircuitBreakerConfig) (verdict : Verdict) (stage : Stage) :
    Spec (Unsettled message.id s)
      (EnforcementPipeline.resume config now message address verdict stage)
      (Settles message.id s) (fun _ n => Touches message.id s n.messageStore) := by
  cases stage with
  | checking boundaries rest => exact Spec.pure fun _ h => ⟨h.1, fun _ => h.2⟩
  | enforced result => exact enforce_settles result
  | evaluating policy nickname routed => exact applyVerdict_settles routed verdict
  | done routed => exact Spec.pure fun _ h => ⟨h.1, fun _ => h.2⟩

end Pipeline

def Task.running : Task → Option String
  | .processing message _ stage => if stage.finished then none else some message.id
  | _ => none

def InboundRow (Ψ : String → Prop) (s : MessageStore) (id : String) : Prop :=
  ∃ r, s.getMessage id = some r ∧ r.direction = .inbound ∧ Ψ r.state

abbrev UnderReview := InboundRow (· = underReviewState)

abbrev Waiting := InboundRow (· ≠ underReviewState)

/-- A confirmation that verifies and names an inbound row neither takes it out of
review nor puts it there while its pipeline is running. -/
def Task.Harmless (setup : Setup) (s : Process) : Task → Prop
  | .verifying confirm peerPubKey =>
    verifyDeliveryConfirmation setup confirm peerPubKey = some true →
      ∀ r ∈ s.node.messageStore.getMessage (textDecode confirm.messageId),
        r.direction = .inbound →
          (r.state = underReviewState → confirm.state = underReviewState) ∧
          (confirm.state = underReviewState →
            ∀ j < s.started, (s.tasks j).bind (·.running) ≠ some r.id)
  | _ => True

instance (setup : Setup) (s : Process) (t : Task) : Decidable (t.Harmless setup s) :=
  match t with
  | .verifying _ _ => inferInstanceAs (Decidable (_ → ∀ r ∈ s.node.messageStore.getMessage _, _))
  | .processing .. => isTrue trivial
  | .signing .. => isTrue trivial

def ReviewKept (setup : Setup) (s : Process) : ProcessLabel → Prop
  | .resume task _ _ => ∀ t ∈ s.tasks task, t.Harmless setup s
  | _ => True

instance (setup : Setup) (s : Process) (x : ProcessLabel) : Decidable (ReviewKept setup s x) :=
  match x with
  | .resume task _ _ => inferInstanceAs (Decidable (∀ t ∈ s.tasks task, _))
  | .incoming .. => isTrue trivial
  | .approveMessage .. => isTrue trivial
  | .connections .. => isTrue trivial

def Extends (s s' : MessageStore) : Prop :=
  ∀ j r, s.getMessage j = some r → s'.getMessage j = some r

structure Process.Sound (s : Process) : Prop where
  running : ∀ i t id, s.tasks i = some t → t.running = some id → Waiting s.node.messageStore id
  distinct : ∀ i j t u id, s.tasks i = some t → s.tasks j = some u → t.running = some id →
    u.running = some id → i = j
  started : ∀ i, s.started ≤ i → s.tasks i = none

section Handlers

variable {setup : Setup} {ctx : CallContext} {s : MessageStore}

theorem Extends.refl (s : MessageStore) : Extends s s := fun _ _ h => h

theorem Touches.inboundRow {Ψ : String → Prop} {id j : String} {s s' : MessageStore}
    (h : Touches id s s') (hj : j ≠ id) (hr : InboundRow Ψ s j) : InboundRow Ψ s' j := by
  obtain ⟨r, hr, hrest⟩ := hr
  exact ⟨r, by rw [h.others j hj, hr], hrest⟩

theorem Touches.waiting_self {id : String} {s s' : MessageStore} (h : Touches id s s')
    (hn : NotEscalated id s') (hw : Waiting s id) : Waiting s' id := by
  obtain ⟨r, hr, hd, -⟩ := hw
  have hdir := h.direction
  rw [hr, Option.map_some, Option.map_eq_some_iff] at hdir
  obtain ⟨r', hr', hd'⟩ := hdir
  exact ⟨r', hr', hd'.trans hd, hn r' hr'⟩

/-- What an arriving message leaves: existing rows untouched and, if its pipeline is
not finished, a new row that is not under review. -/
def Arrives (s : MessageStore) (t : Option Task) (n : Node) : Prop :=
  Extends s n.messageStore ∧ ∀ task id, t = some task → task.running = some id →
    s.getMessage id = none ∧ Waiting n.messageStore id

theorem saveMessage_process_arrives {message : MessageRecord} {address : String} {now : Int}
    (hd : message.direction = .inbound) (hs : message.state = "delivered") :
    Spec (fun n => n.messageStore = s)
      (do Node.saveMessage message
          let stage ← EnforcementPipeline.process now message address
          return some (.processing message address stage))
      (Arrives s) (fun _ n => Extends s n.messageStore) := by
  rintro n rfl
  cases hsave : n.messageStore.saveMessage message with
  | error e =>
    simp only [Node.saveMessage, EStateM.run_bind, EStateM.run_get, hsave]
    exact Extends.refl _
  | ok t =>
    obtain ⟨hfresh, hget⟩ := MessageStore.getMessage_saveMessage hsave
    have hext : ∀ u, Touches message.id t u → Extends n.messageStore u := by
      intro u hu j r hj
      have hne : j ≠ message.id := fun he => by simp [he, hfresh] at hj
      rw [hu.others j hne, hget, if_neg hne, hj]
    have hnew : Waiting t message.id :=
      ⟨message, by simp [hget], hd, by rw [hs]; decide⟩
    have hrest : Spec (fun m => m = { n with messageStore := t })
        (do let stage ← EnforcementPipeline.process now message address
            return some (Task.processing message address stage))
        (Arrives n.messageStore) (fun _ m => Extends n.messageStore m.messageStore) := by
      refine Spec.bind (R := Settles message.id t) (process_settles.conseq ?_ (fun _ _ h => h)
        (fun _ m h => hext _ h)) fun stage => Spec.pure fun m hm => ⟨hext _ hm.1, ?_⟩
      · rintro m rfl
        refine ⟨Touches.refl _ _, fun r hr => ?_⟩
        obtain ⟨r', hr', -, hne⟩ := hnew
        obtain rfl := Option.some.inj (hr.symm.trans hr')
        exact hne
      · intro task id he hid
        obtain rfl := Option.some.inj he
        simp only [Task.running] at hid
        split_ifs at hid with hf
        obtain rfl := Option.some.inj hid
        exact ⟨hfresh, hm.1.waiting_self (hm.2 (by simpa using hf)) hnew⟩
    have hrun := hrest { n with messageStore := t } rfl
    simp only [Node.saveMessage, EStateM.run_bind, EStateM.run_get, hsave, EStateM.run_modify]
    simpa only [EStateM.run_bind] using hrun

theorem orThrow_keeps {α : Type} {P : Node → Prop} {error : String} (o : Option α) :
    Spec P (orThrow error o) (fun _ => P) (fun _ => P) := by
  cases o with
  | none => exact Spec.throw fun _ h => h
  | some a => exact Spec.pure fun _ h => h

theorem handleIncomingMessage_arrives (envelope : Envelope) :
    Spec (fun n => n.messageStore = s) (handleIncomingMessage setup ctx envelope)
      (Arrives s) (fun _ n => Extends s n.messageStore) := by
  have herr : ∀ (e : String) (n : Node), n.messageStore = s → Extends s n.messageStore := by
    rintro e n rfl
    exact Extends.refl _
  unfold handleIncomingMessage
  split
  · refine Spec.bind (R := fun _ n => n.messageStore = s) ?_ fun plaintext => ?_
    · refine Spec.conseq (F := fun _ n => n.messageStore = s) ?_ (fun _ h => h) (fun _ _ h => h) herr
      unfold openPayload
      refine Spec.bind (orThrow_keeps _) fun _ => ?_
      refine Spec.bind (orThrow_keeps _) fun _ => ?_
      exact Spec.bind (orThrow_keeps _) fun _ => orThrow_keeps _
    · refine Spec.bind (R := fun _ n => n.messageStore = s)
        ((orThrow_keeps _).conseq (fun _ h => h) (fun _ _ h => h) herr) fun body => ?_
      exact saveMessage_process_arrives rfl rfl
  · exact Spec.throw fun n h => herr "" n h

theorem dispatch_arrives (setup : Setup) (ctx : CallContext) (envelope : Envelope) :
    Spec (fun n => n.messageStore = s) (dispatch setup ctx envelope)
      (Arrives s) (fun _ n => Extends s n.messageStore) := by
  have hidle : ∀ (t : Option Task) (n : Node), (∀ task ∈ t, task.running = none) →
      n.messageStore = s → Arrives s t n := by
    rintro t n ht rfl
    refine ⟨Extends.refl _, fun task id he hid => ?_⟩
    simp [ht task he] at hid
  have hext : ∀ (n : Node), n.messageStore = s → Extends s n.messageStore := by
    rintro n rfl
    exact Extends.refl _
  refine Spec.bind (R := fun _ n => n.messageStore = s) (Spec.modify fun n h => ?_) fun _ => ?_
  · simp only
    split_ifs <;> exact h
  split
  · exact handleIncomingMessage_arrives envelope
  · unfold handleDeliveryConfirmation
    split
    · refine Spec.get_bind fun n => ?_
      split
      · exact Spec.pure fun n h => hidle _ n (by simp) h.2
      · split
        · exact Spec.pure fun n h => hidle _ n (by simp) h.2
        · exact Spec.pure fun n h => hidle _ n (by simp [Task.running]) h.2
    · exact Spec.throw fun n h => hext n h
  · unfold handleQueueStatus
    split
    · exact Spec.bind (R := fun _ n => n.messageStore = s) (Spec.modify fun _ h => h) fun _ =>
        Spec.pure fun n h => hidle _ n (by simp) h
    · exact Spec.pure fun n h => hidle _ n (by simp) h
  · exact Spec.pure fun n h => hidle _ n (by simp) h

inductive ResumeCase (setup : Setup) (ctx : CallContext) (s : MessageStore) (t : Task) :
    Option Task → MessageStore → Prop
  | quiet {t' : Option Task} (ht : t.running = none) (ht' : ∀ u ∈ t', u.running = none) :
      ResumeCase setup ctx s t t' s
  | pipeline {t' : Option Task} {s' : MessageStore} {id : String} (ht : t.running = some id)
      (hs : NotEscalated id s → Touches id s s')
      (ht' : NotEscalated id s → ∀ u ∈ t', ∀ j, u.running = some j → j = id ∧ NotEscalated id s') :
      ResumeCase setup ctx s t t' s'
  | confirm {confirm : DeliveryConfirm} {peerPubKey : Bytes}
      (ht : t = .verifying confirm peerPubKey)
      (hv : verifyDeliveryConfirmation setup confirm peerPubKey = some true) :
      ResumeCase setup ctx s t none
        (s.updateState ctx.now (textDecode confirm.messageId) confirm.state none)

theorem resume_unfinished {message : MessageRecord} {address : String} {stage : Stage}
    (hf : stage.finished = false) (verdict : Verdict) :
    resume setup ctx verdict (.processing message address stage) = (do
      let next ← EnforcementPipeline.resume setup.breakerConfig ctx.now message address verdict stage
      return some (.processing message address next)) := by
  cases stage <;> first | rfl | simp [Stage.finished] at hf

theorem sendSigned_keeps (setup : Setup) (ctx : CallContext) (messageId address : String)
    (timestamp : Int) :
    Spec (fun n => n.messageStore = s) (sendSigned setup ctx messageId address timestamp)
      (fun t n => t = none ∧ n.messageStore = s) (fun _ n => n.messageStore = s) := by
  refine Spec.bind (orThrow_keeps _) fun signature => ?_
  split
  · refine Spec.bind (R := fun _ n => n.messageStore = s) ?_ fun _ => Spec.pure fun _ h => ⟨rfl, h⟩
    unfold sendEnvelope
    split
    · exact Spec.modify fun _ h => h
    · exact Spec.throw fun _ h => h
  · exact Spec.pure fun _ h => ⟨rfl, h⟩

theorem processing_case (verdict : Verdict) (message : MessageRecord) (address : String)
    {stage : Stage} (hf : stage.finished = false) (n : Node) :
    ResumeCase setup ctx n.messageStore (.processing message address stage)
      (returned ((resume setup ctx verdict (.processing message address stage)).run n)).join
      (finalState ((resume setup ctx verdict (.processing message address stage)).run n)).messageStore
      := by
  have hrunning : Task.running (.processing message address stage) = some message.id := by
    simp [Task.running, hf]
  have hspec (hn : NotEscalated message.id n.messageStore) :=
    resume_settles message address ctx.now setup.breakerConfig verdict stage n
      ⟨Touches.refl message.id n.messageStore, hn⟩
  rw [resume_unfinished hf, EStateM.run_bind]
  revert hspec
  cases (EnforcementPipeline.resume setup.breakerConfig ctx.now message address verdict stage).run n
    with
  | error e n' => exact fun hspec => .pipeline hrunning hspec fun _ u hu => by simp [returned] at hu
  | ok next n' =>
    intro hspec
    refine .pipeline hrunning (fun hn => (hspec hn).1) fun hn u hu j hj => ?_
    obtain rfl := Option.some.inj hu
    simp only [Task.running] at hj
    split_ifs at hj with hnext
    exact ⟨(Option.some.inj hj).symm, (hspec hn).2 (by simpa using hnext)⟩

theorem signing_case (messageId address : String) (timestamp : Int) (n : Node) :
    ResumeCase setup ctx n.messageStore (.signing messageId address timestamp)
      (returned ((sendSigned setup ctx messageId address timestamp).run n)).join
      (finalState ((sendSigned setup ctx messageId address timestamp).run n)).messageStore := by
  have hspec := sendSigned_keeps setup ctx messageId address timestamp n rfl
  revert hspec
  cases (sendSigned setup ctx messageId address timestamp).run n with
  | ok t' n' =>
    rintro ⟨rfl, hs⟩
    simp only [finalState, hs]
    exact .quiet rfl (by simp [returned])
  | error e n' =>
    intro hs
    simp only [finalState, hs]
    exact .quiet rfl (by simp [returned])

theorem resume_case (verdict : Verdict) (t : Task) (n : Node) :
    ResumeCase setup ctx n.messageStore t
      (returned ((resume setup ctx verdict t).run n)).join
      (finalState ((resume setup ctx verdict t).run n)).messageStore := by
  cases t with
  | processing message address stage =>
    cases hf : stage.finished with
    | true =>
      cases stage with
      | done routed => exact .quiet (by simp [Task.running, hf]) (by
          rintro u hu
          obtain rfl := Option.some.inj hu
          rfl)
      | _ => simp [Stage.finished] at hf
    | false => exact processing_case verdict message address hf n
  | signing messageId address timestamp => exact signing_case messageId address timestamp n
  | verifying confirm peerPubKey =>
    simp only [resume, applyConfirmation]
    cases hv : verifyDeliveryConfirmation setup confirm peerPubKey with
    | none => exact .quiet rfl (by intro u hu; cases hu)
    | some valid =>
      cases valid with
      | false => exact .quiet rfl (by intro u hu; cases hu)
      | true => exact .confirm rfl hv

end Handlers

section Steps

variable {setup : Setup} {s s' : Process}

theorem Waiting.not_underReview {m : MessageStore} {id : String} (h : Waiting m id) :
    ¬ UnderReview m id := by
  rintro ⟨r, hr, -, hs⟩
  obtain ⟨r', hr', -, hs'⟩ := h
  obtain rfl := Option.some.inj (hr.symm.trans hr')
  exact hs' hs

theorem Waiting.notEscalated {m : MessageStore} {id : String} (h : Waiting m id) :
    NotEscalated id m := by
  intro r hr
  obtain ⟨r', hr', -, hs'⟩ := h
  obtain rfl := Option.some.inj (hr.symm.trans hr')
  exact hs'

theorem Extends.inboundRow {Ψ : String → Prop} {m m' : MessageStore} {id : String}
    (h : Extends m m') (hr : InboundRow Ψ m id) : InboundRow Ψ m' id := by
  obtain ⟨r, hr, hrest⟩ := hr
  exact ⟨r, h id r hr, hrest⟩

theorem InboundRow.updateState {Ψ : String → Prop} {m : MessageStore} {now : Int}
    {id j state : String} (hr : InboundRow Ψ m j)
    (h : ∀ r ∈ m.getMessage id, r.direction = .inbound → j = id → Ψ r.state → Ψ state) :
    InboundRow Ψ (m.updateState now id state none) j := by
  obtain ⟨r, hr, hd, hs⟩ := hr
  refine ⟨MessageStore.written now id state none r, ?_, by simpa using hd, ?_⟩
  · rw [MessageStore.getMessage_updateState, hr, Option.map_some]
  · have hid := MessageStore.getMessage_id hr
    unfold MessageStore.written
    split_ifs with he
    · have hj : j = id := hid.symm.trans he
      exact h r (hj ▸ hr) hd hj hs
    · exact hs

theorem Process.Sound.incoming (h : s.Sound) (setup : Setup) (ctx : CallContext)
    (envelope : Envelope) :
    Extends s.node.messageStore
        (finalState ((dispatch setup ctx envelope).run s.node)).messageStore ∧
      Process.Sound
        { node := finalState ((dispatch setup ctx envelope).run s.node)
          tasks := Function.update s.tasks s.started
            (returned ((dispatch setup ctx envelope).run s.node)).join
          started := s.started + 1 } := by
  have hspec := dispatch_arrives setup ctx envelope s.node rfl
  have harr : Arrives s.node.messageStore (returned ((dispatch setup ctx envelope).run s.node)).join
      (finalState ((dispatch setup ctx envelope).run s.node)) := by
    revert hspec
    cases (dispatch setup ctx envelope).run s.node with
    | ok t n => exact id
    | error e n => exact fun hext => ⟨hext, fun task id he => by simp [returned] at he⟩
  obtain ⟨hext, hnew⟩ := harr
  have hold : ∀ i t, i ≠ s.started → Function.update s.tasks s.started
      (returned ((dispatch setup ctx envelope).run s.node)).join i = some t → s.tasks i = some t := by
    intro i t hi ht
    rwa [Function.update_of_ne hi] at ht
  have hnone : ∀ i t id, s.tasks i = some t → t.running = some id →
      s.node.messageStore.getMessage id ≠ none := by
    intro i t id ht hid hnone
    obtain ⟨r, hr, -⟩ := h.running i t id ht hid
    simp [hnone] at hr
  refine ⟨hext, ⟨fun i t id ht hid => ?_, fun i j t u id ht hu hid hid' => ?_, fun i hi => ?_⟩⟩
  · by_cases hi : i = s.started
    · subst hi
      simp only [Function.update_self] at ht
      exact (hnew t id ht hid).2
    · exact hext.inboundRow (h.running i t id (hold i t hi ht) hid)
  · by_cases hi : i = s.started <;> by_cases hj : j = s.started
    · rw [hi, hj]
    · subst hi
      simp only [Function.update_self] at ht
      exact absurd (hnew t id ht hid).1 (hnone j u id (hold j u hj hu) hid')
    · subst hj
      simp only [Function.update_self] at hu
      exact absurd (hnew u id hu hid').1 (hnone i t id (hold i t hi ht) hid)
    · exact h.distinct i j t u id (hold i t hi ht) (hold j u hj hu) hid hid'
  · have hi' : s.started < i := hi
    simp only [Function.update_of_ne (Nat.ne_of_gt hi')]
    exact h.started i hi'.le

theorem Process.Sound.update (h : s.Sound) {i : Nat} {t : Task} {node : Node} {t' : Option Task}
    (ht : s.tasks i = some t)
    (hnew : ∀ u ∈ t', ∀ id, u.running = some id →
      t.running = some id ∧ Waiting node.messageStore id)
    (hold : ∀ k u id, k ≠ i → s.tasks k = some u → u.running = some id →
      Waiting node.messageStore id) :
    Process.Sound { s with node := node, tasks := Function.update s.tasks i t' } := by
  have hsame : ∀ {k u}, k ≠ i → Function.update s.tasks i t' k = some u → s.tasks k = some u := by
    intro k u hk hu
    rwa [Function.update_of_ne hk] at hu
  have hprev : ∀ k u id, Function.update s.tasks i t' k = some u → u.running = some id →
      ∃ v, s.tasks k = some v ∧ v.running = some id := by
    intro k u id hu hid
    by_cases hk : k = i
    · subst hk
      rw [Function.update_self] at hu
      exact ⟨t, ht, (hnew u hu id hid).1⟩
    · exact ⟨u, hsame hk hu, hid⟩
  refine ⟨fun k u id hu hid => ?_, fun k l u v id hu hv hid hid' => ?_, fun k hk => ?_⟩
  · by_cases hk : k = i
    · subst hk
      simp only [Function.update_self] at hu
      exact (hnew u hu id hid).2
    · exact hold k u id hk (hsame hk hu) hid
  · obtain ⟨u', hu', hid₁⟩ := hprev k u id hu hid
    obtain ⟨v', hv', hid₂⟩ := hprev l v id hv hid'
    exact h.distinct k l u' v' id hu' hv' hid₁ hid₂
  · have hki : k ≠ i := by
      rintro rfl
      simp [h.started k hk] at ht
    simp only [Function.update_of_ne hki]
    exact h.started k hk

theorem Process.Sound.resume (h : s.Sound) {i : Nat} {t : Task} {ctx : CallContext}
    {verdict : Verdict} (ht : s.tasks i = some t)
    (hok : ReviewKept setup s (.resume i ctx verdict)) {node : Node} {t' : Option Task}
    (hcase : ResumeCase setup ctx s.node.messageStore t t' node.messageStore) :
    (∀ id, UnderReview s.node.messageStore id → UnderReview node.messageStore id) ∧
      Process.Sound { s with node := node, tasks := Function.update s.tasks i t' } := by
  generalize hm : node.messageStore = m at hcase
  cases hcase with
  | quiet hq hq' =>
    refine ⟨fun id hu => hu, h.update ht (fun u hu id hid => ?_) fun k u id _ hk hid => ?_⟩
    · simp [hq' u hu] at hid
    · rw [hm]
      exact h.running k u id hk hid
  | @pipeline _ _ id hid htouch hnext =>
    have hw := h.running i t id ht hid
    have hto := htouch hw.notEscalated
    refine ⟨fun j hu => ?_, h.update ht (fun u hu j hj => ?_) fun k u j hk hku hj => ?_⟩
    · refine hto.inboundRow ?_ hu
      rintro rfl
      exact hw.not_underReview hu
    · obtain ⟨rfl, hn⟩ := hnext hw.notEscalated u hu j hj
      rw [hm]
      exact ⟨hid, hto.waiting_self hn hw⟩
    · rw [hm]
      refine hto.inboundRow ?_ (h.running k u j hku hj)
      rintro rfl
      exact hk (h.distinct k i u t j hku ht hj hid)
  | @confirm confirm peerPubKey htask hv =>
    subst htask
    have hcond := hok _ ht hv
    refine ⟨fun j hu => hu.updateState fun r hr hd _ hs => (hcond r hr hd).1 hs,
      h.update ht (by simp) fun k u j _ hku hj => ?_⟩
    rw [hm]
    refine (h.running k u j hku hj).updateState fun r hr hd hjid _ hstate => ?_
    have hk : k < s.started := by
      by_contra hlt
      simp [h.started k (Nat.le_of_not_lt hlt)] at hku
    have hrid : r.id = j := (MessageStore.getMessage_id hr).trans hjid.symm
    exact (hcond r hr hd).2 hstate k hk (by simp [hku, hj, hrid])

theorem Process.Sound.approveMessage (h : s.Sound) (now : Int) (messageId : String)
    (action : InboundRouter.ApproveAction) :
    (∀ id, id ≠ messageId → UnderReview s.node.messageStore id → UnderReview
        (finalState ((InboundRouter.approveMessage now messageId action).run s.node)).messageStore
        id) ∧
      Process.Sound { s with
        node := finalState ((InboundRouter.approveMessage now messageId action).run s.node) } := by
  have hstore : (finalState ((InboundRouter.approveMessage now messageId action).run
      s.node)).messageStore = s.node.messageStore ∨
      (∀ r ∈ s.node.messageStore.getMessage messageId, r.state = underReviewState) ∧
        ∃ state, (finalState ((InboundRouter.approveMessage now messageId action).run
          s.node)).messageStore = s.node.messageStore.updateState now messageId state none := by
    unfold InboundRouter.approveMessage
    cases hr : s.node.messageStore.getMessage messageId with
    | none => exact .inl (by simp [hr, finalState])
    | some r =>
      by_cases hs : r.state = "escalated_to_human"
      · refine .inr ⟨?_, ?_⟩
        · intro r' hr'
          obtain rfl := Option.some.inj hr'
          exact hs
        · exact ⟨action.newState, by
            simp [-bind_pure_comp, hr, hs, Node.updateState, finalState]⟩
      · exact .inl (by simp [hr, hs, finalState])
  rcases hstore with hsame | ⟨hrow, state, hwrite⟩
  · refine ⟨fun id _ hu => hsame ▸ hu, ⟨fun i t id ht hid => ?_, h.distinct, h.started⟩⟩
    exact hsame ▸ h.running i t id ht hid
  · refine ⟨fun id hne hu => ?_, ⟨fun i t id ht hid => ?_, h.distinct, h.started⟩⟩
    · rw [hwrite]
      exact hu.updateState fun r _ _ he => absurd he hne
    · simp only [hwrite]
      refine (h.running i t id ht hid).updateState fun r hr hd _ hs => ?_
      exact absurd (hrow r hr) hs

theorem Process.Sound.step {x : ProcessLabel} (h : s.Sound) (hok : ReviewKept setup s x)
    (hs : s.step setup x = some s') :
    s'.Sound ∧ ∀ id, (∀ now action, x ≠ .approveMessage now id action) →
      UnderReview s.node.messageStore id → UnderReview s'.node.messageStore id := by
  cases x with
  | incoming ctx envelope =>
    obtain rfl := Option.some.inj hs
    have hh := h.incoming setup ctx envelope
    exact ⟨hh.2, fun id _ hu => hh.1.inboundRow hu⟩
  | resume i ctx verdict =>
    cases ht : s.tasks i with
    | none => simp [Process.step, ht] at hs
    | some t =>
      simp only [Process.step, ht, Option.map_some, Option.some.injEq] at hs
      subst hs
      have hh := h.resume ht hok (resume_case verdict t s.node)
      exact ⟨hh.2, fun id _ hu => hh.1 id hu⟩
  | approveMessage now messageId action =>
    obtain rfl := Option.some.inj hs
    have hh := h.approveMessage now messageId action
    refine ⟨hh.2, fun id hne hu => hh.1 id ?_ hu⟩
    rintro rfl
    exact hne now action rfl
  | connections store =>
    obtain rfl := Option.some.inj hs
    exact ⟨⟨h.running, h.distinct, h.started⟩, fun id _ hu => hu⟩

end Steps

theorem Process.sound_idle (node : Node) : (Process.idle node).Sound :=
  ⟨fun _ _ _ ht => (nomatch ht), fun _ _ _ _ _ ht => (nomatch ht), fun _ _ => rfl⟩

/-- A message under review stays under review until it is approved, in every run in
which no verified confirmation interferes with an inbound row. -/
theorem underReview_kept {setup : Setup} {node : Node} {before after : List ProcessLabel}
    {s t : Process} {id : String}
    (hbefore : Run (Process.step setup) (ReviewKept setup) (Process.idle node) before s)
    (hafter : Run (Process.step setup) (ReviewKept setup) s after t)
    (hreview : UnderReview s.node.messageStore id)
    (happroved : ∀ now action, .approveMessage now id action ∉ after) :
    UnderReview t.node.messageStore id := by
  have hs : s.Sound := hbefore.invariant (Process.sound_idle node)
    fun _ _ _ hi hok hstep => (hi.step hok hstep).1
  have hmain : t.Sound ∧ UnderReview t.node.messageStore id := by
    induction hafter with
    | nil => exact ⟨hs, hreview⟩
    | snoc _ hok hstep ih =>
      obtain ⟨hsound, hu⟩ := ih fun now action hmem => happroved now action (by simp [hmem])
      have hh := hsound.step hok hstep
      refine ⟨hh.1, hh.2 id ?_ hu⟩
      rintro now action rfl
      exact happroved now action (by simp)
  exact hmain.2

/-- The third identity's Ed25519 signature over the id `m` and the time zero. -/
def confirmSignature : Bytes :=
  [11, 27, 182, 39, 236, 215, 85, 151, 109, 145, 254, 245, 81, 38, 126, 186,
   89, 26, 43, 206, 220, 37, 64, 77, 12, 229, 31, 56, 34, 154, 131, 67,
   15, 62, 222, 55, 217, 148, 154, 166, 144, 178, 43, 198, 229, 101, 31, 238,
   102, 4, 214, 186, 185, 90, 155, 46, 12, 147, 28, 79, 4, 5, 149, 4]

/-- The libraries as they act on signatures over the id `m` and the time zero. -/
def confirmSetup : Setup where
  lib := { vectorLibraries with
    verifyDetached := fun signature message key =>
      if signature.length = 64 ∧ key.length = 32 then
        some (decide (signature = confirmSignature ∧ message = 109 :: List.replicate 8 0 ∧
          key = thirdKey))
      else none }
  privateKey := otherPrivateKey
  breakerConfig := {}

def reviewedMessage : MessageRecord := { forgedMessage with state := underReviewState }

def reviewNode : Node :=
  { Node.withConnections trustedStore with
    messageStore := ⟨[reviewedMessage], List.nodup_singleton _⟩ }

def confirmation (signature : Bytes) : Envelope where
  version := 1
  fromAddress := thirdAddress
  type := .deliveryConfirm
  payload := .deliveryConfirm ⟨[109], signature, 0, "read_by_agent", false⟩

def confirmRun (signature : Bytes) : List ProcessLabel :=
  [.incoming otherContext (confirmation signature), .resume 0 otherContext none]

theorem underReview_kept_badSignature :
    ∃ t, Run (Process.step confirmSetup) (ReviewKept confirmSetup) (Process.idle reviewNode)
        (confirmRun (List.replicate 64 0)) t ∧
      UnderReview t.node.messageStore "m" := by
  have h : (exec (Process.step confirmSetup) (ReviewKept confirmSetup) (Process.idle reviewNode)
      (confirmRun (List.replicate 64 0))).isSome := by decide +kernel
  obtain ⟨t, ht⟩ := Option.isSome_iff_exists.mp h
  have hreview : UnderReview (Process.idle reviewNode).node.messageStore "m" :=
    ⟨reviewedMessage, by decide +kernel, rfl, rfl⟩
  have hrun := Run.of_exec ht
  exact ⟨t, hrun, underReview_kept .nil hrun hreview (by simp [confirmRun])⟩

/-- The author's own confirmation takes the message out of review. -/
theorem confirmation_ends_review :
    UnderReview reviewNode.messageStore "m" ∧
    ∃ t r, Run (Process.step confirmSetup) (fun _ _ => True) (Process.idle reviewNode)
        (confirmRun confirmSignature) t ∧
      t.node.messageStore.getMessage "m" = some r ∧ r.direction = .inbound ∧
      r.connectionAddress = thirdAddress ∧ r.state = "read_by_agent" := by
  have h : (exec (Process.step confirmSetup) (fun _ _ => True) (Process.idle reviewNode)
      (confirmRun confirmSignature)).map (fun t => t.node.messageStore.getMessage "m") =
      some (some { reviewedMessage with state := "read_by_agent" }) := by decide +kernel
  obtain ⟨t, ht, hrow⟩ := Option.map_eq_some_iff.mp h
  exact ⟨⟨reviewedMessage, by decide +kernel, rfl, rfl⟩, t, _, Run.of_exec ht, hrow, rfl, rfl, rfl⟩

end Pinch
