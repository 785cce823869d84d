import Pinch.MessageHistory

/-! Invariants of an agent that speak of its message table and of the work under way in the tool
that is running. A tool starts without work, its command stores messages, and incoming envelopes
and answers go through the handlers. -/

namespace Pinch

open EnforcementPipeline MessageManager Transition

variable {Φ : MessageStore → Prop} {Ψ : MessageStore → Task → Prop}

/-- What a part of a call leaves: the table, and the work that remains. -/
def Leaves (Φ : MessageStore → Prop) (Ψ : MessageStore → Task → Prop) (task : Option Task)
    (n : Node) : Prop :=
  Φ n.messageStore ∧ ∀ t ∈ task, Ψ n.messageStore t

theorem leaves_none {n : Node} (h : Φ n.messageStore) : Leaves Φ Ψ none n := ⟨h, by simp⟩

/-- Work under way is about rows whose content stays. -/
def Lasting (Ψ : MessageStore → Task → Prop) : Prop :=
  ∀ s t task, s.history <+: t.history → Ψ s task → Ψ t task

section Handlers

variable {setup : Setup} {ctx : CallContext} {envelope : Envelope} {P : Node → Prop}
  {R : MessageRecord → Node → Prop}

/-- The handler of a message, from what storing it does and what the pipeline does then. -/
theorem handleIncomingMessage_rule (hP : ∀ n, P n → Φ n.messageStore)
    (hsave : ∀ message n store, message.connectionAddress = envelope.fromAddress →
      message.direction = .inbound → P n → n.messageStore.saveMessage message = .ok store →
      R message { n with messageStore := store })
    (hprocess : ∀ message, Spec (R message) (process ctx.now message envelope.fromAddress)
      (fun stage => Leaves Φ Ψ (some (.processing message envelope.fromAddress stage)))
      fun _ n => Φ n.messageStore) :
    Spec P (handleIncomingMessage setup ctx envelope) (Leaves Φ Ψ) fun _ n => Φ n.messageStore := by
  have hthrow {α : Type} (error : String) (o : Option α) :
      Spec P (orThrow error o) (fun _ => P) fun _ n => Φ n.messageStore :=
    (orThrow_keeps o).conseq (fun _ h => h) (fun _ _ h => h) fun _ n h => hP n h
  unfold handleIncomingMessage
  split
  · refine Spec.bind (R := fun _ => P) ?_ fun plaintext => ?_
    · refine Spec.bind (hthrow _ _) fun _ => Spec.bind (hthrow _ _) fun _ => ?_
      exact Spec.bind (hthrow _ _) fun _ => hthrow _ _
    refine Spec.bind (hthrow _ _) fun body => ?_
    generalize hmessage : inboundMessage ctx envelope.fromAddress (textDecode envelope.messageId)
      plaintext (readContent setup.lib plaintext) body = message
    refine Spec.bind (R := fun _ => R message) ?_ fun _ =>
      Spec.bind (hprocess message) fun _ => Spec.pure fun _ h => h
    intro n hn
    refine (saveMessage_spec message).conseq (fun _ h => h) ?_ ?_ n rfl
    · rintro _ _ ⟨store, hstore, rfl⟩
      exact hsave message n store (hmessage ▸ rfl) (hmessage ▸ rfl) hn hstore
    · rintro _ _ rfl
      exact hP _ hn
  · exact Spec.throw hP

/-- The handler of an envelope, from that of a message. A confirmation is only looked at. -/
theorem dispatch_rule (hP : ∀ n, P n → Φ n.messageStore)
    (hflush : ∀ n flush, P n → P { n with flush := flush })
    (hmessage : envelope.type = .message → Spec P (handleIncomingMessage setup ctx envelope)
      (Leaves Φ Ψ) fun _ n => Φ n.messageStore)
    (hconfirm : envelope.type = .deliveryConfirm → ∀ n confirm key, P n →
      envelope.payload = .deliveryConfirm confirm →
      n.connectionStore.getPeerPublicKey setup.lib.sha256 envelope.fromAddress = some key →
      Ψ n.messageStore (.verifying confirm key)) :
    Spec P (dispatch setup ctx envelope) (Leaves Φ Ψ) fun _ n => Φ n.messageStore := by
  have hnone : Spec P (pure none : NodeOp (Option Task)) (Leaves Φ Ψ) fun _ n => Φ n.messageStore :=
    Spec.pure fun n hn => leaves_none (hP n hn)
  refine Spec.bind (R := fun _ => P) (Spec.modify fun n hn => ?_) fun _ => ?_
  · simp only
    split
    · exact hflush _ _ hn
    · exact hn
  split
  · rename_i htype
    exact hmessage htype
  · rename_i htype
    unfold handleDeliveryConfirmation
    split
    · rename_i confirm hpayload
      refine Spec.get_bind fun n => ?_
      split
      · exact hnone.conseq (fun _ h => h.2) (fun _ _ h => h) fun _ _ h => h
      · split
        · exact hnone.conseq (fun _ h => h.2) (fun _ _ h => h) fun _ _ h => h
        · rename_i key hkey
          refine Spec.pure ?_
          rintro _ ⟨rfl, hn⟩
          refine ⟨hP _ hn, ?_⟩
          rintro _ ⟨⟩
          exact hconfirm htype _ confirm key hn hpayload hkey
    · exact Spec.throw hP
  · unfold handleQueueStatus
    split
    · exact Spec.bind (R := fun _ => P) (Spec.modify fun n hn => hflush n _ hn) fun _ => hnone
    · exact hnone
  · exact hnone

/-- A part of a call: a pipeline goes on, a confirmation is due, or one is applied. -/
theorem resume_rule {n : Node} {task : Task} {verdict : Verdict} (h : Φ n.messageStore)
    (hdone : ∀ message address routed, task = .processing message address (.done routed) →
      Ψ n.messageStore (.signing message.id address ctx.now))
    (hpipeline : ∀ message address stage, task = .processing message address stage →
      stage.finished = false → Spec (· = n)
        (EnforcementPipeline.resume setup.breakerConfig ctx.now message address verdict stage)
        (fun next => Leaves Φ Ψ (some (.processing message address next)))
        fun _ n => Φ n.messageStore)
    (hverified : ∀ confirm key, task = .verifying confirm key →
      verifyDeliveryConfirmation setup confirm key = some true →
      Φ (n.messageStore.updateState ctx.now (textDecode confirm.messageId) confirm.state none)) :
    Spec (· = n) (MessageManager.resume setup ctx verdict task) (Leaves Φ Ψ)
      fun _ n => Φ n.messageStore := by
  cases task with
  | processing message address stage =>
    cases hf : stage.finished with
    | true =>
      cases stage with
      | done routed =>
        rintro _ rfl
        refine ⟨h, ?_⟩
        rintro _ ⟨⟩
        exact hdone message address routed rfl
      | _ => simp [Stage.finished] at hf
    | false =>
      rw [resume_unfinished hf]
      exact Spec.bind (hpipeline message address stage rfl hf) fun _ => Spec.pure fun _ h => h
  | signing messageId address timestamp =>
    rintro _ rfl
    refine (sendSigned_keeps setup ctx messageId address timestamp).conseq (fun _ h => h) ?_ ?_ _ rfl
    · rintro _ m ⟨rfl, hm⟩
      exact leaves_none (hm ▸ h)
    · rintro _ m hm
      rwa [hm]
  | verifying confirm peerPubKey =>
    rintro _ rfl
    rw [MessageManager.resume, applyConfirmation]
    cases hverify : verifyDeliveryConfirmation setup confirm peerPubKey with
    | none => exact h
    | some valid =>
      cases valid with
      | false => exact leaves_none h
      | true => exact leaves_none (hverified confirm peerPubKey rfl hverify)

end Handlers

namespace Process

variable {setup : Setup} {s s' : Process} {x : InputLabel}

structure Holds (Φ : MessageStore → Prop) (Ψ : MessageStore → Task → Prop) (s : Process) :
    Prop where
  store : Φ s.node.messageStore
  tasks : ∀ i task, s.tasks i = some task → Ψ s.node.messageStore task

theorem Holds.update (h : s.Holds Φ Ψ) (hlasting : Lasting Ψ) {i k : Nat} {node : Node}
    {t : Option Task} (hleaves : Leaves Φ Ψ t node)
    (hgrows : s.node.messageStore.history <+: node.messageStore.history) :
    Holds Φ Ψ ⟨node, Function.update s.tasks i t, k⟩ := by
  refine ⟨hleaves.1, fun j task htask => ?_⟩
  dsimp only at htask ⊢
  by_cases hj : j = i
  · subst hj
    rw [Function.update_self] at htask
    exact hleaves.2 task htask
  · rw [Function.update_of_ne hj] at htask
    exact hlasting _ _ task hgrows (h.tasks j task htask)

/-- The handlers keep the invariant on the node as it is. -/
def Handles (setup : Setup) (Φ : MessageStore → Prop) (Ψ : MessageStore → Task → Prop)
    (s : Process) : InputLabel → Prop
  | .incoming ctx envelope => Spec (· = s.node.receive ctx envelope) (dispatch setup ctx envelope)
      (Leaves Φ Ψ) fun _ n => Φ n.messageStore
  | .resume task ctx verdict => ∀ t, s.tasks task = some t →
      Spec (· = s.node) (MessageManager.resume setup ctx verdict t) (Leaves Φ Ψ)
        fun _ n => Φ n.messageStore

theorem Holds.input (h : s.Holds Φ Ψ) (hlasting : Lasting Ψ) (hx : s.Handles setup Φ Ψ x)
    (hs : s.input setup x = some s') : s'.Holds Φ Ψ := by
  have hgrows : s.node.messageStore.history <+: s'.node.messageStore.history :=
    Journal.Reaches.grows (input_journal (i := s.node.journal ∅) hs .refl)
  cases x with
  | incoming ctx envelope =>
    obtain rfl := Option.some.inj hs
    have hspec := hx _ rfl
    refine h.update hlasting ?_ hgrows
    revert hspec
    cases (dispatch setup ctx envelope).run (s.node.receive ctx envelope) with
    | ok t n => exact id
    | error e n => exact leaves_none
  | resume task ctx verdict =>
    obtain ⟨t, ht, rfl⟩ := Option.map_eq_some_iff.1 hs
    have hspec := hx t ht _ rfl
    refine h.update hlasting ?_ hgrows
    revert hspec
    cases (MessageManager.resume setup ctx verdict t).run s.node with
    | ok t n => exact id
    | error e n => exact leaves_none

end Process

namespace Host

variable {setup : HostSetup} {s s' : Host} {x : HostLabel}

structure Holds (Φ : MessageStore → Prop) (Ψ : MessageStore → Task → Prop) (s : Host) : Prop where
  store : Φ s.journal.messageStore
  process : ∀ t ∈ s.running, t.process.Holds Φ Ψ

theorem Holds.step (h : s.Holds Φ Ψ) (hlasting : Lasting Ψ)
    (hposts : ∀ i j : Journal, i.Posts j → Φ i.messageStore → Φ j.messageStore)
    (hinput : ∀ y t, x = .input y → s.running = some t → t.process.Handles setup.receive Φ Ψ y)
    (hs : s.step setup x = some s') : s'.Holds Φ Ψ := by
  cases x with
  | invoke tool =>
    rw [Host.step] at hs
    split at hs
    · rename_i hrunning
      obtain rfl := Option.some.inj hs
      have hstore : Φ s.database.messageStore := by simpa [journal, hrunning] using h.store
      refine ⟨hstore, ?_⟩
      rintro _ ⟨⟩
      exact ⟨hstore, by simp [Process.idle]⟩
    · cases hs
  | command ctx =>
    obtain ⟨t, ht, -, rfl⟩ := command_eq_some hs
    have hrun := runCommand_posts setup ctx t
    have hstore := hposts _ _ hrun (h.process t ht).store
    refine ⟨hstore, ?_⟩
    rintro _ ⟨⟩
    refine ⟨hstore, fun i task htask => ?_⟩
    have hgrows := Journal.Reaches.grows
      (Relation.ReflTransGen.mono (fun _ _ h => Journal.Write.post h) _ _ hrun)
    exact hlasting _ _ task hgrows ((h.process t ht).tasks i task htask)
  | input x =>
    obtain ⟨t, process, ht, hprocess, rfl⟩ := input_eq_some hs
    have hnext := (h.process t ht).input hlasting (hinput x t rfl ht) hprocess
    refine ⟨hnext.store, ?_⟩
    rintro _ ⟨⟩
    exact hnext
  | save =>
    obtain ⟨t, ht, rfl⟩ := Option.map_eq_some_iff.1 hs
    exact ⟨h.store, h.process⟩
  | exit =>
    obtain ⟨t, ht, rfl⟩ := Option.map_eq_some_iff.1 hs
    exact ⟨(h.process t ht).store, by simp⟩

end Host

end Pinch
