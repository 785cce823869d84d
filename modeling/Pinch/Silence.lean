import Pinch.Unobserved

/-! To whom the agent answers. A message that opens is confirmed to the address it names as its
sender, and nothing on the way there asks whether that address has an active connection. -/

namespace Pinch

open CircuitBreaker EnforcementPipeline MessageManager Transition

def ConnectionStore.Active (s : ConnectionStore) (p : String) : Prop :=
  (s.getConnection p).map (·.state) = some .active

instance (s : ConnectionStore) (p : String) : Decidable (s.Active p) :=
  inferInstanceAs (Decidable (_ = _))

/-- Whom a call that is in progress will answer. -/
def Task.recipient : Task → Option String
  | .processing _ senderAddress _ => some senderAddress
  | .signing _ senderAddress _ => some senderAddress
  | .verifying .. => none

namespace Process

def Owes (s : Process) (p : String) : Prop :=
  ∃ k, ∃ t ∈ s.tasks k, t.recipient = some p

/-- Only messages from active connections can be opened, and no connection stops being active
while an answer to it is under way. -/
def Welcomes (setup : Setup) (s : Process) : HandlerLabel → Prop
  | .input (.incoming ctx envelope) =>
    (envelope.type = .message → envelope.Readable setup s.node.messageStore →
      s.node.connectionStore.Active envelope.fromAddress) ∧
    ∀ p, s.Owes p → (s.node.receive ctx envelope).connectionStore.Active p
  | .input (.resume ..) => True
  | .other node => ∀ p, s.Owes p → node.connectionStore.Active p

end Process

section Answers

variable {setup : Setup} {ctx : CallContext} {n : Node} {envelope : Envelope}

theorem stable_active (config : CircuitBreakerConfig) (p : String) :
    Stable config fun n => n.connectionStore.Active p := by
  refine .of_connectionStore (Φ := fun store => store.Active p)
    fun now address type n n' hrec h => ?_
  rw [ConnectionStore.Active, hrec.getConnection]
  split
  · simpa [ConnectionStore.Active, Connection.afterTrip_eq] using h
  · exact h

theorem active_dispatch {p : String} (h : n.connectionStore.Active p) :
    (finalState ((dispatch setup ctx envelope).run n)).connectionStore.Active p := by
  have hkeeps : Keeps (fun n : Node => n.connectionStore.Active p) (dispatch setup ctx envelope) :=
    (stable_active setup.breakerConfig p).quiet.dispatch fun _ message _ _ =>
      saveMessage_connections (Φ := fun store => store.Active p) message
  exact hkeeps.finalState h

theorem active_resume {p : String} {verdict : Verdict} {t : Task}
    (h : n.connectionStore.Active p) :
    (finalState ((MessageManager.resume setup ctx verdict t).run n)).connectionStore.Active p :=
  ((stable_active setup.breakerConfig p).resume verdict t).finalState h

theorem saveMessage_outbox (outbox : List Envelope) (message : MessageRecord) :
    Keeps (fun n : Node => n.outbox = outbox) (Node.saveMessage message) := by
  refine Spec.read_bind fun n => ?_
  split
  · exact Spec.modify fun _ h => h
  · exact Spec.throw fun _ h => h

theorem outbox_dispatch (setup : Setup) (ctx : CallContext) (envelope : Envelope) (n : Node) :
    (finalState ((dispatch setup ctx envelope).run n)).outbox = n.outbox := by
  have hkeeps : Keeps (fun m : Node => m.outbox = n.outbox) (dispatch setup ctx envelope) :=
    (Quiet.of_outbox (· = n.outbox) setup.breakerConfig).dispatch fun _ message _ _ =>
      saveMessage_outbox n.outbox message
  exact hkeeps.finalState rfl

/-- What is put out, and to whom. -/
def Sends (t : Task) (n n' : Node) : Prop :=
  ∃ sent, n'.outbox = n.outbox ++ sent ∧ ∀ e ∈ sent, t.recipient = some e.toAddress

theorem sends_nothing {t : Task} {n' : Node} (h : n'.outbox = n.outbox) : Sends t n n' :=
  ⟨[], by simp [h], by simp⟩

theorem resume_sends (setup : Setup) (ctx : CallContext) (verdict : Verdict) (t : Task) (n : Node) :
    Sends t n (finalState ((MessageManager.resume setup ctx verdict t).run n)) := by
  have hquiet := Quiet.of_outbox (· = n.outbox) setup.breakerConfig
  cases t with
  | processing message address stage =>
    refine sends_nothing ?_
    have hkeeps : Keeps (fun m : Node => m.outbox = n.outbox)
        (MessageManager.resume setup ctx verdict (.processing message address stage)) := by
      cases hf : stage.finished with
      | true =>
        cases stage with
        | done routed => exact Spec.pure fun _ h => h
        | _ => simp [Stage.finished] at hf
      | false =>
        rw [resume_unfinished hf]
        exact Spec.bind (hquiet.pipeline verdict stage) fun _ => Spec.pure fun _ h => h
    exact hkeeps.finalState rfl
  | signing messageId address timestamp =>
    have hspec : Spec (fun m => m = n) (sendSigned setup ctx messageId address timestamp)
        (fun _ => Sends (.signing messageId address timestamp) n)
        (fun _ => Sends (.signing messageId address timestamp) n) := by
      refine Spec.bind (R := fun _ m => m = n) (orThrow_rule (fun _ _ _ h => h)
        fun m _ hm => sends_nothing (hm ▸ rfl)) fun signature => ?_
      split
      · by_cases hc : ctx.connected = true
        · rw [MessageManager.sendEnvelope, if_pos hc]
          rintro m rfl
          exact ⟨_, rfl, by simp [Task.recipient, confirmEnvelope]⟩
        · rw [MessageManager.sendEnvelope, if_neg hc]
          rintro m rfl
          exact sends_nothing rfl
      · exact Spec.pure fun m hm => sends_nothing (hm ▸ rfl)
    exact hspec.finalState rfl
  | verifying confirm peerPubKey =>
    refine sends_nothing ?_
    have hkeeps : Keeps (fun m : Node => m.outbox = n.outbox)
        (applyConfirmation setup ctx confirm peerPubKey) := by
      refine Spec.bind (orThrow_keeps _) fun valid => ?_
      split
      · exact Spec.bind (hquiet.updateState _ _ _ _) fun _ => Spec.pure fun _ h => h
      · exact Spec.pure fun _ h => h
    exact hkeeps.finalState rfl

theorem recipient_eq_some {t : Task} {p : String} (h : t.recipient = some p) :
    ∃ id, t.awaits = .confirming id p := by
  cases t with
  | processing message address stage => exact ⟨message.id, by simp_all [Task.recipient, Task.awaits]⟩
  | signing messageId address timestamp => exact ⟨messageId, by simp_all [Task.recipient, Task.awaits]⟩
  | verifying => cases h

/-- A call that will answer is one for a message that has been opened. -/
theorem dispatch_recipient {t : Task} {p : String}
    (ht : t ∈ (returned ((dispatch setup ctx envelope).run n)).join) (hp : t.recipient = some p) :
    envelope.type = .message ∧ envelope.Readable setup n.messageStore ∧
      envelope.fromAddress = p := by
  have hrun := eq_ok_of_returned (Option.join_eq_some_iff.1 ht)
  have hreadable := (returns_messages setup ctx n envelope).1 ⟨_, _, hrun⟩
  have hleft := ((dispatch_view setup ctx envelope n.view).ok rfl hrun).awaits
  obtain ⟨id, hid⟩ := recipient_eq_some hp
  rw [Option.map_some, hid] at hleft
  unfold View.task at hleft
  split at hleft
  · rename_i htype
    cases hleft
    exact ⟨htype, hreadable, rfl⟩
  · split at hleft
    · simp at hleft
    · cases hleft
  · cases hleft

theorem keeps_true {α : Type} (x : NodeOp α) : Keeps (fun _ : Node => True) x := by
  intro n _
  cases x.run n <;> trivial

/-- What is left of a call goes to the same address. -/
theorem resume_recipient {verdict : Verdict} {t u : Task}
    (hu : u ∈ (returned ((MessageManager.resume setup ctx verdict t).run n)).join) :
    u.recipient = t.recipient := by
  have hnone (m : Node) (_ : True) : ∀ u ∈ (none : Option Task), u.recipient = t.recipient := by simp
  have hspec : Spec (fun _ => True) (MessageManager.resume setup ctx verdict t)
      (fun next _ => ∀ u ∈ next, u.recipient = t.recipient) (fun _ _ => True) := by
    cases t with
    | processing message address stage =>
      cases hf : stage.finished with
      | true =>
        cases stage with
        | done routed =>
          refine Spec.pure fun _ _ => ?_
          rintro _ ⟨⟩
          rfl
        | _ => simp [Stage.finished] at hf
      | false =>
        rw [resume_unfinished hf]
        refine Spec.bind (keeps_true _) fun _ => Spec.pure fun _ _ => ?_
        rintro _ ⟨⟩
        rfl
    | signing messageId address timestamp =>
      refine Spec.bind (keeps_true _) fun signature => ?_
      split
      · exact Spec.bind (keeps_true _) fun _ => Spec.pure hnone
      · exact Spec.pure hnone
    | verifying confirm peerPubKey =>
      refine Spec.bind (keeps_true _) fun valid => ?_
      split
      · exact Spec.bind (keeps_true _) fun _ => Spec.pure hnone
      · exact Spec.pure hnone
  exact hspec.ok trivial (eq_ok_of_returned (Option.join_eq_some_iff.1 hu)) u rfl

end Answers

namespace Process

variable {setup : Setup} {s s' : Process}

/-- Every answer that is under way goes to an active connection. -/
def Polite (s : Process) : Prop := ∀ p, s.Owes p → s.node.connectionStore.Active p

/-- One task is replaced by what is left of it. -/
theorem Polite.update {node : Node} {next : Option Task} {k started : ℕ}
    (hkept : ∀ p, s.Owes p → node.connectionStore.Active p)
    (hnext : ∀ t ∈ next, ∀ p, t.recipient = some p → node.connectionStore.Active p) :
    Polite ⟨node, Function.update s.tasks k next, started⟩ := by
  rintro p ⟨j, t, ht, hp⟩
  change t ∈ Function.update s.tasks k next j at ht
  by_cases hj : j = k
  · subst hj
    rw [Function.update_self] at ht
    exact hnext t ht p hp
  · rw [Function.update_of_ne hj] at ht
    exact hkept p ⟨j, t, ht, hp⟩

theorem polite_handle {x : HandlerLabel} (h : s.Polite) (hx : s.Welcomes setup x)
    (hs : s.handle setup x = some s') : s'.Polite := by
  cases x with
  | input x =>
    cases x with
    | incoming ctx envelope =>
      obtain rfl := Option.some.inj hs
      obtain ⟨hwelcome, hkept⟩ := hx
      refine Polite.update (s := s) (fun p hp => active_dispatch (hkept p hp)) fun t ht p hp => ?_
      obtain ⟨htype, hreadable, rfl⟩ := dispatch_recipient ht hp
      have hactive := hwelcome htype hreadable
      have hsame : (s.node.receive ctx envelope).connectionStore.getConnection
          envelope.fromAddress = s.node.connectionStore.getConnection envelope.fromAddress := by
        have hget : (s.node.receive ctx envelope).connectionStore.getConnection
            envelope.fromAddress = _ :=
          getConnection_incoming ctx s.node.toAgent envelope envelope.fromAddress
        rw [hget]
        simp [incomingEffect, htype, RecordEffect.apply]
      refine active_dispatch ?_
      rw [ConnectionStore.Active, hsame]
      exact hactive
    | resume task ctx verdict =>
      obtain ⟨t, ht, rfl⟩ := Option.map_eq_some_iff.1 hs
      refine Polite.update (s := s) (fun p hp => active_resume (h p hp)) fun u hu p hp => ?_
      rw [resume_recipient hu] at hp
      exact active_resume (h p ⟨task, t, ht, hp⟩)
  | other node =>
    obtain rfl := Option.some.inj hs
    exact hx

/-- What a step of the handlers sends goes to addresses that calls in progress owe an answer. -/
theorem input_sends {x : InputLabel} (hs : s.input setup x = some s') :
    ∃ sent, s'.node.outbox = s.node.outbox ++ sent ∧ ∀ e ∈ sent, s.Owes e.toAddress := by
  cases x with
  | incoming ctx envelope =>
    obtain rfl := Option.some.inj hs
    refine ⟨[], ?_, by simp⟩
    rw [List.append_nil]
    exact (outbox_dispatch setup ctx envelope _).trans (outbox_incoming ctx s.node.toAgent envelope)
  | resume task ctx verdict =>
    obtain ⟨t, ht, rfl⟩ := Option.map_eq_some_iff.1 hs
    obtain ⟨sent, houtbox, hto⟩ := resume_sends setup ctx verdict t s.node
    exact ⟨sent, houtbox, fun e he => ⟨task, t, ht, hto e he⟩⟩

end Process

/-- As long as only messages of active connections can be opened, and no connection stops being
active before it is answered, everything that the handlers send goes to active connections. But
any message that opens is answered, whatever the store says about its sender. -/
theorem replies_only_to_active {setup : Setup} (hsign : setup.SignsByKey) :
    (∀ node l s x s', Run (Process.handle setup) (Process.Welcomes setup) (.idle node) l s →
      s.input setup x = some s' → ∃ sent, s'.node.outbox = s.node.outbox ++ sent ∧
        ∀ e ∈ sent, s.node.connectionStore.Active e.toAddress) ∧
    ∀ (n : Node) (w : Handling) (e : Envelope) (own : String), e.type = .message →
      e.Readable setup n.messageStore → w.ctx.own = some own → w.ctx.connected = true →
      (setup.lib.signDetached [] setup.privateKey).isSome = true →
      ∃ m, (Node.handle setup w e).run n = .ok () m ∧ m.outbox.map (·.untimed) =
        n.outbox.map (·.untimed) ++
          [confirmEnvelope own e.fromAddress (textEncode (textDecode e.messageId)) [] 0] := by
  refine ⟨fun node l s x s' hrun hs => ?_, fun n w e own htype hreadable hown hconnected hkey => ?_⟩
  · have hpolite : s.Polite := by
      refine hrun.invariant (P := Process.Polite) ?_ fun _ _ _ h hx hs =>
        Process.polite_handle h hx hs
      rintro p ⟨k, t, ht, -⟩
      cases ht
    obtain ⟨sent, houtbox, howes⟩ := Process.input_sends hs
    exact ⟨sent, houtbox, fun e he => hpolite _ (howes e he)⟩
  · exact handle_confirms hsign hown ⟨hkey, fun _ => hconnected⟩ htype hreadable

/-- The greeting of the trusted peer, up to the confirmation. -/
def welcomed : List HandlerLabel :=
  [.input (.incoming otherContext sentEnvelope), .input (.resume 0 otherContext none),
    .input (.resume 0 otherContext none)]

theorem replies_only_to_active_greeting : ∃ s s' sent,
    Run (Process.handle greetingSetup) (Process.Welcomes greetingSetup)
      (.idle (.withConnections peerStore)) welcomed s ∧
    s.input greetingSetup (.resume 0 otherContext none) = some s' ∧
    s'.node.outbox = s.node.outbox ++ sent ∧ sent.length = 1 ∧
    ∀ e ∈ sent, s.node.connectionStore.Active e.toAddress := by
  have hsign : greetingSetup.SignsByKey := fun _ => rfl
  have hactive : peerStore.Active vectorAddress := by decide +kernel
  have hlengths : (exec (Process.handle greetingSetup) (fun _ _ => True)
      (.idle (.withConnections peerStore)) welcomed).bind (fun s =>
        (s.input greetingSetup (.resume 0 otherContext none)).map fun s' =>
          (s.node.outbox.length, s'.node.outbox.length)) = some (0, 1) := by decide +kernel
  obtain ⟨s, hs, hinput⟩ := Option.bind_eq_some_iff.1 hlengths
  obtain ⟨s', hs', hlength⟩ := Option.map_eq_some_iff.1 hinput
  simp only [exec, welcomed, if_true] at hs
  obtain ⟨s₁, h₁, hs⟩ := Option.bind_eq_some_iff.1 hs
  obtain ⟨s₂, h₂, hs⟩ := Option.bind_eq_some_iff.1 hs
  obtain ⟨s₃, h₃, ⟨⟩⟩ := Option.bind_eq_some_iff.1 hs
  have hwelcome : (Process.idle (.withConnections peerStore)).Welcomes greetingSetup
      (.input (.incoming otherContext sentEnvelope)) := by
    refine ⟨fun _ _ => hactive, ?_⟩
    rintro p ⟨k, t, ht, -⟩
    cases ht
  have hgoesOn (t : Process) :
      t.Welcomes greetingSetup (.input (.resume 0 otherContext none)) := trivial
  have hrun := Run.snoc (Run.snoc (Run.snoc .nil hwelcome h₁) (hgoesOn _) h₂) (hgoesOn _) h₃
  obtain ⟨sent, houtbox, hto⟩ := (replies_only_to_active hsign).1 _ _ _ _ _ hrun hs'
  obtain ⟨hbefore, hafter⟩ := Prod.mk.inj hlength
  rw [houtbox, List.length_append, hbefore, Nat.zero_add] at hafter
  exact ⟨_, _, sent, hrun, hs', houtbox, hafter, hto⟩

/-- The greeting, opened and answered. -/
def greetingAnswered : List HandlerLabel :=
  .input (.incoming otherContext sentEnvelope) ::
    List.replicate 3 (.input (.resume 0 otherContext none))

def greetingConfirmation : Envelope :=
  confirmEnvelope "pinch:other@relay" vectorAddress (textEncode sentId) greetingSignature 0

/-- A stranger gets a signed confirmation. -/
theorem stranger_answered : ∃ t, Run (Process.handle greetingSetup) (fun _ _ => True)
      (.idle (.withConnections ∅)) greetingAnswered t ∧
    t.node.connectionStore.getConnection vectorAddress = none ∧
    t.node.outbox = [greetingConfirmation] := by
  have h : (exec (Process.handle greetingSetup) (fun _ _ => True) (.idle (.withConnections ∅))
      greetingAnswered).map (fun t => (t.node.connectionStore.getConnection vectorAddress,
        t.node.outbox)) = some (none, [greetingConfirmation]) := by decide +kernel
  obtain ⟨t, ht, heq⟩ := Option.map_eq_some_iff.1 h
  obtain ⟨hnone, houtbox⟩ := Prod.mk.inj heq
  exact ⟨t, Run.of_exec ht, hnone, houtbox⟩

end Pinch
