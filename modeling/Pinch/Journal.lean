import Pinch.FailedCalls
import Pinch.Passthrough

/-! The messages of one agent over all its tools. Whatever the tools, the relay and the policy
evaluator do, the tables of the database and the list of envelopes that were handed over change
only by the few writes listed here, and what holds of the history is read off that list. -/

namespace Pinch

open CircuitBreaker ConnectionManager MessageManager Transition

/-- The tables of the database, and what the running tool has handed to the relay connection. -/
structure Journal where
  messageStore : MessageStore
  activityFeed : List ActivityEvent
  sequences : AList fun _ : String => Nat
  outbox : List Envelope

namespace Journal

def counter (j : Journal) (p : String) : Nat := (j.sequences.lookup p).getD 1

/-- The number that the next message to the connection gets. -/
def number (j : Journal) (p : String) : Nat := toDouble (toDouble (j.counter p + 1) - 1)

def counted (j : Journal) (p : String) : Journal :=
  { j with sequences := j.sequences.insert p (j.counter p + 1) }

/-- The writes of the tools themselves. -/
inductive Post : Journal → Journal → Prop
  | activity (j : Journal) (event : ActivityEvent) :
    Post j { j with activityFeed := j.activityFeed ++ [event] }
  /-- A number is taken for a message that is not stored. -/
  | count (j : Journal) (p : String) : Post j (j.counted p)
  /-- A message is stored under the number taken for it. Its envelope is handed over afterwards,
  unless the connection is gone. -/
  | record {j : Journal} {message : MessageRecord} {store : MessageStore} (sent : Option Envelope)
    (hdirection : message.direction = .outbound) (hstate : message.state = "sent")
    (hid : ∀ c ∈ message.id.toList, c ∈ uuidAlphabet)
    (hsequence : message.sequence = j.number message.connectionAddress)
    (hstore : j.messageStore.saveMessage message = .ok store)
    (hsent : ∀ e ∈ sent, e.type = .message ∧ e.messageId = textEncode message.id ∧
      e.toAddress = message.connectionAddress) :
    Post j { j.counted message.connectionAddress with
      messageStore := store
      outbox := j.outbox ++ sent.toList }
  | notify {j : Journal} {sent : List Envelope} (h : ∀ e ∈ sent, e.type ≠ .message) :
    Post j { j with outbox := j.outbox ++ sent }

inductive Write : Journal → Journal → Prop
  | post {i j : Journal} (h : Post i j) : Write i j
  | updateState (j : Journal) (now : Int) (id state : String) (reason : Option String) :
    Write j { j with messageStore := j.messageStore.updateState now id state reason }
  | receive {j : Journal} {message : MessageRecord} {store : MessageStore}
    (hdirection : message.direction = .inbound)
    (hstore : j.messageStore.saveMessage message = .ok store) :
    Write j { j with messageStore := store }

abbrev Posts : Journal → Journal → Prop := Relation.ReflTransGen Post

abbrev Reaches : Journal → Journal → Prop := Relation.ReflTransGen Write

end Journal

def Node.journal (n : Node) (sequences : AList fun _ : String => Nat) : Journal :=
  ⟨n.messageStore, n.activityFeed, sequences, n.outbox⟩

def Sender.journal (s : Sender) : Journal := s.toNode.journal s.sequences

def Host.journal (s : Host) : Journal :=
  match s.running with
  | some t => t.process.node.journal t.sequences
  | none => ⟨s.database.messageStore, s.database.activityFeed, s.database.sequences, []⟩

/-! ### Every step is made of these writes -/

section Handlers

variable {i : Journal} {sequences : AList fun _ : String => Nat} {setup : Setup}
  {ctx : CallContext}

/-- The breaker writes one line of the feed at most. -/
theorem recordEvent_journal (config : CircuitBreakerConfig) (now : Int) (address type : String) :
    Keeps (fun n : Node => i.Reaches (n.journal sequences))
      (recordEvent config now address type) := by
  intro n hn
  have hfeed := @recordAt_recorded config address type ⟨now, now, now, now⟩ n
  rw [recordAt_const] at hfeed
  have houtbox := @recordEvent_outbox config now address type (· = n.outbox)
  have hreaches : ∀ n', RecordedAt config ⟨now, now, now, now⟩ address type n n' →
      n'.outbox = n.outbox → i.Reaches (n'.journal sequences) := by
    intro n' hrec ho
    have hactivity := hrec.activityFeed
    split at hactivity
    · obtain ⟨event, -, hevent⟩ := hactivity
      have hjournal : n'.journal sequences = { n.journal sequences with
          activityFeed := (n.journal sequences).activityFeed ++ [event] } := by
        simp [Node.journal, hrec.messageStore, hevent, ho]
      exact hjournal ▸ hn.tail (.post (.activity _ event))
    · have hjournal : n'.journal sequences = n.journal sequences := by
        simp [Node.journal, hrec.messageStore, hactivity, ho]
      exact hjournal ▸ hn
  refine (hfeed.and houtbox).conseq (fun m hm => ?_) (fun _ m hm => ?_) (fun _ m hm => ?_) n rfl
  · rw [hm]
    exact ⟨rfl, rfl⟩
  · exact hreaches m hm.1 hm.2
  · exact hreaches m hm.1.1 hm.2

theorem quiet_journal (config : CircuitBreakerConfig) :
    Quiet config fun n => i.Reaches (n.journal sequences) where
  updateState now id state reason := Spec.modify fun _ hn =>
    hn.tail (.updateState _ now id state reason)
  recordActivity _ _ := Spec.modify fun _ hn => hn.tail (.post (.activity _ _))
  recordEvent := recordEvent_journal config
  flush _ _ hn := hn

theorem saveMessage_journal {message : MessageRecord} (h : message.direction = .inbound) :
    Keeps (fun n : Node => i.Reaches (n.journal sequences)) (Node.saveMessage message) := by
  intro n hn
  refine (saveMessage_spec message).conseq (fun _ h => h) ?_ ?_ n rfl
  · rintro _ _ ⟨store, hstore, rfl⟩
    exact hn.tail (.receive (j := n.journal sequences) h hstore)
  · rintro _ _ rfl
    exact hn

theorem sendSigned_journal (messageId address : String) (timestamp : Int) :
    Keeps (fun n : Node => i.Reaches (n.journal sequences))
      (sendSigned setup ctx messageId address timestamp) := by
  refine Spec.bind (orThrow_keeps _) fun signature => ?_
  split
  · rename_i own _
    refine Spec.bind (R := fun _ n => i.Reaches (n.journal sequences)) ?_ fun _ =>
      Spec.pure fun _ h => h
    unfold MessageManager.sendEnvelope
    split
    · refine Spec.modify fun n hn => hn.tail ?_
      exact .post (.notify (j := n.journal sequences) (by simp [confirmEnvelope]))
    · exact Spec.throw fun _ hn => hn
  · exact Spec.pure fun _ h => h

theorem resume_journal (verdict : Verdict) (t : Task) :
    Keeps (fun n : Node => i.Reaches (n.journal sequences)) (resume setup ctx verdict t) := by
  cases t with
  | processing message address stage =>
    cases hf : stage.finished with
    | true =>
      cases stage with
      | done routed => exact Spec.pure fun _ h => h
      | _ => simp [Stage.finished] at hf
    | false =>
      rw [resume_unfinished hf]
      exact Spec.bind ((quiet_journal _).pipeline verdict stage) fun _ => Spec.pure fun _ h => h
  | signing messageId address timestamp => exact sendSigned_journal messageId address timestamp
  | verifying confirm peerPubKey =>
    refine Spec.bind (orThrow_keeps _) fun valid => ?_
    split
    · exact Spec.bind ((quiet_journal setup.breakerConfig).updateState _ _ _ _)
        fun _ => Spec.pure fun _ h => h
    · exact Spec.pure fun _ h => h

theorem input_journal {s s' : Process} {x : InputLabel} (hs : s.input setup x = some s')
    (h : i.Reaches (s.node.journal sequences)) : i.Reaches (s'.node.journal sequences) := by
  cases x with
  | incoming ctx envelope =>
    obtain rfl := Option.some.inj hs
    -- the connection manager sends nothing here
    have hreceive : (s.node.receive ctx envelope).journal sequences = s.node.journal sequences := by
      simp [Node.journal, Node.receive, outbox_step, ConnectionEvent.sent]
    have hkeeps : Keeps (fun n : Node => i.Reaches (n.journal sequences))
        (dispatch setup ctx envelope) :=
      (quiet_journal setup.breakerConfig).dispatch fun _ _ _ hdirection =>
        saveMessage_journal hdirection
    exact hkeeps.finalState (hreceive ▸ h)
  | resume task ctx verdict =>
    obtain ⟨t, -, rfl⟩ := Option.map_eq_some_iff.1 hs
    exact (resume_journal verdict t).finalState h

end Handlers

section Tools

variable {i : Journal} {sequences : AList fun _ : String => Nat} {α : Type} {ctx : SendContext}

theorem Sender.onNode_journal {x : NodeOp α} {P : Journal → Prop} {Q : α → Journal → Prop}
    {E : String → Journal → Prop} (h : ∀ sequences, Spec (fun n : Node => P (n.journal sequences)) x
      (fun a n => Q a (n.journal sequences)) (fun e n => E e (n.journal sequences))) :
    Spec (fun s : Sender => P s.journal) (Sender.onNode x) (fun a s => Q a s.journal)
      (fun e s => E e s.journal) := by
  intro s hs
  have hx := h s.sequences s.toNode hs
  simp only [Sender.onNode, EStateM.run] at hx ⊢
  revert hx
  cases x s.toNode with
  | ok a m => exact id
  | error e m => exact id

theorem Sender.onStore_journal (x : StoreOp α) :
    Keeps (fun s : Sender => i.Posts s.journal) (Sender.onStore x) := by
  refine Spec.zoom fun s hs => ?_
  rintro _ rfl
  cases x.run s.connectionStore with
  | ok a store => exact hs
  | error e store => exact hs

theorem ConnectionEvent.sent_type {ctx : CallContext} {store : ConnectionStore}
    (event : ConnectionEvent) : ∀ e ∈ event.sent ctx store, e.type ≠ .message := by
  cases event <;> simp only [ConnectionEvent.sent] <;> (repeat' split) <;>
    simp [requestEnvelope, responseEnvelope, blockEnvelope, unblockEnvelope, revokeEnvelope]

theorem Sender.onAgent_journal (event : ConnectionEvent) :
    Keeps (fun s : Sender => i.Posts s.journal)
      (Sender.onAgent (event.perform ctx.toCallContext)) := by
  refine Spec.zoom fun s hs => ?_
  have hstep : i.Posts ({ s with toAgent := s.toAgent.step (ctx.toCallContext, event) } :
      Sender).journal := by
    have hjournal : ({ s with toAgent := s.toAgent.step (ctx.toCallContext, event) } :
        Sender).journal = { s.journal with
          outbox := s.journal.outbox ++ event.sent ctx.toCallContext s.connectionStore } := by
      simp [Sender.journal, Node.journal, outbox_step]
    rw [hjournal]
    exact hs.tail (.notify event.sent_type)
  rintro _ rfl
  rw [Agent.step] at hstep
  revert hstep
  cases (event.perform ctx.toCallContext).run s.toAgent with
  | ok a agent => exact id
  | error e agent => exact id

/-- A number has been taken for the message and the message stored. -/
def Journal.Stored (i : Journal) (message : MessageRecord) (j : Journal) : Prop :=
  ∃ store, i.messageStore.saveMessage message = .ok store ∧
    j = { i.counted message.connectionAddress with messageStore := store }

theorem saveOutbound_journal (message : MessageRecord) :
    Spec (fun n : Node => n.journal sequences = i.counted message.connectionAddress)
      (Node.saveMessage message) (fun _ n => i.Stored message (n.journal sequences))
      (fun _ n => n.journal sequences = i.counted message.connectionAddress) := by
  intro n hn
  refine (saveMessage_spec message).conseq (fun _ h => h) ?_ ?_ n rfl
  · rintro _ _ ⟨store, hstore, rfl⟩
    have hmessages : n.messageStore = i.messageStore := congrArg Journal.messageStore hn
    exact ⟨store, hmessages ▸ hstore, by rw [← hn]; rfl⟩
  · rintro _ _ rfl
    exact hn

theorem sendEnvelope_journal {ctx : CallContext} {message : MessageRecord} {envelope : Envelope}
    (hdirection : message.direction = .outbound) (hstate : message.state = "sent")
    (hchars : ∀ c ∈ message.id.toList, c ∈ uuidAlphabet)
    (hsequence : message.sequence = i.number message.connectionAddress)
    (henvelope : envelope.type = .message ∧ envelope.messageId = textEncode message.id ∧
      envelope.toAddress = message.connectionAddress) :
    Spec (fun n : Node => i.Stored message (n.journal sequences))
      (MessageManager.sendEnvelope ctx envelope) (fun _ n => i.Posts (n.journal sequences))
      (fun _ n => i.Posts (n.journal sequences)) := by
  unfold MessageManager.sendEnvelope
  split
  · refine Spec.modify ?_
    rintro n ⟨store, hstore, hn⟩
    have hjournal : ({ n with outbox := n.outbox ++ [envelope] } : Node).journal sequences =
        { n.journal sequences with outbox := (n.journal sequences).outbox ++ [envelope] } := rfl
    rw [hjournal, hn]
    exact .single (.record (some envelope) hdirection hstate hchars hsequence hstore
      (by simpa using henvelope))
  · refine Spec.throw ?_
    rintro n ⟨store, hstore, hn⟩
    have hrecord := Journal.Post.record none hdirection hstate hchars hsequence hstore (by simp)
    rw [hn]
    simpa [Journal.counted] using Relation.ReflTransGen.single hrecord

theorem nextSequence_journal (p : String) :
    Spec (fun s : Sender => s.journal = i) (Sender.nextSequence p)
      (fun sequence s => s.journal = i.counted p ∧ sequence = i.number p)
      (fun _ s => i.Posts s.journal) := by
  rintro s rfl
  exact ⟨rfl, rfl⟩

/-- Only once everything else has gone well is the message stored. -/
theorem sendMessage_reaches (setup : SendSetup) (params : SendMessageParams) :
    Spec (fun s : Sender => s.journal = i) (sendMessage setup ctx params)
      (fun _ s => i.Posts s.journal) (fun _ s => i.Posts s.journal) := by
  have hthrow {β : Type} {Φ : Sender → Prop} (hΦ : ∀ s, Φ s → i.Posts s.journal)
      (error : String) (o : Option β) : Spec Φ (Sender.orThrow error o) (fun _ => Φ)
        (fun _ s => i.Posts s.journal) := by
    cases o with
    | none => exact Spec.throw hΦ
    | some b => exact Spec.pure fun _ h => h
  have hstart : ∀ s : Sender, s.journal = i → i.Posts s.journal := fun _ h => h ▸ .refl
  have hcounted {sequence : Nat} : ∀ s : Sender,
      s.journal = i.counted params.recipient ∧ sequence = i.number params.recipient →
      i.Posts s.journal := fun _ h => h.1 ▸ .single (.count _ _)
  refine Spec.read_bind fun s₀ => ?_
  refine Spec.bind (hthrow hstart _ _) fun _ => Spec.bind (hthrow hstart _ _) fun peerKey => ?_
  refine Spec.bind (nextSequence_journal _) fun sequence => ?_
  refine Spec.bind (R := fun _ s => s.journal = i.counted params.recipient ∧
    sequence = i.number params.recipient) ?_ fun sealed => ?_
  · refine Spec.bind (hthrow hcounted _ _) fun _ => Spec.bind (hthrow hcounted _ _) fun _ => ?_
    refine Spec.bind (hthrow hcounted _ _) fun _ => Spec.bind (hthrow hcounted _ _) fun _ => ?_
    exact hthrow hcounted _ _
  refine Spec.bind (hthrow hcounted _ _) fun own => Spec.bind (hthrow hcounted _ _) fun bytes => ?_
  split
  · exact Spec.throw hcounted
  · let message := outboundMessage ctx params (resolveThread ctx params s₀.messageStore)
      (i.number params.recipient)
    refine Spec.bind (R := fun _ s => i.Stored message s.journal) ?_ fun _ => ?_
    · rintro s ⟨hs, rfl⟩
      have hsave := Sender.onNode_journal (P := (· = i.counted message.connectionAddress))
        (E := fun _ => (· = i.counted message.connectionAddress))
        fun _ => saveOutbound_journal message
      exact hsave.conseq (fun _ h => h) (fun _ _ h => h) (fun _ t ht => hcounted t ⟨ht, rfl⟩) s hs
    · exact Spec.bind (Sender.onNode_journal fun _ => sendEnvelope_journal rfl rfl
        ctx.messageId_chars rfl ⟨rfl, rfl, rfl⟩) fun _ => Spec.pure fun _ h => h

theorem sendMessage_journal (setup : SendSetup) (params : SendMessageParams) :
    Keeps (fun s : Sender => i.Posts s.journal) (sendMessage setup ctx params) :=
  fun s hs => (sendMessage_reaches setup params).conseq (fun _ h => h) (fun _ _ h => hs.trans h)
    (fun _ _ h => hs.trans h) s rfl

theorem Tool.applySetting_journal (p : String) (setting : ConnectionStore.Setting)
    (eventType badge : String) : Keeps (fun s : Sender => i.Posts s.journal)
      (Tool.applySetting ctx p setting eventType badge) := by
  refine Spec.bind (Sender.onStore_journal _) fun _ => ?_
  refine Spec.bind (Sender.onStore_journal _) fun _ => ?_
  exact Sender.onNode_journal (P := i.Posts) (E := fun _ => i.Posts) fun _ =>
    Spec.modify fun _ hn => hn.tail (.activity _ _)

theorem Tool.setPermissions_journal (address : String)
    (change : Option (PermissionsManifest → PermissionsManifest)) :
    Keeps (fun s : Sender => i.Posts s.journal) (Tool.setPermissions ctx address change) := by
  refine Spec.read_bind fun s => ?_
  split
  · refine Spec.tryCatch (F := fun _ s => i.Posts s.journal) ?_ fun _ => Spec.pure fun _ h => h
    exact Spec.bind (Sender.onStore_journal _) fun _ => Sender.onStore_journal _
  · exact Spec.pure fun _ h => h

theorem Tool.command_journal (setup : SendSetup) (tool : Tool) :
    Keeps (fun s : Sender => i.Posts s.journal) (tool.command setup ctx) := by
  have hsend (params : SendMessageParams) : Keeps (fun s : Sender => i.Posts s.journal)
      (discard (sendMessage setup ctx params)) :=
    Spec.bind (sendMessage_journal setup params) fun _ => Spec.pure fun _ h => h
  cases tool with
  | accept p => exact Sender.onAgent_journal (.approveRequest p)
  | autonomy request =>
    exact Spec.bind (Sender.onStore_journal _) fun _ => Spec.pure fun _ h => h
  | connect toAddress message => exact Sender.onAgent_journal (.sendRequest toAddress message)
  | intervene mode p =>
    cases mode with
    | start => exact Tool.applySetting_journal p _ _ _
    | stop => exact Tool.applySetting_journal p _ _ _
    | send body => exact hsend _
  | mute p unmute => exact Tool.applySetting_journal p _ _ _
  | permissions address change => exact Tool.setPermissions_journal address change
  | reject p => exact Sender.onAgent_journal (.rejectRequest p)
  | send params => exact hsend params
  | _ => exact Spec.pure fun _ h => h

end Tools

namespace Host

variable {setup : HostSetup} {s s' : Host} {x : HostLabel} {l : List HostLabel}

theorem runCommand_posts (setup : HostSetup) (ctx : SendContext) (t : ToolProcess) :
    (t.process.node.journal t.sequences).Posts
      ((runCommand setup ctx t).process.node.journal (runCommand setup ctx t).sequences) := by
  have hcommand : Keeps (fun s : Sender => (t.process.node.journal t.sequences).Posts s.journal)
      (t.tool.command setup.send ctx) := Tool.command_journal setup.send t.tool
  exact hcommand.finalState (s := ⟨t.process.node, t.sequences⟩) .refl

/-- A step is a sequence of these writes, or the end of the tool and of its connection. -/
theorem journal_step (hs : s.step setup x = some s') :
    x ≠ .exit ∧ s.journal.Reaches s'.journal ∨
      x = .exit ∧ s'.journal = { s.journal with outbox := [] } := by
  cases x with
  | invoke tool =>
    rw [step] at hs
    split at hs
    · rename_i hrunning
      obtain rfl := Option.some.inj hs
      rw [journal, hrunning]
      exact .inl ⟨by simp, .refl⟩
    · cases hs
  | command ctx =>
    obtain ⟨t, ht, -, rfl⟩ := command_eq_some hs
    refine .inl ⟨by simp, ?_⟩
    rw [journal, ht]
    exact Relation.ReflTransGen.mono (fun _ _ h => Journal.Write.post h) _ _
      (runCommand_posts setup ctx t)
  | input x =>
    obtain ⟨t, process, ht, hprocess, rfl⟩ := input_eq_some hs
    rw [journal, ht]
    exact .inl ⟨by simp, input_journal hprocess .refl⟩
  | save =>
    obtain ⟨t, ht, rfl⟩ := Option.map_eq_some_iff.1 hs
    exact .inl ⟨by simp, .refl⟩
  | exit =>
    obtain ⟨t, ht, rfl⟩ := Option.map_eq_some_iff.1 hs
    rw [journal, ht]
    exact .inr ⟨rfl, rfl⟩

/-- What every write keeps, and what does not speak of the connection, holds over whole runs. -/
theorem journal_invariant {P : Journal → Prop} {ok : Host → HostLabel → Prop} {t : Host}
    (hrun : Run (step setup) ok s l t) (h0 : P s.journal) (hwrite : ∀ i j, i.Write j → P i → P j)
    (hexit : ∀ j, P j → P { j with outbox := [] }) : P t.journal := by
  refine hrun.invariant (P := fun t => P t.journal) h0 fun t x u ht _ hu => ?_
  rcases journal_step hu with ⟨-, hreaches⟩ | ⟨-, heq⟩
  · exact hreaches.rec ht fun _ hw ih => hwrite _ _ hw ih
  · exact heq ▸ hexit _ ht

end Host

end Pinch
