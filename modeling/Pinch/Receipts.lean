import Pinch.Confirmations
import Pinch.HostInvariant
import Pinch.Silence

/-! Delivery receipts across a network of agents. The relay may deliver anything at any time to
anyone, but it cannot sign. Then a message that the sender's agent no longer lists as merely sent
has been stored by an agent of the network. -/

namespace Pinch

open CircuitBreaker EnforcementPipeline MessageManager Transition

/-- The identifiers that `uuidv7` draws. -/
def UuidText (id : String) : Prop := ∀ c ∈ id.toList, c ∈ uuidAlphabet

/-- The table has an inbound row of that id. -/
def MessageStore.HasInbound (s : MessageStore) (id : String) : Prop :=
  ∃ c ∈ s.history, c.id = id ∧ c.direction = .inbound

/-- Messages of the agent itself that are no longer in the state `sent` are vouched for. -/
def MessageStore.Vouched (V : String → Prop) (s : MessageStore) : Prop :=
  ∀ r ∈ s.rows, r.direction = .outbound → UuidText r.id ∧ (r.state ≠ "sent" → V r.id)

/-- Work under way is about received messages, and a signature that verifies vouches for the id. -/
def Task.Grounded (setup : Setup) (V : String → Prop) (s : MessageStore) : Task → Prop
  | .processing message _ _ => s.HasInbound message.id
  | .signing messageId _ _ => s.HasInbound messageId
  | .verifying confirm peerPubKey =>
    verifyDeliveryConfirmation setup confirm peerPubKey = some true →
      UuidText (textDecode confirm.messageId) → V (textDecode confirm.messageId)

section Store

variable {V W : String → Prop} {s t : MessageStore} {id : String}

theorem MessageStore.HasInbound.mono (h : s.HasInbound id) (hst : s.history <+: t.history) :
    t.HasInbound id := by
  obtain ⟨c, hc, hrest⟩ := h
  exact ⟨c, hst.subset hc, hrest⟩

theorem MessageStore.hasInbound_saveMessage {message : MessageRecord}
    (h : s.saveMessage message = .ok t) (hdirection : message.direction = .inbound) :
    t.HasInbound message.id := by
  refine ⟨message.content, ?_, rfl, hdirection⟩
  rw [history_saveMessage h]
  simp

/-- The id of an inbound row is not that of an outbound one. -/
theorem MessageStore.HasInbound.ne (h : s.HasInbound id) {r : MessageRecord} (hr : r ∈ s.rows)
    (hdirection : r.direction = .outbound) : r.id ≠ id := by
  rintro rfl
  obtain ⟨c, hc, hid, hinbound⟩ := h
  obtain ⟨r', hr', rfl⟩ := List.mem_map.1 hc
  obtain rfl : r' = r := List.inj_on_of_nodup_map s.ids_nodup hr' hr hid
  have hdirections : Direction.inbound = .outbound := hinbound.symm.trans hdirection
  cases hdirections

theorem MessageStore.Vouched.mono (h : s.Vouched V) (hVW : ∀ id, V id → W id) : s.Vouched W :=
  fun r hr hdirection => ⟨(h r hr hdirection).1, fun hstate => hVW _ ((h r hr hdirection).2 hstate)⟩

theorem MessageStore.Vouched.saveMessage {message : MessageRecord} (h : s.Vouched V)
    (hsave : s.saveMessage message = .ok t)
    (hmessage : message.direction = .outbound → UuidText message.id ∧ message.state = "sent") :
    t.Vouched V := by
  intro r hr hdirection
  rw [rows_saveMessage hsave, List.mem_append, List.mem_singleton] at hr
  rcases hr with hr | rfl
  · exact h r hr hdirection
  · obtain ⟨hid, hstate⟩ := hmessage hdirection
    exact ⟨hid, fun hne => absurd hstate hne⟩

/-- A row changes its state only where the id is vouched for, or is that of an inbound row. -/
theorem MessageStore.Vouched.updateState (h : s.Vouched V) {now : Int} {state : String}
    {reason : Option String} (hid : s.HasInbound id ∨ (UuidText id → V id)) :
    (s.updateState now id state reason).Vouched V := by
  intro r hr hdirection
  obtain ⟨r₀, hr₀, rfl⟩ := List.mem_map.1 hr
  rw [written_direction] at hdirection
  rw [written_id]
  obtain ⟨huuid, hsent⟩ := h r₀ hr₀ hdirection
  refine ⟨huuid, fun hstate => ?_⟩
  by_cases hrow : r₀.id = id
  · rcases hid with hinbound | hvouched
    · exact absurd hrow (hinbound.ne hr₀ hdirection)
    · exact hrow ▸ hvouched (hrow ▸ huuid)
  · exact hsent (by simpa [written, hrow] using hstate)

theorem Task.Grounded.mono {setup : Setup} {task : Task} (h : task.Grounded setup V s)
    (hst : s.history <+: t.history) (hVW : ∀ id, V id → W id) : task.Grounded setup W t := by
  cases task with
  | processing message address stage => exact MessageStore.HasInbound.mono h hst
  | signing messageId address timestamp => exact MessageStore.HasInbound.mono h hst
  | verifying confirm peerPubKey => exact fun hverify huuid => hVW _ (h hverify huuid)

end Store

section Handlers

variable {setup : Setup} {V : String → Prop} {ctx : CallContext}

/-- The table is vouched for, and has an inbound row of the id. -/
def Received (V : String → Prop) (id : String) (n : Node) : Prop :=
  n.messageStore.Vouched V ∧ n.messageStore.HasInbound id

theorem ownRow_received (config : CircuitBreakerConfig) (id : String) :
    OwnRow config id (Received V id) where
  updateState _ _ _ := Spec.modify fun _ hn =>
    ⟨hn.1.updateState (.inl hn.2), hn.2.mono (by simp)⟩
  recordActivity _ _ := Spec.modify fun _ hn => hn
  recordEvent _ _ _ := recordEvent_keeps_messages
    (fun s => s.Vouched V ∧ s.HasInbound id) _

/-- The table is vouched for, and so is the work that remains. -/
abbrev LeavesVouched (setup : Setup) (V : String → Prop) : Option Task → Node → Prop :=
  Leaves (·.Vouched V) fun s task => task.Grounded setup V s

theorem handleIncomingMessage_leaves (envelope : Envelope) :
    Spec (fun n => n.messageStore.Vouched V) (handleIncomingMessage setup ctx envelope)
      (LeavesVouched setup V) (fun _ n => n.messageStore.Vouched V) := by
  refine handleIncomingMessage_rule (R := fun message => Received V message.id) (fun _ h => h) ?_ ?_
  · intro message n store _ hdirection hn hstore
    refine ⟨hn.saveMessage hstore fun hout => ?_,
      MessageStore.hasInbound_saveMessage hstore hdirection⟩
    exact absurd (hdirection.symm.trans hout) (by decide)
  · intro message
    refine (ownRow_received setup.breakerConfig message.id).process.conseq (fun _ h => h) ?_
      fun _ _ h => h.1
    refine fun stage n hn => ⟨hn.1, ?_⟩
    rintro _ ⟨⟩
    exact hn.2

/-- A confirmation that is about to be checked vouches for its id if the check succeeds. -/
def Genuine (setup : Setup) (V : String → Prop) (envelope : Envelope) (n : Node) : Prop :=
  ∀ confirm key, envelope.payload = .deliveryConfirm confirm →
    n.heldKey setup envelope.fromAddress = some key →
    (Task.verifying confirm key).Grounded setup V n.messageStore

theorem dispatch_leaves (ctx : CallContext) (envelope : Envelope) :
    Spec (fun n => n.messageStore.Vouched V ∧
        (envelope.type = .deliveryConfirm → Genuine setup V envelope n))
      (dispatch setup ctx envelope) (LeavesVouched setup V)
      (fun _ n => n.messageStore.Vouched V) :=
  dispatch_rule (fun _ h => h.1) (fun _ _ h => h)
    (fun _ => (handleIncomingMessage_leaves envelope).conseq (fun _ h => h.1) (fun _ _ h => h)
      fun _ _ h => h)
    fun htype _ confirm key h hpayload hkey => h.2 htype confirm key hpayload hkey

theorem resume_leaves (ctx : CallContext) (verdict : Verdict) {task : Task} {n : Node}
    (h : n.messageStore.Vouched V) (htask : task.Grounded setup V n.messageStore) :
    Spec (· = n) (resume setup ctx verdict task) (LeavesVouched setup V)
      (fun _ n => n.messageStore.Vouched V) := by
  refine resume_rule h ?_ ?_ ?_
  · rintro message address routed rfl
    exact htask
  · rintro message address stage rfl hf
    refine ((ownRow_received setup.breakerConfig message.id).pipeline verdict stage).conseq ?_ ?_
      fun _ _ h => h.1
    · rintro _ rfl
      exact ⟨h, htask⟩
    · refine fun next n hn => ⟨hn.1, ?_⟩
      rintro _ ⟨⟩
      exact hn.2
  · rintro confirm key rfl hverify
    exact h.updateState (.inr (htask hverify))

theorem Node.receive_confirmation {envelope : Envelope} (n : Node) (ctx : CallContext)
    (htype : envelope.type = .deliveryConfirm) : n.receive ctx envelope = n := by
  rw [Node.receive]
  cases envelope.kind with
  | ignored hstep _ => rw [hstep]
  | request r ht _ => simp [ht] at htype
  | response r ht _ => simp [ht] at htype
  | revoke r ht _ => simp [ht] at htype

end Handlers

theorem lasting_grounded (setup : Setup) (V : String → Prop) :
    Lasting fun s task => task.Grounded setup V s :=
  fun _ _ _ hgrows h => h.mono hgrows fun _ => id

/-- The one condition is on an arriving confirmation: if its signature verifies under the key of
the address it names, it vouches for its id. -/
theorem handles_vouched {setup : Setup} {V : String → Prop} {s : Process}
    (h : s.Holds (·.Vouched V) fun s task => task.Grounded setup V s) {x : InputLabel}
    (hx : ∀ ctx envelope, x = .incoming ctx envelope → envelope.type = .deliveryConfirm →
      Genuine setup V envelope s.node) :
    s.Handles setup (·.Vouched V) (fun s task => task.Grounded setup V s) x := by
  cases x with
  | incoming ctx envelope =>
    refine (dispatch_leaves ctx envelope).conseq ?_ (fun _ _ h => h) fun _ _ h => h
    rintro _ rfl
    refine ⟨h.store, fun htype => ?_⟩
    rw [Node.receive_confirmation s.node ctx htype]
    exact hx ctx envelope rfl htype
  | resume task ctx verdict =>
    intro t ht
    exact resume_leaves ctx verdict h.store (h.tasks task t ht)

theorem Journal.Posts.vouched {V : String → Prop} {i j : Journal} (h : i.Posts j)
    (hi : i.messageStore.Vouched V) : j.messageStore.Vouched V := by
  induction h with
  | refl => exact hi
  | tail _ hpost ih =>
    cases hpost with
    | record sent _ hstate hid _ hstore _ => exact ih.saveMessage hstore fun _ => ⟨hid, hstate⟩
    | _ => exact ih

namespace Host

variable {setup : HostSetup} {V W : String → Prop} {s s' : Host} {x : HostLabel}

/-- Everything under way at an agent is vouched for. -/
abbrev Vouched (setup : Setup) (V : String → Prop) (s : Host) : Prop :=
  s.Holds (·.Vouched V) fun s task => task.Grounded setup V s

theorem Vouched.mono {setup : Setup} (h : s.Vouched setup V) (hVW : ∀ id, V id → W id) :
    s.Vouched setup W where
  store := h.store.mono hVW
  process t ht := ⟨(h.process t ht).store.mono hVW, fun i task htask =>
    ((h.process t ht).tasks i task htask).mono List.prefix_rfl hVW⟩

theorem vouched_step (h : s.Vouched setup.receive V)
    (hx : ∀ ctx envelope t, x = .input (.incoming ctx envelope) → s.running = some t →
      envelope.type = .deliveryConfirm → Genuine setup.receive V envelope t.process.node)
    (hs : s.step setup x = some s') : s'.Vouched setup.receive V := by
  refine h.step (lasting_grounded _ V) (fun _ _ hposts hi => hposts.vouched hi) ?_ hs
  rintro y t rfl ht
  refine handles_vouched (h.process t ht) ?_
  rintro ctx envelope rfl
  exact hx ctx envelope t rfl ht

/-- The bytes that an agent signs for a confirmation. -/
def signs (s : Host) : HostLabel → Option Bytes
  | .input (.resume task _ _) =>
    match s.running.bind (·.process.tasks task) with
    | some (.signing messageId _ timestamp) => some (buildPayload (textEncode messageId) timestamp)
    | _ => none
  | _ => none

theorem signs_received {setup : Setup} {payload : Bytes} (h : s.Vouched setup V)
    (hsigns : s.signs x = some payload) : ∃ id timestamp,
      payload = buildPayload (textEncode id) timestamp ∧ s.journal.messageStore.HasInbound id := by
  unfold signs at hsigns
  split at hsigns
  · rename_i task _ _
    split at hsigns
    · rename_i messageId address timestamp htask
      obtain ⟨t, ht, htask⟩ := Option.bind_eq_some_iff.1 htask
      refine ⟨messageId, timestamp, (Option.some.inj hsigns).symm, ?_⟩
      rw [journal, ht]
      exact (h.process t ht).tasks task _ htask
    · cases hsigns
  · cases hsigns

end Host

/-- Agents, each with what it has signed for confirmations so far. -/
structure Network (ι : Type) where
  hosts : ι → Host
  signed : ι → List Bytes

/-- A string that a relay has agents sign. -/
def Challenge (payload : Bytes) : Prop :=
  ∃ (relayHost : Bytes) (nonce : Nonce), payload = signPayload relayHost nonce.bytes

/-- An identifier drawn by `uuidv7` is never read out of a challenge. -/
theorem Challenge.not_uuidText {messageId : Bytes} {timestamp : Int}
    (h : Challenge (buildPayload messageId timestamp)) : ¬ UuidText (textDecode messageId) := by
  obtain ⟨relayHost, nonce, hpayload⟩ := h
  obtain ⟨hid, -⟩ := (buildPayload_eq_signPayload_iff ..).1 hpayload
  have hprefix : signPrefix = 112 :: textEncode "inch-auth-v1" := by decide +kernel
  have hdecode : (textDecode messageId).toList = 'p' :: decodeBytes {} (textEncode "inch-auth-v1" ++
      ([0] ++ relayHost ++ [0] ++ nonce.bytes.take 24)) := by
    rw [hid, signHeader, hprefix]
    simp [textDecode, stripBom, decodeBytes, decodeByte, decodeLead]
  intro huuid
  have hp := huuid 'p' (by rw [hdecode]; exact List.mem_cons_self)
  revert hp
  decide +kernel

theorem buildPayload_inj {messageId messageId' : Bytes} {timestamp timestamp' : Int}
    (h : buildPayload messageId timestamp = buildPayload messageId' timestamp') :
    messageId = messageId' :=
  (List.append_inj' h (by simp [bigInt64Bytes_length])).1

namespace Network

variable {ι : Type} (setups : ι → HostSetup) (key : ι → Bytes)

/-- A step that the network may take: no signature of an agent verifies that the agent has not
made, as a confirmation or for a relay, and confirmations are checked with the keys of agents. -/
structure Admitted (w : Network ι) (x : ι × HostLabel) : Prop where
  unforged : ∀ ctx envelope confirm b, x.2 = .input (.incoming ctx envelope) →
    envelope.payload = .deliveryConfirm confirm →
    verifyDeliveryConfirmation (setups x.1).receive confirm (key b) = some true →
    buildPayload confirm.messageId confirm.timestamp ∈ w.signed b ∨
      Challenge (buildPayload confirm.messageId confirm.timestamp)
  acquainted : ∀ ctx envelope t k, x.2 = .input (.incoming ctx envelope) →
    envelope.type = .deliveryConfirm → (w.hosts x.1).running = some t →
    t.process.node.heldKey (setups x.1).receive envelope.fromAddress = some k → ∃ b, key b = k

/-- Some agent has stored a message under the id, as its confirmation spells it. -/
def Stored (w : Network ι) (id : String) : Prop :=
  ∃ b id', (w.hosts b).journal.messageStore.HasInbound id' ∧ textDecode (textEncode id') = id

structure Sound (w : Network ι) : Prop where
  hosts : ∀ a, (w.hosts a).Vouched (setups a).receive w.Stored
  signed : ∀ b, ∀ payload ∈ w.signed b, ∃ id timestamp,
    payload = buildPayload (textEncode id) timestamp ∧
      (w.hosts b).journal.messageStore.HasInbound id

variable {setups key} {w w' : Network ι} {x : ι × HostLabel} {l : List (ι × HostLabel)}

theorem Sound.genuine (h : w.Sound setups) (hok : Admitted setups key w x) {ctx : CallContext}
    {envelope : Envelope} {t : ToolProcess} (hx : x.2 = .input (.incoming ctx envelope))
    (ht : (w.hosts x.1).running = some t) (htype : envelope.type = .deliveryConfirm) :
    Genuine (setups x.1).receive w.Stored envelope t.process.node := by
  intro confirm k hpayload hkey hverify huuid
  obtain ⟨b, rfl⟩ := hok.acquainted ctx envelope t k hx htype ht hkey
  rcases hok.unforged ctx envelope confirm b hx hpayload hverify with hsigned | hchallenge
  · obtain ⟨id, timestamp, heq, hinbound⟩ := h.signed b _ hsigned
    exact ⟨b, id, hinbound, by rw [← buildPayload_inj heq]⟩
  · exact absurd huuid hchallenge.not_uuidText

/-- New agents, none of which has signed anything. -/
def Initial (w : Network ι) : Prop := ∀ a, (w.hosts a).Fresh ∧ w.signed a = []

theorem Initial.sound (h : w.Initial) : w.Sound setups := by
  refine ⟨fun a => ?_, fun b payload hpayload => ?_⟩
  · obtain ⟨⟨hdatabase, hrunning⟩, -⟩ := h a
    refine ⟨?_, by simp [hrunning]⟩
    rw [Host.journal, hrunning, hdatabase]
    intro r hr
    cases hr
  · simp [(h b).2] at hpayload

theorem history_step {s s' : Host} {setup : HostSetup} {y : HostLabel}
    (hs : s.step setup y = some s') : s.journal.history <+: s'.journal.history := by
  rcases Host.journal_step hs with ⟨-, hreaches⟩ | ⟨-, heq⟩
  · exact hreaches.grows
  · rw [heq]
    exact List.prefix_rfl

variable [DecidableEq ι]

/-- One agent takes a step of its own. -/
def step (setups : ι → HostSetup) (w : Network ι) (x : ι × HostLabel) : Option (Network ι) :=
  ((w.hosts x.1).step (setups x.1) x.2).map fun s =>
    { hosts := Function.update w.hosts x.1 s
      signed := Function.update w.signed x.1
        (w.signed x.1 ++ ((w.hosts x.1).signs x.2).toList) }

/-- Nothing that was stored is lost. -/
theorem hasInbound_step (hs : w.step setups x = some w') (b : ι) {id : String}
    (h : (w.hosts b).journal.messageStore.HasInbound id) :
    (w'.hosts b).journal.messageStore.HasInbound id := by
  obtain ⟨s, hstep, rfl⟩ := Option.map_eq_some_iff.1 hs
  dsimp only
  by_cases hb : b = x.1
  · subst hb
    rw [Function.update_self]
    exact h.mono (history_step hstep)
  · rwa [Function.update_of_ne hb]

theorem sound_step (h : w.Sound setups) (hok : Admitted setups key w x)
    (hs : w.step setups x = some w') : w'.Sound setups := by
  have hinbound := hasInbound_step hs
  have hstored : ∀ id, w.Stored id → w'.Stored id := by
    rintro id ⟨b, id', hid', heq⟩
    exact ⟨b, id', hinbound b hid', heq⟩
  obtain ⟨s, hstep, rfl⟩ := Option.map_eq_some_iff.1 hs
  refine ⟨fun a => ?_, fun b payload hpayload => ?_⟩
  · by_cases ha : a = x.1
    · subst ha
      have hvouched := Host.vouched_step (h.hosts x.1) (fun ctx envelope t hx ht htype =>
        h.genuine hok hx ht htype) hstep
      simpa using hvouched.mono hstored
    · simpa [ha] using (h.hosts a).mono hstored
  · have hmem : payload ∈ w.signed b ∨ b = x.1 ∧ (w.hosts x.1).signs x.2 = some payload := by
      by_cases hb : b = x.1
      · subst hb
        simpa using hpayload
      · exact .inl (by simpa [hb] using hpayload)
    rcases hmem with hmem | ⟨rfl, hsigns⟩
    · obtain ⟨id, timestamp, heq, hid⟩ := h.signed b payload hmem
      exact ⟨id, timestamp, heq, hinbound b hid⟩
    · obtain ⟨id, timestamp, heq, hid⟩ := Host.signs_received (h.hosts x.1) hsigns
      exact ⟨id, timestamp, heq, hinbound x.1 hid⟩

/-- Whatever the relay delivers, a message that its sender no longer lists as merely sent has been
stored by an agent, under its id or, as the confirmation does not tell them apart, under that id
behind a byte order mark. -/
theorem receipts_genuine (hw : w.Initial)
    (hrun : Run (step setups) (Admitted setups key) w l w')
    {a : ι} {r : MessageRecord} (hr : r ∈ (w'.hosts a).journal.messageStore.rows)
    (hdirection : r.direction = .outbound) (hstate : r.state ≠ "sent") :
    ∃ b, ∃ r' ∈ (w'.hosts b).journal.messageStore.rows, r'.direction = .inbound ∧
      textDecode (textEncode r'.id) = r.id := by
  have hsound := hrun.invariant (P := Sound setups) hw.sound
    fun _ _ _ h hok hs => sound_step h hok hs
  obtain ⟨b, id', ⟨c, hc, hid, hinbound⟩, heq⟩ :=
    ((hsound.hosts a).store r hr hdirection).2 hstate
  obtain ⟨r', hr', rfl⟩ := List.mem_map.1 hc
  exact ⟨b, r', hr', hinbound, by rw [← heq, ← hid]; rfl⟩

/-- The sender's libraries accept the one signature that the recipient makes. -/
def pairSetups : Bool → HostSetup
  | false =>
    { helloHost with
      receive :=
        { lib := { helloLibraries.toLibraries with
            verifyDetached := fun signature payload k =>
              some (decide (signature = greetingSignature ∧
                payload = buildPayload (textEncode sentId) 0 ∧ k = otherKey)) }
          privateKey := vectorPrivateKey
          breakerConfig := {} } }
  | true => ⟨greetingSetup, Host.toolSetup.send⟩

def pairKeys : Bool → Bytes
  | false => vectorKey
  | true => otherKey

def pair : Network Bool where
  hosts
    | false => Host.newcomer
    | true => ⟨peerStore, ⟨.empty, [], ∅⟩, none⟩
  signed _ := []

/-- A message is sent, received, and its confirmation signed. -/
def exchange : List (Bool × HostLabel) :=
  [(false, .invoke (.send (hello none))), (false, .command helloContext),
    (true, .invoke .history), (true, .input (.incoming otherContext helloEnvelope)),
    (true, .input (.resume 0 otherContext none)), (true, .input (.resume 0 otherContext none)),
    (true, .input (.resume 0 otherContext none))]

def confirmation : Bool × HostLabel :=
  (false, .input (.incoming helloContext.toCallContext greetingConfirmation))

def checked : Bool × HostLabel := (false, .input (.resume 0 helloContext.toCallContext none))

/-- The step brings no confirmation. -/
def plain : Bool × HostLabel → Bool
  | (_, .input (.incoming _ envelope)) => envelope = helloEnvelope
  | _ => true

theorem admitted_of_plain {w : Network Bool} {x : Bool × HostLabel} (h : plain x = true) :
    Admitted pairSetups pairKeys w x := by
  obtain ⟨a, y⟩ := x
  refine ⟨?_, ?_⟩
  · rintro ctx envelope confirm b rfl hpayload
    obtain rfl : envelope = helloEnvelope := of_decide_eq_true h
    cases hpayload
  · rintro ctx envelope t k rfl htype
    obtain rfl : envelope = helloEnvelope := of_decide_eq_true h
    cases htype

theorem receipts_genuine_exchange : ∃ w',
    Run (step pairSetups) (Admitted pairSetups pairKeys) pair
        (exchange ++ [confirmation] ++ [checked]) w' ∧
      ∃ r ∈ (w'.hosts false).journal.messageStore.rows, r.state = "delivered" ∧
        ∃ b, ∃ r' ∈ (w'.hosts b).journal.messageStore.rows, r'.direction = .inbound ∧
          textDecode (textEncode r'.id) = r.id := by
  have heval : (exec (step pairSetups) (fun _ x => plain x = true) pair exchange).bind (fun w =>
      (w.step pairSetups confirmation).bind fun w₁ => (w₁.step pairSetups checked).map fun w₂ =>
        (w.signed true, (w.hosts false).running.bind fun t =>
            t.process.node.heldKey (pairSetups false).receive otherAddress,
          (w₂.hosts false).journal.messageStore.rows.map fun r => (r.direction, r.state))) =
      some ([buildPayload (textEncode sentId) 0], some otherKey, [(.outbound, "delivered")]) := by
    decide +kernel
  obtain ⟨w, hw, heval⟩ := Option.bind_eq_some_iff.1 heval
  obtain ⟨w₁, hw₁, heval⟩ := Option.bind_eq_some_iff.1 heval
  obtain ⟨w₂, hw₂, hfacts⟩ := Option.map_eq_some_iff.1 heval
  obtain ⟨hsigned, hfacts⟩ := Prod.mk.inj hfacts
  obtain ⟨hheld, hrows⟩ := Prod.mk.inj hfacts
  have hexchange : Run (step pairSetups) (Admitted pairSetups pairKeys) pair exchange w :=
    (Run.of_exec hw).imp fun _ _ h => admitted_of_plain h
  have hconfirmation : Admitted pairSetups pairKeys w confirmation := by
    refine ⟨?_, ?_⟩
    · rintro _ _ _ b ⟨⟩ ⟨⟩ hverify
      have hkey : pairKeys b = otherKey := (of_decide_eq_true (Option.some.inj hverify)).2.2
      have hb : b = true := by
        cases b with
        | false => exact absurd hkey (by decide)
        | true => rfl
      rw [hb, hsigned]
      exact .inl (List.mem_singleton.2 rfl)
    · rintro _ _ t k ⟨⟩ - ht hk
      have hrunning : (w.hosts false).running = some t := ht
      rw [hrunning] at hheld
      exact ⟨true, Option.some.inj (hheld.symm.trans hk)⟩
  have hrun := Run.snoc (Run.snoc hexchange hconfirmation hw₁) (admitted_of_plain rfl) hw₂
  obtain ⟨r, hrows'⟩ := List.map_eq_singleton_iff.1 hrows
  obtain ⟨hrows', hr⟩ := hrows'
  obtain ⟨hdirection, hstate⟩ := Prod.mk.inj hr
  have hmem : r ∈ (w₂.hosts false).journal.messageStore.rows := by simp [hrows']
  refine ⟨w₂, hrun, r, hmem, hstate, receipts_genuine ?_ hrun hmem hdirection (by simp [hstate])⟩
  intro a
  cases a <;> exact ⟨⟨rfl, rfl⟩, rfl⟩

end Network

end Pinch
