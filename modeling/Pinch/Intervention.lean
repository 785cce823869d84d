import Pinch.HostInvariant

/-! What becomes of the messages of a peer whose connection is handed over to the human. Those
that arrive from then on go to the human and stay there. A message that was received before and
not yet decided goes on as if nothing had happened. -/

namespace Pinch

open CircuitBreaker EnforcementPipeline MessageManager Transition

/-- The table has a row of that id from that address. -/
def MessageStore.HasRow (s : MessageStore) (id address : String) : Prop :=
  ∃ c ∈ s.history, c.id = id ∧ c.connectionAddress = address

/-- A message under way is stored under its sender. -/
def Task.Filed (s : MessageStore) : Task → Prop
  | .processing message address _ => s.HasRow message.id address
  | _ => True

/-- The messages received from the peer, up to the one of that id, are with the human or as they
were in the table `base`. -/
def MessageStore.EscalatesBut (s : MessageStore) (id : Option String) (p : String)
    (base : MessageStore) : Prop :=
  ∀ r ∈ s.rows, some r.id ≠ id → r.connectionAddress = p → r.direction = .inbound →
    r.state = "escalated_to_human" ∨ r ∈ base.rows

abbrev MessageStore.Escalates (s : MessageStore) (p : String) (base : MessageStore) : Prop :=
  s.EscalatesBut none p base

/-- The task goes on with an undecided message of the peer, or writes the row of one on the word
of a peer. -/
def Task.disturbs (setup : Setup) (p : String) (s : MessageStore) : Task → Bool
  | .processing _ address stage => address = p && !stage.finished
  | .signing .. => false
  | .verifying confirm peerPubKey =>
    verifyDeliveryConfirmation setup confirm peerPubKey = some true &&
      (s.getMessage (textDecode confirm.messageId)).any fun r =>
        r.connectionAddress = p && r.direction = .inbound

section Store

variable {p id address : String} {base s t : MessageStore} {message : MessageRecord}

theorem MessageStore.HasRow.mono (h : s.HasRow id address) (hst : s.history <+: t.history) :
    t.HasRow id address := by
  obtain ⟨c, hc, hrest⟩ := h
  exact ⟨c, hst.subset hc, hrest⟩

theorem MessageStore.HasRow.connectionAddress (h : s.HasRow id address) {r : MessageRecord}
    (hr : r ∈ s.rows) (hid : r.id = id) : r.connectionAddress = address := by
  obtain ⟨c, hc, hcid, haddress⟩ := h
  obtain ⟨r', hr', rfl⟩ := List.mem_map.1 hc
  obtain rfl : r' = r := List.inj_on_of_nodup_map s.ids_nodup hr' hr (hcid.trans hid.symm)
  exact haddress

theorem MessageStore.getMessage_of_mem {r : MessageRecord} (hr : r ∈ s.rows) :
    s.getMessage r.id = some r := by
  cases hget : s.getMessage r.id with
  | none => simpa using List.find?_eq_none.1 hget r hr
  | some r' =>
    exact congrArg some (List.inj_on_of_nodup_map s.ids_nodup (List.mem_of_find?_eq_some hget) hr
      (getMessage_id hget))

theorem MessageStore.hasRow_saveMessage (h : s.saveMessage message = .ok t) :
    t.HasRow message.id message.connectionAddress := by
  refine ⟨message.content, ?_, rfl, rfl⟩
  rw [history_saveMessage h]
  simp

theorem lasting_filed : Lasting fun s task => task.Filed s := by
  intro s t task hgrows h
  cases task with
  | processing message address stage => exact MessageStore.HasRow.mono h hgrows
  | _ => trivial

namespace MessageStore

theorem Escalates.saveMessage (h : s.Escalates p base) (hsave : s.saveMessage message = .ok t) :
    t.EscalatesBut (some message.id) p base := by
  intro r hr hne hp hdirection
  rw [rows_saveMessage hsave, List.mem_append, List.mem_singleton] at hr
  rcases hr with hr | rfl
  · exact h r hr (by simp) hp hdirection
  · exact absurd rfl hne

/-- The row of the message is the one that may change. -/
theorem EscalatesBut.updateState (h : s.EscalatesBut (some id) p base) (now : Int)
    (state : String) (reason : Option String) :
    (s.updateState now id state reason).EscalatesBut (some id) p base := by
  intro r hr hne hp hdirection
  obtain ⟨r₀, hr₀, rfl⟩ := List.mem_map.1 hr
  rw [written_id] at hne
  have hother : r₀.id ≠ id := fun heq => hne (congrArg some heq)
  rw [written, if_neg hother] at hp hdirection ⊢
  exact h r₀ hr₀ hne hp hdirection

theorem EscalatesBut.escalated (h : s.EscalatesBut (some id) p base) (now : Int)
    (reason : Option String) :
    (s.updateState now id "escalated_to_human" reason).Escalates p base := by
  intro r hr _ hp hdirection
  by_cases hid : r.id = id
  · obtain ⟨r₀, hr₀, rfl⟩ := List.mem_map.1 hr
    rw [written_id] at hid
    rw [written, if_pos hid]
    exact .inl rfl
  · exact h.updateState now _ reason r hr (by simpa using hid) hp hdirection

/-- The row belongs to somebody else, so the exception is none. -/
theorem EscalatesBut.other (h : s.EscalatesBut (some id) p base)
    (hother : ∀ r ∈ s.rows, r.id = id → r.connectionAddress = p → r.direction ≠ .inbound) :
    s.Escalates p base := by
  intro r hr _ hp hdirection
  by_cases hid : r.id = id
  · exact absurd hdirection (hother r hr hid hp)
  · exact h r hr (by simpa using hid) hp hdirection

theorem Escalates.updateState (h : s.Escalates p base) {now : Int} {state : String}
    {reason : Option String}
    (hother : ∀ r ∈ s.rows, r.id = id → r.connectionAddress = p → r.direction ≠ .inbound) :
    (s.updateState now id state reason).Escalates p base := by
  have hbut : s.EscalatesBut (some id) p base := fun r hr _ => h r hr (by simp)
  refine (hbut.updateState now state reason).other fun r hr hid hp => ?_
  obtain ⟨r₀, hr₀, rfl⟩ := List.mem_map.1 hr
  rw [written_id] at hid
  rw [written_connectionAddress] at hp
  rw [written_direction]
  exact hother r₀ hr₀ hid hp

end MessageStore

theorem Journal.Posts.escalates {i j : Journal} (h : i.Posts j)
    (hi : i.messageStore.Escalates p base) : j.messageStore.Escalates p base := by
  induction h with
  | refl => exact hi
  | tail _ hpost ih =>
    cases hpost with
    | @record message store sent hdirection _ _ _ hstore _ =>
      intro r hr _ hp hinbound
      replace hr : r ∈ store.rows := hr
      rw [MessageStore.rows_saveMessage hstore, List.mem_append, List.mem_singleton] at hr
      rcases hr with hr | rfl
      · exact ih r hr (by simp) hp hinbound
      · cases hdirection.symm.trans hinbound
    | _ => exact ih

end Store

section Handlers

variable {setup : Setup} {ctx : CallContext} {p id address : String} {base : MessageStore}
  {envelope : Envelope}

theorem ownRow_filed (config : CircuitBreakerConfig) (id address : String) :
    OwnRow config id fun n => n.messageStore.HasRow id address where
  updateState _ _ _ := Spec.modify fun _ hn => hn.mono (by simp)
  recordActivity _ _ := Spec.modify fun _ hn => hn
  recordEvent _ _ _ := recordEvent_keeps_messages (fun s => s.HasRow id address) _

theorem ownRow_escalatesBut (config : CircuitBreakerConfig) (id p : String) (base : MessageStore) :
    OwnRow config id fun n => n.messageStore.EscalatesBut (some id) p base where
  updateState _ _ _ := Spec.modify fun _ hn => hn.updateState _ _ _
  recordActivity _ _ := Spec.modify fun _ hn => hn
  recordEvent _ _ _ := recordEvent_keeps_messages (fun s => s.EscalatesBut (some id) p base) _

/-- A message of somebody else and its row. -/
def Stranger (p : String) (base : MessageStore) (id address : String) (n : Node) : Prop :=
  n.messageStore.HasRow id address ∧ n.messageStore.EscalatesBut (some id) p base

theorem ownRow_stranger (config : CircuitBreakerConfig) :
    OwnRow config id (Stranger p base id address) :=
  (ownRow_filed config id address).and (ownRow_escalatesBut config id p base)

theorem Stranger.escalates {n : Node} (h : Stranger p base id address n) (hp : address ≠ p) :
    n.messageStore.Escalates p base :=
  h.2.other fun _ hr hid hrow => absurd ((h.1.connectionAddress hr hid).symm.trans hrow) hp

abbrev LeavesEscalated (p : String) (base : MessageStore) : Option Task → Node → Prop :=
  Leaves (·.Escalates p base) fun s task => task.Filed s

theorem Stranger.leaves {n : Node} {message : MessageRecord}
    (h : Stranger p base message.id address n) (hp : address ≠ p) (stage : Stage) :
    LeavesEscalated p base (some (.processing message address stage)) n := by
  refine ⟨h.escalates hp, ?_⟩
  rintro _ ⟨⟩
  exact h.1

/-- A message of the peer goes to the human, and one of somebody else touches its own row only. -/
theorem process_escalates (config : CircuitBreakerConfig) (message : MessageRecord) :
    Spec (fun n => n.connectionStore.HandedOver p ∧ Stranger p base message.id address n)
      (process ctx.now message address)
      (fun stage => LeavesEscalated p base (some (.processing message address stage)))
      (fun _ n => n.messageStore.Escalates p base) := by
  by_cases hp : address = p
  · subst hp
    refine process_rule ?_ ?_ ?_
    · rintro n feed ⟨hover, -⟩ - hmuted
      exact absurd hmuted hover.muted
    · rintro n feed ⟨-, hrow, hbut⟩ - - -
      refine ⟨hbut.escalated _ _, ?_⟩
      rintro _ ⟨⟩
      exact hrow.mono (by simp [Node.withState])
    · rintro n ⟨hover, -⟩ - hpass
      exact absurd hover.passthrough hpass
  · exact (ownRow_stranger config).process.conseq (fun _ h => h.2)
      (fun stage n h => h.leaves hp stage) fun _ n h => h.escalates hp

theorem dispatch_escalates (ctx : CallContext) (envelope : Envelope) :
    Spec (fun n => n.connectionStore.HandedOver p ∧ n.messageStore.Escalates p base)
      (dispatch setup ctx envelope) (LeavesEscalated p base)
      (fun _ n => n.messageStore.Escalates p base) := by
  refine dispatch_rule (fun _ h => h.2) (fun _ _ h => h) (fun _ => ?_) fun _ _ _ _ _ _ _ => trivial
  refine handleIncomingMessage_rule (R := fun message n => n.connectionStore.HandedOver p ∧
    Stranger p base message.id envelope.fromAddress n) (fun _ h => h.2) ?_
    (process_escalates setup.breakerConfig)
  rintro message n store haddress - ⟨hover, hescalates⟩ hstore
  exact ⟨hover, haddress ▸ MessageStore.hasRow_saveMessage hstore, hescalates.saveMessage hstore⟩

theorem resume_escalates (ctx : CallContext) (verdict : Verdict) {task : Task} {n : Node}
    (h : n.messageStore.Escalates p base) (htask : task.Filed n.messageStore)
    (hdisturbs : task.disturbs setup p n.messageStore = false) :
    Spec (· = n) (resume setup ctx verdict task) (LeavesEscalated p base)
      (fun _ n => n.messageStore.Escalates p base) := by
  refine resume_rule h (fun _ _ _ _ => trivial) ?_ ?_
  · rintro message address stage rfl hf
    have hp : address ≠ p := by
      rintro rfl
      simp [Task.disturbs, hf] at hdisturbs
    refine ((ownRow_stranger setup.breakerConfig).pipeline verdict stage).conseq ?_
      (fun next n hn => hn.leaves hp next) fun _ n hn => hn.escalates hp
    rintro _ rfl
    exact ⟨htask, fun r hr _ => h r hr (by simp)⟩
  · rintro confirm key rfl hverify
    refine h.updateState fun r hr hid hp hdirection => ?_
    have hget := MessageStore.getMessage_of_mem hr
    simp [Task.disturbs, hverify, ← hid, hget, hp, hdirection] at hdisturbs

theorem dispatch_filed (ctx : CallContext) (envelope : Envelope) :
    Spec (fun _ => True) (dispatch setup ctx envelope)
      (Leaves (fun _ => True) fun s task => task.Filed s) fun _ _ => True := by
  refine dispatch_rule (fun _ h => h) (fun _ _ h => h) (fun _ => ?_) fun _ _ _ _ _ _ _ => trivial
  refine handleIncomingMessage_rule
    (R := fun message n => n.messageStore.HasRow message.id envelope.fromAddress) (fun _ h => h) ?_
    fun message => ?_
  · exact fun message n store haddress _ _ hstore =>
      haddress ▸ MessageStore.hasRow_saveMessage hstore
  · refine (ownRow_filed setup.breakerConfig _ _).process.conseq (fun _ h => h)
      (fun stage n hn => ⟨trivial, ?_⟩) fun _ _ _ => trivial
    rintro _ ⟨⟩
    exact hn

theorem resume_filed (ctx : CallContext) (verdict : Verdict) {task : Task} {n : Node}
    (htask : task.Filed n.messageStore) :
    Spec (· = n) (resume setup ctx verdict task)
      (Leaves (fun _ => True) fun s task => task.Filed s) fun _ _ => True := by
  refine resume_rule trivial (fun _ _ _ _ => trivial) ?_ fun _ _ _ _ => trivial
  rintro message address stage rfl hf
  refine ((ownRow_filed setup.breakerConfig _ address).pipeline verdict stage).conseq ?_
    (fun next n hn => ⟨trivial, ?_⟩) fun _ _ _ => trivial
  · rintro _ rfl
    exact htask
  · rintro _ ⟨⟩
    exact hn

end Handlers

namespace Host

variable {setup : HostSetup} {p : String} {s s' u : Host} {x : HostLabel} {l : List HostLabel}
  {base : MessageStore}

/-- The input goes on with an undecided message of the peer, or confirms one. -/
def disturbs (setup : Setup) (p : String) (s : Host) : HostLabel → Bool
  | .input (.resume task _ _) =>
    s.running.any fun t =>
      (t.process.tasks task).any (·.disturbs setup p t.process.node.messageStore)
  | _ => false

abbrev Filed (s : Host) : Prop := s.Holds (fun _ => True) fun s task => task.Filed s

theorem filed_step (h : s.Filed) (hs : s.step setup x = some s') : s'.Filed := by
  refine h.step lasting_filed (fun _ _ _ _ => trivial) ?_ hs
  rintro y t rfl ht
  cases y with
  | incoming ctx envelope =>
    exact (dispatch_filed ctx envelope).conseq (fun _ _ => trivial) (fun _ _ h => h) fun _ _ h => h
  | resume task ctx verdict =>
    exact fun v hv => resume_filed ctx verdict ((h.process t ht).tasks task v hv)

abbrev Escalates (p : String) (base : MessageStore) (s : Host) : Prop :=
  s.Holds (·.Escalates p base) fun s task => task.Filed s

theorem escalates_step (h : s.Escalates p base) (hint : s.Intervened p)
    (hspares : x.spares p = true) (hdisturbs : s.disturbs setup.receive p x = false)
    (hs : s.step setup x = some s') : s'.Escalates p base := by
  refine h.step lasting_filed (fun _ _ hposts hi => hposts.escalates hi) ?_ hs
  rintro y t rfl ht
  obtain ⟨hstore, htasks⟩ := h.process t ht
  cases y with
  | incoming ctx envelope =>
    refine (dispatch_escalates ctx envelope).conseq ?_ (fun _ _ h => h) fun _ _ h => h
    rintro _ rfl
    obtain ⟨-, muted, hmuted, hflags⟩ := hint t ht
    have hreplaces : envelope.replaces p = false := by
      simpa [HostLabel.spares, InputLabel.replaces] using hspares
    exact ⟨⟨muted, hmuted, (flags_receive hreplaces).trans hflags⟩, hstore⟩
  | resume task ctx verdict =>
    intro v hv
    refine resume_escalates ctx verdict hstore (htasks task v hv) ?_
    simpa [disturbs, ht, hv] using hdisturbs

/-- While no tool is invoked, what has been received from the peer goes to the human. -/
theorem escalates_run
    (hrun : Run (step setup) (fun s x => s.disturbs setup.receive p x = false) s l u)
    (hnone : ∀ x ∈ l, x.invokes = false) (hspares : ∀ x ∈ l, x.spares p = true)
    (hint : s.Intervened p) (h : s.Escalates p base) : u.Intervened p ∧ u.Escalates p base := by
  induction hrun with
  | nil => exact ⟨hint, h⟩
  | snoc _ hok hs ih =>
    obtain ⟨hint', h'⟩ := ih (fun x hx => hnone x (by simp [hx]))
      fun x hx => hspares x (by simp [hx])
    have hx := hspares _ (List.mem_append_right _ (List.mem_singleton_self _))
    refine ⟨(intervened_step hint' (hnone _ (by simp)) hx hs).1, ?_⟩
    exact escalates_step h' hint' hx hok hs

/-- From the moment `pinch-intervene --start` has set the flag of an unmuted connection and saved
it, the stored flag stays set exactly as long as no tool is invoked. Until then every message that
arrives from the peer is escalated to the human; and as long as no message of the peer that was
left undecided before goes on, and no verified confirmation names one, every message of the peer
is with the human or is as it was when the flag was set. -/
theorem passthrough_until_invocation {s₀ : Host} {before : List HostLabel} {ctx : SendContext}
    {t : ToolProcess} {c : Connection} (hidle : s₀.running = none)
    (hbefore : Run (step setup) (fun _ _ => True) s₀ before s) (ht : s.running = some t)
    (htool : t.tool = .intervene .start p) (hc : t.store.getConnection p = some c)
    (hmuted : c.muted ≠ some true) (hs : s.step setup (.command ctx) = some s')
    (hrun : Run (step setup) (fun _ x => x.spares p = true) s' l u) (hsave : HostLabel.save ∈ l) :
    (u.connectionsJson.passthrough p = some true ↔ ∀ x ∈ l, x.invokes = false) ∧
    ((∀ x ∈ l, x.invokes = false) →
      (∀ ctx e v, e.type = .message → e.fromAddress = p →
        u.step setup (.input (.incoming ctx e)) = some v →
        ∃ t t', u.running = some t ∧ v.running = some t' ∧
          ∀ task ∈ t'.process.tasks t.process.started, task.Escalated p t'.process.node) ∧
      (Run (step setup) (fun s x => s.disturbs setup.receive p x = false) s' l u →
        ∀ r ∈ u.journal.messageStore.rows, r.connectionAddress = p → r.direction = .inbound →
          r.state = "escalated_to_human" ∨ r ∈ s'.journal.messageStore.rows)) := by
  have hint := intervened_command ht htool hc hmuted hs
  rcases intervened_or_ended hint hrun with ⟨hnone, hint', hsaved⟩ | ⟨⟨x, hx, hinvokes⟩, hended⟩
  · refine ⟨iff_of_true (hsaved hsave).passthrough hnone, fun _ => ⟨?_, fun hquiet => ?_⟩⟩
    · intro ctx e v htype hfrom hv
      obtain ⟨t, process, ht, hprocess, rfl⟩ := input_eq_some hv
      subst hfrom
      exact ⟨t, _, ht, rfl, incoming_escalated (hint' t ht).2 htype hprocess⟩
    · have hfiled : s'.Filed := filed_step (hbefore.invariant (P := Filed)
        ⟨trivial, by simp [hidle]⟩ fun _ _ _ h _ hs => filed_step h hs) hs
      have hstart : s'.Escalates p s'.journal.messageStore := by
        refine ⟨fun r hr _ _ _ => .inr hr, fun t ht => ⟨?_, (hfiled.process t ht).tasks⟩⟩
        intro r hr _ _ _
        rw [journal, Option.mem_def.1 ht]
        exact .inr hr
      have hspares : ∀ x ∈ l, x.spares p = true := hrun.forall_label
      exact fun r hr => (escalates_run hquiet hnone hspares hint hstart).2.store r hr (by simp)
  · have hno : ¬ ∀ x ∈ l, x.invokes = false := fun h => by simp [h x hx] at hinvokes
    exact ⟨iff_of_false hended.file hno, fun h => absurd h hno⟩

/-- A message arrives once the flag is saved, and its confirmation is about to be signed. -/
def greeted : List HostLabel :=
  [.save, .input (.incoming otherContext sentEnvelope), .input (.resume 0 otherContext none)]

theorem passthrough_until_invocation_greeting :
    ∃ u, Run (step toolSetup) (fun _ x => x.spares vectorAddress = true) intervened greeted u ∧
      u.connectionsJson.passthrough vectorAddress = some true ∧
      intervened.journal.messageStore.rows = [] ∧
      (u.journal.messageStore.rows.map fun r => (r.id, r.connectionAddress, r.direction)) =
        [(sentId, vectorAddress, .inbound)] ∧
      ∀ r ∈ u.journal.messageStore.rows, r.state = "escalated_to_human" := by
  have heval : (exec (step toolSetup) (fun s x => x.spares vectorAddress = true ∧
      s.disturbs toolSetup.receive vectorAddress x = false) intervened greeted).map
        (fun u => u.journal.messageStore.rows.map fun r =>
          (r.id, r.connectionAddress, r.direction)) =
      some [(sentId, vectorAddress, .inbound)] := by decide +kernel
  obtain ⟨u, hu, hrows⟩ := Option.map_eq_some_iff.1 heval
  have hrun := Run.of_exec hu
  have hspares : Run (step toolSetup) (fun _ x => x.spares vectorAddress = true) intervened greeted
      u := hrun.imp fun _ _ h => h.1
  have hnone : ∀ x ∈ greeted, x.invokes = false := by decide +kernel
  have hbefore : Run (step toolSetup) (fun _ _ => True) ⟨peerStore, ⟨.empty, [], ∅⟩, none⟩
      [.invoke (.intervene .start vectorAddress)] intervening := .snoc .nil trivial rfl
  obtain ⟨hflag, hescalated⟩ := passthrough_until_invocation
    (c := { trustedPeer with
      peerAddress := vectorAddress
      peerPublicKey := some (Base64.encode vectorKey) })
    rfl hbefore rfl rfl (by decide +kernel) (by decide) (Option.some_get _).symm hspares
    (by simp [greeted])
  have hempty : intervened.journal.messageStore.rows = [] := by decide +kernel
  refine ⟨u, hspares, hflag.2 hnone, hempty, hrows, fun r hr => ?_⟩
  have hrow : (r.id, r.connectionAddress, r.direction) ∈ [(sentId, vectorAddress, .inbound)] :=
    hrows ▸ List.mem_map_of_mem hr
  simp only [List.mem_singleton, Prod.mk.injEq] at hrow
  have hrest : r.state = "escalated_to_human" ∨ r ∈ intervened.journal.messageStore.rows :=
    (hescalated hnone).2 (hrun.imp fun _ _ h => h.2) r hr hrow.2.1 hrow.2.2
  simpa [hempty] using hrest

/-- The peer asks for a connection once more. -/
def requestFromVector : Envelope where
  type := .connectionRequest
  payload := .connectionRequest ⟨vectorAddress, "pinch:other@relay", "hi", vectorKey, 0⟩

/-- The first identity's Ed25519 signature over the id of the message and the time zero. -/
def authorSignature : Bytes :=
  [253, 82, 71, 243, 43, 150, 65, 200, 216, 54, 83, 239, 154, 145, 207, 164,
   53, 159, 35, 114, 59, 84, 213, 165, 94, 214, 151, 191, 94, 197, 38, 81,
   229, 206, 12, 162, 92, 188, 179, 220, 118, 231, 78, 215, 108, 33, 156, 20,
   184, 73, 11, 72, 209, 79, 235, 50, 42, 7, 172, 157, 21, 127, 113, 7]

/-- The author confirms its own message. -/
def authorConfirmation : Envelope where
  fromAddress := vectorAddress
  type := .deliveryConfirm
  payload := .deliveryConfirm ⟨textEncode sentId, authorSignature, 0, "read_by_agent", false⟩

def authorSetup : HostSetup :=
  { toolSetup with
    receive := { sentSetup with
      lib := { sentLibraries with
        verifyDetached := fun signature payload key => some (decide (signature = authorSignature ∧
          payload = buildPayload (textEncode sentId) 0 ∧ key = vectorKey)) } } }

/-- The stored flag, and the state of the message with which the file or the tool knows it. -/
def outcome (u : Host) : Option Bool × Option String :=
  (u.connectionsJson.passthrough vectorAddress,
    (u.journal.messageStore.getMessage sentId).map (·.state))

/-- A look at the history ends the passthrough, and the agent reads the next message by itself. A
new request of the peer ends it as well. While the flag is set, a message that came before it is
read by the agent all the same, and one that has gone to the human is taken back by a confirmation
of its author. -/
theorem passthrough_ended_by_other_tool :
    (∃ u, Run (step toolSetup) (fun _ _ => True) intervened
        [.save, .exit, .invoke .history, .input (.incoming otherContext sentEnvelope),
          .input (.resume 0 otherContext none)] u ∧
      outcome u = (some false, some "read_by_agent")) ∧
    (∃ u, Run (step toolSetup) (fun _ _ => True) intervened
        [.save, .input (.incoming otherContext requestFromVector), .save] u ∧
      u.connectionsJson.passthrough vectorAddress = none) ∧
    (∃ u, Run (step toolSetup) (fun _ _ => True) intervening
        [.input (.incoming otherContext sentEnvelope), .command toolContext, .save,
          .input (.resume 0 otherContext none)] u ∧
      outcome u = (some true, some "read_by_agent")) ∧
    ∃ u, Run (step authorSetup) (fun _ _ => True) intervened
        [.save, .input (.incoming otherContext sentEnvelope),
          .input (.incoming otherContext authorConfirmation),
          .input (.resume 1 otherContext none)] u ∧
      outcome u = (some true, some "read_by_agent") := by
  have hread {setup : HostSetup} {s : Host} {l : List HostLabel} {flag : Bool}
      (h : (exec (step setup) (fun _ _ => True) s l).map outcome =
        some (some flag, some "read_by_agent")) :
      ∃ u, Run (step setup) (fun _ _ => True) s l u ∧
        outcome u = (some flag, some "read_by_agent") := by
    obtain ⟨u, hu, houtcome⟩ := Option.map_eq_some_iff.1 h
    exact ⟨u, Run.of_exec hu, houtcome⟩
  have hrequest : (exec (step toolSetup) (fun _ _ => True) intervened
      [.save, .input (.incoming otherContext requestFromVector), .save]).map
        (fun u => u.connectionsJson.passthrough vectorAddress) = some none := by decide +kernel
  obtain ⟨v, hv, hnone⟩ := Option.map_eq_some_iff.1 hrequest
  exact ⟨hread (by decide +kernel), ⟨v, Run.of_exec hv, hnone⟩, hread (by decide +kernel),
    hread (by decide +kernel)⟩

end Host

end Pinch
