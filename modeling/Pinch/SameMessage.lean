import Pinch.Replay
import Pinch.SendMessage

/-! The two ends of a message. What the sender stores and what the recipient stores agree on
everything but the priority, which is not on the wire. -/

namespace Pinch

open MessageManager Transition

/-- What the encodings are trusted for. `Pair` says which private key belongs to a public one. -/
structure RoundTrips (lib : SendLibraries) (Pair : Bytes → Bytes → Prop) : Prop where
  box : ∀ {publicKey privateKey peerKey peerPrivateKey x y plaintext nonce ciphertext : Bytes},
    Pair publicKey privateKey → Pair peerKey peerPrivateKey →
    lib.skToCurve25519 privateKey = some x → lib.pkToCurve25519 peerKey = some y →
    lib.boxEasy plaintext nonce y x = some ciphertext →
    ∃ x' y', lib.pkToCurve25519 publicKey = some x' ∧
      lib.skToCurve25519 peerPrivateKey = some y' ∧
      lib.boxOpenEasy ciphertext nonce x' y' = some plaintext
  plaintext : ∀ {p : PlaintextPayload} {b : Bytes},
    lib.plaintextToBinary p = some b → lib.plaintextFromBinary b = some p
  json : ∀ {w : Wrapper} {text : String},
    lib.stringifyJson w.json = some text → lib.parseJson text = some w.json
  brace : ∀ {w : Wrapper} {text : String},
    lib.stringifyJson w.json = some text → text.toList.head? = some '\x7b'

/-- The fields of a message that both ends store, apart from the priority. -/
structure MessageRecord.Agrees (r r' : MessageRecord) : Prop where
  id : r'.id = r.id
  body : r'.body = r.body
  threadId : r'.threadId = r.threadId
  replyTo : r'.replyTo = r.replyTo
  sequence : r'.sequence = r.sequence
  attribution : r'.attribution = r.attribution

/-- The table holds an inbound row that agrees with the message. -/
def MessageStore.Seen (out : MessageRecord) (store : MessageStore) : Prop :=
  ∃ row, store.getMessage out.id = some row ∧ row.direction = .inbound ∧ row.priority = .normal ∧
    out.Agrees row

section Later

variable {out : MessageRecord} {setup : Setup} {s t : Process}

theorem MessageStore.Seen.updateState {store : MessageStore} (h : store.Seen out) (now : Int)
    (id state : String) (reason : Option String) :
    (store.updateState now id state reason).Seen out := by
  obtain ⟨row, hrow, hdirection, hpriority, hagrees⟩ := h
  refine ⟨MessageStore.written now id state reason row, ?_, ?_⟩
  · rw [MessageStore.getMessage_updateState, hrow]
    rfl
  · unfold MessageStore.written
    split
    · exact ⟨hdirection, hpriority, ⟨hagrees.id, hagrees.body, hagrees.threadId, hagrees.replyTo,
        hagrees.sequence, hagrees.attribution⟩⟩
    · exact ⟨hdirection, hpriority, hagrees⟩

theorem stable_seen (config : CircuitBreakerConfig) (out : MessageRecord) :
    Stable config (fun n => n.messageStore.Seen out) :=
  .of_messageStore _ config fun _ _ _ _ _ h => h.updateState _ _ _ _

/-- The table takes no second row under the id. -/
theorem saveMessage_seen (message : MessageRecord) :
    Keeps (fun n : Node => n.messageStore.Seen out) (Node.saveMessage message) := by
  refine Spec.get_bind fun n => ?_
  split
  · rename_i store hstore
    refine Spec.modify ?_
    rintro _ ⟨rfl, row, hrow, hrest⟩
    obtain ⟨hnone, hget⟩ := MessageStore.getMessage_saveMessage hstore
    have hne : out.id ≠ message.id := by
      intro heq
      rw [heq, hnone] at hrow
      cases hrow
    exact ⟨row, by rw [hget, if_neg hne, hrow], hrest⟩
  · exact Spec.throw fun _ h => h.2

theorem seen_step {label : ProcessLabel} (h : s.node.messageStore.Seen out)
    (hs : s.step setup label = some t) : t.node.messageStore.Seen out := by
  have hstable := stable_seen setup.breakerConfig out
  cases label with
  | incoming ctx envelope =>
    obtain rfl := Option.some.inj hs
    have hkeeps : Keeps (fun n : Node => n.messageStore.Seen out) (dispatch setup ctx envelope) :=
      hstable.quiet.dispatch fun _ message _ _ => saveMessage_seen message
    exact hkeeps.finalState h
  | resume task ctx verdict =>
    obtain ⟨t, -, rfl⟩ := Option.map_eq_some_iff.1 hs
    exact (hstable.resume verdict t).finalState h
  | approveMessage now messageId action =>
    obtain rfl := Option.some.inj hs
    exact (hstable.approveMessage messageId action).finalState h
  | connections store =>
    obtain rfl := Option.some.inj hs
    exact h

end Later

section Arrival

variable {setup : SendSetup} {Pair : Bytes → Bytes → Prop} {ctx : SendContext}
  {params : SendMessageParams} {peerKey privateKey ciphertext : Bytes} {threadId wrapped : String}
  {sequence : Nat}

theorem SendContext.textDecode_messageId (ctx : SendContext) :
    textDecode (textEncode ctx.messageId) = ctx.messageId := by
  refine textDecode_textEncode fun h => ?_
  have hmem := ctx.messageId_chars _ (List.mem_of_head? h)
  exact absurd hmem (by decide)

/-- The fields that the recipient reads are those that the sender wrapped. -/
theorem wrapperContent_json (rawBody : String) (w : Wrapper) : wrapperContent rawBody w.json =
    { body := some w.text
      attribution := w.attribution
      threadId := some w.threadId
      replyTo := w.replyTo } := by
  obtain ⟨text, attribution, threadId, replyTo⟩ := w
  cases attribution <;> cases replyTo <;> rfl

theorem readContent_wrapped (hlib : RoundTrips setup.lib Pair)
    (h : setup.lib.stringifyJson (wrapper params threadId).json = some wrapped) :
    readContent setup.lib.toLibraries (plaintextPayload ctx sequence wrapped) =
      { body := some params.body
        attribution := params.attribution.getD .agent
        threadId := some threadId
        replyTo := params.replyTo } := by
  have hraw : textDecode (textEncode wrapped) = wrapped := by
    refine textDecode_textEncode ?_
    rw [hlib.brace h]
    decide
  simp only [readContent, plaintextPayload, if_true, hraw, hlib.json h, wrapperContent_json]
  rfl

theorem openPayload_sealed (hlib : RoundTrips setup.lib Pair)
    (hown : Pair setup.publicKey setup.privateKey) (hpeer : Pair peerKey privateKey)
    (config : CircuitBreakerConfig)
    (h : Sealed setup ctx params peerKey threadId sequence ciphertext) :
    ∃ wrapped, setup.lib.stringifyJson (wrapper params threadId).json = some wrapped ∧
      openPayload ⟨setup.lib.toLibraries, privateKey, config⟩
        ⟨ctx.nonce, ciphertext, setup.publicKey⟩ =
          pure (plaintextPayload ctx sequence wrapped) := by
  obtain ⟨wrapped, plaintext, x, y, hw, hp, hx, hy, hbox⟩ := h
  obtain ⟨x', y', hx', hy', hopen⟩ := hlib.box hown hpeer hx hy hbox
  refine ⟨wrapped, hw, ?_⟩
  have hdecrypt : decrypt setup.lib.toLibraries (ctx.nonce ++ ciphertext) x' y' =
      some plaintext := by
    rw [decrypt, ← ctx.nonce_length, List.drop_left, List.take_left, hopen]
  simp only [openPayload, hx', hy', hdecrypt, hlib.plaintext hp, orThrow, pure_bind]

theorem inboundMessage_agrees (ctx' : CallContext) (fromAddress wrapped : String)
    (hdouble : toDouble sequence = sequence) :
    (outboundMessage ctx params threadId sequence).Agrees
      (inboundMessage ctx' fromAddress ctx.messageId (plaintextPayload ctx sequence wrapped)
        { body := some params.body
          attribution := params.attribution.getD .agent
          threadId := some threadId
          replyTo := params.replyTo } params.body) :=
  ⟨rfl, rfl, rfl, rfl, hdouble, rfl⟩

theorem saveMessage_empty (out : MessageRecord) {message : MessageRecord}
    (hdirection : message.direction = .inbound) (hpriority : message.priority = .normal)
    (hagrees : out.Agrees message) :
    Spec (fun n : Node => n.messageStore.rows = []) (Node.saveMessage message)
      (fun _ n => n.messageStore.Seen out) (fun _ _ => False) := by
  intro n hn
  obtain ⟨store, hstore⟩ : ∃ store, n.messageStore.saveMessage message = .ok store :=
    ⟨_, dif_neg (by simp [hn])⟩
  have hget := (MessageStore.getMessage_saveMessage hstore).2 out.id
  rw [if_pos hagrees.id.symm] at hget
  simp only [Node.saveMessage, EStateM.run_bind, EStateM.run_get, hstore, EStateM.run_modify]
  exact ⟨message, hget, hdirection, hpriority, hagrees⟩

/-- The first part of the recipient's handler, on the envelope as it was sent. -/
theorem dispatch_seen (hlib : RoundTrips setup.lib Pair)
    (hown : Pair setup.publicKey setup.privateKey) (hpeer : Pair peerKey privateKey)
    (config : CircuitBreakerConfig) (ctx' : CallContext) (fromAddress : String)
    (hdouble : toDouble sequence = sequence)
    (h : Sealed setup ctx params peerKey threadId sequence ciphertext) :
    Spec (fun n => n.messageStore.rows = [])
      (dispatch ⟨setup.lib.toLibraries, privateKey, config⟩ ctx'
        (messageEnvelope setup ctx params fromAddress (ctx.nonce ++ ciphertext)))
      (fun _ n => n.messageStore.Seen (outboundMessage ctx params threadId sequence))
      (fun _ n => n.messageStore.Seen (outboundMessage ctx params threadId sequence)) := by
  obtain ⟨wrapped, hw, hopen⟩ := openPayload_sealed hlib hown hpeer config h
  have hpayload : (messageEnvelope setup ctx params fromAddress (ctx.nonce ++ ciphertext)).payload =
      .encrypted ⟨ctx.nonce, ciphertext, setup.publicKey⟩ := by
    rw [messageEnvelope, ← ctx.nonce_length, List.take_left, List.drop_left]
  refine Spec.bind (R := fun _ n => n.messageStore.rows = []) (Spec.modify fun n hn => ?_) fun _ => ?_
  · simp only
    split
    · exact hn
    · exact hn
  change Spec _ (handleIncomingMessage _ ctx' _) _ _
  unfold handleIncomingMessage
  rw [hpayload]
  simp only [hopen, pure_bind, readContent_wrapped hlib hw, orThrow]
  rw [show (messageEnvelope setup ctx params fromAddress (ctx.nonce ++ ciphertext)).messageId =
    textEncode ctx.messageId from rfl, ctx.textDecode_messageId]
  have hsave := saveMessage_empty (outboundMessage ctx params threadId sequence) rfl rfl
    (inboundMessage_agrees ctx' fromAddress wrapped hdouble)
  refine Spec.bind (hsave.conseq (fun _ h => h) (fun _ _ h => h) fun _ _ h => h.elim) fun _ => ?_
  exact Spec.bind (stable_seen config _).quiet.process fun _ => Spec.pure fun _ h => h

/-- Every message that `sendMessage` accepts is stored on both sides with the same id, text,
thread, reply, number and attribution, now and as long as the recipient runs. The priority is the
same exactly if it is the normal one. -/
theorem same_message_seen (hlib : RoundTrips setup.lib Pair)
    (hown : Pair setup.publicKey setup.privateKey) {s t : Sender} {id : String}
    (hsend : (sendMessage setup ctx params).run s = .ok id t) :
    ∃ envelope out, t.outbox = s.outbox ++ [envelope] ∧
      t.messageStore.getMessage id = some out ∧ out.direction = .outbound ∧
      ∀ privateKey config node ctx' p l q,
        (∀ key, s.connectionStore.getPeerPublicKey setup.lib.sha256 params.recipient = some key →
          Pair key privateKey) →
        node.messageStore.rows = [] →
        (Process.idle node).step ⟨setup.lib.toLibraries, privateKey, config⟩
          (.incoming ctx' envelope) = some p →
        Run (Process.step ⟨setup.lib.toLibraries, privateKey, config⟩) (fun _ _ => True) p l q →
        ∃ row, q.node.messageStore.getMessage id = some row ∧ row.direction = .inbound ∧
          out.Agrees row ∧ (row.priority = out.priority ↔ params.priority.getD .normal = .normal) := by
  obtain ⟨rfl, peerKey, threadId, sequence, fromAddress, ciphertext, hsent⟩ := sendMessage_ok hsend
  refine ⟨_, _, hsent.outbox, hsent.row, rfl, ?_⟩
  intro privateKey config node ctx' p l q hpeer hempty hstep hrun
  have hfirst : p.node.messageStore.Seen (outboundMessage ctx params threadId sequence) := by
    obtain rfl := Option.some.inj hstep
    exact (dispatch_seen hlib hown (hpeer peerKey hsent.key) config ctx' fromAddress hsent.double
      hsent.sealed).finalState hempty
  obtain ⟨row, hrow, hdirection, hpriority, hagrees⟩ := hrun.invariant
    (P := fun s => s.node.messageStore.Seen (outboundMessage ctx params threadId sequence)) hfirst
    fun _ _ _ h _ hs => seen_step h hs
  refine ⟨row, hrow, hdirection, hagrees, ?_⟩
  rw [hpriority, eq_comm]
  rfl

end Arrival

section Hello

def otherAddress : String := "pinch:other@relay"

def helloPlaintext : PlaintextPayload := ⟨1, 1, 1000, textEncode sentText, pinchJson⟩

def helloEnvelope : Envelope := { sentEnvelope with toAddress := otherAddress }

def helloBytes : Bytes :=
  [8, 1, 18, 78] ++ textEncode vectorAddress ++ [26, 17] ++ textEncode otherAddress ++
  [32, 4, 42, 36] ++ textEncode sentId ++ [48, 232, 7, 82, 202, 1, 10, 24] ++ forgedNonce ++
  [18, 139, 1] ++ sentCiphertext ++ [26, 32] ++ vectorKey

/-- The libraries as both ends use them for the one message. -/
def helloLibraries : SendLibraries := { sentLibraries with
  skToCurve25519 := fun k =>
    if k = otherPrivateKey then some otherX25519Private
    else if k = vectorPrivateKey then some vectorX25519Private
    else none
  boxEasy := fun plaintext nonce x y =>
    if plaintext = sentPlaintext ∧ nonce = forgedNonce ∧ x = otherX25519 ∧ y = vectorX25519Private
    then some sentCiphertext else none
  plaintextToBinary := fun p => if p = helloPlaintext then some sentPlaintext else none
  envelopeToBinary := fun envelope => if envelope = helloEnvelope then some helloBytes else none
  stringifyJson := fun json =>
    if jsonString (json.get "text") = some "hello" ∧
      jsonString (json.get "attribution") = some "agent" ∧
      jsonString (json.get "threadId") = some sentId ∧ jsonString (json.get "replyTo") = none
    then some sentText else none }

def vectorPair (publicKey privateKey : Bytes) : Prop :=
  publicKey = vectorKey ∧ privateKey = vectorPrivateKey ∨
    publicKey = otherKey ∧ privateKey = otherPrivateKey

theorem stringifyJson_hello {w : Wrapper} {text : String}
    (h : helloLibraries.stringifyJson w.json = some text) :
    text = sentText ∧ w = ⟨"hello", .agent, sentId, none⟩ := by
  obtain ⟨body, attribution, threadId, replyTo⟩ := w
  obtain ⟨⟨hbody, hattribution, hthread, hreply⟩, htext⟩ := Option.ite_none_right_eq_some.1 h
  obtain rfl : body = "hello" := Option.some.inj hbody
  obtain rfl : threadId = sentId := Option.some.inj hthread
  cases attribution with
  | human =>
    have heq : "human" = "agent" := Option.some.inj hattribution
    exact absurd heq (by decide)
  | agent =>
    cases replyTo with
    | none => exact ⟨(Option.some.inj htext).symm, rfl⟩
    | some r => cases hreply

theorem roundTrips_hello : RoundTrips helloLibraries vectorPair where
  box := by
    intro publicKey privateKey peerKey peerPrivateKey x y plaintext nonce ciphertext hown hpeer hx hy
      hbox
    obtain ⟨⟨rfl, rfl, rfl, rfl⟩, hc⟩ := Option.ite_none_right_eq_some.1 hbox
    obtain rfl := Option.some.inj hc
    rcases hown with ⟨rfl, rfl⟩ | ⟨rfl, rfl⟩
    · rcases hpeer with ⟨rfl, rfl⟩ | ⟨rfl, rfl⟩
      · exact absurd hy (by decide +kernel)
      · exact ⟨vectorX25519, otherX25519Private, by decide +kernel, by decide +kernel,
          by decide +kernel⟩
    · exact absurd hx (by decide +kernel)
  plaintext := by
    intro p b h
    obtain ⟨rfl, hb⟩ := Option.ite_none_right_eq_some.1 h
    obtain rfl := Option.some.inj hb
    decide +kernel
  json := by
    intro w text h
    obtain ⟨rfl, rfl⟩ := stringifyJson_hello h
    simp [helloLibraries, sentLibraries, Wrapper.json, Attribution.name]
  brace := by
    intro w text h
    obtain ⟨rfl, -⟩ := stringifyJson_hello h
    decide +kernel

def helloSetup : SendSetup := ⟨helloLibraries, vectorKey, vectorPrivateKey⟩

theorem sentId_chars : ∀ c ∈ sentId.toList, c ∈ uuidAlphabet := by
  have hall : sentId.toList.all (uuidAlphabet.contains ·) = true := by decide +kernel
  intro c hc
  exact List.contains_iff_mem.1 (List.all_eq_true.1 hall c hc)

def helloContext : SendContext where
  assignedAddress := some vectorAddress
  connected := true
  publicKey := some vectorKey
  now := 1000
  saveError := none
  messageId := sentId
  messageId_chars := sentId_chars
  nonce := forgedNonce
  nonce_length := rfl

def helloSender : Sender where
  toNode := .withConnections (AList.insert otherAddress
    { trustedPeer with
      peerAddress := otherAddress
      peerPublicKey := some (Base64.encode otherKey) } ∅)
  sequences := ∅

def hello (priority : Option Priority) : SendMessageParams where
  recipient := otherAddress
  body := "hello"
  priority := priority

def helloReceiver : Process := .idle (.withConnections peerStore)

def helloSent (priority : Option Priority) : EStateM.Result String Sender String :=
  (sendMessage helloSetup helloContext (hello priority)).run helloSender

theorem same_message_seen_hello :
    ∃ t out p row, helloSent none = .ok sentId t ∧ t.messageStore.getMessage sentId = some out ∧
      helloReceiver.step ⟨helloLibraries.toLibraries, otherPrivateKey, {}⟩
        (.incoming otherContext helloEnvelope) = some p ∧
      p.node.messageStore.getMessage sentId = some row ∧ out.Agrees row ∧
      row.priority = out.priority := by
  have hrun : (returned (helloSent none), (finalState (helloSent none)).outbox) =
      (some sentId, [helloEnvelope]) := by decide +kernel
  obtain ⟨hreturned, hsent⟩ := Prod.mk.inj hrun
  have hsend := eq_ok_of_returned hreturned
  obtain ⟨envelope, out, houtbox, hout, -, hseen⟩ :=
    same_message_seen roundTrips_hello (.inl ⟨rfl, rfl⟩) hsend
  obtain rfl : helloEnvelope = envelope := List.singleton_inj.1 (hsent.symm.trans houtbox)
  have hother : helloSender.connectionStore.getPeerPublicKey helloLibraries.sha256
      otherAddress = some otherKey := by decide +kernel
  have hpeer : ∀ key, helloSender.connectionStore.getPeerPublicKey helloLibraries.sha256
      otherAddress = some key → vectorPair key otherPrivateKey :=
    fun key hkey => .inr ⟨Option.some.inj (hkey.symm.trans hother), rfl⟩
  obtain ⟨row, hrow, -, hagrees, hpriority⟩ := hseen otherPrivateKey {} (.withConnections peerStore)
    otherContext _ [] _ hpeer rfl rfl .nil
  exact ⟨_, out, _, row, hsend, hout, rfl, hrow, hagrees, hpriority.2 rfl⟩

/-- An urgent message is urgent for its sender only. -/
theorem urgent_priority_lost :
    ∃ t p, helloSent (some .urgent) = .ok sentId t ∧ t.outbox = [helloEnvelope] ∧
      helloReceiver.step ⟨helloLibraries.toLibraries, otherPrivateKey, {}⟩
        (.incoming otherContext helloEnvelope) = some p ∧
      (t.messageStore.getMessage sentId).map (·.priority) = some .urgent ∧
      (p.node.messageStore.getMessage sentId).map (·.priority) = some .normal := by
  have hrun : (returned (helloSent (some .urgent)), (finalState (helloSent (some .urgent))).outbox,
      ((finalState (helloSent (some .urgent))).messageStore.getMessage sentId).map (·.priority)) =
      (some sentId, [helloEnvelope], some .urgent) := by decide +kernel
  simp only [Prod.mk.injEq] at hrun
  obtain ⟨hreturned, hsent, hurgent⟩ := hrun
  exact ⟨_, _, eq_ok_of_returned hreturned, hsent, rfl, hurgent, by decide +kernel⟩

end Hello

end Pinch
