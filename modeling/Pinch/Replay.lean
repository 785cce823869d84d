import Pinch.MessageFrame

/-! Messages that the network delivers again. The table refuses a second row under one
message id, and nothing else tells a repeated payload from a new one. -/

namespace Pinch

open MessageManager Transition

/-- The bytes that the recipient opens. -/
def EncryptedPayload.sealed (payload : EncryptedPayload) : Bytes :=
  payload.nonce ++ payload.ciphertext

def Envelope.sealed (envelope : Envelope) : List Bytes :=
  match envelope.payload with
  | .encrypted payload => [payload.sealed]
  | _ => []

theorem Envelope.sealed_nodup (envelope : Envelope) : envelope.sealed.Nodup := by
  unfold Envelope.sealed
  split
  · exact List.nodup_singleton _
  · exact List.nodup_nil

def MessageStore.ids (s : MessageStore) : List String :=
  s.rows.map (·.id)

/-- The recipient, with the sealed payloads that have led to a new row. -/
structure Receiving where
  process : Process
  received : List Bytes

inductive ReceivingLabel
  | process (label : ProcessLabel)
  /-- The row of a message that the agent sends itself. -/
  | outbound (message : MessageRecord)
  /-- Only what is on disk survives. -/
  | restart (node : Node)

namespace Receiving

def start (node : Node) : Receiving := ⟨.idle node, []⟩

/-- The payload of an envelope that has made the table grow. -/
def newlyReceived (before after : MessageStore) : ProcessLabel → List Bytes
  | .incoming _ envelope => if before.rows.length < after.rows.length then envelope.sealed else []
  | _ => []

def step (setup : Setup) (s : Receiving) : ReceivingLabel → Option Receiving
  | .process label => (s.process.step setup label).map fun t =>
      ⟨t, s.received ++ newlyReceived s.process.node.messageStore t.node.messageStore label⟩
  | .outbound message =>
    match s.process.node.messageStore.saveMessage message with
    | .ok store =>
      let node := { s.process.node with messageStore := store }
      some { s with process := { s.process with node := node } }
    | .error _ => some s
  | .restart node =>
    some ⟨.idle { node with messageStore := s.process.node.messageStore }, s.received⟩

/-- A message that repeats a received payload carries an id that the table has. -/
def IdKnown (s : Receiving) : ReceivingLabel → Prop
  | .process (.incoming _ envelope) =>
    envelope.type = .message → (∃ b ∈ envelope.sealed, b ∈ s.received) →
      textDecode envelope.messageId ∈ s.process.node.messageStore.ids
  | _ => True

instance (s : Receiving) (x : ReceivingLabel) : Decidable (s.IdKnown x) :=
  match x with
  | .process (.incoming _ _) => inferInstanceAs (Decidable (_ → _ → _))
  | .process (.resume ..) => isTrue trivial
  | .process (.approveMessage ..) => isTrue trivial
  | .process (.connections _) => isTrue trivial
  | .outbound _ => isTrue trivial
  | .restart _ => isTrue trivial

variable {setup : Setup} {s s' : Receiving}

theorem stable_ids (config : CircuitBreakerConfig) (l : List String) :
    Stable config (fun n => n.messageStore.ids = l) := by
  refine .of_messageStore (fun s => s.ids = l) config fun s now id state reason h => ?_
  rw [← h]
  simp [MessageStore.ids, MessageStore.updateState]

theorem saveMessage_known {message : MessageRecord} {l : List String} (h : message.id ∈ l) :
    Keeps (fun n : Node => n.messageStore.ids = l) (Node.saveMessage message) := by
  rintro n rfl
  have hsave : n.messageStore.saveMessage message =
      .error "UNIQUE constraint failed: messages.id" := dif_pos h
  simp [Node.saveMessage, hsave]

/-- An envelope stores nothing if it is no message or its id is in the table. -/
theorem dispatch_keeps_ids (setup : Setup) (ctx : CallContext) {envelope : Envelope} {n : Node}
    (h : envelope.type = .message → textDecode envelope.messageId ∈ n.messageStore.ids) :
    (finalState ((dispatch setup ctx envelope).run n)).messageStore.ids = n.messageStore.ids := by
  have hstable := stable_ids setup.breakerConfig n.messageStore.ids
  have hspec : Keeps (fun m : Node => m.messageStore.ids = n.messageStore.ids)
      (dispatch setup ctx envelope) :=
    hstable.quiet.dispatch fun ht message hm _ => saveMessage_known (hm ▸ h ht)
  exact hspec.finalState rfl

theorem length_ids (s : MessageStore) : s.ids.length = s.rows.length :=
  List.length_map _

theorem nodup_step {x : ReceivingLabel} (h : s.received.Nodup) (hok : s.IdKnown x)
    (hs : s.step setup x = some s') : s'.received.Nodup := by
  cases x with
  | process label =>
    obtain ⟨t, ht, rfl⟩ := Option.map_eq_some_iff.1 hs
    cases label with
    | incoming ctx envelope =>
      obtain rfl := Option.some.inj ht
      simp only [newlyReceived]
      split
      · rename_i hgrown
        have hnew : ∀ b ∈ envelope.sealed, b ∉ s.received := by
          intro b hb hmem
          have hids := dispatch_keeps_ids setup ctx fun ht => hok ht ⟨b, hb, hmem⟩
          have hlen := congrArg List.length hids
          rw [length_ids, length_ids] at hlen
          omega
        refine List.nodup_append'.2 ⟨h, envelope.sealed_nodup, fun b hmem hb => hnew b hb hmem⟩
      · simpa using h
    | resume task ctx verdict => simpa [newlyReceived] using h
    | approveMessage now messageId action => simpa [newlyReceived] using h
    | connections store => simpa [newlyReceived] using h
  | outbound message =>
    simp only [step] at hs
    split at hs
    all_goals
      obtain rfl := Option.some.inj hs
      exact h
  | restart node =>
    obtain rfl := Option.some.inj hs
    exact h

end Receiving

/-- Where a repeated payload always comes with a known id, no sealed payload is received
twice. -/
theorem received_nodup (setup : Setup) (node : Node) (l : List ReceivingLabel) (s : Receiving)
    (hrun : Run (Receiving.step setup) Receiving.IdKnown (Receiving.start node) l s) :
    s.received.Nodup :=
  hrun.invariant (P := fun s => s.received.Nodup) List.nodup_nil
    fun _ _ _ h hok hs => Receiving.nodup_step h hok hs

def sentId : String := "0192f0c1-7a00-7000-8000-000000000001"

def sentText : String :=
  "\x7b\"text\":\"hello\",\"attribution\":\"agent\",\"threadId\":\"" ++ sentId ++ "\"\x7d"

def sentPlaintext : Bytes :=
  [8, 1, 16, 1, 24, 232, 7, 34, 88] ++ textEncode sentText ++ [42, 24] ++ textEncode pinchJson

/-- The box of the first identity for the second over that plaintext. -/
def sentCiphertext : Bytes :=
  [193, 181, 16, 56, 6, 245, 231, 243, 114, 243, 32, 56, 166, 203, 106, 243, 141, 216, 184,
   36, 233, 165, 46, 8, 197, 84, 5, 63, 113, 128, 199, 87, 130, 15, 247, 182, 125, 61, 103,
   155, 137, 191, 40, 88, 19, 77, 32, 232, 35, 206, 21, 180, 73, 227, 152, 96, 155, 123, 100,
   112, 185, 93, 249, 126, 138, 65, 165, 162, 55, 13, 117, 228, 24, 145, 243, 171, 10, 93, 93,
   108, 186, 86, 130, 14, 117, 30, 249, 186, 192, 42, 173, 228, 21, 252, 164, 138, 123, 40,
   41, 132, 195, 135, 81, 101, 91, 226, 71, 95, 68, 195, 180, 178, 165, 27, 90, 81, 222, 149,
   145, 138, 198, 183, 241, 23, 207, 88, 123, 213, 247, 175, 79, 205, 85, 153, 218, 76, 88,
   60, 173]

/-- The libraries as they act on the one payload. -/
def sentLibraries : Libraries := { vectorLibraries with
  boxOpenEasy := fun ciphertext nonce x y =>
    if nonce = forgedNonce ∧ ciphertext = sentCiphertext ∧ x = vectorX25519 ∧
      y = otherX25519Private then some sentPlaintext else none
  plaintextFromBinary := fun b =>
    if b = sentPlaintext then some ⟨1, 1, 1000, textEncode sentText, pinchJson⟩ else none
  parseJson := fun text =>
    if text = sentText then some (.object [("text", .string "hello"),
      ("attribution", .string "agent"), ("threadId", .string sentId)]) else none }

def sentSetup : Setup := ⟨sentLibraries, otherPrivateKey, {}⟩

def sentPayload : EncryptedPayload := ⟨forgedNonce, sentCiphertext, vectorKey⟩

def sentEnvelope : Envelope where
  version := 1
  fromAddress := vectorAddress
  type := .message
  messageId := textEncode sentId
  timestamp := 1000
  payload := .encrypted sentPayload

def peerStore : ConnectionStore := AList.insert vectorAddress
  { trustedPeer with
    peerAddress := vectorAddress
    peerPublicKey := some (Base64.encode vectorKey) } ∅

def deliveredTwice (second : Envelope) : List ReceivingLabel :=
  [.process (.incoming otherContext sentEnvelope), .process (.incoming otherContext second)]

theorem received_nodup_sameId : ∃ s,
    Run (Receiving.step sentSetup) Receiving.IdKnown (Receiving.start (.withConnections peerStore))
      (deliveredTwice { sentEnvelope with fromAddress := thirdAddress, timestamp := 2000 }) s ∧
    s.received.length = 1 ∧ s.received.Nodup := by
  have h : (exec (Receiving.step sentSetup) Receiving.IdKnown
      (Receiving.start (.withConnections peerStore))
      (deliveredTwice { sentEnvelope with fromAddress := thirdAddress, timestamp := 2000 })).map
      (fun s => s.received.length) = some 1 := by
    decide +kernel
  obtain ⟨s, hs, hlen⟩ := Option.map_eq_some_iff.1 h
  exact ⟨s, Run.of_exec hs, hlen, received_nodup _ _ _ s (Run.of_exec hs)⟩

/-- Under a second message id the payload is stored and processed once more. -/
theorem payload_received_twice : ∃ s,
    Run (Receiving.step sentSetup) (fun _ _ => True) (Receiving.start (.withConnections peerStore))
      (deliveredTwice { sentEnvelope with messageId := textEncode "other" }) s ∧
    s.received = [sentPayload.sealed, sentPayload.sealed] ∧
    s.process.node.messageStore.ids = [sentId, "other"] ∧
    (s.process.tasks 0).isSome = true ∧ (s.process.tasks 1).isSome = true := by
  have h : (exec (Receiving.step sentSetup) (fun _ _ => True)
      (Receiving.start (.withConnections peerStore))
      (deliveredTwice { sentEnvelope with messageId := textEncode "other" })).map
      (fun s => (s.received, s.process.node.messageStore.ids, (s.process.tasks 0).isSome,
        (s.process.tasks 1).isSome)) =
      some ([sentPayload.sealed, sentPayload.sealed], [sentId, "other"], true, true) := by
    decide +kernel
  obtain ⟨s, hs, heq⟩ := Option.map_eq_some_iff.1 h
  simp only [Prod.mk.injEq] at heq
  exact ⟨s, Run.of_exec hs, heq⟩

end Pinch
