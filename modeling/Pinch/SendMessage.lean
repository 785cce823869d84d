import Pinch.MessageManager
import Pinch.StateSpec

/-! Sending a message. The sequence number is taken before anything is encrypted, and the row
is written before the envelope goes to the relay. -/

namespace Pinch

def Attribution.name : Attribution → String
  | agent => "agent"
  | human => "human"

/-- The object that is serialised around the text; an undefined field is left out. -/
structure Wrapper where
  text : String
  attribution : Attribution
  threadId : String
  replyTo : Option String
  deriving DecidableEq

def Wrapper.json (w : Wrapper) : Json :=
  .object ([("text", .string w.text), ("attribution", .string w.attribution.name),
    ("threadId", .string w.threadId)] ++ (w.replyTo.map fun r => ("replyTo", .string r)).toList)

/-- The libraries that the sender uses besides. -/
structure SendLibraries extends Libraries where
  /-- `crypto_box_easy(message, nonce, publicKey, secretKey)`. -/
  boxEasy : Bytes → Bytes → Bytes → Bytes → Option Bytes
  plaintextToBinary : PlaintextPayload → Option Bytes
  envelopeToBinary : Envelope → Option Bytes
  stringifyJson : Json → Option String

structure SendSetup where
  lib : SendLibraries
  publicKey : Bytes
  privateKey : Bytes

structure SendMessageParams where
  recipient : String
  body : String
  threadId : Option String := none
  replyTo : Option String := none
  priority : Option Priority := none
  attribution : Option Attribution := none

def uuidAlphabet : List Char := "0123456789abcdef-".toList

/-- A call also draws a UUID and a nonce. -/
structure SendContext extends CallContext where
  messageId : String
  messageId_chars : ∀ c ∈ messageId.toList, c ∈ uuidAlphabet
  nonce : Bytes
  nonce_length : nonce.length = nonceBytes

structure Sender extends Node where
  /-- The `sequences` table. -/
  sequences : AList fun _ : String => Nat

abbrev SenderOp := EStateM String Sender

def MessageManager.maxEnvelopeSize : Nat := 60 * 1024

namespace Sender

def orThrow {α : Type} (error : String) : Option α → SenderOp α
  | some a => pure a
  | none => throw error

def onNode {α : Type} (x : NodeOp α) : SenderOp α := fun s =>
  match x.run s.toNode with
  | .ok a n => .ok a { s with toNode := n }
  | .error e n => .error e { s with toNode := n }

/-- The column holds an integer, which is read as a double. -/
def nextSequence (connectionAddress : String) : SenderOp Nat := do
  let next := ((← get).sequences.lookup connectionAddress).getD 1 + 1
  modify fun s => { s with sequences := s.sequences.insert connectionAddress next }
  return toDouble (toDouble next - 1)

end Sender

def encrypt (lib : SendLibraries) (nonce plaintext recipientX25519Pub senderX25519Priv : Bytes) :
    Option Bytes :=
  (lib.boxEasy plaintext nonce recipientX25519Pub senderX25519Priv).map (nonce ++ ·)

namespace MessageManager

variable (setup : SendSetup) (ctx : SendContext) (params : SendMessageParams)

/-- Empty texts count as absent. -/
def resolveThread (store : MessageStore) : String :=
  match params.threadId.filter (· ≠ "") with
  | some threadId => threadId
  | none =>
    (((params.replyTo.filter (· ≠ "")).bind store.getMessage).bind (·.threadId)).filter (· ≠ "")
      |>.getD ctx.messageId

def wrapper (threadId : String) : Wrapper where
  text := params.body
  attribution := params.attribution.getD .agent
  threadId := threadId
  replyTo := params.replyTo

def plaintextPayload (sequence : Nat) (wrappedContent : String) : PlaintextPayload where
  version := 1
  sequence := sequence
  timestamp := ctx.now
  content := textEncode wrappedContent
  contentType := pinchJson

def messageEnvelope (fromAddress : String) (sealed : Bytes) : Envelope where
  version := 1
  fromAddress := fromAddress
  toAddress := params.recipient
  type := .message
  messageId := textEncode ctx.messageId
  timestamp := ctx.now
  payload := .encrypted ⟨sealed.take nonceBytes, sealed.drop nonceBytes, setup.publicKey⟩

def outboundMessage (threadId : String) (sequence : Nat) : MessageRecord where
  id := ctx.messageId
  connectionAddress := params.recipient
  direction := .outbound
  body := params.body
  threadId := some threadId
  replyTo := params.replyTo
  priority := params.priority.getD .normal
  sequence := sequence
  state := "sent"
  attribution := some (params.attribution.getD .agent)
  createdAt := isoString ctx.now
  updatedAt := isoString ctx.now

/-- The steps between taking the number and building the envelope. -/
def sealMessage (peerEd25519Pub : Bytes) (threadId : String) (sequence : Nat) : SenderOp Bytes := do
  let wrappedContent ← Sender.orThrow "not serializable"
    (setup.lib.stringifyJson (wrapper params threadId).json)
  let plaintextBytes ← Sender.orThrow "cannot encode message pinch.v1.PlaintextPayload"
    (setup.lib.plaintextToBinary (plaintextPayload ctx sequence wrappedContent))
  let senderX25519Priv ← Sender.orThrow "invalid key" (setup.lib.skToCurve25519 setup.privateKey)
  let recipientX25519Pub ← Sender.orThrow "invalid key" (setup.lib.pkToCurve25519 peerEd25519Pub)
  Sender.orThrow "invalid usage"
    (encrypt setup.lib ctx.nonce plaintextBytes recipientX25519Pub senderX25519Priv)

def sendMessage : SenderOp String := do
  let s ← get
  let _ ← Sender.orThrow "Connection is not active"
    ((s.connectionStore.getConnection params.recipient).filter (·.state = .active))
  let peerEd25519Pub ← Sender.orThrow "Peer public key not available"
    (s.connectionStore.getPeerPublicKey setup.lib.sha256 params.recipient)
  let threadId := resolveThread ctx params s.messageStore
  let sequence ← Sender.nextSequence params.recipient
  let sealed ← sealMessage setup ctx params peerEd25519Pub threadId sequence
  let fromAddress ← Sender.orThrow "Not connected to relay"
    (ctx.assignedAddress.filter (· ≠ ""))
  let envelope := messageEnvelope setup ctx params fromAddress sealed
  let envelopeBytes ← Sender.orThrow "cannot encode message pinch.v1.Envelope"
    (setup.lib.envelopeToBinary envelope)
  if envelopeBytes.length > maxEnvelopeSize then throw "message too large"
  else
    Sender.onNode (Node.saveMessage (outboundMessage ctx params threadId sequence))
    Sender.onNode (sendEnvelope ctx.toCallContext envelope)
    return ctx.messageId

end MessageManager

section Sequence

theorem toDouble_of_dvd {n : Nat} (h : 2 ^ (Nat.log 2 n - 52) ∣ n) : toDouble n = n := by
  have hpos : 0 < 2 ^ (Nat.log 2 n - 52) := Nat.two_pow_pos _
  unfold toDouble
  simp only [Nat.mod_eq_zero_of_dvd h]
  rw [if_neg (by omega)]
  exact Nat.div_mul_cancel h

/-- A double is an integer of at most 53 bits, shifted. -/
theorem toDouble_shift {k e : Nat} (hk : k ≤ 2 ^ 53) : toDouble (k * 2 ^ e) = k * 2 ^ e := by
  refine toDouble_of_dvd ?_
  rcases Nat.eq_zero_or_pos k with rfl | hpos
  · simp
  rcases hk.eq_or_lt with rfl | hlt
  · rw [← pow_add, Nat.log_pow (by decide)]
    exact pow_dvd_pow 2 (by omega)
  · have hlog : Nat.log 2 (k * 2 ^ e) < 53 + e := by
      refine Nat.log_lt_of_lt_pow (by positivity) ?_
      rw [pow_add]
      exact Nat.mul_lt_mul_of_pos_right hlt (Nat.two_pow_pos e)
    exact (pow_dvd_pow 2 (by omega)).trans (dvd_mul_left _ _)

theorem toDouble_eq_shift (n : Nat) : ∃ k e, k ≤ 2 ^ 53 ∧ toDouble n = k * 2 ^ e := by
  have hq : n / 2 ^ (Nat.log 2 n - 52) < 2 ^ 53 := by
    rw [Nat.div_lt_iff_lt_mul (Nat.two_pow_pos _), ← pow_add]
    exact (Nat.lt_pow_succ_log_self (by decide) n).trans_le
      (Nat.pow_le_pow_right (by decide) (by omega))
  unfold toDouble
  dsimp only
  split
  · exact ⟨_, _, hq, rfl⟩
  · exact ⟨_, _, hq.le, rfl⟩

theorem toDouble_toDouble (n : Nat) : toDouble (toDouble n) = toDouble n := by
  obtain ⟨k, e, hk, heq⟩ := toDouble_eq_shift n
  rw [heq, toDouble_shift hk]

end Sequence

section Inversion

variable {s t : Sender} {α β : Type} {b : β}

theorem Sender.orThrow_bind {error : String} {o : Option α} {f : α → SenderOp β} :
    (Sender.orThrow error o >>= f).run s = .ok b t ↔ ∃ a, o = some a ∧ (f a).run s = .ok b t := by
  cases o with
  | none =>
    refine ⟨fun h => ?_, fun ⟨_, h, _⟩ => ?_⟩
    · cases h
    · cases h
  | some a =>
    refine ⟨fun h => ⟨a, rfl, h⟩, ?_⟩
    rintro ⟨_, ⟨⟩, h⟩
    exact h

theorem Sender.onNode_bind {x : NodeOp α} {f : α → SenderOp β} :
    (Sender.onNode x >>= f).run s = .ok b t ↔
      ∃ a n, x.run s.toNode = .ok a n ∧ (f a).run { s with toNode := n } = .ok b t := by
  have hrun : (Sender.onNode x).run s = match x.run s.toNode with
    | .ok a n => .ok a { s with toNode := n }
    | .error e n => .error e { s with toNode := n } := rfl
  rw [EStateM.run_bind, hrun]
  cases x.run s.toNode with
  | ok a n => simp
  | error e n => simp

/-- Taking a number leaves the node alone. -/
theorem Sender.nextSequence_bind {address : String} {f : Nat → SenderOp β}
    (h : (Sender.nextSequence address >>= f).run s = .ok b t) :
    ∃ sequence sequences, toDouble sequence = sequence ∧
      (f sequence).run { s with sequences := sequences } = .ok b t := by
  have hrun : ∃ next, (Sender.nextSequence address).run s = .ok (toDouble (toDouble next - 1))
      { s with sequences := s.sequences.insert address next } := ⟨_, rfl⟩
  obtain ⟨next, hrun⟩ := hrun
  rw [EStateM.run_bind, hrun] at h
  exact ⟨_, _, toDouble_toDouble _, h⟩

namespace MessageManager

variable {setup : SendSetup} {ctx : SendContext} {params : SendMessageParams}

/-- What a ciphertext has been made of. -/
def Sealed (setup : SendSetup) (ctx : SendContext) (params : SendMessageParams) (peerKey : Bytes)
    (threadId : String) (sequence : Nat) (ciphertext : Bytes) : Prop :=
  ∃ wrapped plaintext x y,
    setup.lib.stringifyJson (wrapper params threadId).json = some wrapped ∧
    setup.lib.plaintextToBinary (plaintextPayload ctx sequence wrapped) = some plaintext ∧
    setup.lib.skToCurve25519 setup.privateKey = some x ∧
    setup.lib.pkToCurve25519 peerKey = some y ∧
    setup.lib.boxEasy plaintext ctx.nonce y x = some ciphertext

theorem sealMessage_bind {peerKey : Bytes} {threadId : String} {sequence : Nat}
    {f : Bytes → SenderOp β}
    (h : (sealMessage setup ctx params peerKey threadId sequence >>= f).run s = .ok b t) :
    ∃ ciphertext, Sealed setup ctx params peerKey threadId sequence ciphertext ∧
      (f (ctx.nonce ++ ciphertext)).run s = .ok b t := by
  simp only [sealMessage, bind_assoc] at h
  obtain ⟨wrapped, hw, h⟩ := Sender.orThrow_bind.1 h
  obtain ⟨plaintext, hp, h⟩ := Sender.orThrow_bind.1 h
  obtain ⟨x, hx, h⟩ := Sender.orThrow_bind.1 h
  obtain ⟨y, hy, h⟩ := Sender.orThrow_bind.1 h
  obtain ⟨sealed, hsealed, hf⟩ := Sender.orThrow_bind.1 h
  obtain ⟨ciphertext, hbox, rfl⟩ := Option.map_eq_some_iff.1 hsealed
  exact ⟨ciphertext, ⟨wrapped, plaintext, x, y, hw, hp, hx, hy, hbox⟩, hf⟩

/-- What a call that returns has done. -/
structure Sent (setup : SendSetup) (ctx : SendContext) (params : SendMessageParams) (s t : Sender)
    (peerKey : Bytes) (threadId : String) (sequence : Nat) (fromAddress : String)
    (ciphertext : Bytes) : Prop where
  key : s.connectionStore.getPeerPublicKey setup.lib.sha256 params.recipient = some peerKey
  double : toDouble sequence = sequence
  sealed : Sealed setup ctx params peerKey threadId sequence ciphertext
  outbox : t.outbox = s.outbox ++
    [messageEnvelope setup ctx params fromAddress (ctx.nonce ++ ciphertext)]
  row : t.messageStore.getMessage ctx.messageId = some (outboundMessage ctx params threadId sequence)
  node : ∃ store,
    s.messageStore.saveMessage (outboundMessage ctx params threadId sequence) = .ok store ∧
    t.toNode = { s.toNode with
      messageStore := store
      outbox := s.outbox ++ [messageEnvelope setup ctx params fromAddress
        (ctx.nonce ++ ciphertext)] }

theorem saveMessage_ok {message : MessageRecord} {n n' : Node} {a : Unit}
    (h : (Node.saveMessage message).run n = .ok a n') :
    ∃ store, n.messageStore.saveMessage message = .ok store ∧
      n' = { n with messageStore := store } := by
  simp only [Node.saveMessage, EStateM.run_bind, EStateM.run_get] at h
  cases hs : n.messageStore.saveMessage message with
  | error e =>
    rw [hs] at h
    cases h
  | ok store =>
    rw [hs] at h
    exact ⟨store, rfl, (EStateM.Result.ok.inj h).2.symm⟩

theorem sendEnvelope_ok {ctx : CallContext} {envelope : Envelope} {n n' : Node} {a : Unit}
    (h : (sendEnvelope ctx envelope).run n = .ok a n') :
    n' = { n with outbox := n.outbox ++ [envelope] } := by
  unfold sendEnvelope at h
  split at h
  · exact (EStateM.Result.ok.inj h).2.symm
  · cases h

theorem sendMessage_ok {id : String} (h : (sendMessage setup ctx params).run s = .ok id t) :
    id = ctx.messageId ∧ ∃ peerKey threadId sequence fromAddress ciphertext,
      Sent setup ctx params s t peerKey threadId sequence fromAddress ciphertext := by
  obtain ⟨connection, hactive, h⟩ := Sender.orThrow_bind.1 h
  obtain ⟨peerKey, hkey, h⟩ := Sender.orThrow_bind.1 h
  obtain ⟨sequence, sequences, hdouble, h⟩ := Sender.nextSequence_bind h
  obtain ⟨ciphertext, hsealed, h⟩ := sealMessage_bind h
  obtain ⟨fromAddress, hfrom, h⟩ := Sender.orThrow_bind.1 h
  obtain ⟨bytes, hbytes, h⟩ := Sender.orThrow_bind.1 h
  split at h
  · cases h
  obtain ⟨_, n, hsave, h⟩ := Sender.onNode_bind.1 h
  obtain ⟨_, n', hsend, h⟩ := Sender.onNode_bind.1 h
  obtain ⟨store, hstore, rfl⟩ := saveMessage_ok hsave
  obtain rfl := sendEnvelope_ok hsend
  obtain ⟨rfl, rfl⟩ := EStateM.Result.ok.inj h
  refine ⟨rfl, peerKey, _, sequence, fromAddress, ciphertext, hkey, hdouble, hsealed, rfl, ?_,
    store, hstore, rfl⟩
  rw [(MessageStore.getMessage_saveMessage hstore).2]
  exact if_pos rfl

end MessageManager

end Inversion

end Pinch
