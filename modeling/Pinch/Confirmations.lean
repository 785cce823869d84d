import Pinch.HumanReview
import Pinch.Handshake

/-! Delivery confirmations: which strings an agent signs for them, whose signature the
sender's agent asks for, and what the signature covers. -/

namespace Pinch

open MessageManager

/-! ### Two uses of one key -/

theorem bigInt64Bytes_length (n : Int) : (bigInt64Bytes n).length = 8 := by
  simp [bigInt64Bytes]

/-- The text in front of the nonce in a signed challenge. -/
def signHeader (relayHost : Bytes) : Bytes :=
  signPrefix ++ [0] ++ relayHost ++ [0]

/-- A confirmation is a signed challenge when its id is the header and the first part of the
nonce, and its time is the rest of the nonce. -/
theorem buildPayload_eq_signPayload_iff (messageId relayHost : Bytes) (timestamp : Int)
    (nonce : Nonce) :
    buildPayload messageId timestamp = signPayload relayHost nonce.bytes ↔
      messageId = signHeader relayHost ++ nonce.bytes.take 24 ∧
        bigInt64Bytes timestamp = nonce.bytes.drop 24 := by
  have hsplit : signPayload relayHost nonce.bytes =
      signHeader relayHost ++ nonce.bytes.take 24 ++ nonce.bytes.drop 24 := by
    rw [List.append_assoc, List.take_append_drop]
    rfl
  have hlength : (bigInt64Bytes timestamp).length = (nonce.bytes.drop 24).length := by
    rw [bigInt64Bytes_length, List.length_drop, nonce.length_eq]
    rfl
  rw [hsplit, buildPayload]
  constructor
  · intro h
    exact List.append_inj' h hlength
  · rintro ⟨hid, htime⟩
    rw [hid, htime]

/-- An id keeps the two uses of the key apart exactly if it is not the header of a challenge
with 24 bytes behind it. -/
theorem confirmation_never_challenge_iff (id : String) (relayHost : Bytes) :
    (∀ timestamp (nonce : Nonce),
      buildPayload (textEncode id) timestamp ≠ signPayload relayHost nonce.bytes) ↔
    ¬ ∃ head : Bytes, head.length = 24 ∧ textEncode id = signHeader relayHost ++ head := by
  constructor
  · rintro h ⟨head, hlength, hid⟩
    have hnonce : (head ++ bigInt64Bytes 0).length = nonceSize := by
      rw [List.length_append, hlength, bigInt64Bytes_length]
      rfl
    apply h 0 ⟨head ++ bigInt64Bytes 0, hnonce⟩
    rw [buildPayload_eq_signPayload_iff]
    simp [hid, ← hlength]
  · intro h timestamp nonce heq
    obtain ⟨hid, -⟩ := (buildPayload_eq_signPayload_iff ..).mp heq
    apply h
    refine ⟨nonce.bytes.take 24, ?_, hid⟩
    rw [List.length_take, nonce.length_eq]
    rfl

/-- A challenge of a relay, as far as its nonce goes. -/
def letterNonce : Nonce :=
  ⟨List.replicate 24 110 ++ bigInt64Bytes 1700000000000, by decide⟩

/-- The id on an incoming message that makes the agent sign that challenge. -/
def challengeId : Bytes := signHeader (textEncode "relay.example.com") ++ List.replicate 24 110

theorem confirmation_is_challenge :
    buildPayload (textEncode (textDecode challengeId)) 1700000000000 =
      signPayload (textEncode "relay.example.com") letterNonce.bytes := by
  decide +kernel

/-! ### The call of the handler -/

/-- Both halves of `handleDeliveryConfirmation`. The signature is checked in between, while
other calls may turn the node `n` into `n'`. -/
def confirmed (setup : Setup) (ctx : CallContext) (envelope : Envelope) (n n' : Node) : Node :=
  match returned ((handleDeliveryConfirmation setup envelope).run n) with
  | some (some task) => finalState ((resume setup ctx none task).run n')
  | _ => n'

/-- The key that the agent holds for an address. -/
def Node.heldKey (setup : Setup) (n : Node) (address : String) : Option Bytes :=
  n.connectionStore.getPeerPublicKey setup.lib.sha256 address

structure Accepts (setup : Setup) (envelope : Envelope) (confirm : DeliveryConfirm) (n : Node) :
    Prop where
  payload : envelope.payload = .deliveryConfirm confirm
  known : (n.messageStore.getMessage (textDecode confirm.messageId)).isSome
  verified : ∃ key, n.heldKey setup envelope.fromAddress = some key ∧
    verifyDeliveryConfirmation setup confirm key = some true

section Handler

variable {setup : Setup} {ctx : CallContext} {envelope : Envelope} {confirm : DeliveryConfirm}
  {n n' : Node}

theorem finalState_applyConfirmation (setup : Setup) (ctx : CallContext)
    (confirm : DeliveryConfirm) (n' : Node) (key : Bytes) :
    finalState ((applyConfirmation setup ctx confirm key).run n') =
      if verifyDeliveryConfirmation setup confirm key = some true then
        { n' with
          messageStore := n'.messageStore.updateState ctx.now (textDecode confirm.messageId)
            confirm.state none }
      else n' := by
  unfold applyConfirmation
  cases hvalid : verifyDeliveryConfirmation setup confirm key with
  | none => rfl
  | some valid => cases valid <;> rfl

theorem Accepts.confirmed_eq (h : Accepts setup envelope confirm n) :
    confirmed setup ctx envelope n n' =
      { n' with
        messageStore := n'.messageStore.updateState ctx.now (textDecode confirm.messageId)
          confirm.state none } := by
  obtain ⟨hpayload, hknown, key, hkey, hverify⟩ := h
  obtain ⟨row, hrow⟩ := Option.isSome_iff_exists.mp hknown
  have hfirst : (handleDeliveryConfirmation setup envelope).run n =
      .ok (some (.verifying confirm key)) n := by
    unfold Node.heldKey at hkey
    simp [handleDeliveryConfirmation, hpayload, hrow, hkey]
  have hrest := finalState_applyConfirmation setup ctx confirm n' key
  rw [if_pos hverify] at hrest
  simpa [confirmed, hfirst, returned, resume] using hrest

theorem confirmed_eq_self (h : ∀ confirm, ¬ Accepts setup envelope confirm n) :
    confirmed setup ctx envelope n n' = n' := by
  unfold confirmed handleDeliveryConfirmation
  cases hpayload : envelope.payload with
  | deliveryConfirm confirm =>
    cases hrow : n.messageStore.getMessage (textDecode confirm.messageId) with
    | none => simp [hrow, returned]
    | some row =>
      cases hkey : n.connectionStore.getPeerPublicKey setup.lib.sha256 envelope.fromAddress with
      | none => simp [hrow, hkey, returned]
      | some key =>
        have hverify : verifyDeliveryConfirmation setup confirm key ≠ some true := by
          intro hverify
          exact h confirm ⟨hpayload, by simp [hrow], key, hkey, hverify⟩
        simp [hrow, hkey, returned, resume, finalState_applyConfirmation, hverify]
  | _ => rfl

/-- A row that changes is named by a confirmation that was accepted. -/
theorem accepts_of_changed {id : String}
    (h : (confirmed setup ctx envelope n n').messageStore.getMessage id ≠
      n'.messageStore.getMessage id) :
    ∃ confirm, Accepts setup envelope confirm n ∧ textDecode confirm.messageId = id := by
  by_contra hnone
  apply h
  by_cases haccepts : ∃ confirm, Accepts setup envelope confirm n
  · obtain ⟨confirm, hconfirm⟩ := haccepts
    have hne : id ≠ textDecode confirm.messageId := by
      rintro rfl
      exact hnone ⟨confirm, hconfirm, rfl⟩
    rw [hconfirm.confirmed_eq]
    exact MessageStore.getMessage_updateState_ne n'.messageStore ctx.now confirm.state none hne
  · rw [confirmed_eq_self (not_exists.mp haccepts)]

/-- The row of the id gets the text that the envelope carries. -/
theorem Accepts.getMessage_eq (h : Accepts setup envelope confirm n) :
    (confirmed setup ctx envelope n n').messageStore.getMessage (textDecode confirm.messageId) =
      (n'.messageStore.getMessage (textDecode confirm.messageId)).map (fun r =>
        { r with
          state := confirm.state
          failureReason := none
          updatedAt := isoString ctx.now }) := by
  rw [h.confirmed_eq, MessageStore.getMessage_updateState]
  cases hr : n'.messageStore.getMessage (textDecode confirm.messageId) with
  | none => rfl
  | some r => simp [MessageStore.written, MessageStore.getMessage_id hr]

theorem Accepts.state_eq (h : Accepts setup envelope confirm n) {r : MessageRecord}
    (hr : (confirmed setup ctx envelope n n').messageStore.getMessage
      (textDecode confirm.messageId) = some r) : r.state = confirm.state := by
  rw [h.getMessage_eq, Option.map_eq_some_iff] at hr
  obtain ⟨row, -, rfl⟩ := hr
  rfl

/-- The envelope with another state in it. -/
def restate (envelope : Envelope) (confirm : DeliveryConfirm) (state : String) : Envelope :=
  { envelope with payload := .deliveryConfirm { confirm with state := state } }

/-- The signed bytes leave the state out, so an altered envelope is accepted as well. -/
theorem Accepts.restate (h : Accepts setup envelope confirm n) (state : String) :
    Accepts setup (restate envelope confirm state) { confirm with state := state } n :=
  ⟨rfl, h.known, h.verified⟩

end Handler

/-! ### The signer -/

/-- Ed25519 without forgeries: a signature verifies under the key it was made with, and it was
made with one key. -/
structure IdealEd25519 (verifyDetached : Bytes → Bytes → Bytes → Option Bool)
    (signedBy : Bytes → Bytes → Bytes → Prop) : Prop where
  signed : ∀ {signature payload key}, verifyDetached signature payload key = some true →
    signedBy key signature payload
  unique : ∀ {key key' signature payload}, signedBy key signature payload →
    signedBy key' signature payload → key = key'

/-- A row that the handler changes is outbound, and the signature is one of its recipient. A
signature of anybody else changes nothing. -/
structure RecipientOnly (setup : Setup) (signedBy : Bytes → Bytes → Bytes → Prop)
    (ctx : CallContext) (envelope : Envelope) (n n' : Node) : Prop where
  changed : ∀ id m, n'.messageStore.getMessage id = some m →
    (confirmed setup ctx envelope n n').messageStore.getMessage id ≠ some m →
    m.direction = .outbound ∧ ∃ confirm key,
      envelope.payload = .deliveryConfirm confirm ∧ textDecode confirm.messageId = id ∧
      n.heldKey setup m.connectionAddress = some key ∧
      setup.lib.verifyDetached confirm.signature
        (buildPayload confirm.messageId confirm.timestamp) key = some true
  unchanged : ∀ confirm key, envelope.payload = .deliveryConfirm confirm →
    signedBy key confirm.signature (buildPayload confirm.messageId confirm.timestamp) →
    (∀ m, n'.messageStore.getMessage (textDecode confirm.messageId) = some m →
      n.heldKey setup m.connectionAddress ≠ some key) →
    ∀ id, (confirmed setup ctx envelope n n').messageStore.getMessage id =
      n'.messageStore.getMessage id

/-- What `updateState` makes of the row of a confirmation. -/
def DeliveryConfirm.recorded (confirm : DeliveryConfirm) (ctx : CallContext) (m : MessageRecord) :
    MessageRecord :=
  { m with state := confirm.state, failureReason := none, updatedAt := isoString ctx.now }

/-- The check is made with the key of the address on the envelope. It is a check of the
recipient exactly if, whenever it passes and there is something to write, the row is outbound
and its peer has that key. -/
theorem confirmed_by_recipient_iff {setup : Setup} {signedBy : Bytes → Bytes → Bytes → Prop}
    (hideal : IdealEd25519 setup.lib.verifyDetached signedBy) (ctx : CallContext)
    (envelope : Envelope) (n n' : Node) :
    RecipientOnly setup signedBy ctx envelope n n' ↔
      ∀ confirm key m, envelope.payload = .deliveryConfirm confirm →
        (n.messageStore.getMessage (textDecode confirm.messageId)).isSome →
        n.heldKey setup envelope.fromAddress = some key →
        setup.lib.verifyDetached confirm.signature
          (buildPayload confirm.messageId confirm.timestamp) key = some true →
        n'.messageStore.getMessage (textDecode confirm.messageId) = some m →
        confirm.recorded ctx m ≠ m →
        m.direction = .outbound ∧ n.heldKey setup m.connectionAddress = some key := by
  constructor
  · rintro ⟨hchanged, -⟩ confirm key m hpayload hknown hkey hverify hm hwritten
    have haccepts : Accepts setup envelope confirm n := ⟨hpayload, hknown, key, hkey, hverify⟩
    have hrow : (confirmed setup ctx envelope n n').messageStore.getMessage
        (textDecode confirm.messageId) = some (confirm.recorded ctx m) := by
      rw [haccepts.getMessage_eq, hm]
      rfl
    obtain ⟨hdirection, confirm', key', hpayload', -, hkey', hverify'⟩ :=
      hchanged _ m hm (by simpa [hrow] using hwritten)
    obtain rfl := Payload.deliveryConfirm.inj (hpayload.symm.trans hpayload')
    have hkeys : key = key' := hideal.unique (hideal.signed hverify) (hideal.signed hverify')
    exact ⟨hdirection, hkeys ▸ hkey'⟩
  · intro hroute
    have hmain : ∀ confirm m, Accepts setup envelope confirm n →
        n'.messageStore.getMessage (textDecode confirm.messageId) = some m →
        (confirmed setup ctx envelope n n').messageStore.getMessage
          (textDecode confirm.messageId) ≠ some m →
        m.direction = .outbound ∧ ∃ key, n.heldKey setup m.connectionAddress = some key ∧
          setup.lib.verifyDetached confirm.signature
            (buildPayload confirm.messageId confirm.timestamp) key = some true := by
      intro confirm m haccepts hm hchanged
      obtain ⟨key, hkey, hverify⟩ := haccepts.verified
      have hwritten : confirm.recorded ctx m ≠ m := by
        intro hsame
        apply hchanged
        rw [haccepts.getMessage_eq, hm]
        exact congrArg some hsame
      obtain ⟨hdirection, hpeer⟩ :=
        hroute confirm key m haccepts.payload haccepts.known hkey hverify hm hwritten
      exact ⟨hdirection, key, hpeer, hverify⟩
    constructor
    · intro id m hm hchanged
      obtain ⟨confirm, haccepts, rfl⟩ := accepts_of_changed (hm ▸ hchanged)
      obtain ⟨hdirection, key, hkey, hverify⟩ := hmain confirm m haccepts hm hchanged
      exact ⟨hdirection, confirm, key, haccepts.payload, rfl, hkey, hverify⟩
    · intro confirm key hpayload hsigned hother id
      by_contra hchanged
      obtain ⟨confirm', haccepts, rfl⟩ := accepts_of_changed hchanged
      obtain rfl := Payload.deliveryConfirm.inj (hpayload.symm.trans haccepts.payload)
      cases hm : n'.messageStore.getMessage (textDecode confirm.messageId) with
      | none =>
        apply hchanged
        rw [haccepts.getMessage_eq, hm]
        rfl
      | some m =>
        obtain ⟨-, key', hkey', hverify⟩ := hmain confirm m haccepts hm (hm ▸ hchanged)
        have hkeys : key = key' := hideal.unique hsigned (hideal.signed hverify)
        exact hother m hm (hkeys ▸ hkey')

/-- The first identity's Ed25519 signature over the id `m` and the time zero. -/
def strangerSignature : Bytes :=
  [33, 24, 91, 4, 35, 89, 203, 32, 225, 110, 223, 24, 209, 107, 115, 54,
   192, 97, 219, 30, 83, 99, 167, 37, 143, 150, 176, 88, 191, 221, 75, 98,
   100, 22, 200, 61, 216, 179, 229, 28, 239, 236, 94, 195, 217, 177, 225, 106,
   151, 180, 195, 84, 138, 149, 5, 220, 43, 138, 107, 161, 68, 5, 246, 4]

/-- The keys of the two signatures over the id `m` and the time zero. -/
def signerOf (signature : Bytes) : Option Bytes :=
  if signature = strangerSignature then some vectorKey
  else if signature = confirmSignature then some thirdKey
  else none

def twoSignersVerify (signature message key : Bytes) : Option Bool :=
  if signature.length = 64 ∧ key.length = 32 then
    some (decide (message = 109 :: List.replicate 8 0 ∧ signerOf signature = some key))
  else none

def twoSignersSetup : Setup where
  lib := { vectorLibraries with verifyDetached := twoSignersVerify }
  privateKey := otherPrivateKey
  breakerConfig := {}

theorem idealEd25519_twoSigners :
    IdealEd25519 twoSignersVerify (fun key signature _ => signerOf signature = some key) where
  signed := by
    intro signature payload key h
    unfold twoSignersVerify at h
    split at h
    · exact (of_decide_eq_true (Option.some.inj h)).2
    · cases h
  unique := by
    intro key key' signature payload h h'
    exact Option.some.inj (h.symm.trans h')

def sentMessage : MessageRecord :=
  { forgedMessage with direction := .outbound, state := "sent" }

def sentNode : Node :=
  { Node.withConnections trustedStore with
    messageStore := ⟨[sentMessage], List.nodup_singleton _⟩ }

/-- A confirmation of the message `m` from an address. -/
def confirmationFrom (address : String) (signature : Bytes) (state : String) : Envelope where
  version := 1
  fromAddress := address
  type := .deliveryConfirm
  payload := .deliveryConfirm ⟨[109], signature, 0, state, false⟩

def confirmOf (signature : Bytes) (state : String) : DeliveryConfirm :=
  ⟨[109], signature, 0, state, false⟩

theorem textDecode_confirmOf (signature : Bytes) (state : String) :
    textDecode (confirmOf signature state).messageId = "m" := by
  have h : textDecode [109] = "m" := by decide +kernel
  exact h

/-- A confirmation of the message `m` from an address is accepted if the address has the key. -/
theorem accepts_confirmationFrom {n : Node} {r : MessageRecord} {address : String}
    {key : Bytes} (signature : Bytes) (state : String)
    (hr : n.messageStore.getMessage "m" = some r)
    (hkey : n.heldKey twoSignersSetup address = some key)
    (hlength : signature.length = 64 ∧ key.length = 32) (hsigner : signerOf signature = some key) :
    Accepts twoSignersSetup (confirmationFrom address signature state)
      (confirmOf signature state) n := by
  refine ⟨rfl, ?_, key, hkey, ?_⟩
  · rw [textDecode_confirmOf, hr]
    rfl
  · show twoSignersVerify signature (buildPayload [109] 0) key = some true
    have hpayload : buildPayload [109] 0 = 109 :: List.replicate 8 0 := by decide
    simp [twoSignersVerify, hlength, hpayload, hsigner]

theorem heldKey_third (messageStore : MessageStore) :
    Node.heldKey twoSignersSetup
      { Node.withConnections trustedStore with messageStore := messageStore } thirdAddress =
      some thirdKey := by
  have h : trustedStore.getPeerPublicKey vectorSetup.lib.sha256 thirdAddress = some thirdKey := by
    decide +kernel
  exact h

theorem getMessage_sentNode : sentNode.messageStore.getMessage "m" = some sentMessage := by
  decide +kernel

theorem accepts_third (state : String) :
    Accepts twoSignersSetup (confirmationFrom thirdAddress confirmSignature state)
      (confirmOf confirmSignature state) sentNode :=
  accepts_confirmationFrom confirmSignature state getMessage_sentNode (heldKey_third _)
    (by decide) (by decide)

theorem Accepts.confirms_m {n n' : Node} {e : Envelope} {r : MessageRecord} {signature : Bytes}
    {state : String} (h : Accepts twoSignersSetup e (confirmOf signature state) n)
    (hr : n'.messageStore.getMessage "m" = some r) :
    (confirmed twoSignersSetup otherContext e n n').messageStore.getMessage "m" =
      some { r with state := state, failureReason := none, updatedAt := isoString 0 } := by
  have hrow : (confirmed twoSignersSetup otherContext e n n').messageStore.getMessage
      (textDecode (confirmOf signature state).messageId) = _ := h.getMessage_eq
  rw [textDecode_confirmOf, hr] at hrow
  exact hrow

theorem confirmed_by_recipient_third :
    (confirmed twoSignersSetup otherContext (confirmationFrom thirdAddress confirmSignature
      "delivered") sentNode sentNode).messageStore.getMessage "m" ≠ some sentMessage ∧
    sentMessage.direction = .outbound ∧ ∃ confirm key,
      (confirmationFrom thirdAddress confirmSignature "delivered").payload =
        .deliveryConfirm confirm ∧ textDecode confirm.messageId = "m" ∧
      sentNode.heldKey twoSignersSetup sentMessage.connectionAddress = some key ∧
      twoSignersSetup.lib.verifyDetached confirm.signature
        (buildPayload confirm.messageId confirm.timestamp) key = some true := by
  have hchanged : (confirmed twoSignersSetup otherContext (confirmationFrom thirdAddress
      confirmSignature "delivered") sentNode sentNode).messageStore.getMessage "m" ≠
      some sentMessage := by
    rw [(accepts_third "delivered").confirms_m getMessage_sentNode]
    decide
  have hideal : IdealEd25519 twoSignersSetup.lib.verifyDetached
      (fun key signature _ => signerOf signature = some key) := idealEd25519_twoSigners
  have honly := (confirmed_by_recipient_iff hideal otherContext
    (confirmationFrom thirdAddress confirmSignature "delivered") sentNode sentNode).2
  refine ⟨hchanged, (honly ?_).changed "m" sentMessage getMessage_sentNode hchanged⟩
  intro confirm key m _ _ hkey _ hm _
  have hmem : m ∈ [sentMessage] := List.mem_of_find?_eq_some hm
  obtain rfl := List.mem_singleton.mp hmem
  exact ⟨rfl, hkey⟩

/-- An address that was never connected confirms a message to somebody else, and a message
that came in is confirmed by its author. -/
theorem stranger_confirms :
    IdealEd25519 twoSignersSetup.lib.verifyDetached
      (fun key signature _ => signerOf signature = some key) ∧
    trustedStore.getConnection vectorAddress = none ∧
    sentMessage.connectionAddress = thirdAddress ∧
    sentNode.heldKey twoSignersSetup thirdAddress = some thirdKey ∧
    signerOf strangerSignature ≠ some thirdKey ∧
    (confirmed twoSignersSetup otherContext (confirmationFrom vectorAddress strangerSignature
      "delivered") sentNode sentNode).messageStore.getMessage "m" =
      some { sentMessage with state := "delivered" } ∧
    reviewedMessage.direction = .inbound ∧
    (confirmed twoSignersSetup otherContext (confirmationFrom thirdAddress confirmSignature
      "read_by_agent") reviewNode reviewNode).messageStore.getMessage "m" =
      some { reviewedMessage with state := "read_by_agent" } := by
  have hstranger : sentNode.heldKey twoSignersSetup vectorAddress = some vectorKey := by
    decide +kernel
  have hreviewed : reviewNode.messageStore.getMessage "m" = some reviewedMessage := by
    decide +kernel
  refine ⟨idealEd25519_twoSigners, by decide, rfl, heldKey_third _, by decide, ?_, rfl, ?_⟩
  · have haccepts := accepts_confirmationFrom strangerSignature "delivered" getMessage_sentNode
      hstranger (by decide) (by decide)
    exact haccepts.confirms_m getMessage_sentNode
  · have haccepts := accepts_confirmationFrom confirmSignature "read_by_agent" hreviewed
      (heldKey_third _) (by decide) (by decide)
    exact haccepts.confirms_m hreviewed

/-! ### What is signed -/

/-- Of two confirmations that are accepted, whatever they share, the same state is recorded if
and only if they carry the same state. -/
theorem recorded_state_eq_iff {setup : Setup} {ctx₁ ctx₂ : CallContext} {e₁ e₂ : Envelope}
    {c₁ c₂ : DeliveryConfirm} {n₁ n₁' n₂ n₂' : Node} {r₁ r₂ : MessageRecord}
    (h₁ : Accepts setup e₁ c₁ n₁) (h₂ : Accepts setup e₂ c₂ n₂)
    (hr₁ : (confirmed setup ctx₁ e₁ n₁ n₁').messageStore.getMessage (textDecode c₁.messageId) =
      some r₁)
    (hr₂ : (confirmed setup ctx₂ e₂ n₂ n₂').messageStore.getMessage (textDecode c₂.messageId) =
      some r₂) :
    r₁.state = r₂.state ↔ c₁.state = c₂.state := by
  rw [h₁.state_eq hr₁, h₂.state_eq hr₂]

theorem recorded_state_eq_iff_third :
    (({ sentMessage with state := "delivered" } : MessageRecord).state =
      ({ reviewedMessage with state := "delivered" } : MessageRecord).state ↔
      (confirmOf confirmSignature "delivered").state =
        (confirmOf confirmSignature "delivered").state) ∧
    (({ sentMessage with state := "delivered" } : MessageRecord).state =
      ({ sentMessage with state := "read_by_agent" } : MessageRecord).state ↔
      (confirmOf confirmSignature "delivered").state =
        (confirmOf confirmSignature "read_by_agent").state) := by
  have hrow : ∀ {n : Node} {r : MessageRecord} {state : String},
      Accepts twoSignersSetup (confirmationFrom thirdAddress confirmSignature state)
        (confirmOf confirmSignature state) n → n.messageStore.getMessage "m" = some r →
      (confirmed twoSignersSetup otherContext (confirmationFrom thirdAddress confirmSignature
        state) n n).messageStore.getMessage
          (textDecode (confirmOf confirmSignature state).messageId) =
        some { r with state := state, failureReason := none, updatedAt := isoString 0 } := by
    intro n r state haccepts hr
    rw [textDecode_confirmOf]
    exact haccepts.confirms_m hr
  have hreviewed : reviewNode.messageStore.getMessage "m" = some reviewedMessage := by
    decide +kernel
  have hdelivered := accepts_third "delivered"
  have hread := accepts_third "read_by_agent"
  have hinbound := accepts_confirmationFrom confirmSignature "delivered" hreviewed
    (heldKey_third _) (by decide) (by decide)
  exact ⟨recorded_state_eq_iff hdelivered hinbound (hrow hdelivered getMessage_sentNode)
      (hrow hinbound hreviewed),
    recorded_state_eq_iff hdelivered hread (hrow hdelivered getMessage_sentNode)
      (hrow hread getMessage_sentNode)⟩

/-- On the way, the state of a confirmation is replaced; the signature still verifies. -/
theorem state_replaced_in_transit :
    Accepts twoSignersSetup (confirmationFrom thirdAddress confirmSignature "delivered")
      (confirmOf confirmSignature "delivered") sentNode ∧
    Accepts twoSignersSetup (restate (confirmationFrom thirdAddress confirmSignature "delivered")
      (confirmOf confirmSignature "delivered") "failed") (confirmOf confirmSignature "failed")
      sentNode ∧
    (confirmed twoSignersSetup otherContext (confirmationFrom thirdAddress confirmSignature
      "delivered") sentNode sentNode).messageStore.getMessage "m" =
      some { sentMessage with state := "delivered" } ∧
    (confirmed twoSignersSetup otherContext (restate (confirmationFrom thirdAddress
      confirmSignature "delivered") (confirmOf confirmSignature "delivered") "failed") sentNode
      sentNode).messageStore.getMessage "m" = some { sentMessage with state := "failed" } := by
  have haccepts := accepts_third "delivered"
  have haltered : Accepts twoSignersSetup (restate (confirmationFrom thirdAddress
      confirmSignature "delivered") (confirmOf confirmSignature "delivered") "failed")
      (confirmOf confirmSignature "failed") sentNode := haccepts.restate "failed"
  exact ⟨haccepts, haltered, haccepts.confirms_m getMessage_sentNode,
    haltered.confirms_m getMessage_sentNode⟩

end Pinch
