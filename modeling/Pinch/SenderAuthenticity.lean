import Pinch.MessageManager
import Pinch.PipelineStep
import Pinch.Vectors

/-! Who can have a message filed under a peer's address. The box is ideal: it opens
under a sender key only if it was sealed with that key's private half. -/

namespace Pinch

open MessageManager

section

variable (setup : Setup) (sealedBy : Bytes → Bytes → Prop)

/-- `sealedBy x sealed` says who made `sealed`, by X25519 key; `own` is the agent's
private key. The owner of any key can seal any plaintext for the agent. -/
structure IdealBox (own : Bytes) : Prop where
  ownKey : setup.lib.skToCurve25519 setup.privateKey = some own
  opens : ∀ x sealed m, decrypt setup.lib sealed x own = some m → sealedBy x sealed
  unique : ∀ x y sealed, sealedBy x sealed → sealedBy y sealed → x = y
  seals : ∀ k x m, setup.lib.pkToCurve25519 k = some x →
    ∃ sealed, decrypt setup.lib sealed x own = some m
  emptyPlaintext : setup.lib.plaintextFromBinary [] = some ⟨0, 0, 0, [], ""⟩

/-- The pipeline started in `stage` may return `r`, whatever runs in between. -/
inductive Leads (message : MessageRecord) (address : String) : Stage → RoutedMessage → Prop
  | done (r : RoutedMessage) : Leads message address (.done r) r
  | resume {stage next : Stage} {r : RoutedMessage} (now : Int) (verdict : Verdict) (n n' : Node)
      (h : (EnforcementPipeline.resume setup.breakerConfig now message address verdict stage).run n =
        .ok next n')
      (hrest : Leads message address next r) : Leads message address stage r

def SealedByPeer (store : ConnectionStore) (address : String) (sealed : Bytes) : Prop :=
  ∃ key x, store.getPeerPublicKey setup.lib.sha256 address = some key ∧
    setup.lib.pkToCurve25519 key = some x ∧ sealedBy x sealed

/-- Every message that carries `key`, is filed under `address` and is not failed was
sealed by the peer. -/
def AuthenticWith (store : ConnectionStore) (address : String) (key : Bytes) : Prop :=
  ∀ n ctx envelope payload message stage n' r, n.connectionStore = store →
    envelope.fromAddress = address → envelope.payload = .encrypted payload →
    payload.senderPublicKey = key →
    (handleIncomingMessage setup ctx envelope).run n =
      .ok (some (.processing message address stage)) n' →
    Leads setup message address stage r → r.state ≠ "failed" →
    SealedByPeer setup sealedBy store address (payload.nonce ++ payload.ciphertext)

end

def Connection.Admits (c : Connection) : Prop :=
  c.muted = some true ∨ c.passthrough = some true ∨ c.state = .active

section Refused

variable {setup : Setup} {message : MessageRecord} {address : String}

def unknownSenderResult : EnforcementResult := { allowed := false, reason := some "unknown sender" }

theorem process_refused {n : Node} (now : Int)
    (h : ∀ c, n.connectionStore.getConnection address = some c → ¬ c.Admits) :
    (EnforcementPipeline.process now message address).run n =
      .ok (.enforced unknownSenderResult) n := by
  unfold EnforcementPipeline.process PermissionsEnforcer.check
  cases hc : n.connectionStore.getConnection address with
  | none => simp [hc, CheckStep.stage, unknownSenderResult]
  | some c =>
    have hn := h c hc
    simp only [Connection.Admits, not_or] at hn
    obtain ⟨hm, hp, ha⟩ := hn
    simp [hc, hm, hp, ha, CheckStep.stage, unknownSenderResult]

theorem Leads.eq_of_done {r r' : RoutedMessage} (h : Leads setup message address (.done r) r') :
    r' = r := by
  generalize hs : Stage.done r = stage at h
  induction h with
  | done r' => exact (Stage.done.inj hs).symm
  | resume now verdict n n' h _ ih =>
    subst hs
    obtain ⟨rfl, rfl⟩ : Stage.done r = _ ∧ n = n' := by
      simpa [EnforcementPipeline.resume] using h
    exact ih rfl

theorem enforce_refused (message : MessageRecord) (address : String)
    (config : CircuitBreakerConfig) (now : Int) (n : Node) :
    ∃ n', (EnforcementPipeline.enforce config now message address unknownSenderResult).run n =
      .ok (.done (message.routed address "failed" (some "unknown sender"))) n' := by
  simp [-bind_pure_comp, EnforcementPipeline.enforce, unknownSenderResult, Node.updateState]

theorem Leads.failed_of_refused {r : RoutedMessage}
    (h : Leads setup message address (.enforced unknownSenderResult) r) : r.state = "failed" := by
  cases h with
  | resume now verdict n n' h hrest =>
    obtain ⟨n'', hrun⟩ := enforce_refused message address setup.breakerConfig now n
    rw [EnforcementPipeline.resume, hrun] at h
    obtain ⟨rfl, -⟩ := EStateM.Result.ok.inj h
    rw [hrest.eq_of_done]
    rfl

end Refused

section Admitted

variable {setup : Setup} {message : MessageRecord} {address : String} {now : Int}

def ActiveFor (address : String) (n : Node) : Prop :=
  ∃ c, n.connectionStore.getConnection address = some c ∧ c.state = .active

theorem recordMessage_activeFor (config : CircuitBreakerConfig) :
    Spec (ActiveFor address) (CircuitBreaker.recordMessage config now address)
      (fun _ => ActiveFor address) (fun _ _ => False) := by
  rintro n ⟨c, hc, hs⟩
  have hspec : Spec (fun m => m = n) (CircuitBreaker.recordMessage config now address)
      (fun _ => ActiveFor address) (fun _ _ => False) := by
    rw [CircuitBreaker.recordMessage_eq]
    refine (CircuitBreaker.recordEvent_recorded n).conseq (fun _ h => h)
      (fun _ _ hrec => ⟨_, hrec.own hc, ?_⟩) fun _ _ h => by simp [hc] at h
    split <;> simp [Connection.afterTrip_eq, hs]
  exact hspec n rfl

def Stage.MayPass (stage : Stage) : Prop :=
  ∃ r : RoutedMessage, (stage = .done r ∧ r.state ≠ "failed") ∨
    ∃ policy nickname, stage = .evaluating policy nickname r

theorem route_mayPass :
    Spec (ActiveFor address) (InboundRouter.route now message address)
      (fun r n => ActiveFor address n ∧ r.state ≠ "failed") (fun _ _ => False) := by
  refine EnforcementPipeline.route_rule fun n state reason feed hn _ hout => ⟨hn, ?_⟩
  obtain ⟨c, hc, hs⟩ := hn
  cases hout with
  | refused h => exact absurd hs (h c hc)
  | _ => simp [MessageRecord.routed]

theorem evaluateAutoRespondPolicy_mayPass (routed : RoutedMessage) :
    Spec (fun _ => True)
      (EnforcementPipeline.evaluateAutoRespondPolicy now message address routed)
      (fun stage _ => stage.MayPass) (fun _ _ => False) := by
  refine EnforcementPipeline.evaluateAutoRespondPolicy_rule (fun _ _ _ _ _ _ _ => ?_)
    fun _ _ _ _ _ => ?_
  · exact ⟨routed, .inr ⟨_, _, rfl⟩⟩
  · exact ⟨_, .inl ⟨rfl, by simp⟩⟩

theorem enforce_mayPass (message : MessageRecord) (address : String) (now : Int)
    (config : CircuitBreakerConfig) :
    Spec (ActiveFor address)
      (EnforcementPipeline.enforce config now message address { allowed := true })
      (fun stage _ => stage.MayPass) (fun _ _ => False) := by
  refine Spec.bind (recordMessage_activeFor config) fun _ => ?_
  refine Spec.bind route_mayPass fun routed => ?_
  split
  · exact (evaluateAutoRespondPolicy_mayPass routed).conseq (fun _ _ => trivial)
      (fun _ _ h => h) (fun _ _ h => h)
  · exact Spec.pure fun n h => ⟨routed, .inl ⟨rfl, h.2⟩⟩

theorem Stage.MayPass.leads {stage : Stage} (h : stage.MayPass) (setup : Setup)
    (message : MessageRecord) (address : String) (n : Node) :
    ∃ r, Leads setup message address stage r ∧ r.state ≠ "failed" := by
  obtain ⟨r, ⟨rfl, hr⟩ | ⟨policy, nickname, rfl⟩⟩ := h
  · exact ⟨r, .done r, hr⟩
  · refine ⟨{ r with state := "escalated_to_human" }, ?_, by simp⟩
    have hrun : ∃ n', (EnforcementPipeline.resume setup.breakerConfig 0 message address none
        (.evaluating policy nickname r)).run n =
        .ok (.done { r with state := "escalated_to_human" }) n' := by
      simp [-bind_pure_comp, EnforcementPipeline.resume, EnforcementPipeline.applyVerdict,
        Node.updateState, EnforcementPipeline.recordAutoRespondDecision, Node.recordActivity]
    obtain ⟨n', hn'⟩ := hrun
    exact .resume 0 none n n' hn' (.done _)

theorem leads_checking (boundaries : List String) (rest : List CustomCategory) (n : Node) :
    ∃ r, Leads setup message address (.checking boundaries rest) r ∧ r.state ≠ "failed" := by
  refine ⟨message.routed address "escalated_to_human"
    (some "Policy evaluation unavailable -- escalating to human"), ?_, by simp [MessageRecord.routed]⟩
  refine .resume 0 none n n rfl ?_
  have hrun : ∃ n', (EnforcementPipeline.resume setup.breakerConfig 0 message address none
      (PermissionsEnforcer.afterVerdict rest none).stage).run n =
      .ok (.done (message.routed address "escalated_to_human"
        (some "Policy evaluation unavailable -- escalating to human"))) n' := by
    simp [-bind_pure_comp, PermissionsEnforcer.afterVerdict, CheckStep.stage,
      EnforcementPipeline.resume, EnforcementPipeline.enforce, Node.updateState]
  obtain ⟨n', hn'⟩ := hrun
  exact .resume 0 none n n' hn' (.done _)

theorem leads_checkCategories (rest : List CustomCategory) {n : Node} (h : ActiveFor address n) :
    ∃ r, Leads setup message address (PermissionsEnforcer.checkCategories rest).stage r ∧
      r.state ≠ "failed" := by
  cases rest with
  | nil =>
    obtain ⟨stage, n', hrun, hpass⟩ :=
      (enforce_mayPass message address 0 setup.breakerConfig).returns h
    obtain ⟨r, hr, hs⟩ := hpass.leads setup message address n
    exact ⟨r, .resume 0 none n n' hrun hr, hs⟩
  | cons category rest => exact leads_checking _ _ n

theorem process_admitted (setup : Setup) (message : MessageRecord) (now : Int) {n : Node}
    {c : Connection}
    (hc : n.connectionStore.getConnection address = some c) (ha : c.Admits) :
    ∃ stage n' r, (EnforcementPipeline.process now message address).run n = .ok stage n' ∧
      Leads setup message address stage r ∧ r.state ≠ "failed" := by
  have hspec : Spec (fun m => m = n) (EnforcementPipeline.process now message address)
      (fun stage _ => ∃ r, Leads setup message address stage r ∧ r.state ≠ "failed")
      (fun _ _ => False) := by
    refine EnforcementPipeline.process_rule
      (fun _ _ _ _ _ => ⟨_, .done _, by simp [MessageRecord.routed]⟩)
      (fun _ _ _ _ _ _ => ⟨_, .done _, by simp [MessageRecord.routed]⟩) ?_
    rintro m rfl hm hp
    rw [hc, Option.bind_some] at hm hp
    have hs : c.state = .active := by simpa [Connection.Admits, hm, hp] using ha
    simp only [PermissionsEnforcer.check, hc, hs, ne_eq, not_true, if_false]
    split
    · exact leads_checking _ _ m
    · exact leads_checkCategories _ ⟨c, hc, hs⟩
  obtain ⟨stage, n', hrun, r, hr⟩ := hspec.returns rfl
  exact ⟨stage, n', r, hrun, hr⟩

end Admitted

section

variable {setup : Setup} {sealedBy : Bytes → Bytes → Prop} {own : Bytes}

theorem orThrow_run_ok {α : Type} {error : String} {o : Option α} {a : α} {n n' : Node} :
    (orThrow error o).run n = .ok a n' ↔ o = some a ∧ n = n' := by
  cases o with
  | none =>
    constructor
    · intro h
      cases h
    · rintro ⟨h, -⟩
      cases h
  | some b => simp [orThrow]

theorem handleIncomingMessage_ok {ctx : CallContext} {envelope : Envelope}
    {payload : EncryptedPayload} {n n' : Node} {t : Option Task}
    (hp : envelope.payload = .encrypted payload)
    (h : (handleIncomingMessage setup ctx envelope).run n = .ok t n') :
    ∃ x y bytes message stage s, setup.lib.pkToCurve25519 payload.senderPublicKey = some x ∧
      setup.lib.skToCurve25519 setup.privateKey = some y ∧
      decrypt setup.lib (payload.nonce ++ payload.ciphertext) x y = some bytes ∧
      n.messageStore.saveMessage message = .ok s ∧ message.direction = .inbound ∧
      message.connectionAddress = envelope.fromAddress ∧ message.state = "delivered" ∧
      (EnforcementPipeline.process ctx.now message envelope.fromAddress).run
        { n with messageStore := s } = .ok stage n' ∧
      t = some (.processing message envelope.fromAddress stage) := by
  unfold handleIncomingMessage openPayload at h
  simp only [hp, run_bind_ok, orThrow_run_ok] at h
  obtain ⟨plaintext, _, ⟨x, _, ⟨hx, rfl⟩, y, _, ⟨hy, rfl⟩, bytes, _, ⟨hb, rfl⟩, -, rfl⟩,
    body, _, ⟨-, rfl⟩, _, n₁, hsave, stage, n₂, hproc, hret⟩ := h
  simp only [EStateM.run_pure, EStateM.Result.ok.injEq] at hret
  obtain ⟨rfl, rfl⟩ := hret
  simp only [Node.saveMessage, EStateM.run_bind, EStateM.run_get] at hsave
  cases hs : n.messageStore.saveMessage (inboundMessage ctx envelope.fromAddress
      (textDecode envelope.messageId) plaintext (readContent setup.lib plaintext) body) with
  | error e => simp [hs] at hsave
  | ok s =>
    simp only [hs, EStateM.run_modify, EStateM.Result.ok.injEq, true_and] at hsave
    subst hsave
    exact ⟨x, y, bytes, _, stage, s, hx, hy, hb, hs, rfl, rfl, rfl, hproc, rfl⟩

def Node.withConnections (store : ConnectionStore) : Node where
  connectionStore := store
  outbox := []
  messageStore := .empty
  breakerEvents := ∅
  activityFeed := []
  flush := ⟨-1, false, false⟩

/-- The owner of any convertible key can get a message past the pipeline under an
address whose record admits messages. -/
theorem exists_filed (h : IdealBox setup sealedBy own) {store : ConnectionStore}
    {address : String} {key x : Bytes} {c : Connection}
    (hx : setup.lib.pkToCurve25519 key = some x)
    (hc : store.getConnection address = some c) (ha : c.Admits) :
    ∃ n ctx envelope payload message stage n' r, n.connectionStore = store ∧
      envelope.fromAddress = address ∧ envelope.payload = .encrypted payload ∧
      payload.senderPublicKey = key ∧
      (handleIncomingMessage setup ctx envelope).run n =
        .ok (some (.processing message address stage)) n' ∧
      Leads setup message address stage r ∧ r.state ≠ "failed" ∧
      sealedBy x (payload.nonce ++ payload.ciphertext) := by
  obtain ⟨sealed, hsealed⟩ := h.seals key x [] hx
  let ctx : CallContext := ⟨none, true, none, 0, none⟩
  let payload : EncryptedPayload := ⟨sealed, [], key⟩
  let envelope : Envelope := { fromAddress := address, payload := .encrypted payload }
  let message := inboundMessage ctx address (textDecode []) ⟨0, 0, 0, [], ""⟩
    { body := some (textDecode []) } (textDecode [])
  have hsave : MessageStore.empty.saveMessage message =
      .ok ⟨[message], List.nodup_singleton _⟩ := by
    simp [MessageStore.saveMessage, MessageStore.empty]
  obtain ⟨stage, n', r, hproc, hleads, hr⟩ := process_admitted setup message 0
    (n := { Node.withConnections store with messageStore := ⟨[message], List.nodup_singleton _⟩ })
    hc ha
  refine ⟨Node.withConnections store, ctx, envelope, payload, message, stage, n', r, rfl, rfl, rfl,
    rfl, ?_, hleads, hr, ?_⟩
  · have hcontent : readContent setup.lib ⟨0, 0, 0, [], ""⟩ =
        { body := some (textDecode []) } := by
      simp [readContent, pinchJson]
    have hopen : (openPayload setup payload).run (Node.withConnections store) =
        .ok ⟨0, 0, 0, [], ""⟩ (Node.withConnections store) := by
      simp [openPayload, payload, hx, h.ownKey, hsealed, h.emptyPlaintext, orThrow]
    have hbody : (orThrow "SQLite3 can only bind numbers, strings, bigints, buffers, and null"
        (some (textDecode []))).run (Node.withConnections store) =
        .ok (textDecode []) (Node.withConnections store) := rfl
    have hsaved : (Node.saveMessage message).run (Node.withConnections store) =
        .ok () { Node.withConnections store with
          messageStore := ⟨[message], List.nodup_singleton _⟩ } := by
      simp [Node.saveMessage, Node.withConnections, hsave]
    simp only [handleIncomingMessage, envelope, run_bind_ok]
    refine ⟨_, _, hopen, ?_⟩
    rw [hcontent]
    exact ⟨_, _, hbody, _, _, hsaved, stage, n', hproc, rfl⟩
  · simpa [payload] using h.opens x sealed [] hsealed

/-- A message is authentic exactly when its key is the peer's, unusable, or filed
under an address whose messages are refused. -/
theorem authenticWith_iff (h : IdealBox setup sealedBy own) (store : ConnectionStore)
    (address : String) (key : Bytes) :
    AuthenticWith setup sealedBy store address key ↔
      setup.lib.pkToCurve25519 key = none ∨
      (∃ held, store.getPeerPublicKey setup.lib.sha256 address = some held ∧
        setup.lib.pkToCurve25519 held = setup.lib.pkToCurve25519 key) ∨
      ∀ c, store.getConnection address = some c → ¬ c.Admits := by
  constructor
  · intro hauth
    by_contra hnot
    simp only [not_or, not_forall, not_not, not_exists, not_and] at hnot
    obtain ⟨hkey, hheld, c, hc, ha⟩ := hnot
    obtain ⟨x, hx⟩ := Option.ne_none_iff_exists'.mp hkey
    obtain ⟨n, ctx, envelope, payload, message, stage, n', r, hn, hfrom, hp, hk, hrun, hleads, hr,
      hs⟩ := exists_filed h hx hc ha
    obtain ⟨held, y, hget, hy, hs'⟩ := hauth n ctx envelope payload message stage n' r hn hfrom hp
      hk hrun hleads hr
    obtain rfl := h.unique _ _ _ hs hs'
    exact hheld held hget (hy.trans hx.symm)
  · intro hcond n ctx envelope payload message stage n' r hn hfrom hp hk hrun hleads hr
    obtain ⟨x, y, bytes, message', stage', s, hx, hy, hopen, -, -, -, -, hproc, ht⟩ :=
      handleIncomingMessage_ok hp hrun
    obtain rfl := Option.some.inj (hy.symm.trans h.ownKey)
    rw [hk] at hx
    rcases hcond with hnone | ⟨held, hget, heq⟩ | hrefused
    · simp [hx] at hnone
    · exact ⟨held, x, hget, heq.trans hx, h.opens x _ bytes hopen⟩
    · simp only [Option.some.injEq, Task.processing.injEq] at ht
      obtain ⟨rfl, -, rfl⟩ := ht
      rw [hfrom, process_refused ctx.now (by simpa only [hn] using hrefused)] at hproc
      obtain ⟨rfl, -⟩ := EStateM.Result.ok.inj hproc
      exact absurd hleads.failed_of_refused hr

end

def forgedNonce : Bytes :=
  [0, 1, 2, 3, 4, 5, 6, 7, 8, 9, 10, 11, 12, 13, 14, 15,
   16, 17, 18, 19, 20, 21, 22, 23]

/-- The box of the first identity for the second over the plaintext below. -/
def forgedCiphertext : Bytes :=
  [170, 101, 35, 145, 74, 135, 242, 198, 199, 217, 110, 79, 121, 47, 129, 81,
   141, 216, 184, 36, 211, 72, 65, 79, 241, 67, 72, 97, 30, 140, 214, 13,
   204, 2, 239, 191, 112, 56, 102]

def forgedPlaintext : Bytes :=
  [8, 1, 16, 1, 34, 5, 104, 101, 108, 108, 111, 42, 10, 116, 101, 120,
   116, 47, 112, 108, 97, 105, 110]

def vectorCurve (k : Bytes) : Option Bytes :=
  if k = vectorKey then some vectorX25519
  else if k = otherKey then some otherX25519
  else if k = thirdKey then some thirdX25519
  else none

/-- The libraries as they act on the forged payload. Boxes other than the forged one
carry the sender's key in front of the text. -/
def vectorLibraries : Libraries where
  sha256 := fun _ => vectorDigest
  pkToCurve25519 := vectorCurve
  skToCurve25519 := fun k => if k = otherPrivateKey then some otherX25519Private else none
  boxOpenEasy := fun ciphertext nonce x y =>
    if nonce = forgedNonce ∧ ciphertext = forgedCiphertext then
      if x = vectorX25519 ∧ y = otherX25519Private then some forgedPlaintext else none
    else if ciphertext.take 32 = x then some (ciphertext.drop 32)
    else none
  signDetached := fun _ _ => none
  verifyDetached := fun _ _ _ => some false
  plaintextFromBinary := fun b =>
    if b = forgedPlaintext then
      some ⟨1, 1, 0, [104, 101, 108, 108, 111], "text/plain"⟩
    else if b = [] then some ⟨0, 0, 0, [], ""⟩
    else none
  parseJson := fun _ => none

def vectorSetup : Setup := ⟨vectorLibraries, otherPrivateKey, {}⟩

def vectorSealedBy (x sealed : Bytes) : Prop :=
  (decrypt vectorLibraries sealed x otherX25519Private).isSome

theorem vectorCurve_length {k x : Bytes} (h : vectorCurve k = some x) : x.length = 32 := by
  unfold vectorCurve at h
  split_ifs at h <;> obtain rfl := Option.some.inj h <;> rfl

theorem idealBox_vectorSetup : IdealBox vectorSetup vectorSealedBy otherX25519Private where
  ownKey := by decide +kernel
  opens := by
    intro x sealed m h
    exact Option.isSome_iff_exists.mpr ⟨m, h⟩
  unique := by
    intro x y sealed hx hy
    simp only [vectorSealedBy, decrypt, vectorLibraries] at hx hy
    split_ifs at hx hy <;> simp_all
  seals := by
    intro k x m h
    have hl := vectorCurve_length h
    refine ⟨List.replicate 24 0 ++ (x ++ m), ?_⟩
    simp only [decrypt, nonceBytes, vectorSetup, vectorLibraries]
    rw [if_neg]
    · simp [← hl]
    · rintro ⟨hn, -⟩
      exact absurd hn (by simp; decide)
  emptyPlaintext := by decide +kernel

def trustedPeer : Connection where
  peerAddress := thirdAddress
  peerPublicKey := some (Base64.encode thirdKey)
  state := .active
  nickname := ""
  autonomyLevel := .fullAuto
  autoRespondPolicy := none
  circuitBreakerTripped := none
  permissionsManifest := some defaultPermissionsManifest
  muted := none
  passthrough := none
  shortMessage := none
  createdAt := isoString 0
  lastActivity := isoString 0
  expiresAt := none

def trustedStore : ConnectionStore := AList.insert thirdAddress trustedPeer ∅

theorem authenticWith_iff_vectors :
    IdealBox vectorSetup vectorSealedBy otherX25519Private ∧
    (AuthenticWith vectorSetup vectorSealedBy trustedStore thirdAddress thirdKey ↔
      vectorSetup.lib.pkToCurve25519 thirdKey = none ∨
      (∃ held, trustedStore.getPeerPublicKey vectorSetup.lib.sha256 thirdAddress = some held ∧
        vectorSetup.lib.pkToCurve25519 held = vectorSetup.lib.pkToCurve25519 thirdKey) ∨
      ∀ c, trustedStore.getConnection thirdAddress = some c → ¬ c.Admits) :=
  ⟨idealBox_vectorSetup, authenticWith_iff idealBox_vectorSetup trustedStore thirdAddress thirdKey⟩

def forgedPayload : EncryptedPayload := ⟨forgedNonce, forgedCiphertext, vectorKey⟩

def forgedEnvelope : Envelope where
  version := 1
  fromAddress := thirdAddress
  type := .message
  messageId := [109]
  payload := .encrypted forgedPayload

def otherContext : CallContext := ⟨some "pinch:other@relay", true, some otherKey, 0, none⟩

def forgedMessage : MessageRecord where
  id := "m"
  connectionAddress := thirdAddress
  direction := .inbound
  body := "hello"
  threadId := none
  replyTo := none
  priority := .normal
  sequence := 1
  state := "delivered"
  attribution := some .agent
  createdAt := isoString 0
  updatedAt := isoString 0

theorem forged_message_read :
    IdealBox vectorSetup vectorSealedBy otherX25519Private ∧
    ∃ stage n r, (handleIncomingMessage vectorSetup otherContext forgedEnvelope).run
        (Node.withConnections trustedStore) =
        .ok (some (.processing forgedMessage thirdAddress stage)) n ∧
      Leads vectorSetup forgedMessage thirdAddress stage r ∧ r.state = "read_by_agent" ∧
      ¬ SealedByPeer vectorSetup vectorSealedBy trustedStore thirdAddress
        (forgedNonce ++ forgedCiphertext) := by
  have hrun : returned ((handleIncomingMessage vectorSetup otherContext forgedEnvelope).run
      (Node.withConnections trustedStore)) =
      some (some (.processing forgedMessage thirdAddress (.enforced { allowed := true }))) := by
    decide +kernel
  have hnext : returned ((EnforcementPipeline.resume {} 0 forgedMessage thirdAddress none
      (.enforced { allowed := true })).run (finalState ((handleIncomingMessage vectorSetup
        otherContext forgedEnvelope).run (Node.withConnections trustedStore)))) =
      some (.done (forgedMessage.routed thirdAddress "read_by_agent")) := by
    decide +kernel
  refine ⟨idealBox_vectorSetup, .enforced { allowed := true }, _,
    forgedMessage.routed thirdAddress "read_by_agent", eq_ok_of_returned hrun,
    .resume 0 none _ _ (eq_ok_of_returned hnext) (.done _), rfl, ?_⟩
  rintro ⟨key, x, hkey, hx, hs⟩
  have hheld : trustedStore.getPeerPublicKey vectorSetup.lib.sha256 thirdAddress =
      some thirdKey := by decide +kernel
  obtain rfl := Option.some.inj (hheld.symm.trans hkey)
  have hcurve : vectorSetup.lib.pkToCurve25519 thirdKey = some thirdX25519 := by decide +kernel
  obtain rfl := Option.some.inj (hcurve.symm.trans hx)
  have hclosed : (decrypt vectorLibraries (forgedNonce ++ forgedCiphertext) thirdX25519
      otherX25519Private).isSome = false := by decide +kernel
  simp [vectorSealedBy, hclosed] at hs

end Pinch
