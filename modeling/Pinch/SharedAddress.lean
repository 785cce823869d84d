import Pinch.AddressCodec
import Pinch.Admission
import Pinch.ClientStep
import Pinch.Handshake
import Pinch.Hub

/-! The address that an agent shows to its peers and the one that the relay files it under. Both
are made from the agent's key; the first takes the host of the agent's configuration, the second
the host of the relay's, and the handshake compares the two in lower case only. -/

namespace Pinch

/-- `process.env.PINCH_RELAY_HOST ?? "localhost"`, in `bootstrap` and in `pinch-whoami`. -/
def configuredHost (relayHostVariable : Option String) : String :=
  relayHostVariable.getD "localhost"

/-- The address that `pinch-whoami` prints. -/
def whoamiAddress (sha256 : Bytes → Bytes) (publicKey : Bytes)
    (relayHostVariable : Option String) : String :=
  generateAddress sha256 publicKey (configuredHost relayHostVariable)

structure WsConfig where
  relayPublicHost : String
  authChallengeTTL : ℤ
  authTimeout : ℤ
  lockedMode : Bool
  keyRegistry : Option KeyRegistry

/-- The text that bytes of the relay stand for. -/
def relayText (bs : Bytes) : String :=
  String.ofList (decodeBytes {} bs)

/-- `wsHandler` on a connection that has been accepted: what `sendAuthResult` is told, and the
hub. -/
def wsHandler (sha256 : Bytes → Bytes) (verify : Bytes → Bytes → Bytes → Bool) (cfg : WsConfig)
    (s : AuthSession) (hub : Hub) : HandshakePayload × Hub :=
  match authenticate sha256 verify (textEncode cfg.relayPublicHost) cfg.authChallengeTTL
      cfg.authTimeout s with
  | .error _ => (.authResult false "authentication failed" "", hub)
  | .ok (pubKey, addressBytes) =>
    let address := relayText addressBytes
    if !admits cfg.lockedMode cfg.keyRegistry pubKey then
      (.authResult false "key not registered" "", hub)
    else if (hub.clients address).isSome then
      (.authResult false "address already connected" "", hub)
    else (.authResult true "" address, hub.register address)

/-- The challenge of a session, as the client decodes it. -/
def sentChallenge (cfg : WsConfig) (s : AuthSession) (nonce : Nonce) : ChallengeEnvelope String :=
  (challengeEnvelope (textEncode cfg.relayPublicHost) nonce s.issuedAt
    (s.issuedAt + orTenSeconds cfg.authChallengeTTL)).asText cfg.relayPublicHost

section

variable (toLowerCase : String → String) (signDetached : Bytes → Bytes → Option Bytes)

/-- What the relay reads, if anything, is the client's answer to its challenge. -/
def ReadsAnswer (clientHost : String) (publicKey privateKey : Bytes) (cfg : WsConfig)
    (s : AuthSession) : Prop :=
  ∀ nonce frame, s.generateChallenge = .ok nonce →
    s.read (orTenSeconds cfg.authTimeout) = .ok frame →
      ∃ answer, respondToAuthChallenge toLowerCase signDetached clientHost publicKey privateKey
        (sentChallenge cfg s nonce) = .ok answer ∧ frame = ⟨.binary, .ok answer⟩

end

/-- The result of the handshake comes in on socket `n`, and its `connect` resolves. -/
structure Connects (client client' : RelayClient) (n : ℕ) (result : HandshakePayload) : Prop where
  waiting : (client.sockets n).authState = .awaitingResult
  pending : (client.sockets n).outcome = none
  step : ∃ respond now,
    client.step (.message n ⟨true, respond, .ok result⟩ now) = some client'
  resolved : (client'.sockets n).outcome = some (.ok ())

namespace RelayClient

variable {s : RelayClient} {n : ℕ} {addr : String} {now : ℤ}

theorem outcome_rejectOnce (h : (s.sockets n).outcome = none) (err : String) :
    ((s.rejectOnce n err).sockets n).outcome = some (.error err) := by
  cases hcaller : (s.sockets n).caller with
  | user => simp [rejectOnce, h, hcaller, settle]
  | loop => simp [rejectOnce, h, hcaller, settle, sockets_attemptReconnect]

theorem outcome_refuse (h : (s.sockets n).outcome = none) (err : String) :
    ((s.refuse n err).sockets n).outcome = some (.error err) := by
  have hquiet := (Quiet.clearAuthTimer s n).trans (Quiet.shutCurrent _)
  exact outcome_rejectOnce ((hquiet.outcome n).trans h) err

theorem assignedAddress_resolveOnce (s : RelayClient) (n : ℕ) :
    (s.resolveOnce n).assignedAddress = s.assignedAddress := by
  unfold resolveOnce
  split <;> rfl

theorem assignedAddress_accept : (s.accept n addr now).assignedAddress = some addr :=
  assignedAddress_resolveOnce _ n

end RelayClient

/-- A call of `connect` resolves only on a result that reports success. -/
theorem Connects.accepted {client client' : RelayClient} {n : ℕ} {result : HandshakePayload}
    (h : Connects client client' n result) :
    ∃ err addr, result = .authResult true err addr ∧ client'.assignedAddress = some addr := by
  obtain ⟨respond, now, hstep⟩ := h.step
  obtain ⟨-, ⟨⟩⟩ := Option.ite_none_right_eq_some.1 hstep
  have hresolved := h.resolved
  simp only [RelayClient.onMessage, h.waiting, Bool.not_true, Bool.false_eq_true, if_false]
    at hresolved ⊢
  cases result with
  | other name => simp [RelayClient.outcome_refuse h.pending] at hresolved
  | authResult success err addr =>
    cases success with
    | false => simp [RelayClient.outcome_refuse h.pending] at hresolved
    | true => exact ⟨err, addr, rfl, RelayClient.assignedAddress_accept⟩

section

variable {sha256 : Bytes → Bytes} {verify : Bytes → Bytes → Bytes → Bool} {cfg : WsConfig}
  {s : AuthSession} {hub : Hub} {err addr : String}

theorem relayText_textEncode (text : String) : relayText (textEncode text) = text := by
  rw [relayText, decodeBytes_textEncode, String.ofList_toList]

/-- The relay reports success with the address under which it has filed the client. -/
theorem wsHandler_success (h : (wsHandler sha256 verify cfg s hub).1 = .authResult true err addr) :
    ∃ pubKey, authenticate sha256 verify (textEncode cfg.relayPublicHost) cfg.authChallengeTTL
        cfg.authTimeout s = .ok (pubKey, textEncode (generateAddress sha256 pubKey
          cfg.relayPublicHost)) ∧
      addr = generateAddress sha256 pubKey cfg.relayPublicHost ∧
      (wsHandler sha256 verify cfg s hub).2 = hub.register addr ∧ hub.clients addr = none := by
  cases hauth : authenticate sha256 verify (textEncode cfg.relayPublicHost) cfg.authChallengeTTL
      cfg.authTimeout s with
  | error e => simp [wsHandler, hauth] at h
  | ok result =>
    obtain ⟨pubKey, bytes⟩ := result
    obtain ⟨nonce, ar, haccepted⟩ := authenticate_ok hauth
    have hbytes : bytes = textEncode (generateAddress sha256 pubKey cfg.relayPublicHost) := by
      rw [haccepted.address, generateAddressBytes_textEncode]
    rw [hbytes] at hauth ⊢
    simp only [wsHandler, hauth, relayText_textEncode] at h ⊢
    split_ifs at h ⊢ with hadmits hclient
    · simp at h
    · simp at h
    · obtain ⟨-, -, rfl⟩ := HandshakePayload.authResult.inj h
      exact ⟨pubKey, rfl, rfl, rfl, by simpa using hclient⟩

theorem register_clients (h : hub.clients addr = none) :
    (hub.register addr).clients addr = some hub.nextClient ∧
      ((hub.register addr).heap hub.nextClient).address = addr := by
  simp [Hub.register, h, Hub.modify]

theorem generateAddress_host_inj {publicKey : Bytes} {host host' : String}
    (h : generateAddress sha256 publicKey host = generateAddress sha256 publicKey host') :
    host = host' := by
  rw [generateAddress, generateAddress, ← String.toList_inj] at h
  simp only [String.toList_append] at h
  exact String.toList_inj.1 (List.append_cancel_left h)

variable {toLowerCase : String → String} {signDetached : Bytes → Bytes → Option Bytes}
  {relayHostVariable : Option String} {publicKey privateKey : Bytes}
  {client client' : RelayClient} {n : ℕ}

/-- The key of an accepted session is the client's own. -/
theorem ReadsAnswer.pubKey_eq {pubKey address : Bytes} {clientHost : String}
    (hanswer : ReadsAnswer toLowerCase signDetached clientHost publicKey privateKey cfg s)
    (hauth : authenticate sha256 verify (textEncode cfg.relayPublicHost) cfg.authChallengeTTL
      cfg.authTimeout s = .ok (pubKey, address)) : pubKey = publicKey := by
  obtain ⟨nonce, ar, haccepted⟩ := authenticate_ok hauth
  have hresponse := haccepted.response
  unfold AuthSession.response at hresponse
  split at hresponse
  · rename_i env hread
    obtain ⟨answer, hrespond, hframe⟩ := hanswer nonce _ haccepted.challenge hread
    obtain ⟨challenge, signature, -, -, rfl⟩ := respond_ok hrespond
    obtain rfl : env = _ := by simpa using hframe
    obtain rfl := Option.some.inj hresponse
    exact haccepted.publicKey.symm
  · cases hresponse

/-- Once `connect` has resolved, the hub routes to the client under `assignedAddress`, and this is
the address that peers are told if and only if both sides are configured with one host. -/
theorem shared_address_iff
    (hanswer : ReadsAnswer toLowerCase signDetached (configuredHost relayHostVariable) publicKey
      privateKey cfg s)
    (hconnect : Connects client client' n (wsHandler sha256 verify cfg s hub).1) :
    ∃ addr k, client'.assignedAddress = some addr ∧
      (wsHandler sha256 verify cfg s hub).2.clients addr = some k ∧
      ((wsHandler sha256 verify cfg s hub).2.heap k).address = addr ∧
      (addr = whoamiAddress sha256 publicKey relayHostVariable ↔
        configuredHost relayHostVariable = cfg.relayPublicHost) := by
  obtain ⟨err, addr, hresult, hassigned⟩ := hconnect.accepted
  obtain ⟨pubKey, hauth, haddr, hhub, hfree⟩ := wsHandler_success hresult
  obtain rfl := hanswer.pubKey_eq hauth
  obtain ⟨hclient, haddress⟩ := register_clients hfree
  refine ⟨addr, hub.nextClient, hassigned, by rw [hhub, hclient], by rw [hhub, haddress], ?_⟩
  rw [haddr, whoamiAddress]
  constructor
  · intro h
    exact (generateAddress_host_inj h).symm
  · intro h
    rw [h]

end

/-- A relay that admits every key, on a host. -/
def openRelay (relayPublicHost : String) : WsConfig :=
  ⟨relayPublicHost, 0, 0, false, none⟩

def relaySession (relayPublicHost : String) : AuthSession :=
  sessionOf (answerFor (textEncode relayPublicHost))

def emptyHub : Hub := .start (.new 1000 100) ⟨[]⟩

/-- A client whose `connect` has answered the challenge. -/
def waitingClient : RelayClient :=
  ((({} : RelayClient).newSocket .user).modify 0 fun x => { x with readyState := .opened }).modify 0
    fun x => { x with authState := .awaitingResult }

example : (do
    let called ← ({} : RelayClient).step .connect
    let dialled ← called.step (.ready .user)
    let opened ← dialled.step (.opened 0)
    opened.step (.message 0 ⟨true, .ok (), .ok (.other "authChallenge")⟩ 0)) =
      some waitingClient := rfl

theorem readsAnswer_relaySession {relayPublicHost : String}
    (h : respondToAuthChallenge String.toLower nonceSign "localhost" vectorKey vectorPrivateKey
      (sentChallenge (openRelay relayPublicHost) (relaySession relayPublicHost) nonceOfOnes) =
        .ok (answerFor (textEncode relayPublicHost))) :
    ReadsAnswer String.toLower nonceSign (configuredHost none) vectorKey vectorPrivateKey
      (openRelay relayPublicHost) (relaySession relayPublicHost) := by
  intro nonce frame hnonce hread
  obtain rfl := Except.ok.inj hnonce
  obtain rfl := Except.ok.inj hread
  exact ⟨_, h, rfl⟩

theorem connects_waitingClient (relayPublicHost : String)
    (h : authenticate vectorSha256 nonceVerify (textEncode relayPublicHost) 0 0
      (relaySession relayPublicHost) = .ok (vectorKey,
        generateAddressBytes vectorSha256 vectorKey (textEncode relayPublicHost))) :
    Connects waitingClient (waitingClient.accept 0
        (generateAddress vectorSha256 vectorKey relayPublicHost) 0) 0
      (wsHandler vectorSha256 nonceVerify (openRelay relayPublicHost)
        (relaySession relayPublicHost) emptyHub).1 := by
  have hresult : (wsHandler vectorSha256 nonceVerify (openRelay relayPublicHost)
      (relaySession relayPublicHost) emptyHub).1 =
        .authResult true "" (generateAddress vectorSha256 vectorKey relayPublicHost) := by
    simp only [wsHandler, openRelay, h, generateAddressBytes_textEncode, relayText_textEncode]
    rfl
  rw [hresult]
  exact
    { waiting := rfl
      pending := rfl
      step := ⟨.ok (), 0, rfl⟩
      resolved := rfl }

theorem shared_address_iff_same_host :
    ∃ client, Connects waitingClient client 0 (wsHandler vectorSha256 nonceVerify
        (openRelay "localhost") (relaySession "localhost") emptyHub).1 ∧
      client.assignedAddress = some (whoamiAddress vectorSha256 vectorKey none) := by
  have hanswer : ReadsAnswer String.toLower nonceSign (configuredHost none)
      vectorKey vectorPrivateKey (openRelay "localhost") (relaySession "localhost") :=
    readsAnswer_relaySession (by decide +kernel)
  have hconnect := connects_waitingClient "localhost" rfl
  obtain ⟨addr, k, hassigned, -, -, hiff⟩ := shared_address_iff hanswer hconnect
  exact ⟨_, hconnect, hassigned.trans (congrArg some (hiff.2 rfl))⟩

/-- The relay spells the host with a capital letter. The handshake succeeds, and the hub has no
client under the address that the agent shows. -/
theorem capital_letter_in_host :
    let result := wsHandler vectorSha256 nonceVerify (openRelay "Localhost")
      (relaySession "Localhost") emptyHub
    let shown := whoamiAddress vectorSha256 vectorKey none
    ReadsAnswer String.toLower nonceSign (configuredHost none) vectorKey vectorPrivateKey
        (openRelay "Localhost") (relaySession "Localhost") ∧
      ∃ client addr k, Connects waitingClient client 0 result.1 ∧
        client.assignedAddress = some addr ∧ result.2.clients addr = some k ∧
        addr ≠ shown ∧ result.2.clients shown = none := by
  intro result shown
  have hanswer : ReadsAnswer String.toLower nonceSign (configuredHost none)
      vectorKey vectorPrivateKey (openRelay "Localhost") (relaySession "Localhost") :=
    readsAnswer_relaySession (by decide +kernel)
  have hconnect := connects_waitingClient "Localhost" rfl
  obtain ⟨err, addr, hresult, hassigned⟩ := hconnect.accepted
  obtain ⟨pubKey, hauth, haddr, hhub, hfree⟩ := wsHandler_success hresult
  obtain rfl := hanswer.pubKey_eq hauth
  have hne : addr ≠ shown := by
    intro h
    rw [haddr] at h
    exact absurd (generateAddress_host_inj h) (by decide)
  have hshown : (emptyHub.register addr).clients shown = none := by
    have hother : shown ≠ addr := hne.symm
    simp only [Hub.register, hfree, Hub.modify, Function.update_of_ne hother]
    rfl
  exact ⟨hanswer, _, addr, _, hconnect, hassigned, hhub ▸ (register_clients hfree).1, hne,
    hhub ▸ hshown⟩

end Pinch
