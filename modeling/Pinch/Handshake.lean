import Pinch.Envelope
import Pinch.Identity
import Pinch.Vectors

/-! The handshake that opens a connection. The relay sends a nonce, the client signs it
together with the relay's host, and the relay checks the answer. Hosts are byte strings on the
relay; times are nanoseconds. -/

namespace Pinch

structure AuthChallenge (η : Type) where
  version : ℕ
  nonce : Bytes
  issuedAtMs : ℤ
  expiresAtMs : ℤ
  relayHost : η
  deriving DecidableEq

structure ChallengeEnvelope (η : Type) where
  version : ℕ
  type : MessageType
  timestamp : ℤ
  payload : Option (AuthChallenge η)
  deriving DecidableEq

structure AuthResponse where
  version : ℕ
  publicKey : Bytes
  signature : Bytes
  nonce : Bytes
  deriving DecidableEq

structure ResponseEnvelope where
  version : ℕ
  type : MessageType
  payload : Option AuthResponse
  deriving DecidableEq

def MessageType.name : MessageType → String
  | .unspecified => "MESSAGE_TYPE_UNSPECIFIED"
  | .handshake => "MESSAGE_TYPE_HANDSHAKE"
  | .authChallenge => "MESSAGE_TYPE_AUTH_CHALLENGE"
  | .authResponse => "MESSAGE_TYPE_AUTH_RESPONSE"
  | .message => "MESSAGE_TYPE_MESSAGE"
  | .deliveryConfirm => "MESSAGE_TYPE_DELIVERY_CONFIRM"
  | .connectionRequest => "MESSAGE_TYPE_CONNECTION_REQUEST"
  | .connectionResponse => "MESSAGE_TYPE_CONNECTION_RESPONSE"
  | .heartbeat => "MESSAGE_TYPE_HEARTBEAT"
  | .authResult => "MESSAGE_TYPE_AUTH_RESULT"
  | .connectionRevoke => "MESSAGE_TYPE_CONNECTION_REVOKE"
  | .blockNotification => "MESSAGE_TYPE_BLOCK_NOTIFICATION"
  | .unblockNotification => "MESSAGE_TYPE_UNBLOCK_NOTIFICATION"
  | .queueStatus => "MESSAGE_TYPE_QUEUE_STATUS"
  | .queueFull => "MESSAGE_TYPE_QUEUE_FULL"
  | .rateLimited => "MESSAGE_TYPE_RATE_LIMITED"
  | .unrecognized number => toString number

inductive AuthErrorKind
  | responseTimeout
  | challengeExpired
  | invalidMessageType
  | invalidNonce
  | invalidSignature
  deriving DecidableEq

def AuthErrorKind.text : AuthErrorKind → String
  | .responseTimeout => "authentication response timeout"
  | .challengeExpired => "authentication challenge expired"
  | .invalidMessageType => "invalid authentication message type"
  | .invalidNonce => "invalid authentication nonce"
  | .invalidSignature => "invalid authentication signature"

/-- An error of `Authenticate`: the sentinel that it wraps, if any, and its text. -/
structure AuthError where
  kind : Option AuthErrorKind
  text : String
  deriving DecidableEq

namespace AuthError

def plain (text : String) : AuthError := ⟨none, text⟩

def sentinel (kind : AuthErrorKind) : AuthError := ⟨some kind, kind.text⟩

def wrap (kind : AuthErrorKind) (detail : String) : AuthError :=
  ⟨some kind, kind.text ++ ": " ++ detail⟩

end AuthError

inductive FrameKind
  | text
  | binary
  deriving DecidableEq

def FrameKind.number : FrameKind → ℕ
  | .text => 1
  | .binary => 2

/-- A frame from the client, with what `proto.Unmarshal` makes of it. -/
structure AuthFrame where
  kind : FrameKind
  envelope : Except String ResponseEnvelope

inductive ReadError
  | deadlineExceeded
  | failed (text : String)
  deriving DecidableEq

def nonceSize : ℕ := 32

structure Nonce where
  bytes : Bytes
  length_eq : bytes.length = nonceSize
  deriving DecidableEq

/-- What a session of `Authenticate` gets from outside: the random source, the two clock
readings, and the connection, whose operations are given a timeout. -/
structure AuthSession where
  generateChallenge : Except String Nonce
  issuedAt : ℤ
  marshal : ChallengeEnvelope Bytes → Option String
  write : ChallengeEnvelope Bytes → ℤ → Option String
  read : ℤ → Except ReadError AuthFrame
  checkedAt : ℤ

def orTenSeconds (duration : ℤ) : ℤ :=
  if duration ≤ 0 then 10 * 1000000000 else duration

def unixMilli (t : ℤ) : ℤ := t / 1000000

def signPrefix : Bytes := textEncode "pinch-auth-v1"

def signPayload (relayHost nonce : Bytes) : Bytes :=
  signPrefix ++ [0] ++ relayHost ++ [0] ++ nonce

def challengeEnvelope (relayHost : Bytes) (nonce : Nonce) (issuedAt expiresAt : ℤ) :
    ChallengeEnvelope Bytes where
  version := 1
  type := .authChallenge
  timestamp := unixMilli issuedAt
  payload := some
    { version := 1
      nonce := nonce.bytes
      issuedAtMs := unixMilli issuedAt
      expiresAtMs := unixMilli expiresAt
      relayHost := relayHost }

section Relay

variable (sha256 : Bytes → Bytes) (verify : Bytes → Bytes → Bytes → Bool)

/-- `verify` is `ed25519.Verify(publicKey, message, signature)`. -/
def verifyChallenge (pubKey payload signature : Bytes) : Bool :=
  if pubKey.length ≠ 32 then false
  else if signature.length ≠ 64 then false
  else verify pubKey payload signature

/-- The part of `Authenticate` that looks at the decoded answer. -/
def checkResponse (relayHost : Bytes) (nonce : Nonce) (expiresAt now : ℤ)
    (env : ResponseEnvelope) : Except AuthError (Bytes × Bytes) :=
  if env.type ≠ .authResponse then
    .error (.wrap .invalidMessageType ("got " ++ env.type.name))
  else match env.payload with
    | none => .error (.wrap .invalidMessageType "missing auth_response payload")
    | some ar =>
      if ar.version ≠ 1 then
        .error (.wrap .invalidMessageType ("unsupported version " ++ toString ar.version))
      else if ar.publicKey.length ≠ 32 then
        .error (.wrap .invalidSignature
          ("expected 32-byte public key, got " ++ toString ar.publicKey.length))
      else if ar.signature.length ≠ 64 then
        .error (.wrap .invalidSignature
          ("expected 64-byte signature, got " ++ toString ar.signature.length))
      else if ar.nonce.length ≠ nonce.bytes.length then
        .error (.wrap .invalidNonce ("expected " ++ toString nonce.bytes.length ++
          "-byte nonce, got " ++ toString ar.nonce.length))
      else if expiresAt < now then .error (.sentinel .challengeExpired)
      else if ar.nonce ≠ nonce.bytes then .error (.sentinel .invalidNonce)
      else if !verifyChallenge verify ar.publicKey (signPayload relayHost nonce.bytes)
          ar.signature then
        .error (.sentinel .invalidSignature)
      else .ok (ar.publicKey, generateAddressBytes sha256 ar.publicKey relayHost)

def authenticate (relayHost : Bytes) (challengeTTL responseTimeout : ℤ) (s : AuthSession) :
    Except AuthError (Bytes × Bytes) :=
  let timeout := orTenSeconds responseTimeout
  match s.generateChallenge with
  | .error err => .error (.plain ("generate auth nonce: " ++ err))
  | .ok nonce =>
    let expiresAt := s.issuedAt + orTenSeconds challengeTTL
    let challenge := challengeEnvelope relayHost nonce s.issuedAt expiresAt
    match s.marshal challenge, s.write challenge timeout, s.read timeout with
    | some err, _, _ => .error (.plain ("marshal auth challenge: " ++ err))
    | none, some err, _ => .error (.plain ("send auth challenge: " ++ err))
    | none, none, .error .deadlineExceeded => .error (.sentinel .responseTimeout)
    | none, none, .error (.failed err) => .error (.plain ("read auth response: " ++ err))
    | none, none, .ok frame =>
      if frame.kind ≠ .binary then
        .error (.wrap .invalidMessageType ("expected binary, got " ++ toString frame.kind.number))
      else match frame.envelope with
        | .error err => .error (.plain ("decode auth response: " ++ err))
        | .ok env => checkResponse sha256 verify relayHost nonce expiresAt s.checkedAt env

end Relay

/-- The answer that a session reads. -/
def AuthSession.response (s : AuthSession) (responseTimeout : ℤ) : Option AuthResponse :=
  match s.read (orTenSeconds responseTimeout) with
  | .ok ⟨.binary, .ok env⟩ => env.payload
  | _ => none

section Client

variable (toLowerCase : String → String) (signDetached : Bytes → Bytes → Option Bytes)

def buildSignPayload (relayHost : String) (nonce : Bytes) : Bytes :=
  textEncode "pinch-auth-v1" ++ [0] ++ textEncode relayHost ++ [0] ++ nonce

/-- `RelayClient.respondToAuthChallenge`; `relayHost` is the host the client is configured with. -/
def respondToAuthChallenge (relayHost : String) (publicKey privateKey : Bytes)
    (env : ChallengeEnvelope String) : Except String ResponseEnvelope :=
  match env.type, env.payload with
  | .authChallenge, some challenge =>
    if challenge.nonce.length ≠ 32 then .error "invalid auth challenge nonce length"
    else if challenge.relayHost = "" then .error "auth challenge missing relay host"
    else if relayHost ≠ "" ∧ toLowerCase challenge.relayHost ≠ toLowerCase relayHost then
      .error ("auth challenge relay host mismatch: expected " ++ relayHost ++ ", got " ++
        challenge.relayHost)
    else match signDetached (buildSignPayload challenge.relayHost challenge.nonce) privateKey with
      | none => .error "invalid privateKey length"
      | some signature =>
        .ok { version := 1, type := .authResponse,
              payload := some ⟨1, publicKey, signature, challenge.nonce⟩ }
  | _, _ => .error "expected auth challenge message"

end Client

/-- One signature verifies for at most one message under a key. -/
def IdealSignature (verify : Bytes → Bytes → Bytes → Bool) : Prop :=
  ∀ pubKey signature message message', verify pubKey message signature = true →
    verify pubKey message' signature = true → message = message'

variable {sha256 : Bytes → Bytes} {verify : Bytes → Bytes → Bytes → Bool}
  {relayHost pubKey addr : Bytes} {challengeTTL responseTimeout : ℤ} {s : AuthSession}

/-- The nonce has a fixed length, so the payload determines the host although the host may
hold the separator. -/
theorem signPayload_inj {host host' : Bytes} {nonce nonce' : Nonce}
    (h : signPayload host nonce.bytes = signPayload host' nonce'.bytes) :
    host = host' ∧ nonce = nonce' := by
  have hlength : nonce.bytes.length = nonce'.bytes.length :=
    nonce.length_eq.trans nonce'.length_eq.symm
  obtain ⟨hhead, hnonce⟩ := List.append_inj' h hlength
  have hhost : signPrefix ++ [0] ++ host = signPrefix ++ [0] ++ host' :=
    List.append_cancel_right hhead
  refine ⟨List.append_cancel_left hhost, ?_⟩
  cases nonce
  cases nonce'
  simpa using hnonce

theorem buildSignPayload_eq (host : String) (nonce : Bytes) :
    buildSignPayload host nonce = signPayload (textEncode host) nonce := rfl

/-- What a session that succeeds has seen. -/
structure Accepted (sha256 : Bytes → Bytes) (verify : Bytes → Bytes → Bytes → Bool)
    (relayHost : Bytes) (challengeTTL responseTimeout : ℤ) (s : AuthSession) (pubKey addr : Bytes)
    (nonce : Nonce) (ar : AuthResponse) : Prop where
  challenge : s.generateChallenge = .ok nonce
  response : s.response responseTimeout = some ar
  version : ar.version = 1
  nonce_eq : ar.nonce = nonce.bytes
  publicKey : ar.publicKey = pubKey
  inTime : s.checkedAt ≤ s.issuedAt + orTenSeconds challengeTTL
  verified : verify pubKey (signPayload relayHost nonce.bytes) ar.signature = true
  address : addr = generateAddressBytes sha256 pubKey relayHost

theorem checkResponse_ok {nonce : Nonce} {expiresAt now : ℤ} {env : ResponseEnvelope}
    (h : checkResponse sha256 verify relayHost nonce expiresAt now env = .ok (pubKey, addr)) :
    ∃ ar, env.payload = some ar ∧ ar.version = 1 ∧ ar.nonce = nonce.bytes ∧
      ar.publicKey = pubKey ∧ now ≤ expiresAt ∧
      verify pubKey (signPayload relayHost nonce.bytes) ar.signature = true ∧
      addr = generateAddressBytes sha256 pubKey relayHost := by
  unfold checkResponse at h
  split at h
  · cases h
  cases hpayload : env.payload with
  | none => simp [hpayload] at h
  | some ar =>
    simp only [hpayload] at h
    split at h
    · cases h
    rename_i hversion
    split at h
    · cases h
    rename_i hkey
    split at h
    · cases h
    rename_i hsignature
    split at h
    · cases h
    split at h
    · cases h
    rename_i htime
    split at h
    · cases h
    rename_i hnonce
    split at h
    · cases h
    rename_i hverify
    obtain ⟨rfl, rfl⟩ := Prod.mk.inj (Except.ok.inj h)
    refine ⟨ar, rfl, not_not.1 hversion, not_not.1 hnonce, rfl, not_lt.1 htime, ?_, rfl⟩
    simpa [verifyChallenge, hkey, hsignature] using hverify

theorem authenticate_ok
    (h : authenticate sha256 verify relayHost challengeTTL responseTimeout s = .ok (pubKey, addr)) :
    ∃ nonce ar,
      Accepted sha256 verify relayHost challengeTTL responseTimeout s pubKey addr nonce ar := by
  unfold authenticate at h
  cases hnonce : s.generateChallenge with
  | error err => simp [hnonce] at h
  | ok nonce =>
    simp only [hnonce] at h
    split at h
    · cases h
    · cases h
    · cases h
    · cases h
    · rename_i frame hmarshal hwrite hread
      obtain ⟨kind, envelope⟩ := frame
      split at h
      · cases h
      rename_i hkind
      obtain rfl : kind = .binary := not_not.1 hkind
      cases envelope with
      | error err => cases h
      | ok env =>
        obtain ⟨ar, hpayload, hversion, hn, hkey, htime, hverify, haddr⟩ := checkResponse_ok h
        exact ⟨nonce, ar, hnonce, by simp [AuthSession.response, hread, hpayload], hversion, hn, hkey,
          htime, hverify, haddr⟩

theorem respond_ok {toLowerCase : String → String} {signDetached : Bytes → Bytes → Option Bytes}
    {clientHost : String} {publicKey privateKey : Bytes} {env : ChallengeEnvelope String}
    {answer : ResponseEnvelope}
    (h : respondToAuthChallenge toLowerCase signDetached clientHost publicKey privateKey env =
      .ok answer) :
    ∃ challenge signature, env.payload = some challenge ∧
      signDetached (signPayload (textEncode challenge.relayHost) challenge.nonce) privateKey =
        some signature ∧
      answer = { version := 1, type := .authResponse,
                 payload := some ⟨1, publicKey, signature, challenge.nonce⟩ } := by
  unfold respondToAuthChallenge at h
  split at h
  · rename_i challenge htype hpayload
    split at h
    · cases h
    split at h
    · cases h
    split at h
    · cases h
    split at h
    · cases h
    · rename_i signature hsign
      exact ⟨challenge, signature, hpayload, hsign, (Except.ok.inj h).symm⟩
  · cases h

/-- The challenge as the client decodes it, with the host as text. -/
def ChallengeEnvelope.asText (env : ChallengeEnvelope Bytes) (relayHost : String) :
    ChallengeEnvelope String where
  version := env.version
  type := env.type
  timestamp := env.timestamp
  payload := env.payload.map fun c => ⟨c.version, c.nonce, c.issuedAtMs, c.expiresAtMs, relayHost⟩

/-- A client that holds the key and answers in time is let in. -/
theorem authenticate_of_respond {toLowerCase : String → String}
    {signDetached : Bytes → Bytes → Option Bytes} {host clientHost : String} {privateKey : Bytes}
    {nonce : Nonce} {answer : ResponseEnvelope} (hkey : pubKey.length = 32)
    (hsign : ∀ message signature, signDetached message privateKey = some signature →
      signature.length = 64 ∧ verify pubKey message signature = true)
    (hchallenge : s.generateChallenge = .ok nonce) (hmarshal : ∀ env, s.marshal env = none)
    (hwrite : ∀ env timeout, s.write env timeout = none)
    (hread : s.read (orTenSeconds responseTimeout) = .ok ⟨.binary, .ok answer⟩)
    (htime : s.checkedAt ≤ s.issuedAt + orTenSeconds challengeTTL)
    (hanswer : respondToAuthChallenge toLowerCase signDetached clientHost pubKey privateKey
      ((challengeEnvelope (textEncode host) nonce s.issuedAt
        (s.issuedAt + orTenSeconds challengeTTL)).asText host) = .ok answer) :
    authenticate sha256 verify (textEncode host) challengeTTL responseTimeout s =
      .ok (pubKey, textEncode (generateAddress sha256 pubKey host)) := by
  obtain ⟨challenge, signature, hpayload, hsigned, rfl⟩ := respond_ok hanswer
  obtain rfl : _ = challenge := Option.some.inj hpayload
  obtain ⟨hlength, hverify⟩ := hsign _ _ hsigned
  dsimp only at hverify
  simp [authenticate, hchallenge, hmarshal, hwrite, hread, checkResponse, hkey, hlength,
    not_lt.2 htime, verifyChallenge, hverify, generateAddressBytes_textEncode]

/-- A signature that one session has accepted opens no other: neither for another nonce nor for
another host, whatever else the answer says. -/
theorem handshake_replay_resistant (hideal : IdealSignature verify) :
    (∀ host₁ host₂ ttl₁ ttl₂ timeout₁ timeout₂ s₁ s₂ nonce₁ nonce₂ pubKey addr₁ ar₁ ar₂,
      s₁.generateChallenge = .ok nonce₁ → s₂.generateChallenge = .ok nonce₂ →
      (host₁, nonce₁) ≠ (host₂, nonce₂) →
      authenticate sha256 verify host₁ ttl₁ timeout₁ s₁ = .ok (pubKey, addr₁) →
      s₁.response timeout₁ = some ar₁ → s₂.response timeout₂ = some ar₂ →
      ar₂.signature = ar₁.signature →
      ∀ addr₂, authenticate sha256 verify host₂ ttl₂ timeout₂ s₂ ≠ .ok (pubKey, addr₂)) ∧
    ∀ host ttl timeout s pubKey addr,
      authenticate sha256 verify host ttl timeout s = .ok (pubKey, addr) →
      ∃ nonce ar, Accepted sha256 verify host ttl timeout s pubKey addr nonce ar ∧
        ∀ message, verify pubKey message ar.signature = true →
          message = signPayload host nonce.bytes := by
  constructor
  · intro host₁ host₂ ttl₁ ttl₂ timeout₁ timeout₂ s₁ s₂ nonce₁ nonce₂ pubKey addr₁ ar₁ ar₂
      hnonce₁ hnonce₂ hne hok₁ hresponse₁ hresponse₂ hsame addr₂ hok₂
    obtain ⟨n₁, r₁, h₁⟩ := authenticate_ok hok₁
    obtain ⟨n₂, r₂, h₂⟩ := authenticate_ok hok₂
    obtain rfl : nonce₁ = n₁ := Except.ok.inj (hnonce₁.symm.trans h₁.challenge)
    obtain rfl : nonce₂ = n₂ := Except.ok.inj (hnonce₂.symm.trans h₂.challenge)
    obtain rfl : ar₁ = r₁ := Option.some.inj (hresponse₁.symm.trans h₁.response)
    obtain rfl : ar₂ = r₂ := Option.some.inj (hresponse₂.symm.trans h₂.response)
    have hpayload := hideal pubKey ar₁.signature _ _ h₁.verified (hsame ▸ h₂.verified)
    obtain ⟨rfl, rfl⟩ := signPayload_inj hpayload
    exact hne rfl
  · intro host ttl timeout s pubKey addr hok
    obtain ⟨nonce, ar, h⟩ := authenticate_ok hok
    exact ⟨nonce, ar, h, fun message hm => hideal pubKey ar.signature _ _ hm h.verified⟩

/-- The nonce of the sessions below. -/
def nonceOfOnes : Nonce := ⟨List.replicate 32 1, List.length_replicate⟩

/-- The first identity's Ed25519 signatures over the payloads for this nonce, by the host. -/
def nonceSignatures : List (Bytes × Bytes) :=
  [(textEncode "a",
      [208, 202, 235, 157, 28, 82, 36, 221, 161, 222, 117, 194, 100, 185, 109, 252,
       45, 217, 102, 120, 191, 99, 8, 181, 51, 157, 144, 165, 227, 170, 52, 123,
       137, 94, 105, 40, 156, 153, 14, 56, 33, 31, 38, 85, 3, 113, 187, 73,
       50, 235, 234, 250, 86, 253, 201, 156, 183, 89, 187, 167, 252, 80, 154, 11]),
    (textEncode "localhost",
      [149, 118, 117, 199, 119, 21, 193, 132, 247, 162, 73, 73, 145, 79, 177, 50,
       207, 125, 197, 70, 170, 60, 211, 116, 29, 193, 183, 35, 241, 213, 92, 62,
       64, 96, 145, 126, 60, 33, 136, 184, 227, 42, 121, 199, 40, 91, 220, 113,
       163, 23, 171, 61, 5, 253, 2, 161, 72, 126, 161, 27, 134, 181, 240, 5]),
    (textEncode "Localhost",
      [251, 37, 53, 14, 65, 86, 187, 186, 82, 229, 108, 138, 238, 80, 88, 205,
       155, 146, 182, 207, 25, 222, 106, 175, 190, 170, 130, 213, 187, 61, 23, 67,
       178, 78, 170, 17, 157, 136, 73, 145, 222, 190, 2, 4, 197, 163, 118, 137,
       40, 184, 55, 79, 38, 242, 207, 85, 110, 76, 219, 99, 174, 192, 182, 0])]

def nonceSign (message privateKey : Bytes) : Option Bytes :=
  if privateKey = vectorPrivateKey then
    (nonceSignatures.find? fun e => signPayload e.1 nonceOfOnes.1 = message).map (·.2)
  else none

def nonceVerify (pubKey message signature : Bytes) : Bool :=
  nonceSignatures.any fun e =>
    pubKey = vectorKey ∧ message = signPayload e.1 nonceOfOnes.1 ∧ signature = e.2

theorem idealSignature_nonceVerify : IdealSignature nonceVerify := by
  intro pubKey signature message message' h h'
  simp only [nonceVerify, List.any_eq_true, decide_eq_true_eq] at h h'
  obtain ⟨e, he, -, rfl, hsignature⟩ := h
  obtain ⟨e', he', -, rfl, hsignature'⟩ := h'
  have hnodup : (nonceSignatures.map (·.2)).Nodup := by decide +kernel
  rw [List.inj_on_of_nodup_map hnodup he he' (hsignature.symm.trans hsignature')]

def sessionOf (answer : ResponseEnvelope) : AuthSession where
  generateChallenge := .ok nonceOfOnes
  issuedAt := 0
  marshal := fun _ => none
  write := fun _ _ => none
  read := fun _ => .ok ⟨.binary, .ok answer⟩
  checkedAt := 1000000000

/-- The answer of the first identity to the nonce. -/
def answerFor (host : Bytes) : ResponseEnvelope where
  version := 1
  type := .authResponse
  payload := some
    { version := 1
      publicKey := vectorKey
      signature := (nonceSign (signPayload host nonceOfOnes.1) vectorPrivateKey).getD []
      nonce := nonceOfOnes.1 }

/-- The host of the second relay is that of the first with a separator added. -/
theorem handshake_replay_resistant_two_relays :
    authenticate vectorSha256 nonceVerify [97] 0 0 (sessionOf (answerFor [97])) =
      .ok (vectorKey, generateAddressBytes vectorSha256 vectorKey [97]) ∧
    ∀ addr, authenticate vectorSha256 nonceVerify [97, 0] 0 0
      (sessionOf (answerFor [97])) ≠ .ok (vectorKey, addr) := by
  have hok : authenticate vectorSha256 nonceVerify [97] 0 0 (sessionOf (answerFor [97])) =
      .ok (vectorKey, generateAddressBytes vectorSha256 vectorKey [97]) := by
    decide +kernel
  exact ⟨hok, (handshake_replay_resistant idealSignature_nonceVerify).1 [97] [97, 0] 0 0 0 0
    _ _ _ _ _ _ _ _ rfl rfl (by decide) hok rfl rfl rfl⟩

end Pinch
