import Pinch.Origins
import Pinch.RoutingTable
import Pinch.SharedAddress

/-! The relay as a whole: calls of `wsHandler` in any interleaving, the HTTP handlers for
registration and for claims, the sweep of pending keys, and the hub. Every client of the hub has
come in through the front door, and in locked mode a person has let its key in before. -/

namespace Pinch

inductive ClaimReply
  | failed (status : ℕ) (text : String)
  | approved (address : String)
  deriving DecidableEq

/-- What `PostForm` returns, and what reading the body of the response does. -/
abbrev PostForm := List (String × String) → Except String (Except String Bytes)

/-- `turnstileVerifier.Verify`. -/
def verifyToken (parseSuccess : Bytes → Except String Bool) (secretKey : String)
    (postForm : PostForm) (token remoteIP : String) : Except String Bool :=
  let form := [("secret", secretKey), ("response", token)] ++
    if remoteIP = "" then [] else [("remoteip", remoteIP)]
  match postForm form with
  | .error err => .error ("turnstile request failed: " ++ err)
  | .ok (.error err) => .error ("turnstile response read failed: " ++ err)
  | .ok (.ok body) =>
    match parseSuccess (body.take 65536) with
    | .error err => .error ("turnstile response decode failed: " ++ err)
    | .ok success => .ok success

/-- The address of the caller without its port. -/
def remoteIP (remoteAddr : String) : String :=
  let cs := remoteAddr.toList
  if ':' ∈ cs then String.ofList ((cs.reverse.dropWhile (· ≠ ':')).tail.reverse) else remoteAddr

/-- `parse` gives the fields `claim_code` and `turnstile_token`, `verifier` is nil in open mode. -/
def claimHandler (parse : Bytes → Option (String × String))
    (verifier : Option (String → String → Except String Bool)) (body : Except String Bytes)
    (remoteAddr : String) (commit : Option String) (kr : KeyRegistry) : ClaimReply × KeyRegistry :=
  match verifier with
  | none => (.failed 404 "404 page not found", kr)
  | some verify =>
    match body with
    | .error _ => (.failed 400 "failed to read body", kr)
    | .ok bytes =>
      match parse (bytes.take 4096) with
      | none => (.failed 400 "invalid JSON", kr)
      | some (claimCode, turnstileToken) =>
        if turnstileToken = "" then (.failed 400 "turnstile_token is required", kr)
        else match verify turnstileToken (remoteIP remoteAddr) with
          | .error _ => (.failed 500 "verification failed", kr)
          | .ok false => (.failed 403 "turnstile verification failed", kr)
          | .ok true =>
            if claimCode = "" then (.failed 400 "claim_code is required", kr)
            else match (KeyRegistry.claim claimCode commit).run kr with
              | .error .claimNotFound kr' => (.failed 404 "claim code not found or expired", kr')
              | .error _ kr' => (.failed 500 "internal error", kr')
              | .ok address kr' => (.approved address, kr')

/-- The configuration with which `main` starts the relay. -/
structure ServerConfig where
  url : UrlLibrary
  sha256 : Bytes → Bytes
  verify : Bytes → Bytes → Bytes → Bool
  parseKey : Bytes → Option String
  parseClaim : Bytes → Option (String × String)
  parseSuccess : Bytes → Except String Bool
  relayPublicHost : String
  allowedOrigins : String
  turnstileSecretKey : String
  origins : AllowedOrigins
  parsed : parseAllowedOrigins url allowedOrigins = .ok origins

namespace ServerConfig

variable (cfg : ServerConfig)

def lockedMode : Bool := cfg.turnstileSecretKey ≠ ""

def verifier (postForm : PostForm) : Option (String → String → Except String Bool) :=
  if cfg.turnstileSecretKey ≠ "" then
    some (verifyToken cfg.parseSuccess cfg.turnstileSecretKey postForm)
  else none

/-- What `wsHandler` is given; the registry is the one that the HTTP handlers write to. -/
def ws (kr : KeyRegistry) : WsConfig where
  relayPublicHost := cfg.relayPublicHost
  authChallengeTTL := 10 * 1000000000
  authTimeout := 10 * 1000000000
  lockedMode := cfg.lockedMode
  keyRegistry := some kr

def address (pubKey : Bytes) : String := generateAddress cfg.sha256 pubKey cfg.relayPublicHost

def authenticate (session : AuthSession) : Except AuthError (Bytes × Bytes) :=
  Pinch.authenticate cfg.sha256 cfg.verify (textEncode cfg.relayPublicHost) (10 * 1000000000)
    (10 * 1000000000) session

/-- The code of a request that passes every check of `claimHandler` before the registry. -/
def claimedCode (body : Except String Bytes) (remoteAddr : String) (postForm : PostForm) :
    Option String :=
  match cfg.verifier postForm, body with
  | some verify, .ok bytes =>
    match cfg.parseClaim (bytes.take 4096) with
    | some (claimCode, turnstileToken) =>
      if turnstileToken ≠ "" ∧ verify turnstileToken (remoteIP remoteAddr) = .ok true ∧
        claimCode ≠ "" then some claimCode else none
    | none => none
  | _, _ => none

end ServerConfig

section Handlers

variable {cfg : ServerConfig} {body : Except String Bytes} {remoteAddr address text : String}
  {postForm : PostForm} {commit : Option String} {kr kr' : KeyRegistry} {status : ℕ}

theorem registerHandler_failed {limiter : Option Bool} {now : ℤ} {attempt : ℕ → Attempt}
    (h : registerHandler cfg.parseKey cfg.sha256 cfg.relayPublicHost limiter body now attempt kr =
      (.failed status text, kr')) : kr' = kr := by
  unfold registerHandler at h
  split at h
  · exact (Prod.mk.inj h).2.symm
  split at h
  · exact (Prod.mk.inj h).2.symm
  split at h
  · exact (Prod.mk.inj h).2.symm
  split at h
  · exact (Prod.mk.inj h).2.symm
  split at h
  · exact (Prod.mk.inj h).2.symm
  split at h
  · exact (Prod.mk.inj h).2.symm
  dsimp only at h
  split at h
  · rename_i hrun
    obtain rfl := (KeyRegistry.registerPending_spec _ _ _ _).error rfl hrun
    exact (Prod.mk.inj h).2.symm
  · cases (Prod.mk.inj h).1

/-- The handler up to the registry. -/
theorem claimHandler_of_claimedCode {code : String}
    (h : cfg.claimedCode body remoteAddr postForm = some code) :
    claimHandler cfg.parseClaim (cfg.verifier postForm) body remoteAddr commit kr =
      match (KeyRegistry.claim code commit).run kr with
      | .error .claimNotFound kr' => (.failed 404 "claim code not found or expired", kr')
      | .error _ kr' => (.failed 500 "internal error", kr')
      | .ok address kr' => (.approved address, kr') := by
  unfold ServerConfig.claimedCode at h
  split at h
  · rename_i verify bytes hverifier
    split at h
    · rename_i claimCode turnstileToken hparse
      obtain ⟨⟨htoken, hverify, hcode⟩, heq⟩ := Option.ite_none_right_eq_some.1 h
      obtain rfl := Option.some.inj heq
      simp [claimHandler, hverifier, hparse, htoken, hverify, hcode]
    · cases h
  · cases h

theorem claimHandler_of_none (h : cfg.claimedCode body remoteAddr postForm = none) :
    (claimHandler cfg.parseClaim (cfg.verifier postForm) body remoteAddr commit kr).2 = kr := by
  unfold ServerConfig.claimedCode at h
  unfold claimHandler
  cases hverifier : cfg.verifier postForm with
  | none => simp
  | some verify =>
    cases body with
    | error err => simp
    | ok bytes =>
      cases hparse : cfg.parseClaim (bytes.take 4096) with
      | none => simp [hparse]
      | some fields =>
        obtain ⟨claimCode, turnstileToken⟩ := fields
        by_cases htoken : turnstileToken = ""
        · simp [hparse, htoken]
        cases hverify : verify turnstileToken (remoteIP remoteAddr) with
        | error err => simp [hparse, htoken, hverify]
        | ok success =>
          cases success with
          | false => simp [hparse, htoken, hverify]
          | true =>
            by_cases hcode : claimCode = ""
            · simp [hparse, htoken, hverify, hcode]
            · simp [hverifier, hparse, htoken, hverify, hcode] at h

end Handlers

/-- How far a call of `wsHandler` has come. -/
inductive WsStage
  | accepted
  | authenticated (pubKey : Bytes) (address : String)
  | admitted (pubKey : Bytes) (address : String)
  | registered (client : ℕ)
  | closed (reason : String)
  deriving DecidableEq

/-- `calls` numbers the calls of `wsHandler`. The ledger beside the registry is never read. -/
structure RelayServer where
  registry : RegistryState
  hub : Hub
  calls : ℕ → Option WsStage

/-- A step of a handler, of the hub or of the sweeper. The handlers of HTTP requests take one step
each, as what they do is one transaction. -/
inductive ServerLabel
  | connect (call : ℕ) (origin : String) (upgraded : Bool)
  | authenticate (call : ℕ) (session : AuthSession)
  | checkKey (call : ℕ)
  | register (call : ℕ)
  | hub (label : HubLabel)
  | postRegister (limiter : Option Bool) (body : Except String Bytes) (now : ℤ)
      (attempt : ℕ → Attempt)
  | postClaim (body : Except String Bytes) (remoteAddr : String) (postForm : PostForm)
      (commit : Option String)
  | sweepPending (ttl : Int64) (now : ℤ) (commit : Option String)

def HubLabel.isRegister : HubLabel → Bool
  | .register _ => true
  | _ => false

namespace RelayServer

open Transition

def start (kr : KeyRegistry) (mq : MessageQueue Parcel) (blockStore : BlockStore) :
    RelayServer where
  registry := ⟨kr, {}⟩
  hub := .start mq blockStore
  calls := fun _ => none

def setCall (s : RelayServer) (call : ℕ) (stage : WsStage) : RelayServer :=
  { s with calls := Function.update s.calls call (some stage) }

def afterConnect (cfg : ServerConfig) (origin : String) (upgraded : Bool) : WsStage :=
  if !isOriginAllowed cfg.url origin cfg.origins then .closed "origin not allowed"
  else if !upgraded then .closed "websocket accept error"
  else .accepted

def afterAuthenticate (cfg : ServerConfig) (session : AuthSession) : WsStage :=
  match cfg.authenticate session with
  | .error _ => .closed "authentication failed"
  | .ok (pubKey, address) => .authenticated pubKey (relayText address)

def afterCheck (cfg : ServerConfig) (kr : KeyRegistry) (pubKey : Bytes) (address : String) :
    WsStage :=
  if admits cfg.lockedMode (some kr) pubKey then .admitted pubKey address
  else .closed "key not registered"

def afterRegister (hub : Hub) (address : String) : WsStage :=
  if (hub.clients address).isSome then .closed "address already connected"
  else .registered hub.nextClient

def step (cfg : ServerConfig) (s : RelayServer) : ServerLabel → Option RelayServer
  | .connect call origin upgraded =>
    match s.calls call with
    | none => some (s.setCall call (afterConnect cfg origin upgraded))
    | some _ => none
  | .authenticate call session =>
    match s.calls call with
    | some .accepted => some (s.setCall call (afterAuthenticate cfg session))
    | _ => none
  | .checkKey call =>
    match s.calls call with
    | some (.authenticated pubKey address) =>
      some (s.setCall call (afterCheck cfg s.registry.registry pubKey address))
    | _ => none
  | .register call =>
    match s.calls call with
    | some (.admitted _ address) =>
      (s.hub.step (.register address)).map fun hub =>
        { s with hub := hub }.setCall call (afterRegister s.hub address)
    | _ => none
  | .hub label =>
    if label.isRegister then none
    else (s.hub.step label).map fun hub => { s with hub := hub }
  | .postRegister limiter body now attempt =>
    let result := registerHandler cfg.parseKey cfg.sha256 cfg.relayPublicHost limiter body now
      attempt s.registry.registry
    let ledger := match result.1, postedKey cfg.parseKey body with
      | .registered address code, some publicKey =>
        s.registry.ledger.register code ⟨publicKey, address, unixSeconds now⟩
      | _, _ => s.registry.ledger
    some { s with registry := ⟨result.2, ledger⟩ }
  | .postClaim body remoteAddr postForm commit =>
    let result := claimHandler cfg.parseClaim (cfg.verifier postForm) body remoteAddr commit
      s.registry.registry
    let ledger := match cfg.claimedCode body remoteAddr postForm, result.1 with
      | some code, .approved _ => s.registry.ledger.claim code
      | _, _ => s.registry.ledger
    some { s with registry := ⟨result.2, ledger⟩ }
  | .sweepPending ttl now commit =>
    (s.registry.step (.sweepPending ttl now commit)).map fun registry =>
      { s with registry := registry }

end RelayServer

/-- What a request asks of the registry once it has passed the checks of its handler. -/
def ServerLabel.Requests (cfg : ServerConfig) (x : ServerLabel) (request : RegistryLabel) : Prop :=
  match x with
  | .postRegister _ body now attempt =>
    ∃ publicKey pubKey, postedKey cfg.parseKey body = some publicKey ∧
      Base64.decodeString publicKey = some pubKey ∧ pubKey.length = 32 ∧
      request = .registerPending publicKey (cfg.address pubKey) now attempt
  | .postClaim body remoteAddr postForm commit =>
    ∃ code, cfg.claimedCode body remoteAddr postForm = some code ∧ request = .claim code commit
  | .sweepPending ttl now commit => request = .sweepPending ttl now commit
  | _ => False

/-- A claim that reaches the registry. -/
def ServerLabel.verified (cfg : ServerConfig) : ServerLabel → Bool
  | .postClaim body remoteAddr postForm _ => (cfg.claimedCode body remoteAddr postForm).isSome
  | _ => false

namespace RelayServer

open Transition

variable {cfg : ServerConfig} {s t : RelayServer} {x : ServerLabel} {l : List ServerLabel}
  {call : ℕ} {stage : WsStage}

/-- A step of one call of `wsHandler` that touches nothing else. -/
inductive Advance (cfg : ServerConfig) (s : RelayServer) (call : ℕ) : ServerLabel → WsStage → Prop
  | connected {origin : String} (hcall : s.calls call = none)
      (horigin : isOriginAllowed cfg.url origin cfg.origins = true) :
      Advance cfg s call (.connect call origin true) .accepted
  | authenticated {session : AuthSession} {pubKey address : Bytes}
      (hcall : s.calls call = some .accepted)
      (hauth : cfg.authenticate session = .ok (pubKey, address)) :
      Advance cfg s call (.authenticate call session) (.authenticated pubKey (relayText address))
  | admitted {pubKey : Bytes} {address : String}
      (hcall : s.calls call = some (.authenticated pubKey address))
      (hadmits : admits cfg.lockedMode (some s.registry.registry) pubKey = true) :
      Advance cfg s call (.checkKey call) (.admitted pubKey address)
  | closed {x : ServerLabel} {reason : String}
      (hcall : ∀ c, s.calls call ≠ some (.registered c)) : Advance cfg s call x (.closed reason)

/-- Every step is one of these. -/
inductive Step (cfg : ServerConfig) (s : RelayServer) : ServerLabel → RelayServer → Prop
  | same {x : ServerLabel} : Step cfg s x s
  | advanced {x : ServerLabel} {call : ℕ} {stage : WsStage} (h : Advance cfg s call x stage) :
      Step cfg s x (s.setCall call stage)
  | registered {call : ℕ} {pubKey : Bytes} {address : String}
      (hcall : s.calls call = some (.admitted pubKey address))
      (hhub : s.hub.step (.register address) = some (s.hub.register address))
      (hfree : s.hub.clients address = none) :
      Step cfg s (.register call) ({ s with hub := s.hub.register address }.setCall call
        (.registered s.hub.nextClient))
  | hub {label : HubLabel} {hub : Hub} (hhub : s.hub.step label = some hub)
      (hlabel : label.isRegister = false) : Step cfg s (.hub label) { s with hub := hub }
  | registry {x : ServerLabel} {request : RegistryLabel} {registry : RegistryState}
      (hrequest : x.Requests cfg request) (hstep : s.registry.step request = some registry) :
      Step cfg s x { s with registry := registry }

theorem Step.of_connect {origin : String} {upgraded : Bool} (hcall : s.calls call = none) :
    Step cfg s (.connect call origin upgraded)
      (s.setCall call (afterConnect cfg origin upgraded)) := by
  unfold afterConnect
  split_ifs with horigin hupgraded
  · exact .advanced (.closed (by simp [hcall]))
  · exact .advanced (.closed (by simp [hcall]))
  · obtain rfl : upgraded = true := by simpa using hupgraded
    exact .advanced (.connected hcall (by simpa using horigin))

theorem Step.of_authenticate {session : AuthSession} (hcall : s.calls call = some .accepted) :
    Step cfg s (.authenticate call session) (s.setCall call (afterAuthenticate cfg session)) := by
  unfold afterAuthenticate
  cases hauth : cfg.authenticate session with
  | error err => exact .advanced (.closed (by simp [hcall]))
  | ok result => exact .advanced (.authenticated hcall hauth)

theorem Step.of_checkKey {pubKey : Bytes} {address : String}
    (hcall : s.calls call = some (.authenticated pubKey address)) :
    Step cfg s (.checkKey call)
      (s.setCall call (afterCheck cfg s.registry.registry pubKey address)) := by
  unfold afterCheck
  split_ifs with hadmits
  · exact .advanced (.admitted hcall hadmits)
  · exact .advanced (.closed (by simp [hcall]))

theorem Step.of_register {pubKey : Bytes} {address : String} {hub : Hub}
    (hcall : s.calls call = some (.admitted pubKey address))
    (hhub : s.hub.step (.register address) = some hub) :
    Step cfg s (.register call)
      ({ s with hub := hub }.setCall call (afterRegister s.hub address)) := by
  obtain rfl : s.hub.register address = hub := by
    simp only [Hub.step] at hhub
    split_ifs at hhub
    exact Option.some.inj hhub
  unfold afterRegister
  cases hfree : s.hub.clients address with
  | none => exact .registered hcall hhub hfree
  | some c =>
    have hsame : s.hub.register address = s.hub := by simp [Hub.register, hfree]
    rw [hsame]
    exact .advanced (.closed (by simp [hcall]))

theorem Step.of_postRegister {limiter : Option Bool} {body : Except String Bytes} {now : ℤ}
    {attempt : ℕ → Attempt} (hs : s.step cfg (.postRegister limiter body now attempt) = some t) :
    Step cfg s (.postRegister limiter body now attempt) t := by
  obtain rfl := Option.some.inj hs
  obtain ⟨reply, kr, hresult⟩ : ∃ reply kr, registerHandler cfg.parseKey cfg.sha256
      cfg.relayPublicHost limiter body now attempt s.registry.registry = (reply, kr) := ⟨_, _, rfl⟩
  cases reply with
  | failed status text =>
    obtain rfl := registerHandler_failed hresult
    simpa [hresult] using Step.same
  | registered address code =>
    obtain ⟨publicKey, pubKey, hposted, hdecode, hlength, rfl, hrun⟩ :=
      registerHandler_registered hresult
    refine .registry ⟨publicKey, pubKey, hposted, hdecode, hlength, rfl⟩ ?_
    simp [RegistryState.step, ServerConfig.address, hrun, hresult, hposted]

theorem Step.of_postClaim {body : Except String Bytes} {remoteAddr : String} {postForm : PostForm}
    {commit : Option String}
    (hs : s.step cfg (.postClaim body remoteAddr postForm commit) = some t) :
    Step cfg s (.postClaim body remoteAddr postForm commit) t := by
  obtain rfl := Option.some.inj hs
  cases hcode : cfg.claimedCode body remoteAddr postForm with
  | none =>
    rw [claimHandler_of_none hcode]
    exact .same
  | some code =>
    refine .registry ⟨code, hcode, rfl⟩ ?_
    rw [claimHandler_of_claimedCode hcode]
    cases hrun : (KeyRegistry.claim code commit).run s.registry.registry with
    | ok address kr => simp [RegistryState.step, hrun]
    | error err kr => cases err <;> simp [RegistryState.step, hrun]

theorem Step.of_step (hs : s.step cfg x = some t) : Step cfg s x t := by
  cases x with
  | connect call origin upgraded =>
    simp only [step] at hs
    split at hs
    · rename_i hcall
      exact Option.some.inj hs ▸ .of_connect hcall
    · cases hs
  | authenticate call session =>
    simp only [step] at hs
    split at hs
    · rename_i hcall
      exact Option.some.inj hs ▸ .of_authenticate hcall
    · cases hs
  | checkKey call =>
    simp only [step] at hs
    split at hs
    · rename_i hcall
      exact Option.some.inj hs ▸ .of_checkKey hcall
    · cases hs
  | register call =>
    simp only [step] at hs
    split at hs
    · rename_i hcall
      obtain ⟨hub, hhub, rfl⟩ := Option.map_eq_some_iff.1 hs
      exact .of_register hcall hhub
    · cases hs
  | hub label =>
    obtain ⟨hlabel, hs⟩ := Option.ite_none_left_eq_some.1 hs
    obtain ⟨hub, hhub, rfl⟩ := Option.map_eq_some_iff.1 hs
    exact .hub hhub (by simpa using hlabel)
  | postRegister limiter body now attempt => exact .of_postRegister hs
  | postClaim body remoteAddr postForm commit => exact .of_postClaim hs
  | sweepPending ttl now commit =>
    simp only [step] at hs
    obtain ⟨registry, hstep, rfl⟩ := Option.map_eq_some_iff.1 hs
    exact .registry rfl hstep

/-- A call that is alone from its authentication to its registration does what `wsHandler` does. -/
theorem wsHandler_uninterrupted {session : AuthSession} (hcall : s.calls call = some .accepted)
    (hidle : s.hub.run = .idle) (hpanicked : s.hub.panicked = false) :
    let result := wsHandler cfg.sha256 cfg.verify (cfg.ws s.registry.registry) session s.hub
    ∃ steps t, steps <+: [.authenticate call session, .checkKey call, .register call] ∧
      Run (step cfg) (fun _ _ => True) s steps t ∧ t.hub = result.2 ∧
      match result.1 with
      | .authResult true _ address => t.calls call = some (.registered s.hub.nextClient) ∧
          (t.hub.heap s.hub.nextClient).address = address
      | .authResult false err _ => t.calls call = some (.closed err)
      | .other _ => False := by
  intro result
  cases hauth : cfg.authenticate session with
  | error err =>
    have hresult : result = (.authResult false "authentication failed" "", s.hub) := by
      simp only [ServerConfig.authenticate] at hauth
      simp only [result, wsHandler, ServerConfig.ws, hauth]
    rw [hresult]
    refine ⟨[.authenticate call session], s.setCall call (.closed "authentication failed"), by simp,
      .snoc .nil trivial ?_, rfl, by simp [setCall]⟩
    simp [step, hcall, afterAuthenticate, hauth]
  | ok proved =>
    obtain ⟨pubKey, bytes⟩ := proved
    let address := relayText bytes
    let s₁ := s.setCall call (.authenticated pubKey address)
    have hfirst : Run (step cfg) (fun _ _ => True) s [.authenticate call session] s₁ :=
      .snoc .nil trivial (by simp [step, hcall, afterAuthenticate, hauth, s₁, address])
    have hresult : result = if !admits cfg.lockedMode (some s.registry.registry) pubKey then
        (.authResult false "key not registered" "", s.hub)
      else if (s.hub.clients address).isSome then
        (.authResult false "address already connected" "", s.hub)
      else (.authResult true "" address, s.hub.register address) := by
      simp only [ServerConfig.authenticate] at hauth
      simp only [result, wsHandler, ServerConfig.ws, hauth, address]
      rfl
    by_cases hadmits : admits cfg.lockedMode (some s.registry.registry) pubKey = true
    · let s₂ := s₁.setCall call (.admitted pubKey address)
      have hsecond : Run (step cfg) (fun _ _ => True) s [.authenticate call session, .checkKey call]
          s₂ := hfirst.snoc trivial (by simp [step, s₁, s₂, setCall, afterCheck, hadmits])
      refine ⟨_, { s₂ with hub := s.hub.register address }.setCall call
        (afterRegister s.hub address), List.prefix_rfl, hsecond.snoc trivial ?_, ?_⟩
      · simp [step, s₁, s₂, setCall, Hub.step, hidle, hpanicked]
      rw [hresult]
      cases hfree : s.hub.clients address with
      | none =>
        have haddress := (register_clients hfree).2
        simp [hadmits, setCall, afterRegister, hfree, haddress]
      | some c =>
        have hsame : s.hub.register address = s.hub := by simp [Hub.register, hfree]
        simp [hadmits, setCall, afterRegister, hfree, hsame]
    · refine ⟨_, s₁.setCall call (.closed "key not registered"), ?_, hfirst.snoc trivial
        (x := .checkKey call) (by simp [step, s₁, setCall, afterCheck, hadmits]), ?_⟩
      · exact ⟨[.register call], rfl⟩
      · simp [hresult, hadmits, s₁, setCall]

/-- A call has come from a permitted origin and has proved the key, and has then taken more
steps. -/
def Came (cfg : ServerConfig) (l : List ServerLabel) (call : ℕ) (pubKey : Bytes)
    (rest : List ServerLabel) : Prop :=
  ∃ origin session, OriginPermitted cfg.url cfg.allowedOrigins origin ∧
    (∃ nonce ar, Accepted cfg.sha256 cfg.verify (textEncode cfg.relayPublicHost) (10 * 1000000000)
      (10 * 1000000000) session pubKey (textEncode (cfg.address pubKey)) nonce ar) ∧
    (.connect call origin true :: .authenticate call session :: rest).Sublist l

/-- The entry was registered, then its code was claimed with a token that Turnstile accepted, and
more steps followed. -/
def Claimed (cfg : ServerConfig) (l : List ServerLabel) (code : String) (entry : PendingEntry)
    (rest : List ServerLabel) : Prop :=
  ∃ (x y : ServerLabel) (now : ℤ) (attempt : ℕ → Attempt) (commit : Option String),
    x.Requests cfg (.registerPending entry.pubKeyB64 entry.address now attempt) ∧
      y.Requests cfg (.claim code commit) ∧ (x :: y :: rest).Sublist l

/-- The key was registered in its own encoding and claimed, and more steps followed. -/
def Vetted (cfg : ServerConfig) (l : List ServerLabel) (ledger : Ledger) (pubKey : Bytes)
    (rest : List ServerLabel) : Prop :=
  ∃ i ∈ ledger.claims, ∃ code entry, ledger.registrations[i]? = some (code, entry) ∧
    entry.pubKeyB64 = Base64.encode pubKey ∧ entry.address = cfg.address pubKey ∧
    Claimed cfg l code entry rest

/-- What is in the ledger has been asked for by requests that passed the checks. -/
structure Justified (cfg : ServerConfig) (l : List ServerLabel) (ledger : Ledger) : Prop where
  registrations : ∀ (code : String) (entry : PendingEntry), (code, entry) ∈ ledger.registrations →
    ∃ x ∈ l, ∃ now attempt,
      x.Requests cfg (.registerPending entry.pubKeyB64 entry.address now attempt)
  claims : ∀ i ∈ ledger.claims, ∃ code entry, ledger.registrations[i]? = some (code, entry) ∧
    Claimed cfg l code entry []

/-- What is known of a call at its stage. -/
def Reached (cfg : ServerConfig) (l : List ServerLabel) (s : RelayServer) (call : ℕ) :
    WsStage → Prop
  | .accepted => ∃ origin, OriginPermitted cfg.url cfg.allowedOrigins origin ∧
      .connect call origin true ∈ l
  | .authenticated pubKey address => address = cfg.address pubKey ∧ Came cfg l call pubKey []
  | .admitted pubKey address => address = cfg.address pubKey ∧
      Came cfg l call pubKey [.checkKey call] ∧
      (cfg.lockedMode = true → Vetted cfg l s.registry.ledger pubKey [.checkKey call])
  | .registered c => ∃ pubKey, c < s.hub.nextClient ∧
      (s.hub.heap c).address = cfg.address pubKey ∧
      Came cfg l call pubKey [.checkKey call, .register call] ∧
      (cfg.lockedMode = true → Vetted cfg l s.registry.ledger pubKey [.checkKey call])
  | .closed _ => True

structure Sound (cfg : ServerConfig) (l : List ServerLabel) (s : RelayServer) : Prop where
  tidy : s.hub.Tidy
  booked : s.registry.Booked
  ledger : Justified cfg l s.registry.ledger
  calls : ∀ call stage, s.calls call = some stage → Reached cfg l s call stage
  single : ∀ call call' c, s.calls call = some (.registered c) →
    s.calls call' = some (.registered c) → call = call'
  found : ∀ c < s.hub.nextClient, ∃ call, s.calls call = some (.registered c)

/-- The clients keep their addresses, and nothing is taken out of the ledger. -/
structure Grows (s t : RelayServer) : Prop where
  nextClient : s.hub.nextClient ≤ t.hub.nextClient
  address : ∀ c < s.hub.nextClient, (t.hub.heap c).address = (s.hub.heap c).address
  claims : ∀ i ∈ s.registry.ledger.claims, i ∈ t.registry.ledger.claims
  registrations : ∀ (i : ℕ) r, s.registry.ledger.registrations[i]? = some r →
    t.registry.ledger.registrations[i]? = some r

theorem Grows.of_hub {label : HubLabel} {hub : Hub} {calls : ℕ → Option WsStage}
    (h : s.hub.step label = some hub) : Grows s ⟨s.registry, hub, calls⟩ where
  nextClient := (Hub.Step.of_step h).2.nextClient_le
  address _ hc := (Hub.Step.of_step h).2.address_eq hc
  claims _ hi := hi
  registrations _ _ hr := hr

theorem Grows.of_registry {request : RegistryLabel} {registry : RegistryState}
    (h : s.registry.step request = some registry) : Grows s { s with registry := registry } where
  nextClient := le_rfl
  address _ _ := rfl
  claims i hi := by
    cases RegistryState.Change.of_step h with
    | same | registered _ | swept _ => exact hi
    | claimed _ => simp [Ledger.claim, hi]
  registrations i r hr := by
    obtain ⟨code, entry⟩ := r
    cases RegistryState.Change.of_step h with
    | same | claimed _ | swept _ => exact hr
    | registered _ => exact Ledger.registration_register hr

theorem Step.grows (h : Step cfg s x t) : Grows s t := by
  cases h with
  | same | advanced _ => exact ⟨le_rfl, fun _ _ => rfl, fun _ hi => hi, fun _ _ hr => hr⟩
  | registered _ hhub _ => exact .of_hub hhub
  | hub hhub _ => exact .of_hub hhub
  | registry _ hstep => exact .of_registry hstep

theorem Came.snoc {pubKey : Bytes} {rest : List ServerLabel} (h : Came cfg l call pubKey rest) :
    Came cfg (l ++ [x]) call pubKey (rest ++ [x]) := by
  obtain ⟨origin, session, horigin, hauth, hsteps⟩ := h
  exact ⟨origin, session, horigin, hauth, hsteps.append (.refl [x])⟩

theorem Came.grow {pubKey : Bytes} {rest : List ServerLabel} (h : Came cfg l call pubKey rest) :
    Came cfg (l ++ [x]) call pubKey rest := by
  obtain ⟨origin, session, horigin, hauth, hsteps⟩ := h
  exact ⟨origin, session, horigin, hauth, hsteps.trans (List.sublist_append_left _ _)⟩

theorem Claimed.snoc {code : String} {entry : PendingEntry} {rest : List ServerLabel}
    (h : Claimed cfg l code entry rest) : Claimed cfg (l ++ [x]) code entry (rest ++ [x]) := by
  obtain ⟨y, z, now, attempt, commit, hy, hz, hsteps⟩ := h
  exact ⟨y, z, now, attempt, commit, hy, hz, hsteps.append (.refl [x])⟩

theorem Claimed.grow {code : String} {entry : PendingEntry} {rest : List ServerLabel}
    (h : Claimed cfg l code entry rest) : Claimed cfg (l ++ [x]) code entry rest := by
  obtain ⟨y, z, now, attempt, commit, hy, hz, hsteps⟩ := h
  exact ⟨y, z, now, attempt, commit, hy, hz, hsteps.trans (List.sublist_append_left _ _)⟩

theorem Vetted.grow {pubKey : Bytes} {rest : List ServerLabel} (hgrows : Grows s t)
    (h : Vetted cfg l s.registry.ledger pubKey rest) :
    Vetted cfg (l ++ [x]) t.registry.ledger pubKey rest := by
  obtain ⟨i, hi, code, entry, hr, hkey, haddress, hclaimed⟩ := h
  exact ⟨i, hgrows.claims i hi, code, entry, hgrows.registrations i _ hr, hkey, haddress,
    hclaimed.grow⟩

theorem Reached.grow (hgrows : Grows s t) (h : Reached cfg l s call stage) :
    Reached cfg (l ++ [x]) t call stage := by
  cases stage with
  | accepted =>
    obtain ⟨origin, horigin, hmem⟩ := h
    exact ⟨origin, horigin, List.mem_append_left _ hmem⟩
  | authenticated pubKey address => exact ⟨h.1, h.2.grow⟩
  | admitted pubKey address =>
    obtain ⟨haddress, hcame, hvetted⟩ := h
    exact ⟨haddress, hcame.grow, fun hlocked => (hvetted hlocked).grow hgrows⟩
  | registered c =>
    obtain ⟨pubKey, hc, haddress, hcame, hvetted⟩ := h
    exact ⟨pubKey, hc.trans_le hgrows.nextClient, (hgrows.address c hc).trans haddress,
      hcame.grow, fun hlocked => (hvetted hlocked).grow hgrows⟩
  | closed reason => trivial

theorem address_of_request {pubKeyB64 address : String} {pubKey : Bytes} {now : ℤ}
    {attempt : ℕ → Attempt} (h : x.Requests cfg (.registerPending pubKeyB64 address now attempt))
    (hdecode : Base64.decodeString pubKeyB64 = some pubKey) : address = cfg.address pubKey := by
  cases x with
  | postRegister limiter body now' attempt' =>
    obtain ⟨publicKey, pubKey', -, hdecode', -, hrequest⟩ := h
    obtain ⟨rfl, rfl, -, -⟩ := RegistryLabel.registerPending.inj hrequest
    rw [Option.some.inj (hdecode.symm.trans hdecode')]
  | postClaim _ _ _ _ =>
    obtain ⟨_, -, hrequest⟩ := h
    cases hrequest
  | sweepPending _ _ _ => cases h
  | connect _ _ _ | authenticate _ _ | checkKey _ | register _ | hub _ => exact h.elim

/-- A key that the registry approves has been vetted. -/
theorem Sound.vetted {pubKey : Bytes} (h : Sound cfg l s)
    (hkey : s.registry.registry.isApproved (Base64.encode pubKey) = true) :
    Vetted cfg l s.registry.ledger pubKey [] := by
  obtain ⟨i, hi, code, entry, hr, hkey⟩ := (h.booked.approved _).1 hkey
  obtain ⟨code', entry', hr', hclaimed⟩ := h.ledger.claims i hi
  obtain ⟨rfl, rfl⟩ := Prod.mk.inj (Option.some.inj (hr.symm.trans hr'))
  have hdecode : Base64.decodeString entry.pubKeyB64 = some pubKey := by
    rw [hkey, Base64.decodeString_encode]
  obtain ⟨_, _, _, _, _, hrequest, -⟩ := id hclaimed
  exact ⟨i, hi, code, entry, hr, hkey, address_of_request hrequest hdecode, hclaimed⟩

theorem Sound.advance (h : Sound cfg l s) (hadvance : Advance cfg s call x stage) :
    Reached cfg (l ++ [x]) (s.setCall call stage) call stage := by
  cases hadvance with
  | connected hcall horigin =>
    exact ⟨_, (isOriginAllowed_iff cfg.parsed).1 horigin, by simp⟩
  | authenticated hcall hauth =>
    obtain ⟨origin, horigin, hconnect⟩ := h.calls _ _ hcall
    obtain ⟨nonce, ar, haccepted⟩ := authenticate_ok hauth
    have haddress := haccepted.address
    rw [generateAddressBytes_textEncode] at haddress
    subst haddress
    refine ⟨relayText_textEncode _, origin, _, horigin, ⟨nonce, ar, haccepted⟩, ?_⟩
    exact (List.singleton_sublist.2 hconnect).append (.refl [_])
  | admitted hcall hadmits =>
    obtain ⟨haddress, hcame⟩ := h.calls _ _ hcall
    refine ⟨haddress, hcame.snoc, fun hlocked => ?_⟩
    rw [hlocked] at hadmits
    obtain ⟨i, hi, code, entry, hr, hkey, hentry, hclaimed⟩ := h.vetted hadmits
    exact ⟨i, hi, code, entry, hr, hkey, hentry, hclaimed.snoc⟩
  | closed hcall => trivial

theorem Justified.grow {ledger : Ledger} (h : Justified cfg l ledger) :
    Justified cfg (l ++ [x]) ledger where
  registrations code entry hr := by
    obtain ⟨y, hy, hrest⟩ := h.registrations code entry hr
    exact ⟨y, List.mem_append_left _ hy, hrest⟩
  claims i hi := by
    obtain ⟨code, entry, hr, hclaimed⟩ := h.claims i hi
    exact ⟨code, entry, hr, hclaimed.grow⟩

theorem Justified.step {registry registry' : RegistryState} {request : RegistryLabel}
    (h : Justified cfg l registry.ledger) (hbooked : registry.Booked)
    (hrequest : x.Requests cfg request) (hstep : registry.step request = some registry') :
    Justified cfg (l ++ [x]) registry'.ledger := by
  cases RegistryState.Change.of_step hstep with
  | same | swept _ => exact h.grow
  | registered _ =>
    rename_i pubKeyB64 address code now attempt _
    refine ⟨fun code' entry hr => ?_, fun i hi => ?_⟩
    · rcases List.mem_append.1 hr with hr | hr
      · exact h.grow.registrations code' entry hr
      · obtain ⟨-, rfl⟩ := Prod.mk.inj (List.mem_singleton.1 hr)
        exact ⟨x, by simp, now, attempt, hrequest⟩
    · obtain ⟨code', entry, hr, hclaimed⟩ := h.grow.claims i hi
      exact ⟨code', entry, Ledger.registration_register hr, hclaimed⟩
  | claimed hentry =>
    rename_i code commit entry
    refine ⟨h.grow.registrations, fun i hi => ?_⟩
    obtain ⟨j, hlatest, hr, -⟩ := hbooked.pending code entry hentry
    simp only [Ledger.claim, hlatest, Option.toList_some, List.mem_append,
      List.mem_singleton] at hi
    rcases hi with hi | rfl
    · exact h.grow.claims i hi
    · obtain ⟨y, hy, now, attempt, hregistered⟩ :=
        h.registrations code entry (List.mem_of_getElem? hr)
      exact ⟨code, entry, hr, y, x, now, attempt, commit, hregistered, hrequest,
        (List.singleton_sublist.2 hy).append (.refl [x])⟩

/-- A stage that is not a registration leaves the registrations as they are. -/
theorem registered_setCall (hstage : ∀ c, stage ≠ .registered c)
    (hcall : ∀ c, s.calls call ≠ some (.registered c)) (call' c : ℕ) :
    (s.setCall call stage).calls call' = some (.registered c) ↔
      s.calls call' = some (.registered c) := by
  by_cases heq : call' = call
  · subst heq
    simp [setCall, hcall c, hstage c]
  · simp [setCall, Function.update_of_ne heq]

theorem Advance.unregistered (h : Advance cfg s call x stage) :
    (∀ c, stage ≠ .registered c) ∧ ∀ c, s.calls call ≠ some (.registered c) := by
  cases h with
  | connected hcall _ | authenticated hcall _ | admitted hcall _ => simp [hcall]
  | closed hcall => exact ⟨by simp, hcall⟩

/-- The other calls stay where they are when one takes a step. -/
theorem Sound.calls_setCall (h : Sound cfg l s) (hgrows : Grows s t)
    (hcalls : t.calls = Function.update s.calls call (some stage))
    (hstage : Reached cfg (l ++ [x]) t call stage) :
    ∀ call' stage', t.calls call' = some stage' → Reached cfg (l ++ [x]) t call' stage' := by
  intro call' stage' hstage'
  rw [hcalls] at hstage'
  by_cases heq : call' = call
  · subst heq
    obtain rfl : stage = stage' := by simpa using hstage'
    exact hstage
  · rw [Function.update_of_ne heq] at hstage'
    exact (h.calls call' stage' hstage').grow hgrows

theorem nextClient_of_step {hub hub' : Hub} {label : HubLabel} (hlabel : label.isRegister = false)
    (hs : hub.step label = some hub') : hub'.nextClient = hub.nextClient := by
  cases (Hub.Step.of_step hs).2 with
  | registered _ _ => cases hlabel
  | _ => simp

theorem Sound.registered {pubKey : Bytes} {address : String} (h : Sound cfg l s)
    (hcall : s.calls call = some (.admitted pubKey address))
    (hhub : s.hub.step (.register address) = some (s.hub.register address))
    (hfree : s.hub.clients address = none) :
    Sound cfg (l ++ [.register call]) ({ s with hub := s.hub.register address }.setCall call
      (.registered s.hub.nextClient)) := by
  have hgrows : Grows s ({ s with hub := s.hub.register address }.setCall call
      (.registered s.hub.nextClient)) := .of_hub hhub
  have hnext : (s.hub.register address).nextClient = s.hub.nextClient + 1 := by
    simp [Hub.register, hfree, Hub.modify]
  have hborn (call' c : ℕ) (hc : s.calls call' = some (.registered c)) : c < s.hub.nextClient := by
    obtain ⟨_, hlt, -⟩ := h.calls call' _ hc
    exact hlt
  refine ⟨(Hub.Step.of_step hhub).2.tidy h.tidy, h.booked, h.ledger.grow, ?_, ?_, ?_⟩
  · refine h.calls_setCall hgrows rfl ?_
    obtain ⟨rfl, hcame, hvetted⟩ := h.calls call _ hcall
    refine ⟨pubKey, ?_, ?_, hcame.snoc, fun hlocked => (hvetted hlocked).grow hgrows⟩
    · exact hnext ▸ Nat.lt_succ_self _
    · exact (register_clients hfree).2
  · intro call₁ call₂ c h₁ h₂
    by_cases heq₁ : call₁ = call <;> by_cases heq₂ : call₂ = call
    · rw [heq₁, heq₂]
    · subst heq₁
      simp only [setCall, Function.update_self, Function.update_of_ne heq₂] at h₁ h₂
      obtain rfl := WsStage.registered.inj (Option.some.inj h₁)
      exact absurd (hborn _ _ h₂) (lt_irrefl _)
    · subst heq₂
      simp only [setCall, Function.update_self, Function.update_of_ne heq₁] at h₁ h₂
      obtain rfl := WsStage.registered.inj (Option.some.inj h₂)
      exact absurd (hborn _ _ h₁) (lt_irrefl _)
    · simp only [setCall, Function.update_of_ne heq₁, Function.update_of_ne heq₂] at h₁ h₂
      exact h.single _ _ c h₁ h₂
  · intro c hc
    have hc : c < s.hub.nextClient + 1 := hnext ▸ hc
    rcases Nat.lt_succ_iff_lt_or_eq.1 hc with hold | rfl
    · obtain ⟨call', hcall'⟩ := h.found c hold
      refine ⟨call', ?_⟩
      have hne : call' ≠ call := by
        rintro rfl
        cases hcall.symm.trans hcall'
      simpa [setCall, Function.update_of_ne hne] using hcall'
    · exact ⟨call, by simp [setCall]⟩

theorem Sound.step (h : Sound cfg l s) (hs : Step cfg s x t) : Sound cfg (l ++ [x]) t := by
  have hgrows := hs.grows
  cases hs with
  | same =>
    exact ⟨h.tidy, h.booked, h.ledger.grow, fun _ _ hc => (h.calls _ _ hc).grow hgrows, h.single,
      h.found⟩
  | advanced hadvance =>
    have hsame := registered_setCall hadvance.unregistered.1 hadvance.unregistered.2
    have hcalls := h.calls_setCall hgrows rfl (h.advance hadvance)
    refine ⟨h.tidy, h.booked, h.ledger.grow, hcalls, ?_, ?_⟩
    · intro call₁ call₂ c h₁ h₂
      exact h.single _ _ c ((hsame _ _).1 h₁) ((hsame _ _).1 h₂)
    · intro c hc
      obtain ⟨call', hcall'⟩ := h.found c hc
      exact ⟨call', (hsame _ _).2 hcall'⟩
  | registered hcall hhub hfree => exact h.registered hcall hhub hfree
  | hub hhub hlabel =>
    refine ⟨(Hub.Step.of_step hhub).2.tidy h.tidy, h.booked, h.ledger.grow,
      fun _ _ hc => (h.calls _ _ hc).grow hgrows, h.single, fun c hc => h.found c ?_⟩
    exact nextClient_of_step hlabel hhub ▸ hc
  | registry hrequest hstep =>
    exact ⟨h.tidy, h.booked.step hstep, h.ledger.step h.booked hrequest hstep,
      fun _ _ hc => (h.calls _ _ hc).grow hgrows, h.single, h.found⟩

theorem Sound.start {kr : KeyRegistry} (hfresh : RegistryState.Fresh kr)
    (mq : MessageQueue Parcel) (blockStore : BlockStore) :
    Sound cfg [] (start kr mq blockStore) where
  tidy := .start mq blockStore
  booked := .start hfresh
  ledger := ⟨by simp [RelayServer.start], by simp [RelayServer.start]⟩
  calls _ _ h := by cases h
  single _ _ _ h := by cases h
  found c hc := absurd hc (Nat.not_lt_zero c)

theorem Sound.of_run {kr : KeyRegistry} {mq : MessageQueue Parcel} {blockStore : BlockStore}
    (hfresh : RegistryState.Fresh kr)
    (hrun : Run (RelayServer.step cfg) (fun _ _ => True) (.start kr mq blockStore) l s) :
    Sound cfg l s := by
  induction hrun with
  | nil => exact .start hfresh mq blockStore
  | snoc _ _ hs ih => exact ih.step (.of_step hs)

/-- Every client that the hub routes to belongs to one call of `wsHandler`. The call came from a
permitted origin, answered its own challenge with the key of the address, and was let through to
the hub; in locked mode the key had been registered and claimed before it was let through. -/
theorem clients_admitted {kr : KeyRegistry} {mq : MessageQueue Parcel} {blockStore : BlockStore}
    (hfresh : RegistryState.Fresh kr)
    (hrun : Run (step cfg) (fun _ _ => True) (start kr mq blockStore) l s)
    {a : String} {c : ℕ} (hc : s.hub.clients a = some c) :
    ∃ call pubKey, (∀ call', s.calls call' = some (.registered c) ↔ call' = call) ∧
      a = cfg.address pubKey ∧ Came cfg l call pubKey [.checkKey call, .register call] ∧
      (cfg.lockedMode = true → Vetted cfg l s.registry.ledger pubKey [.checkKey call]) := by
  have h := Sound.of_run hfresh hrun
  obtain ⟨call, hcall⟩ := h.found c (h.tidy.born a c hc)
  obtain ⟨pubKey, -, haddress, hcame, hvetted⟩ := h.calls call _ hcall
  refine ⟨call, pubKey, fun call' => ⟨fun hcall' => h.single _ _ c hcall' hcall, ?_⟩, ?_, hcame,
    hvetted⟩
  · rintro rfl
    exact hcall
  · rw [← h.tidy.address a c hc, haddress]

/-- A relay in locked mode. Turnstile accepts one token, and the bodies of the requests are the
registration of a key and the claim of its code. -/
def guardedRelay : ServerConfig where
  url := ⟨fun _ => .error "parse", id⟩
  sha256 := vectorSha256
  verify := nonceVerify
  parseKey := fun _ => some (Base64.encode vectorKey)
  parseClaim := fun _ => some ("0a", "token")
  parseSuccess := fun body => .ok (body = [1])
  relayPublicHost := "localhost"
  allowedOrigins := ""
  turnstileSecretKey := "secret"
  origins := {}
  parsed := rfl

def acceptsToken : PostForm := fun form =>
  .ok (.ok (if ("response", "token") ∈ form then [1] else [0]))

/-- The agent connects before its key has been claimed, and is checked afterwards. -/
def admission : List ServerLabel :=
  [.connect 0 "" true, .postRegister (some true) (.ok []) 0 (RegistryState.codes "0a" "0a"),
    .authenticate 0 (relaySession "localhost"),
    .postClaim (.ok []) "192.0.2.1:4711" acceptsToken none, .checkKey 0, .register 0]

def admittedServer : Option RelayServer :=
  exec (step guardedRelay) (fun _ _ => True)
    (start RegistryState.emptyRegistry (.new 1000 100) ⟨[]⟩) admission

theorem fresh_emptyRegistry : RegistryState.Fresh RegistryState.emptyRegistry :=
  ⟨rfl, by simp [RegistryState.emptyRegistry]⟩

theorem clients_admitted_guarded : ∃ s,
    Run (step guardedRelay) (fun _ _ => True)
      (start RegistryState.emptyRegistry (.new 1000 100) ⟨[]⟩) admission s ∧
    s.hub.clients (guardedRelay.address vectorKey) = some 0 ∧
    ∃ pubKey, Vetted guardedRelay admission s.registry.ledger pubKey [.checkKey 0] := by
  have hclient : admittedServer.map (fun s =>
      (s.hub.clients (guardedRelay.address vectorKey),
        decide (s.calls 0 = some (.registered 0)))) = some (some 0, true) := by
    decide +kernel
  obtain ⟨s, hs, hclient⟩ := Option.map_eq_some_iff.1 hclient
  obtain ⟨hclient, hcall⟩ := Prod.mk.inj hclient
  have hrun := Run.of_exec hs
  obtain ⟨call, pubKey, honly, -, -, hvetted⟩ := clients_admitted fresh_emptyRegistry hrun hclient
  obtain rfl := (honly 0).1 (of_decide_eq_true hcall)
  exact ⟨s, hrun, hclient, pubKey, hvetted (by decide)⟩

theorem Step.approved_size (h : Step cfg s x t) :
    t.registry.registry.approved.size ≤
      s.registry.registry.approved.size + if x.verified cfg then 1 else 0 := by
  cases h with
  | same | advanced _ | registered _ _ _ | hub _ _ => exact Nat.le_add_right _ _
  | registry hrequest hstep =>
    cases RegistryState.Change.of_step hstep with
    | same | registered _ => exact Nat.le_add_right _ _
    | swept _ =>
      rw [KeyRegistry.foldl_removePending]
      exact Nat.le_add_right _ _
    | claimed _ =>
      have hverified : x.verified cfg = true := by
        cases x with
        | postClaim body remoteAddr postForm commit =>
          obtain ⟨code, hcode, -⟩ := hrequest
          simp [ServerLabel.verified, hcode]
        | postRegister _ _ _ _ =>
          obtain ⟨_, _, -, -, -, hrequest⟩ := hrequest
          cases hrequest
        | sweepPending _ _ _ => cases hrequest
        | connect _ _ _ | authenticate _ _ | checkKey _ | register _ | hub _ => exact hrequest.elim
      rw [if_pos hverified]
      exact SortedMap.size_put_le _ _ _

/-- Every approved key has cost a request of its own with a token that Turnstile accepted. -/
theorem approvals_verified {kr : KeyRegistry} {mq : MessageQueue Parcel} {blockStore : BlockStore}
    (hfresh : RegistryState.Fresh kr)
    (hrun : Run (step cfg) (fun _ _ => True) (start kr mq blockStore) l s) :
    s.registry.registry.approved.size ≤ l.countP (·.verified cfg) := by
  induction hrun with
  | nil => simp [start, hfresh.1, SortedMap.size, SortedMap.empty]
  | snoc _ _ hs ih =>
    rw [List.countP_append, List.countP_singleton]
    exact (Step.of_step hs).approved_size.trans (Nat.add_le_add_right ih _)

theorem approvals_verified_guarded : ∃ s,
    Run (step guardedRelay) (fun _ _ => True)
      (start RegistryState.emptyRegistry (.new 1000 100) ⟨[]⟩) admission s ∧
    s.registry.registry.approved.size ≤ 1 := by
  obtain ⟨s, hs⟩ := Option.isSome_iff_exists.1 (show admittedServer.isSome by decide +kernel)
  have hrun := Run.of_exec hs
  have hcount : admission.countP (·.verified guardedRelay) = 1 := by decide +kernel
  exact ⟨s, hrun, hcount ▸ approvals_verified fresh_emptyRegistry hrun⟩

end RelayServer

end Pinch
