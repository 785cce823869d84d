import Pinch.ConsentGate
import Pinch.MessageFrame

/-! What incoming envelopes can do to the records that the human has settled. A response
and a revoke write the state; a request writes a new record over the old one. -/

namespace Pinch

open CircuitBreaker MessageManager Transition

def Node.receive (n : Node) (ctx : CallContext) (envelope : Envelope) : Node :=
  { n with toAgent := n.toAgent.step (ctx, .incoming envelope) }

inductive InputLabel
  | incoming (ctx : CallContext) (envelope : Envelope)
  | resume (task : Nat) (ctx : CallContext) (verdict : Verdict)

/-- Both managers get every envelope, the connection manager first. -/
def Process.input (setup : Setup) (s : Process) : InputLabel → Option Process
  | .incoming ctx envelope =>
    Process.step setup { s with node := s.node.receive ctx envelope } (.incoming ctx envelope)
  | .resume task ctx verdict => Process.step setup s (.resume task ctx verdict)

/-- The records with which the human has settled something about the peer. -/
def Connection.Settled (c : Connection) : Prop :=
  c.state = .active ∨ c.state = .blocked

instance (c : Connection) : Decidable c.Settled :=
  inferInstanceAs (Decidable (_ ∨ _))

/-- The record `c'` still says what `c` said, apart from what a trip of the breaker writes. -/
structure Connection.Upheld (c c' : Connection) : Prop where
  blocked : c.state = .blocked → c'.state = .blocked
  nickname : c'.nickname = c.nickname
  autoRespondPolicy : c'.autoRespondPolicy = c.autoRespondPolicy
  permissionsManifest : c'.permissionsManifest = c.permissionsManifest
  muted : c'.muted = c.muted
  breaker : c'.circuitBreakerTripped = c.circuitBreakerTripped ∧
      c'.autonomyLevel = c.autonomyLevel ∨
    c'.circuitBreakerTripped = some true ∧ c'.autonomyLevel = .fullManual

namespace ConnectionStore

def Upholds (start store : ConnectionStore) : Prop :=
  ∀ p c, start.getConnection p = some c → c.Settled →
    ∃ c', store.getConnection p = some c' ∧ c.Upheld c'

/-- An envelope that does not reach a settled record: no request that would be taken names
its peer, and no answer and no revoke names a blocked one. -/
def Spares (start : ConnectionStore) (envelope : Envelope) : Prop :=
  match envelope.type, envelope.payload with
  | .connectionRequest, .connectionRequest r =>
    utf16Length r.message ≤ 280 → (deadlineOf r.expiresAt).isSome →
      ∀ c ∈ start.getConnection r.fromAddress, ¬ c.Settled
  | .connectionResponse, .connectionResponse r =>
    ∀ c ∈ start.getConnection r.fromAddress, c.state ≠ .blocked
  | .connectionRevoke, .connectionRevoke r =>
    ∀ c ∈ start.getConnection r.fromAddress, c.state ≠ .blocked
  | _, _ => True

instance (start : ConnectionStore) (envelope : Envelope) : Decidable (start.Spares envelope) := by
  unfold Spares
  split <;> infer_instance

end ConnectionStore

def InputLabel.Spares (start : ConnectionStore) : InputLabel → Prop
  | .incoming _ envelope => start.Spares envelope
  | .resume .. => True

instance (start : ConnectionStore) (x : InputLabel) : Decidable (x.Spares start) :=
  match x with
  | .incoming _ envelope => inferInstanceAs (Decidable (start.Spares envelope))
  | .resume .. => isTrue trivial

section Upheld

variable {c c' : Connection}

theorem Connection.upheld_refl (c : Connection) : c.Upheld c :=
  ⟨fun h => h, rfl, rfl, rfl, rfl, .inl ⟨rfl, rfl⟩⟩

theorem Connection.Upheld.afterTrip (h : c.Upheld c') (now : Int) : c.Upheld (c'.afterTrip now) := by
  rw [Connection.afterTrip_eq]
  exact ⟨h.blocked, h.nickname, h.autoRespondPolicy, h.permissionsManifest, h.muted,
    .inr ⟨rfl, rfl⟩⟩

/-- An update of the state and the key only. -/
theorem Connection.Upheld.assign {u : ConnectionUpdates} (h : c.Upheld c') (now : Int)
    (hu : u = { state := u.state, peerPublicKey := u.peerPublicKey }) (hc : c.state ≠ .blocked) :
    c.Upheld (ConnectionStore.assign c' u now) := by
  rw [hu]
  exact ⟨fun hb => absurd hb hc, h.nickname, h.autoRespondPolicy, h.permissionsManifest, h.muted,
    h.breaker⟩

variable {start store : ConnectionStore}

theorem responseUpdate_eq (r : ConnectionResponse) : responseUpdate r =
    { state := (responseUpdate r).state, peerPublicKey := (responseUpdate r).peerPublicKey } := by
  unfold responseUpdate
  split <;> rfl

theorem Upholds.receive {n : Node} (h : start.Upholds n.connectionStore) (ctx : CallContext)
    {envelope : Envelope} (hspares : start.Spares envelope) :
    start.Upholds (n.receive ctx envelope).connectionStore := by
  intro p c hc hsettled
  obtain ⟨c', hc', hup⟩ := h p c hc hsettled
  have hget : (n.receive ctx envelope).connectionStore.getConnection p =
      (incomingEffect p envelope).apply ctx.now (some c') := by
    rw [← hc']
    exact getConnection_incoming ctx n.toAgent envelope p
  have hupdate (u : ConnectionUpdates)
      (hu : u = { state := u.state, peerPublicKey := u.peerPublicKey }) (hb : c.state ≠ .blocked)
      (heffect : incomingEffect p envelope = .update u) :
      ∃ c', (n.receive ctx envelope).connectionStore.getConnection p = some c' ∧ c.Upheld c' :=
    ⟨_, by rw [hget, heffect]; rfl, hup.assign ctx.now hu hb⟩
  have hcase := ConnectionEvent.effect_case ctx p none (.incoming envelope)
  rw [ConnectionEvent.effect] at hcase
  generalize heffect : incomingEffect p envelope = effect at hcase
  cases hcase with
  | keep => exact ⟨c', by rw [hget, heffect]; rfl, hup⟩
  | request _ r deadline ht hp hq hm hd =>
    simp only [ConnectionStore.Spares, ht, hp] at hspares
    exact absurd hsettled (hspares hm (by simp [hd]) c (by rw [hq]; exact hc))
  | response _ r ht hp hq =>
    simp only [ConnectionStore.Spares, ht, hp] at hspares
    exact hupdate _ (responseUpdate_eq r) (hspares c (by rw [hq]; exact hc)) heffect
  | revoke _ r ht hp hq =>
    simp only [ConnectionStore.Spares, ht, hp] at hspares
    exact hupdate _ rfl (hspares c (by rw [hq]; exact hc)) heffect

theorem Upholds.recorded {config : CircuitBreakerConfig} {now : Int} {address type : String}
    {n n' : Node} (h : start.Upholds n.connectionStore)
    (hrec : Recorded config now address type n n') : start.Upholds n'.connectionStore := by
  intro p c hc hsettled
  obtain ⟨c', hc', hup⟩ := h p c hc hsettled
  rw [hrec.getConnection, hc']
  split
  · exact ⟨_, rfl, hup.afterTrip now⟩
  · exact ⟨_, rfl, hup⟩

theorem stable_upholds (config : CircuitBreakerConfig) (start : ConnectionStore) :
    Stable config (fun n => start.Upholds n.connectionStore) :=
  .of_connectionStore fun _ _ _ _ _ hrec h => Upholds.recorded h hrec

/-- Storing a message leaves the connections alone. -/
theorem saveMessage_connections {Φ : ConnectionStore → Prop} (message : MessageRecord) :
    Keeps (fun n : Node => Φ n.connectionStore) (Node.saveMessage message) := by
  refine Spec.read_bind fun n => ?_
  split
  · exact Spec.modify fun _ h => h
  · exact Spec.throw fun _ h => h

theorem Upholds.input {setup : Setup} {s s' : Process} {x : InputLabel}
    (h : start.Upholds s.node.connectionStore) (hspares : x.Spares start)
    (hs : s.input setup x = some s') : start.Upholds s'.node.connectionStore := by
  have hstable := stable_upholds setup.breakerConfig start
  cases x with
  | incoming ctx envelope =>
    obtain rfl := Option.some.inj hs
    have hkeeps : Keeps (fun n : Node => start.Upholds n.connectionStore)
        (dispatch setup ctx envelope) :=
      hstable.quiet.dispatch fun _ message _ _ => saveMessage_connections message
    exact hkeeps.finalState (Upholds.receive h ctx hspares)
  | resume task ctx verdict =>
    obtain ⟨t, -, rfl⟩ := Option.map_eq_some_iff.1 hs
    exact (hstable.resume verdict t).finalState h

end Upheld

/-- Along every run of incoming envelopes that spare the settled records, a blocked peer
stays blocked and what the human has set stays set. -/
theorem decisions_upheld (setup : Setup) (start : Process) (l : List InputLabel) (s : Process)
    (hrun : Run (Process.input setup) (fun _ x => x.Spares start.node.connectionStore) start l s) :
    start.node.connectionStore.Upholds s.node.connectionStore :=
  hrun.invariant (P := fun s => start.node.connectionStore.Upholds s.node.connectionStore)
    (fun _ c hc _ => ⟨c, hc, c.upheld_refl⟩) fun _ _ _ h hok hs => Upholds.input h hok hs

def mallory : String := "pinch:mallory@relay.example"

/-- A blocked and a trusted peer. -/
def settledStore : ConnectionStore :=
  ((∅ : ConnectionStore).insert mallory { guardedConnection .fullManual with
    peerAddress := mallory
    state := .blocked
    nickname := "mallory"
    muted := some true }).insert "a" (guardedConnection .notify)

def settledProcess : Process := .idle (.withConnections settledStore)

def revokeFromTrusted : Envelope where
  type := .connectionRevoke
  payload := .connectionRevoke ⟨"a", "pinch:alice@relay.example"⟩

def requestFromStranger : Envelope where
  type := .connectionRequest
  payload := .connectionRequest ⟨"b", "pinch:alice@relay.example", "hi", [], 0⟩

theorem decisions_upheld_revoke : ∃ s,
    Run (Process.input vectorSetup) (fun _ x => x.Spares settledStore) settledProcess
      [.incoming aliceContext revokeFromTrusted, .incoming aliceContext requestFromStranger] s ∧
    s.node.toAgent.stateOf "a" = some .revoked ∧ s.node.toAgent.stateOf "b" = some .pendingInbound ∧
    settledStore.Upholds s.node.connectionStore := by
  have h : (exec (Process.input vectorSetup) (fun _ x => x.Spares settledStore) settledProcess
      [.incoming aliceContext revokeFromTrusted, .incoming aliceContext requestFromStranger]).map
      (fun s => (s.node.toAgent.stateOf "a", s.node.toAgent.stateOf "b")) =
      some (some .revoked, some .pendingInbound) := by
    decide +kernel
  obtain ⟨s, hs, heq⟩ := Option.map_eq_some_iff.1 h
  obtain ⟨ha, hb⟩ := Prod.mk.inj heq
  exact ⟨s, Run.of_exec hs, ha, hb, decisions_upheld vectorSetup settledProcess _ s (Run.of_exec hs)⟩

/-- A request and an answer to it make a blocked and muted peer active. -/
theorem blocked_peer_activated : ∃ s,
    Run (Process.input vectorSetup) (fun _ _ => True) settledProcess
      [.incoming aliceContext malloryRequest, .incoming aliceContext malloryAcceptance] s ∧
    settledProcess.node.toAgent.stateOf mallory = some .blocked ∧
    s.node.toAgent.stateOf mallory = some .active ∧
    ¬ settledStore.Upholds s.node.connectionStore := by
  have h : (exec (Process.input vectorSetup) (fun _ _ => True) settledProcess
      [.incoming aliceContext malloryRequest, .incoming aliceContext malloryAcceptance]).map
      (fun s => (s.node.connectionStore.getConnection mallory).map (·.state)) =
      some (some .active) := by
    decide +kernel
  obtain ⟨s, hs, hactive⟩ := Option.map_eq_some_iff.1 h
  refine ⟨s, Run.of_exec hs, by decide +kernel, hactive, fun hup => ?_⟩
  obtain ⟨c', hc', hkept⟩ := hup mallory { guardedConnection .fullManual with
    peerAddress := mallory
    state := .blocked
    nickname := "mallory"
    muted := some true } (by decide +kernel) (.inr rfl)
  rw [hc', Option.map_some, hkept.blocked rfl] at hactive
  cases hactive

end Pinch
