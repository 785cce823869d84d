import Pinch.AutonomyControl
import Pinch.ConnectionStep
import Pinch.MessageFrame
import Pinch.Transition

/-! The autonomy of an agent's connections over whole runs. Levels and breaker flags are written
by the connection lifecycle, by `setAutonomy` and the tool in front of it, and by the circuit
breaker, which the suspended calls of the pipeline drive in any order. -/

namespace Pinch

open CircuitBreaker EnforcementPipeline Transition

structure PipelineCall where
  message : MessageRecord
  address : String
  stage : Stage

structure Supervision where
  node : Node
  calls : ℕ → Option PipelineCall
  /-- Calls are numbered in the order they started. -/
  started : ℕ
  /-- The router has run for the call while the flag of its connection was set. -/
  flagged : ℕ → Bool

inductive SupervisionLabel
  | connection (ctx : CallContext) (event : ConnectionEvent)
  | setAutonomy (now : Int) (address : String) (level : AutonomyLevel) (confirmed : Bool)
  | pinchAutonomy (now : Int) (bootstrapError saveError : Option String) (args : List String)
  | setting (now : Int) (address : String) (value : ConnectionStore.Setting)
  | clearPassthroughFlags
  | expirePendingRequests (now : Int)
  | recordMessage (now : Int) (address : String)
  | recordViolation (now : Int) (address type : String)
  | process (now : Int) (message : MessageRecord) (address : String)
  | resume (call : ℕ) (now : Int) (verdict : Verdict)
  /-- The message table changes under the calls. -/
  | messages (store : MessageStore)

namespace Supervision

variable (config : CircuitBreakerConfig)

def start (node : Node) : Supervision := ⟨node, fun _ => none, 0, fun _ => false⟩

def withStore (s : Supervision) (store : ConnectionStore) : Supervision :=
  { s with node := { s.node with connectionStore := store } }

def onStore {α : Type} (s : Supervision) (op : StoreOp α) : Supervision :=
  s.withStore (finalState (op.run s.node.connectionStore))

def onNode {α : Type} (s : Supervision) (op : NodeOp α) : Supervision :=
  { s with node := finalState (op.run s.node) }

/-- The call goes on with the routing step, and finds the flag set. -/
def routesFlagged (now : Int) (n : Node) (call : PipelineCall) : Bool :=
  match call.stage with
  | .enforced result => result.allowed &&
      isTripped (finalState ((CircuitBreaker.recordMessage config now call.address).run n))
        call.address
  | _ => false

def step (s : Supervision) : SupervisionLabel → Option Supervision
  | .connection ctx event =>
    some { s with node := { s.node with toAgent := s.node.toAgent.step (ctx, event) } }
  | .setAutonomy now address level confirmed =>
    some (s.onStore (ConnectionStore.setAutonomyInPlace now address level confirmed))
  | .pinchAutonomy now bootstrapError saveError args =>
    some (s.onStore (Pinch.pinchAutonomy now bootstrapError saveError args))
  | .setting now address value => some (s.onStore (ConnectionStore.applySetting now address value))
  | .clearPassthroughFlags => some (s.withStore s.node.connectionStore.clearPassthroughFlags)
  | .expirePendingRequests now =>
    some (s.withStore (s.node.connectionStore.expirePendingRequests now))
  | .recordMessage now address => some (s.onNode (CircuitBreaker.recordMessage config now address))
  | .recordViolation now address type =>
    some (s.onNode (CircuitBreaker.recordViolation config now address type))
  | .process now message address =>
    let r := (EnforcementPipeline.process now message address).run s.node
    some
      { node := finalState r
        calls := Function.update s.calls s.started ((returned r).map (⟨message, address, ·⟩))
        started := s.started + 1
        flagged := Function.update s.flagged s.started false }
  | .resume call now verdict =>
    (s.calls call).map fun c =>
      let r := (EnforcementPipeline.resume config now c.message c.address verdict c.stage).run s.node
      { s with
        node := finalState r
        calls := Function.update s.calls call ((returned r).map (⟨c.message, c.address, ·⟩))
        flagged := Function.update s.flagged call
          (s.flagged call || routesFlagged config now s.node c) }
  | .messages store => some { s with node := { s.node with messageStore := store } }

def level (s : Supervision) (p : String) : Option (AutonomyLevel × Bool) :=
  s.node.connectionStore.level p

/-- The call of `setAutonomy` that succeeds in a step. -/
def autonomyCall (s : Supervision) : SupervisionLabel → Option AutonomyCall
  | .setAutonomy now address level confirmed =>
    s.node.connectionStore.autonomyCall now address level confirmed
  | .pinchAutonomy now bootstrapError _ args =>
    s.node.connectionStore.toolCall now bootstrapError args
  | _ => none

/-- The step writes a new record for the address. -/
def Creates (s : Supervision) (p : String) : SupervisionLabel → Prop
  | .connection ctx event => ∃ new,
      event.effect ctx p ((s.node.connectionStore.getConnection p).map (·.state)) = .create new
  | _ => False

variable {config} {s t : Supervision} {label : SupervisionLabel} {p : String}

/-- What one step does to the level and the flag of one record. -/
inductive LevelStep (s : Supervision) (label : SupervisionLabel) (p : String) (t : Supervision) :
    Prop
  | kept (h : t.level p = s.level p) (hold : ¬ s.Creates p label) : LevelStep s label p t
  | created (h : s.Creates p label) (hlevel : t.level p = some (.fullManual, false)) :
      LevelStep s label p t
  | set {call : AutonomyCall} (hcall : s.autonomyCall label = some call) (hp : call.address = p)
      (gate : ∃ v, s.level p = some v ∧
        (call.level = .fullAuto → v.1 = .fullAuto ∨ call.confirmed = true))
      (hlevel : t.level p = some (call.level, false)) : LevelStep s label p t
  | tripped (hlevel : t.level p = some (.fullManual, true)) : LevelStep s label p t

/-- The breaker alone: a record is as before, or it has been tripped. -/
def Guarded (s : ConnectionStore) (p : String) (t : ConnectionStore) : Prop :=
  t.level p = s.level p ∨ t.level p = some (.fullManual, true)

theorem Guarded.recorded {store : ConnectionStore} {now : Int} {address type : String} {n n' : Node}
    (hrec : Recorded config now address type n n') (h : Guarded store p n.connectionStore) :
    Guarded store p n'.connectionStore := by
  unfold Guarded ConnectionStore.level at *
  rw [hrec.getConnection]
  split
  · cases hc : n.connectionStore.getConnection p with
    | none => simpa [hc] using h
    | some c => exact .inr (by simp [Connection.afterTrip_eq])
  · exact h

theorem guarded_stable (store : ConnectionStore) (p : String) :
    Stable config fun n => Guarded store p n.connectionStore :=
  .of_connectionStore fun _ _ _ _ _ hrec h => h.recorded hrec

theorem LevelStep.of_guarded (hold : ¬ s.Creates p label)
    (h : Guarded s.node.connectionStore p t.node.connectionStore) : LevelStep s label p t :=
  h.elim (.kept · hold) .tripped

theorem creates_connection {ctx : CallContext} {event : ConnectionEvent} :
    s.Creates p (.connection ctx event) ↔ ∃ new,
      event.effect ctx p ((s.node.connectionStore.getConnection p).map (·.state)) = .create new :=
  Iff.rfl

theorem levelStep_connection (ctx : CallContext) (event : ConnectionEvent) (p : String)
    (ht : t.node.connectionStore = (s.node.toAgent.step (ctx, event)).connectionStore) :
    LevelStep s (.connection ctx event) p t := by
  have hget := getConnection_step ctx s.node.toAgent event p
  have hcase := ConnectionEvent.effect_case ctx p
    ((s.node.connectionStore.getConnection p).map (·.state)) event
  revert hget hcase
  generalize heff : event.effect ctx p _ = effect
  intro hget hcase
  have hold (hne : ∀ new, effect ≠ .create new) : ¬ s.Creates p (.connection ctx event) := by
    intro hcreates
    obtain ⟨new, hnew⟩ := creates_connection.1 hcreates
    rw [heff] at hnew
    exact hne new hnew
  have hupdate {u : ConnectionUpdates} (heq : effect = .update u) (hlevel : u.autonomyLevel = none)
      (hflag : u.circuitBreakerTripped = none) : LevelStep s (.connection ctx event) p t := by
    refine .kept ?_ (hold fun new hnew => by cases heq.symm.trans hnew)
    rw [level, ConnectionStore.level, ht, hget, heq]
    simp only [RecordEffect.apply, Option.map_map, level, ConnectionStore.level]
    refine congrArg (Option.map · _) (funext fun c => ?_)
    simp [ConnectionStore.assign, hlevel, hflag]
  have hcreate {new : NewConnection} (heq : effect = .create new)
      (hlevel : new.autonomyLevel = some .fullManual) (hflag : new.circuitBreakerTripped = none) :
      LevelStep s (.connection ctx event) p t := by
    refine .created (creates_connection.2 ⟨new, heff.trans heq⟩) ?_
    rw [level, ConnectionStore.level, ht, hget, heq]
    simp [RecordEffect.apply, ConnectionStore.freshConnection, hlevel, hflag]
  cases hcase with
  | keep =>
    refine .kept ?_ (hold fun _ => RecordEffect.noConfusion)
    rw [level, ConnectionStore.level, ht, hget]
    rfl
  | sendRequest message expiry => exact hcreate rfl rfl rfl
  | request e r deadline => exact hcreate rfl rfl rfl
  | response e r =>
    refine hupdate rfl ?_ ?_
    · unfold responseUpdate
      split <;> rfl
    · unfold responseUpdate
      split <;> rfl
  | _ => exact hupdate rfl rfl rfl

theorem LevelStep.of_changed {call : Option AutonomyCall} {store : ConnectionStore} (p : String)
    (h : s.node.connectionStore.Changed call store) (hcall : s.autonomyCall label = call)
    (hold : ¬ s.Creates p label) (ht : t.node.connectionStore = store) : LevelStep s label p t := by
  cases h with
  | same h => exact .kept (by rw [level, ht]; exact h p) hold
  | set gate own others =>
    rename_i call
    by_cases hp : p = call.address
    · subst hp
      exact .set hcall rfl gate (by rw [level, ht]; exact own)
    · exact .kept (by rw [level, ht]; exact others p hp) hold

theorem levelStep (hs : s.step config label = some t) (p : String) : LevelStep s label p t := by
  cases label with
  | connection ctx event =>
    obtain rfl := Option.some.inj hs
    exact levelStep_connection ctx event p rfl
  | setAutonomy now address level confirmed =>
    obtain rfl := Option.some.inj hs
    have hspec : Spec (· = s.node.connectionStore)
        (ConnectionStore.setAutonomyInPlace now address level confirmed) _ _ :=
      ConnectionStore.setAutonomyInPlace_spec address level confirmed
    refine .of_changed p
      (Spec.finalState (hspec.conseq (fun _ h => h) (fun _ _ h => h) ?_) rfl) rfl id rfl
    rintro _ _ ⟨rfl, hcall⟩
    exact hcall ▸ .same fun _ => rfl
  | pinchAutonomy now bootstrapError saveError args =>
    obtain rfl := Option.some.inj hs
    exact .of_changed p ((ConnectionStore.pinchAutonomy_spec _ _ _).finalState rfl) rfl id rfl
  | setting now address value =>
    obtain rfl := Option.some.inj hs
    have hspec : Spec (· = s.node.connectionStore)
        (ConnectionStore.applySetting now address value) _ _ :=
      ConnectionStore.applySetting_spec address value
    refine .kept (Spec.finalState (hspec.conseq (fun _ h => h) (fun _ _ h => h) ?_) rfl p) id
    rintro _ _ rfl
    exact fun _ => rfl
  | clearPassthroughFlags =>
    obtain rfl := Option.some.inj hs
    exact .kept (ConnectionStore.level_clearPassthroughFlags p) id
  | expirePendingRequests now =>
    obtain rfl := Option.some.inj hs
    exact .kept (ConnectionStore.level_expirePendingRequests p) id
  | recordMessage now address =>
    obtain rfl := Option.some.inj hs
    exact .of_guarded id (((guarded_stable _ p).recordEvent now address _).finalState (.inl rfl))
  | recordViolation now address type =>
    obtain rfl := Option.some.inj hs
    exact .of_guarded id (((guarded_stable _ p).recordEvent now address type).finalState (.inl rfl))
  | process now message address =>
    obtain rfl := Option.some.inj hs
    have hstable : Stable config _ := guarded_stable s.node.connectionStore p
    exact .of_guarded id (hstable.quiet.process.finalState (.inl rfl))
  | resume call now verdict =>
    obtain ⟨c, hc, rfl⟩ := Option.map_eq_some_iff.1 hs
    exact .of_guarded id (((guarded_stable _ p).quiet.pipeline verdict c.stage).finalState (.inl rfl))
  | messages store =>
    obtain rfl := Option.some.inj hs
    exact .kept rfl id

/-- Every tripped record is at full manual. -/
def Manual (store : ConnectionStore) : Prop :=
  ∀ p c, store.getConnection p = some c → c.circuitBreakerTripped = some true →
    c.autonomyLevel = .fullManual

theorem manual_iff {store : ConnectionStore} :
    Manual store ↔ ∀ p level, store.level p = some (level, true) → level = .fullManual := by
  constructor
  · intro h p level hlevel
    obtain ⟨c, hc, heq⟩ := Option.map_eq_some_iff.1 hlevel
    obtain ⟨rfl, hflag⟩ := Prod.mk.inj heq
    exact h p c hc (of_decide_eq_true hflag)
  · intro h p c hc hflag
    exact h p _ (by simp [ConnectionStore.level, hc, hflag])

theorem Manual.guarded {s t : ConnectionStore} (hs : Manual s) (h : ∀ p, Guarded s p t) :
    Manual t := by
  refine manual_iff.2 fun p level hlevel => ?_
  rcases h p with heq | heq
  · exact manual_iff.1 hs p level (heq ▸ hlevel)
  · cases hlevel.symm.trans heq
    rfl

theorem manual_step (hs : s.step config label = some t) (h : Manual s.node.connectionStore) :
    Manual t.node.connectionStore := by
  refine manual_iff.2 fun p level hlevel => ?_
  cases levelStep hs p with
  | kept heq _ => exact manual_iff.1 h p level (heq.symm.trans hlevel)
  | created _ heq => cases hlevel.symm.trans heq
  | set _ _ _ heq => cases hlevel.symm.trans heq
  | tripped heq =>
    cases hlevel.symm.trans heq
    rfl

theorem isTripped_iff {n : Node} :
    isTripped n p = true ↔ ∃ level, n.connectionStore.level p = some (level, true) := by
  unfold isTripped ConnectionStore.level
  cases n.connectionStore.getConnection p <;> simp

theorem untripped_by (hs : s.step config label = some t) (hp : isTripped s.node p = true)
    (hp' : isTripped t.node p = false) :
    s.Creates p label ∨ ∃ call, s.autonomyCall label = some call ∧ call.address = p := by
  obtain ⟨level, hlevel⟩ := isTripped_iff.1 hp
  have hno : ∀ level, t.level p ≠ some (level, true) := fun level h => by
    simp [isTripped_iff.2 ⟨level, h⟩] at hp'
  cases levelStep hs p with
  | kept heq _ => exact absurd (heq.trans hlevel) (hno level)
  | created h _ => exact .inl h
  | set hcall hp _ _ => exact .inr ⟨_, hcall, hp⟩
  | tripped heq => exact absurd heq (hno _)

section Routing

variable {now : Int} {message : MessageRecord} {address : String}

/-- The call has ended, and the agent does not read the message. -/
def Unread (stage : Stage) : Prop :=
  ∃ routed, stage = .done routed ∧ routed.state ≠ "read_by_agent"

theorem route_manual : Spec (fun n => ∀ c, n.connectionStore.getConnection address = some c →
      c.autonomyLevel = .fullManual)
    (InboundRouter.route now message address)
    (fun routed _ => routed.state ≠ "read_by_agent" ∧ routed.state ≠ "pending_policy_eval")
    (fun _ _ => True) := by
  refine route_rule fun n state reason feed hn _ hout => ?_
  cases hout with
  | refused => simp [MessageRecord.routed]
  | read hc hlevel => simp [hn _ hc] at hlevel
  | pending hc hlevel => simp [hn _ hc] at hlevel
  | escalated => simp [MessageRecord.routed]

theorem finish_manual {result : EnforcementResult} (hallowed : result.allowed = true) :
    Spec (fun n => ∀ c, n.connectionStore.getConnection address = some c →
        c.autonomyLevel = .fullManual)
      (finish now message address result) (fun stage _ => Unread stage) (fun _ _ => True) := by
  rw [finish, if_pos hallowed]
  refine Spec.bind route_manual fun routed => ?_
  split
  · rename_i hpending
    exact fun _ h => absurd hpending h.2
  · exact .pure fun _ h => ⟨routed, rfl, h.1⟩

theorem resume_unread {n n' : Node} {call : PipelineCall} {verdict : Verdict} {stage : Stage}
    (hn : Manual n.connectionStore) (hflag : routesFlagged config now n call = true)
    (hrun : (resume config now call.message call.address verdict call.stage).run n = .ok stage n') :
    Unread stage := by
  unfold routesFlagged at hflag
  split at hflag
  · rename_i result hstage
    obtain ⟨hallowed, htripped⟩ := Bool.and_eq_true_iff.1 hflag
    have hevent : result.event = some TriggerType.messageFlood.name := by
      simp [EnforcementResult.event, hallowed]
    simp only [hstage, resume, enforce_eq, hevent] at hrun
    obtain ⟨_, n₁, hrecord, hfinish⟩ := run_bind_ok.1 hrun
    rw [recordMessage_eq, hrecord] at htripped
    have hguarded (p : String) : Guarded n.connectionStore p n₁.connectionStore :=
      ((guarded_stable _ p).recordEvent _ _ _).ok (.inl rfl) hrecord
    refine (finish_manual hallowed).ok (fun c hc => ?_) hfinish
    refine hn.guarded hguarded _ c hc ?_
    simpa [isTripped, finalState, hc] using htripped
  · cases hflag

end Routing

/-- A call that was routed with the flag set has ended without the agent reading the message. -/
def Withheld (s : Supervision) : Prop :=
  ∀ id call, s.calls id = some call → s.flagged id = true → Unread call.stage

theorem withheld_step (hs : s.step config label = some t) (hmanual : Manual s.node.connectionStore)
    (h : Withheld s) : Withheld t := by
  cases label with
  | process now message address =>
    obtain rfl := Option.some.inj hs
    intro id call hcall hflag
    by_cases hid : id = s.started
    · subst hid
      simp at hflag
    · simp only [Function.update_of_ne hid] at hcall hflag
      exact h id call hcall hflag
  | resume k now verdict =>
    obtain ⟨c, hc, rfl⟩ := Option.map_eq_some_iff.1 hs
    intro id call hcall hflag
    by_cases hid : id = k
    · subst hid
      simp only [Function.update_self] at hcall hflag
      obtain ⟨stage, hreturned, rfl⟩ := Option.map_eq_some_iff.1 hcall
      have hrun := eq_ok_of_returned hreturned
      rcases Bool.or_eq_true_iff.1 hflag with hflag | hflag
      · obtain ⟨routed, hstage, hread⟩ := h id c hc hflag
        rw [hstage] at hreturned
        exact ⟨routed, (Option.some.inj hreturned).symm, hread⟩
      · exact resume_unread hmanual hflag hrun
    · simp only [Function.update_of_ne hid] at hcall hflag
      exact h id call hcall hflag
  | _ =>
    obtain rfl := Option.some.inj hs
    exact h

/-- A tripped connection is at full manual in every state that is reached; the flag falls only
where the record is created anew or `setAutonomy` succeeds; and the agent reads no message that
is routed while the flag is set. -/
theorem tripped_means_manual {node : Node} {l : List SupervisionLabel}
    (hnode : Manual node.connectionStore)
    (hrun : Run (step config) (fun _ _ => True) (start node) l s) :
    (∀ p c, s.node.connectionStore.getConnection p = some c → c.circuitBreakerTripped = some true →
      c.autonomyLevel = .fullManual) ∧
    (∀ label t p, s.step config label = some t → isTripped s.node p = true →
      isTripped t.node p = false →
      s.Creates p label ∨ ∃ call, s.autonomyCall label = some call ∧ call.address = p) ∧
    ∀ id call routed, s.calls id = some call → s.flagged id = true → call.stage = .done routed →
      routed.state ≠ "read_by_agent" := by
  obtain ⟨hmanual, hwithheld⟩ : Manual s.node.connectionStore ∧ Withheld s := by
    refine hrun.invariant (P := fun s => Manual s.node.connectionStore ∧ Withheld s)
      ⟨hnode, fun _ _ hcall => by cases hcall⟩ ?_
    exact fun _ _ _ h _ hs => ⟨manual_step hs h.1, withheld_step hs h.1 h.2⟩
  refine ⟨hmanual, fun _ _ _ hs hp hp' => untripped_by hs hp hp', ?_⟩
  intro id call routed hcall hflag hdone
  obtain ⟨routed', hstage, hread⟩ := hwithheld id call hcall hflag
  obtain rfl := Stage.done.inj (hdone.symm.trans hstage)
  exact hread

theorem guardedNode_level {level : AutonomyLevel} {c : Connection}
    (h : (guardedNode level).connectionStore.getConnection p = some c) :
    c = guardedConnection level := by
  rw [guardedNode, ConnectionStore.getConnection_insert] at h
  split at h
  · exact (Option.some.inj h).symm
  · cases h

/-- The tool raises the level, and the message that comes next trips the breaker. -/
def raisedLevel : List SupervisionLabel :=
  [.setAutonomy 0 "a" .fullAuto false,
   .pinchAutonomy 0 none none ["--address", "a", "--confirmed", "--level", "full_auto"],
   .process 0 receivedMessage "a"]

def floodedLevel : List SupervisionLabel :=
  raisedLevel ++ List.replicate 3 (.resume 0 0 (some ⟨.allow, .high, ""⟩))

def afterFlood : Supervision :=
  (exec (step { floodThreshold := 1 }) (fun _ _ => True) (start (guardedNode .notify))
    floodedLevel).get (by decide +kernel)

theorem tripped_means_manual_flooded :
    isTripped afterFlood.node "a" = true ∧ afterFlood.flagged 0 = true ∧
    (∀ p c, afterFlood.node.connectionStore.getConnection p = some c →
      c.circuitBreakerTripped = some true → c.autonomyLevel = .fullManual) ∧
    (afterFlood.calls 0).map (·.stage) =
      some (.done (receivedMessage.routed "a" "escalated_to_human")) := by
  have hrun : Run (step { floodThreshold := 1 }) (fun _ _ => True) (start (guardedNode .notify))
      floodedLevel afterFlood := .of_exec (Option.some_get _).symm
  have hnode : Manual (guardedNode .notify).connectionStore := by
    intro p c hc hflag
    rw [guardedNode_level hc] at hflag
    cases hflag
  exact ⟨by decide +kernel, by decide +kernel, (tripped_means_manual hnode hrun).1,
    by decide +kernel⟩

/-- In `s` the record of `p` is at full auto. -/
def AtFullAuto (s : Supervision) (p : String) : Prop :=
  ∃ c, s.node.connectionStore.getConnection p = some c ∧ c.autonomyLevel = .fullAuto

theorem atFullAuto_iff : s.AtFullAuto p ↔ ∃ flag, s.level p = some (.fullAuto, flag) := by
  unfold AtFullAuto level ConnectionStore.level
  cases s.node.connectionStore.getConnection p <;> simp

theorem not_creates_of_call {call : AutonomyCall} (h : s.autonomyCall label = some call) :
    ¬ s.Creates p label := by
  cases label with
  | connection ctx event => cases h
  | _ => exact id

/-- A step that leaves a record at full auto has found it there, or is the confirmed call. -/
theorem fullAuto_step (hs : s.step config label = some t) (ht : t.AtFullAuto p) :
    s.AtFullAuto p ∧ ¬ s.Creates p label ∨ s.autonomyCall label = some ⟨p, .fullAuto, true⟩ := by
  obtain ⟨flag, hlevel⟩ := atFullAuto_iff.1 ht
  cases levelStep hs p with
  | kept heq hold => exact .inl ⟨atFullAuto_iff.2 ⟨flag, heq.symm.trans hlevel⟩, hold⟩
  | created _ heq => cases hlevel.symm.trans heq
  | set hcall hp gate heq =>
    rename_i call
    obtain ⟨address, level, confirmed⟩ := call
    obtain ⟨⟨before, tripped⟩, hv, hgate⟩ := gate
    obtain ⟨rfl, -⟩ := Prod.mk.inj (Option.some.inj (heq.symm.trans hlevel))
    rcases hgate rfl with rfl | hconfirmed
    · exact .inl ⟨atFullAuto_iff.2 ⟨tripped, hv⟩, not_creates_of_call hcall⟩
    · obtain rfl : confirmed = true := hconfirmed
      obtain rfl : address = p := hp
      exact .inr hcall
  | tripped heq => cases hlevel.symm.trans heq

/-- A record at full auto has been put there by a successful confirmed call, and since that call
it has been neither created anew nor at another level; a refused call changes nothing. -/
theorem full_auto_confirmed {node : Node} {l : List SupervisionLabel}
    (hnode : ∀ p c, node.connectionStore.getConnection p = some c → c.autonomyLevel ≠ .fullAuto)
    (hrun : Run (step config) (fun _ _ => True) (start node) l s) :
    (∀ p c, s.node.connectionStore.getConnection p = some c → c.autonomyLevel = .fullAuto →
      ∃ before label after s₁ s₂, l = before ++ label :: after ∧
        Run (step config) (fun _ _ => True) (start node) before s₁ ∧
        s₁.step config label = some s₂ ∧
        s₁.autonomyCall label = some ⟨p, .fullAuto, true⟩ ∧
        Run (step config) (fun t x => t.AtFullAuto p ∧ ¬ t.Creates p x) s₂ after s) ∧
    ∀ now p level confirmed e store,
      (ConnectionStore.setAutonomyInPlace now p level confirmed).run s.node.connectionStore =
        .error e store → store = s.node.connectionStore := by
  refine ⟨fun p c hc hlevel => ?_, fun now p level confirmed e store he => ?_⟩
  · have hauto : s.AtFullAuto p := ⟨c, hc, hlevel⟩
    clear hc hlevel
    induction hrun with
    | nil =>
      obtain ⟨c, hc, hlevel⟩ := hauto
      exact absurd hlevel (hnode p c hc)
    | @snoc l s t label hrun _ hs ih =>
      rcases fullAuto_step hs hauto with ⟨hbefore, hold⟩ | hcall
      · obtain ⟨before, label', after, s₁, s₂, rfl, hbefore', hs', hcall, hafter⟩ := ih hbefore
        exact ⟨before, label', after ++ [label], s₁, s₂, by simp, hbefore', hs', hcall,
          hafter.snoc ⟨hbefore, hold⟩ hs⟩
      · exact ⟨l, label, [], s, t, rfl, hrun, hs, hcall, .nil⟩
  · have hspec : Spec (· = s.node.connectionStore)
        (ConnectionStore.setAutonomyInPlace now p level confirmed) _ _ :=
      ConnectionStore.setAutonomyInPlace_spec p level confirmed
    exact (hspec.error rfl he).1

def afterRaise : Supervision :=
  (exec (step {}) (fun _ _ => True) (start (guardedNode .notify)) raisedLevel).get (by decide +kernel)

theorem full_auto_confirmed_raised : afterRaise.AtFullAuto "a" ∧
    ∃ before label after s₁, raisedLevel = before ++ label :: after ∧
      Run (step {}) (fun _ _ => True) (start (guardedNode .notify)) before s₁ ∧
      s₁.autonomyCall label = some ⟨"a", .fullAuto, true⟩ := by
  have hrun : Run (step {}) (fun _ _ => True) (start (guardedNode .notify)) raisedLevel afterRaise :=
    .of_exec (Option.some_get _).symm
  have hauto : afterRaise.AtFullAuto "a" :=
    ⟨_, (Option.some_get (by decide +kernel)).symm, by decide +kernel⟩
  have hnode : ∀ p c, (guardedNode .notify).connectionStore.getConnection p = some c →
      c.autonomyLevel ≠ .fullAuto := by
    intro p c hc
    rw [guardedNode_level hc]
    decide
  obtain ⟨c, hc, hlevel⟩ := hauto
  obtain ⟨before, label, after, s₁, -, hl, hbefore, -, hcall, -⟩ :=
    (full_auto_confirmed hnode hrun).1 "a" c hc hlevel
  exact ⟨⟨c, hc, hlevel⟩, before, label, after, s₁, hl, hbefore, hcall⟩

end Supervision

end Pinch
