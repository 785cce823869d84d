import Pinch.SignedYears
import Pinch.Supervision

/-! Requests that have expired. The expiry of a request is a text in its record; only
`expirePendingRequests` reads it, and compares it as a text. The calls that make a record active
do not look at it. -/

namespace Pinch

open CircuitBreaker ConnectionManager EnforcementPipeline Transition

def ConnectionState.Pending (st : ConnectionState) : Prop :=
  st = .pendingOutbound ∨ st = .pendingInbound

theorem ConnectionState.Pending.ne_active {st : ConnectionState} (h : st.Pending) :
    st ≠ .active := by
  rcases h with rfl | rfl <;> decide

theorem ConnectionState.Pending.ne_revoked {st : ConnectionState} (h : st.Pending) :
    st ≠ .revoked := by
  rcases h with rfl | rfl <;> decide

theorem RecordEffect.expiresAt_apply {effect : RecordEffect} {now : Int} {r : Option Connection}
    (h : ∀ new, effect ≠ .create new) :
    (effect.apply now r).map (·.expiresAt) = r.map (·.expiresAt) := by
  cases effect with
  | keep => rfl
  | create new => exact absurd rfl (h new)
  | update u => simp [RecordEffect.apply, ConnectionStore.assign, Function.comp_def]

namespace ConnectionStore

/-- The state of a record and its expiry. -/
def standing (s : ConnectionStore) : String → Option (ConnectionState × Option String) :=
  s.column fun c => (c.state, c.expiresAt)

variable {s : ConnectionStore} {v : String → Option (ConnectionState × Option String)} {now : Int}
  {p : String}

theorem standing_levelFree : LevelFree fun c => (c.state, c.expiresAt) where
  flag _ := rfl
  level _ _ _ := rfl
  policy _ _ _ := rfl

theorem standing_clearPassthroughFlags : s.clearPassthroughFlags.standing = s.standing := by
  refine column_mapRecords fun c => ?_
  unfold clearPassthrough
  split_ifs <;> rfl

theorem applySetting_standing {setting : Setting} :
    Keeps (fun s => s.standing = v) (applySetting now p setting) := by
  unfold applySetting
  cases setting with
  | permissions manifest =>
    simp only [Setting.updates]
    split
    · rename_i updates h
      split at h
      · obtain rfl := Except.ok.inj h
        exact updateInPlace_column fun _ => rfl
      · cases h
    · exact .throw fun _ h => h
  | _ => exact updateInPlace_column fun _ => rfl

theorem pinchAutonomy_standing {bootstrapError saveError : Option String} {args : List String} :
    Keeps (fun s => s.standing = v) (pinchAutonomy now bootstrapError saveError args) := by
  unfold pinchAutonomy
  cases parseArgs args with
  | error e => exact .throw fun _ h => h
  | ok parsed =>
    refine Spec.bind (R := fun _ s => s.standing = v)
      (.modify fun s h => standing_clearPassthroughFlags.trans h) fun _ => ?_
    exact Spec.bind (throwIf_keeps bootstrapError) fun _ => standing_levelFree.changeLevel

end ConnectionStore

namespace Supervision

variable {config : CircuitBreakerConfig} {s t : Supervision} {label : SupervisionLabel}
  {p : String} {c : Connection}

theorem standing_stable (v : String → Option (ConnectionState × Option String)) :
    Stable config fun n => n.connectionStore.standing = v := by
  refine Stable.of_connectionStore (Φ := fun store => store.standing = v) ?_
  intro now address type n n' hrec hv
  rw [← hv]
  funext q
  rw [ConnectionStore.standing, ConnectionStore.column, hrec.getConnection]
  split_ifs
  · simp [ConnectionStore.standing, ConnectionStore.column, Connection.afterTrip_eq,
      Function.comp_def]
  · rfl

/-- What one step does to the state and the expiry of records. -/
inductive StandingStep (s : Supervision) : SupervisionLabel → Supervision → Prop
  | kept {label : SupervisionLabel} {t : Supervision}
      (hlabel : ∀ ctx event, label ≠ .connection ctx event)
      (h : t.node.connectionStore.standing = s.node.connectionStore.standing) :
      StandingStep s label t
  | swept {now : Int} {t : Supervision}
      (h : t.node.connectionStore = s.node.connectionStore.expirePendingRequests now) :
      StandingStep s (.expirePendingRequests now) t
  | called {ctx : CallContext} {event : ConnectionEvent} {t : Supervision}
      (h : ∀ p, t.node.connectionStore.getConnection p =
        (event.effect ctx p ((s.node.connectionStore.getConnection p).map (·.state))).apply ctx.now
          (s.node.connectionStore.getConnection p)) :
      StandingStep s (.connection ctx event) t

theorem standingStep (hs : s.step config label = some t) : StandingStep s label t := by
  have hstable : Stable config _ := standing_stable s.node.connectionStore.standing
  cases label with
  | connection ctx event =>
    obtain rfl := Option.some.inj hs
    exact .called (getConnection_step ctx s.node.toAgent event)
  | setAutonomy now address level confirmed =>
    obtain rfl := Option.some.inj hs
    exact .kept (fun _ _ => SupervisionLabel.noConfusion)
      (ConnectionStore.standing_levelFree.setAutonomyInPlace.finalState rfl)
  | pinchAutonomy now bootstrapError saveError args =>
    obtain rfl := Option.some.inj hs
    exact .kept (fun _ _ => SupervisionLabel.noConfusion)
      (ConnectionStore.pinchAutonomy_standing.finalState rfl)
  | setting now address value =>
    obtain rfl := Option.some.inj hs
    exact .kept (fun _ _ => SupervisionLabel.noConfusion)
      (ConnectionStore.applySetting_standing.finalState rfl)
  | clearPassthroughFlags =>
    obtain rfl := Option.some.inj hs
    exact .kept (fun _ _ => SupervisionLabel.noConfusion)
      ConnectionStore.standing_clearPassthroughFlags
  | expirePendingRequests now =>
    obtain rfl := Option.some.inj hs
    exact .swept rfl
  | recordMessage now address =>
    obtain rfl := Option.some.inj hs
    exact .kept (fun _ _ => SupervisionLabel.noConfusion)
      ((hstable.recordEvent now address _).finalState rfl)
  | recordViolation now address type =>
    obtain rfl := Option.some.inj hs
    exact .kept (fun _ _ => SupervisionLabel.noConfusion)
      ((hstable.recordEvent now address type).finalState rfl)
  | process now message address =>
    obtain rfl := Option.some.inj hs
    exact .kept (fun _ _ => SupervisionLabel.noConfusion) (hstable.quiet.process.finalState rfl)
  | resume call now verdict =>
    obtain ⟨c, hc, rfl⟩ := Option.map_eq_some_iff.1 hs
    exact .kept (fun _ _ => SupervisionLabel.noConfusion)
      ((hstable.quiet.pipeline verdict c.stage).finalState rfl)
  | messages store =>
    obtain rfl := Option.some.inj hs
    exact .kept (fun _ _ => SupervisionLabel.noConfusion) rfl

section Activation

/-- The calls that make a pending record of `p` active. None of them looks at the expiry, and only
one of them at the state. -/
def Activates (p : String) (c : Connection) : SupervisionLabel → Prop
  | .connection ctx (.approveRequest q) =>
    q = p ∧ c.state = .pendingInbound ∧ ctx.own.isSome ∧ ctx.connected
  | .connection ctx (.unblockConnection q) => q = p ∧ ctx.own.isSome
  | .connection _ (.incoming e) => e.type = .connectionResponse ∧
      ∃ r, e.payload = .connectionResponse r ∧ r.fromAddress = p ∧ r.accepted = true
  | _ => False

theorem incoming_active_iff (hpending : c.state.Pending) (e : Envelope) (now : Int) :
    ((incomingEffect p e).apply now (some c)).map (·.state) = some .active ↔
      e.type = .connectionResponse ∧
        ∃ r, e.payload = .connectionResponse r ∧ r.fromAddress = p ∧ r.accepted = true := by
  have hne : c.state ≠ .active := hpending.ne_active
  cases e.kind with
  | ignored _ he =>
    rw [he p]
    refine iff_of_false (by simpa [RecordEffect.apply] using hne) ?_
    rintro ⟨ht, r, hp, hfrom, -⟩
    have hkeep := he p
    simp [incomingEffect, ht, hp, hfrom] at hkeep
  | request r ht hp =>
    simp only [incomingEffect, ht, hp]
    split_ifs
    · cases deadlineOf r.expiresAt <;>
        simp [RecordEffect.apply, hne, ConnectionStore.freshConnection, inboundRecord]
    · simp [RecordEffect.apply, hne]
  | response r ht hp =>
    simp only [incomingEffect, ht, hp]
    by_cases hfrom : r.fromAddress = p
    · by_cases haccepted : r.accepted = true <;>
        simp [hfrom, haccepted, RecordEffect.apply, ConnectionStore.assign, responseUpdate]
    · simp [hfrom, RecordEffect.apply, hne]
  | revoke r ht hp =>
    simp only [incomingEffect, ht, hp]
    split_ifs <;> simp [RecordEffect.apply, hne, ConnectionStore.assign]

theorem expirePending_ne_active (hpending : c.state.Pending) (now : Int) :
    (ConnectionStore.expirePending now c).state ≠ .active := by
  unfold ConnectionStore.expirePending
  split
  · split_ifs
    · exact ConnectionState.noConfusion
    · exact hpending.ne_active
  · exact hpending.ne_active

/-- Which steps make a pending record active, at any time of the clock. -/
theorem active_step_iff (hs : s.step config label = some t)
    (hc : s.node.connectionStore.getConnection p = some c) (hpending : c.state.Pending) :
    (t.node.connectionStore.getConnection p).map (·.state) = some .active ↔
      Activates p c label := by
  have hne : c.state ≠ .active := hpending.ne_active
  cases standingStep hs with
  | kept hlabel h =>
    have hstate := congrArg (Option.map Prod.fst) (congrFun h p)
    simp only [ConnectionStore.standing, ConnectionStore.column, Option.map_map, Function.comp_def,
      hc, Option.map_some] at hstate
    rw [hstate]
    refine iff_of_false (by simpa using hne) fun hactivates => ?_
    cases label with
    | connection ctx event => exact hlabel ctx event rfl
    | _ => exact hactivates
  | swept h =>
    rw [h, ConnectionStore.expirePendingRequests, ConnectionStore.getConnection_mapRecords, hc]
    exact iff_of_false (by simpa using expirePending_ne_active hpending _) id
  | called h =>
    rename_i ctx event
    rw [h p, hc]
    cases event with
    | incoming e => exact incoming_active_iff hpending e ctx.now
    | sendRequest toAddress message =>
      refine iff_of_false ?_ id
      simp only [ConnectionEvent.effect]
      split_ifs
      · cases toISOString (requestExpiry ctx.now * 1000) <;>
          simp [RecordEffect.apply, hne, ConnectionStore.freshConnection, outboundRecord]
      · simpa [RecordEffect.apply] using hne
    | approveRequest q =>
      simp only [ConnectionEvent.effect, Activates, Option.map_some, Option.some.injEq]
      split_ifs with hq <;> simp [RecordEffect.apply, ConnectionStore.assign, hne, hq]
    | unblockConnection q =>
      simp only [ConnectionEvent.effect, Activates]
      split_ifs with hq <;> simp [RecordEffect.apply, ConnectionStore.assign, hne, hq]
    | _ =>
      refine iff_of_false ?_ id
      simp only [ConnectionEvent.effect]
      split_ifs <;> simp [RecordEffect.apply, ConnectionStore.assign, hne]

end Activation

section Deadline

/-- What a request with the given seconds leaves as the expiry of its record. A peer that sends 0
is taken to have sent none. -/
inductive ExpiryText (secs : Int) (text : Option String) : Prop
  | instant (h : ValidTime (secs * 1000)) (htext : text = some (isoString (secs * 1000)))
  | unset (h : secs = 0) (htext : text = none)

/-- The seconds of the request for which a step writes a record of `p`. -/
def requestedExpiry (p : String) : SupervisionLabel → Option Int
  | .connection ctx (.sendRequest toAddress message) =>
    if toAddress = p ∧ utf16Length message ≤ 280 ∧ ctx.own.isSome ∧ ctx.connected ∧
        ValidTime (requestExpiry ctx.now * 1000) then
      some (requestExpiry ctx.now)
    else none
  | .connection _ (.incoming e) =>
    match e.type, e.payload with
    | .connectionRequest, .connectionRequest r =>
      if r.fromAddress = p ∧ utf16Length r.message ≤ 280 ∧ ValidTime (r.expiresAt * 1000) then
        some r.expiresAt
      else none
    | _, _ => none
  | _ => none

def expiry (s : Supervision) (p : String) : Option (Option String) :=
  (s.node.connectionStore.getConnection p).map (·.expiresAt)

theorem toISOString_eq (ms : Int) :
    toISOString ms = if ValidTime ms then some (isoString ms) else none :=
  rfl

theorem deadlineOf_valid {secs : Int} (h : ValidTime (secs * 1000)) :
    ∃ text, deadlineOf secs = some text ∧ ExpiryText secs text := by
  unfold deadlineOf
  split_ifs with hzero
  · exact ⟨none, rfl, .unset hzero rfl⟩
  · exact ⟨_, by rw [toISOString_eq, if_pos h]; rfl, .instant h rfl⟩

theorem deadlineOf_invalid {secs : Int} (h : ¬ ValidTime (secs * 1000)) :
    deadlineOf secs = none := by
  have hzero : secs ≠ 0 := by
    rintro rfl
    exact h (by decide)
  rw [deadlineOf, if_neg hzero, toISOString_eq, if_neg h]
  rfl

/-- A step writes the expiry of the request it is given, or leaves the expiry alone. -/
inductive ExpiryStep (s : Supervision) (label : SupervisionLabel) (p : String) (t : Supervision) :
    Prop
  | requested {secs : Int} {text : Option String} (hlabel : requestedExpiry p label = some secs)
      (h : t.expiry p = some text) (htext : ExpiryText secs text)
  | kept (hlabel : requestedExpiry p label = none) (h : t.expiry p = s.expiry p)

theorem expiryStep_sendRequest {ctx : CallContext} {toAddress message : String}
    {st : Option ConnectionState}
    (h : t.expiry p = (((ConnectionEvent.sendRequest toAddress message).effect ctx p st).apply
      ctx.now (s.node.connectionStore.getConnection p)).map (·.expiresAt)) :
    ExpiryStep s (.connection ctx (.sendRequest toAddress message)) p t := by
  by_cases hsent : toAddress = p ∧ utf16Length message ≤ 280 ∧ ctx.own.isSome ∧ ctx.connected
  · simp only [ConnectionEvent.effect, if_pos hsent, toISOString_eq] at h
    by_cases hvalid : ValidTime (requestExpiry ctx.now * 1000)
    · rw [if_pos hvalid] at h
      exact .requested (by simp [requestedExpiry, hsent, hvalid]) h (.instant hvalid rfl)
    · rw [if_neg hvalid] at h
      exact .kept (by simp [requestedExpiry, hvalid]) h
  · simp only [ConnectionEvent.effect, if_neg hsent] at h
    refine .kept (if_neg fun hall => hsent ?_) h
    exact ⟨hall.1, hall.2.1, hall.2.2.1, hall.2.2.2.1⟩

theorem expiryStep_incoming {ctx : CallContext} {e : Envelope} {st : Option ConnectionState}
    (h : t.expiry p = (((ConnectionEvent.incoming e).effect ctx p st).apply ctx.now
      (s.node.connectionStore.getConnection p)).map (·.expiresAt)) :
    ExpiryStep s (.connection ctx (.incoming e)) p t := by
  by_cases hrequest : ∃ r, e.type = .connectionRequest ∧ e.payload = .connectionRequest r
  · obtain ⟨r, ht, hp⟩ := hrequest
    by_cases hr : r.fromAddress = p ∧ utf16Length r.message ≤ 280
    · simp only [ConnectionEvent.effect, incomingEffect, ht, hp, if_pos hr] at h
      by_cases hvalid : ValidTime (r.expiresAt * 1000)
      · obtain ⟨text, hdeadline, htext⟩ := deadlineOf_valid hvalid
        rw [hdeadline] at h
        exact .requested (by simp [requestedExpiry, ht, hp, hr, hvalid]) h htext
      · rw [deadlineOf_invalid hvalid] at h
        exact .kept (by simp [requestedExpiry, ht, hp, hvalid]) h
    · simp only [ConnectionEvent.effect, incomingEffect, ht, hp, if_neg hr] at h
      refine .kept ?_ h
      simp only [requestedExpiry, ht, hp]
      exact if_neg fun hall => hr ⟨hall.1, hall.2.1⟩
  · refine .kept ?_ (h.trans (RecordEffect.expiresAt_apply fun new hnew => ?_))
    · simp only [requestedExpiry]
      split
      · rename_i r ht hp
        exact absurd ⟨r, ht, hp⟩ hrequest
      · rfl
    · have hcase := hnew ▸ ConnectionEvent.effect_case ctx p st (.incoming e)
      cases hcase with
      | request _ r _ ht hp => exact hrequest ⟨r, ht, hp⟩

theorem expiresAt_expirePending (now : Int) (c : Connection) :
    (ConnectionStore.expirePending now c).expiresAt = c.expiresAt := by
  unfold ConnectionStore.expirePending
  split
  · split_ifs <;> rfl
  · rfl

theorem expiryStep (hs : s.step config label = some t) (p : String) : ExpiryStep s label p t := by
  cases standingStep hs with
  | kept hlabel h =>
    have hexpiry := congrArg (Option.map Prod.snd) (congrFun h p)
    simp only [ConnectionStore.standing, ConnectionStore.column, Option.map_map,
      Function.comp_def] at hexpiry
    refine .kept ?_ hexpiry
    cases label with
    | connection ctx event => exact absurd rfl (hlabel ctx event)
    | _ => rfl
  | swept h =>
    refine .kept rfl ?_
    simp only [expiry, h, ConnectionStore.expirePendingRequests,
      ConnectionStore.getConnection_mapRecords, Option.map_map, Function.comp_def,
      expiresAt_expirePending]
  | called h =>
    have hexpiry := congrArg (Option.map (·.expiresAt)) (h p)
    rename_i ctx event
    cases event with
    | sendRequest toAddress message => exact expiryStep_sendRequest hexpiry
    | incoming e => exact expiryStep_incoming hexpiry
    | _ =>
      refine .kept rfl (hexpiry.trans (RecordEffect.expiresAt_apply fun new => ?_))
      simp only [ConnectionEvent.effect]
      split_ifs <;> exact RecordEffect.noConfusion

/-- The seconds of the last request for `p` in a run, and `due` where there was none. -/
def lastRequested (due : String → Option Int) (l : List SupervisionLabel) (p : String) :
    Option Int :=
  l.foldl (fun secs label => (requestedExpiry p label).or secs) (due p)

/-- The expiry of every record is the one of its request. -/
def Dated (due : String → Option Int) (s : Supervision) : Prop :=
  ∀ p text, s.expiry p = some text → ∃ secs, due p = some secs ∧ ExpiryText secs text

theorem Dated.run {due : String → Option Int} {l : List SupervisionLabel} (h : Dated due s)
    (hrun : Run (step config) (fun _ _ => True) s l t) : Dated (lastRequested due l) t := by
  induction hrun with
  | nil => exact h
  | snoc _ _ hs ih =>
    intro p text htext
    simp only [lastRequested, List.foldl_append, List.foldl_cons, List.foldl_nil]
    cases expiryStep hs p with
    | requested hlabel hwritten hsecs =>
      obtain rfl := Option.some.inj (hwritten.symm.trans htext)
      exact ⟨_, by rw [hlabel]; rfl, hsecs⟩
    | kept hlabel heq =>
      rw [hlabel]
      exact ih p text (heq.symm.trans htext)

end Deadline

section Sweep

variable {now secs : Int}

theorem isoString_ne_empty (ms : Int) : isoString ms ≠ "" := by
  intro h
  have hlist := toList_isoString_year ms
  rw [h] at hlist
  simp at hlist

theorem expirePending_revoked_iff {text : String} (htext : c.expiresAt = some text)
    (hpending : c.state.Pending) :
    (ConnectionStore.expirePending now c).state = .revoked ↔
      text ≠ "" ∧ text < isoString now := by
  simp only [ConnectionStore.expirePending, htext]
  split_ifs with h
  · exact iff_of_true rfl h.2
  · exact iff_of_false hpending.ne_revoked fun hlt => h ⟨hpending, hlt⟩

theorem expirePending_of_none (h : c.expiresAt = none) :
    ConnectionStore.expirePending now c = c := by
  simp only [ConnectionStore.expirePending, h]

theorem expirePending_of_not_pending (hpending : ¬ c.state.Pending) :
    ConnectionStore.expirePending now c = c := by
  unfold ConnectionStore.expirePending
  split
  · exact if_neg fun h => hpending h.1
  · rfl

/-- When the sweep at `now` decides by the instant of the request. -/
def SweepSorts (secs : Int) (expiresAt : Option String) (now : Int) : Prop :=
  match expiresAt with
  | some _ => TextsSort (secs * 1000) now
  | none => now ≤ 0

theorem ExpiryText.sweep_iff (h : ExpiryText secs c.expiresAt) (hpending : c.state.Pending)
    (hnow : ValidTime now) :
    ((ConnectionStore.expirePending now c).state = .revoked ↔ secs * 1000 < now) ↔
      SweepSorts secs c.expiresAt now := by
  cases h with
  | instant h htext =>
    rw [expirePending_revoked_iff htext hpending, and_iff_right (isoString_ne_empty _), htext]
    exact isoString_sorts_iff h hnow
  | unset h htext =>
    rw [expirePending_of_none htext, iff_false_left hpending.ne_revoked, htext, SweepSorts]
    omega

end Sweep

/-- A pending record of a run is made active by three calls and by no other step. The time of the
step does not enter, so a step later than the expiry leaves the record pending or revoked exactly
if it is none of them. And a sweep revokes it when the instant of its last request has passed, and
only then, if and only if their texts sort like the instants. A record without an expiry is never
swept. -/
theorem expired_requests_iff {node : Node} {due : String → Option Int} {l : List SupervisionLabel}
    (hnode : Dated due (start node)) (hrun : Run (step config) (fun _ _ => True) (start node) l s)
    (hc : s.node.connectionStore.getConnection p = some c) :
    (c.state.Pending → ∀ label t, s.step config label = some t →
      ((t.node.connectionStore.getConnection p).map (·.state) = some .active ↔
        Activates p c label)) ∧
    ∃ secs, lastRequested due l p = some secs ∧ ∀ now t, ValidTime now →
      s.step config (.expirePendingRequests now) = some t →
      (¬ c.state.Pending → t.node.connectionStore.getConnection p = some c) ∧
      (c.state.Pending →
        (((t.node.connectionStore.getConnection p).map (·.state) = some .revoked ↔
          secs * 1000 < now) ↔ SweepSorts secs c.expiresAt now)) := by
  refine ⟨fun hpending label t hs => active_step_iff hs hc hpending, ?_⟩
  obtain ⟨secs, hsecs, htext⟩ := hnode.run hrun p c.expiresAt (by rw [expiry, hc]; rfl)
  refine ⟨secs, hsecs, fun now t hnow hs => ?_⟩
  have hswept : t.node.connectionStore.getConnection p =
      some (ConnectionStore.expirePending now c) := by
    obtain rfl := Option.some.inj hs
    exact (ConnectionStore.getConnection_mapRecords _ _ _).trans (by rw [hc]; rfl)
  rw [hswept]
  constructor
  · intro hpending
    rw [expirePending_of_not_pending hpending]
  · intro hpending
    rw [Option.map_some, Option.some.injEq]
    exact htext.sweep_iff hpending hnow

def newNode : Node where
  connectionStore := ∅
  outbox := []
  messageStore := ⟨[], List.nodup_nil⟩
  breakerEvents := ∅
  activityFeed := []
  flush := ⟨-1, false, false⟩

theorem newNode_dated : Dated (fun _ => none) (start newNode) := by
  intro p text h
  have hnone : (start newNode).expiry p = none := rfl
  cases hnone.symm.trans h

def clockAt (now : Int) : CallContext := ⟨some "alice", true, none, now, none⟩

/-- The request of a peer that gives the expiry in seconds. -/
def requestUntil (secs : Int) : SupervisionLabel :=
  .connection (clockAt 0) (.incoming
    { type := .connectionRequest
      payload := .connectionRequest ⟨"bob", "alice", "hi", [], secs⟩ })

def requestAt (now : Int) : SupervisionLabel :=
  .connection (clockAt now) (.sendRequest "bob" "hi")

def approvalAt (now : Int) : SupervisionLabel :=
  .connection (clockAt now) (.approveRequest "bob")

def acceptanceAt (now : Int) : SupervisionLabel :=
  .connection (clockAt now) (.incoming
    { type := .connectionResponse
      payload := .connectionResponse ⟨"bob", "alice", true, []⟩ })

/-- A run of a new agent with these labels leaves the record of the peer in the state. -/
def Leaves (l : List SupervisionLabel) (st : ConnectionState) : Prop :=
  ∃ s, Run (step {}) (fun _ _ => True) (start newNode) l s ∧
    (s.node.connectionStore.getConnection "bob").map (·.state) = some st

theorem Leaves.of_exec {l : List SupervisionLabel} {st : ConnectionState}
    (h : (exec (step {}) (fun _ _ => True) (start newNode) l).bind (fun s =>
      (s.node.connectionStore.getConnection "bob").map (·.state)) = some st) : Leaves l st := by
  obtain ⟨s, hs, hstate⟩ := Option.bind_eq_some_iff.1 h
  exact ⟨s, Run.of_exec hs, hstate⟩

theorem expired_requests_iff_next_second : ∃ s t,
    Run (step {}) (fun _ _ => True) (start newNode) [requestUntil 1] s ∧
    s.step {} (.expirePendingRequests 1001) = some t ∧
    ((t.node.connectionStore.getConnection "bob").map (·.state) = some .revoked ↔
      1 * 1000 < (1001 : Int)) := by
  have hexec : (exec (step {}) (fun _ _ => True) (start newNode) [requestUntil 1]).bind (fun s =>
      (s.node.connectionStore.getConnection "bob").map fun c => (c.state, c.expiresAt)) =
      some (.pendingInbound, some "1970-01-01T00:00:01.000Z") := by
    decide +kernel
  obtain ⟨s, hs, hbob⟩ := Option.bind_eq_some_iff.1 hexec
  obtain ⟨c, hc, hfields⟩ := Option.map_eq_some_iff.1 hbob
  obtain ⟨hstate, hexpiry⟩ := Prod.mk.inj hfields
  have hrun := Run.of_exec hs
  obtain ⟨-, secs, hsecs, hsweep⟩ := expired_requests_iff newNode_dated hrun hc
  have hlast : lastRequested (fun _ => none) [requestUntil 1] "bob" = some 1 := by decide +kernel
  obtain rfl : secs = 1 := Option.some.inj (hsecs.symm.trans hlast)
  refine ⟨s, _, hrun, rfl, ((hsweep 1001 _ (by decide) rfl).2 (.inr hstate)).2 ?_⟩
  rw [hexpiry]
  exact FourDigitYear.textsSort (by decide +kernel) (by decide +kernel)

/-- A request is approved and another one accepted after it has expired. A sweep at the epoch
revokes a request that runs to the year 10000, and no sweep revokes one that gives 0. -/
theorem expired_request_approved :
    Leaves [requestUntil 1] .pendingInbound ∧ 1 * 1000 < (1001 : Int) ∧
    Leaves [requestUntil 1, approvalAt 1001] .active ∧
    Leaves [requestAt 0] .pendingOutbound ∧ requestExpiry 0 * 1000 < 604800001 ∧
    Leaves [requestAt 0, acceptanceAt 604800001] .active ∧
    Leaves [requestUntil 253402300800] .pendingInbound ∧ ¬ 253402300800 * 1000 < (0 : Int) ∧
    Leaves [requestUntil 253402300800, .expirePendingRequests 0] .revoked ∧
    Leaves [requestUntil 0] .pendingInbound ∧ 0 * 1000 < (1 : Int) ∧
    Leaves [requestUntil 0, .expirePendingRequests 1] .pendingInbound := by
  refine ⟨.of_exec ?_, ?_, .of_exec ?_, .of_exec ?_, ?_, .of_exec ?_, .of_exec ?_, ?_, .of_exec ?_,
    .of_exec ?_, ?_, .of_exec ?_⟩ <;> decide +kernel

end Supervision

end Pinch
