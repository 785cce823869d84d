import Pinch.ConnectionStore
import Pinch.StateSpec

/-! The operations that change autonomy levels and the other settings of a record, on the
records in memory. An operation that throws leaves what it has written. -/

namespace Pinch

abbrev StoreOp := EStateM String ConnectionStore

def throwIf : Option String → StoreOp Unit
  | some e => throw e
  | none => pure ()

def AutonomyLevel.name : AutonomyLevel → String
  | fullManual => "full_manual"
  | notify => "notify"
  | autoRespond => "auto_respond"
  | fullAuto => "full_auto"

def validLevels : List AutonomyLevel := [.fullManual, .notify, .autoRespond, .fullAuto]

def AutonomyLevel.parse (level : String) : Option AutonomyLevel :=
  validLevels.find? (·.name = level)

namespace ConnectionStore

def setRecord (p : String) (c : Connection) : StoreOp Unit := modify (·.insert p c)

def updateInPlace (now : Int) (p : String) (updates : ConnectionUpdates) : StoreOp Unit := do
  match (← get).getConnection p with
  | none => throw ("connection not found: " ++ p)
  | some conn => setRecord p (assign conn updates now)

/-- `setAutonomy` with its writes one by one: the flag is cleared in the record itself. -/
def setAutonomyInPlace (now : Int) (p : String) (level : AutonomyLevel) (confirmed : Bool) :
    StoreOp Unit := do
  match (← get).getConnection p with
  | none => throw ("connection not found: " ++ p)
  | some conn =>
    if level = .fullAuto ∧ conn.autonomyLevel ≠ .fullAuto ∧ confirmed ≠ true then
      throw "Upgrading to Full Auto requires explicit confirmation"
    else
      setRecord p (if conn.circuitBreakerTripped = some true then
        { conn with circuitBreakerTripped := some false } else conn)
      updateInPlace now p { autonomyLevel := some level }

/-- The updates that the tools and the store's setters make besides the level. -/
inductive Setting
  | nickname (text : String)
  | permissions (manifest : PermissionsManifest)
  | muted (value : Bool)
  | passthrough (value : Bool)

def Setting.updates : Setting → Except String ConnectionUpdates
  | .nickname text => .ok { nickname := some text }
  | .permissions manifest =>
    match validateManifest manifest with
    | [] => .ok { permissionsManifest := some manifest }
    | errors => .error ("Invalid permissions manifest: " ++ "; ".intercalate errors)
  | .muted value => .ok { muted := some value }
  | .passthrough value => .ok { passthrough := some value }

def applySetting (now : Int) (p : String) (setting : Setting) : StoreOp Unit :=
  match setting.updates with
  | .ok updates => updateInPlace now p updates
  | .error e => throw e

def mapRecords (s : ConnectionStore) (f : Connection → Connection) : ConnectionStore :=
  ⟨s.entries.map (.map id fun _ => f), s.nodupKeys.map₂ _ _⟩

def clearPassthrough (c : Connection) : Connection :=
  if c.passthrough = some true then { c with passthrough := some false } else c

def clearPassthroughFlags (s : ConnectionStore) : ConnectionStore := s.mapRecords clearPassthrough

/-- ISO texts of one format are compared as texts. -/
def expirePending (now : Int) (c : Connection) : Connection :=
  match c.expiresAt with
  | some expiresAt =>
    if (c.state = .pendingOutbound ∨ c.state = .pendingInbound) ∧ expiresAt ≠ "" ∧
        expiresAt < isoString now then
      { c with state := .revoked, lastActivity := isoString now }
    else c
  | none => c

def expirePendingRequests (s : ConnectionStore) (now : Int) : ConnectionStore :=
  s.mapRecords (expirePending now)

theorem getConnection_mapRecords (s : ConnectionStore) (f : Connection → Connection) (p : String) :
    (s.mapRecords f).getConnection p = (s.getConnection p).map f :=
  List.dlookup_map₂ p

theorem run_setAutonomyInPlace (s : ConnectionStore) (now : Int) (p : String)
    (level : AutonomyLevel) (confirmed : Bool) :
    (setAutonomyInPlace now p level confirmed).run s =
      match s.setAutonomy now p level confirmed with
      | .ok t => .ok () t
      | .error e => .error e s := by
  unfold setAutonomyInPlace setAutonomy
  cases hc : s.getConnection p with
  | none => simp [hc]
  | some conn =>
    by_cases hgate : level = .fullAuto ∧ conn.autonomyLevel ≠ .fullAuto ∧ confirmed ≠ true
    · simp [hc, hgate]
    · simp only [EStateM.run_bind, EStateM.run_get, hc, if_neg hgate, setRecord, updateInPlace,
        updateConnection, EStateM.run_modify, getConnection_insert, if_true]

end ConnectionStore

structure AutonomyArgs where
  address : String := ""
  level : String := ""
  confirmed : Bool := false
  policy : Option String := none
  deriving DecidableEq

/-- The loop of `parseArgs`: a flag takes the argument after it, whatever that is, and anything
else is skipped. -/
def scanArgs (parsed : AutonomyArgs) : List String → AutonomyArgs
  | [] => parsed
  | ["--address"] => { parsed with address := "" }
  | "--address" :: value :: rest => scanArgs { parsed with address := value } rest
  | ["--level"] => { parsed with level := "" }
  | "--level" :: value :: rest => scanArgs { parsed with level := value } rest
  | "--confirmed" :: rest => scanArgs { parsed with confirmed := true } rest
  | ["--policy"] => { parsed with policy := none }
  | "--policy" :: value :: rest => scanArgs { parsed with policy := some value } rest
  | _ :: rest => scanArgs parsed rest

structure AutonomyRequest where
  address : String
  level : AutonomyLevel
  confirmed : Bool
  policy : Option String
  deriving DecidableEq

def parseArgs (args : List String) : Except String AutonomyRequest :=
  let parsed := scanArgs {} args
  if parsed.address = "" then .error "--address is required"
  else if parsed.level = "" then .error "--level is required"
  else match AutonomyLevel.parse parsed.level with
    | none => .error ("Invalid --level: \"" ++ parsed.level ++ "\". Must be one of: " ++
        ", ".intercalate (validLevels.map AutonomyLevel.name))
    | some level => .ok ⟨parsed.address, level, parsed.confirmed, parsed.policy⟩

inductive AutonomyReply
  | failed (error : String)
  | changed (address : String) (previousLevel newLevel : AutonomyLevel) (policy : Option String)
  deriving DecidableEq

def storePolicy (now : Int) (parsed : AutonomyRequest) : StoreOp Unit :=
  match parsed.policy.filter (· ≠ "") with
  | some policy =>
    if parsed.level = .autoRespond then
      ConnectionStore.updateInPlace now parsed.address { autoRespondPolicy := some policy }
    else pure ()
  | none => pure ()

/-- The tool `pinch-autonomy` once it has started. -/
def changeLevel (now : Int) (saveError : Option String) (parsed : AutonomyRequest) :
    StoreOp AutonomyReply := do
  match (← get).getConnection parsed.address with
  | none => return .failed ("Connection not found: " ++ parsed.address)
  | some connection =>
    if parsed.level = .fullAuto ∧ connection.autonomyLevel ≠ .fullAuto ∧
        parsed.confirmed = false then
      return .failed ("Upgrading to full_auto requires --confirmed flag. This gives the agent " ++
        "full autonomy over this connection.")
    else
      ConnectionStore.setAutonomyInPlace now parsed.address parsed.level parsed.confirmed
      storePolicy now parsed
      throwIf saveError
      return .changed parsed.address connection.autonomyLevel parsed.level
        (parsed.policy.filter (· ≠ ""))

/-- `run` of the tool. The two errors are those of `bootstrap`, which first clears the
passthrough flags, and of writing the store at the end. -/
def pinchAutonomy (now : Int) (bootstrapError saveError : Option String) (args : List String) :
    StoreOp AutonomyReply :=
  match parseArgs args with
  | .error e => throw e
  | .ok parsed => do
    modify ConnectionStore.clearPassthroughFlags
    throwIf bootstrapError
    changeLevel now saveError parsed

/-- A successful call of `setAutonomy`: the record, the level and the confirmation. -/
structure AutonomyCall where
  address : String
  level : AutonomyLevel
  confirmed : Bool
  deriving DecidableEq

namespace ConnectionStore

def autonomyCall (s : ConnectionStore) (now : Int) (p : String) (level : AutonomyLevel)
    (confirmed : Bool) : Option AutonomyCall :=
  match s.setAutonomy now p level confirmed with
  | .ok _ => some ⟨p, level, confirmed⟩
  | .error _ => none

/-- The call that the tool makes. -/
def toolCall (s : ConnectionStore) (now : Int) (bootstrapError : Option String)
    (args : List String) : Option AutonomyCall :=
  match parseArgs args, bootstrapError with
  | .ok parsed, none =>
    s.clearPassthroughFlags.autonomyCall now parsed.address parsed.level parsed.confirmed
  | _, _ => none

/-- The level of a record, and whether the breaker has tripped it. -/
def level (s : ConnectionStore) (p : String) : Option (AutonomyLevel × Bool) :=
  (s.getConnection p).map fun c => (c.autonomyLevel, decide (c.circuitBreakerTripped = some true))

/-- What an operation does to levels and flags, given the call of `setAutonomy` it has made. -/
inductive Changed (s : ConnectionStore) : Option AutonomyCall → ConnectionStore → Prop
  | same {t : ConnectionStore} (h : ∀ q, t.level q = s.level q) : Changed s none t
  | set {t : ConnectionStore} {call : AutonomyCall}
      (gate : ∃ v, s.level call.address = some v ∧
        (call.level = .fullAuto → v.1 = .fullAuto ∨ call.confirmed = true))
      (own : t.level call.address = some (call.level, false))
      (others : ∀ q, q ≠ call.address → t.level q = s.level q) : Changed s (some call) t

variable {s t u : ConnectionStore} {call : Option AutonomyCall} {now : Int} {p : String}

theorem Changed.after (h : Changed s call t) (hu : ∀ q, u.level q = t.level q) :
    Changed s call u := by
  cases h with
  | same h => exact .same fun q => (hu q).trans (h q)
  | set gate own others =>
    exact .set gate ((hu _).trans own) fun q hq => (hu q).trans (others q hq)

theorem Changed.before (h : Changed t call u) (ht : ∀ q, t.level q = s.level q) :
    Changed s call u := by
  cases h with
  | same h => exact .same fun q => (h q).trans (ht q)
  | set gate own others =>
    exact .set (ht _ ▸ gate) own fun q hq => (others q hq).trans (ht q)

theorem level_insert {c : Connection} (q : String) : level (s.insert p c) q =
    if p = q then some (c.autonomyLevel, decide (c.circuitBreakerTripped = some true))
    else s.level q := by
  rw [level, getConnection_insert]
  split <;> rfl

theorem level_mapRecords {f : Connection → Connection} (q : String)
    (hlevel : ∀ c, (f c).autonomyLevel = c.autonomyLevel)
    (hflag : ∀ c, (f c).circuitBreakerTripped = c.circuitBreakerTripped) :
    (s.mapRecords f).level q = s.level q := by
  simp only [level, getConnection_mapRecords, Option.map_map, Function.comp_def, hlevel, hflag]

theorem level_clearPassthroughFlags (q : String) : s.clearPassthroughFlags.level q = s.level q := by
  refine level_mapRecords q (fun c => ?_) fun c => ?_
  · unfold clearPassthrough
    split <;> rfl
  · unfold clearPassthrough
    split <;> rfl

theorem level_expirePendingRequests (q : String) :
    (s.expirePendingRequests now).level q = s.level q := by
  refine level_mapRecords q (fun c => ?_) fun c => ?_
  · unfold expirePending
    split
    · split <;> rfl
    · rfl
  · unfold expirePending
    split
    · split <;> rfl
    · rfl

theorem setAutonomy_changed {level : AutonomyLevel} {confirmed : Bool}
    (h : s.setAutonomy now p level confirmed = .ok t) :
    Changed s (some ⟨p, level, confirmed⟩) t := by
  unfold setAutonomy at h
  cases hc : s.getConnection p with
  | none => simp [hc] at h
  | some c =>
    simp only [hc] at h
    split at h
    · cases h
    · rename_i hgate
      simp only [updateConnection, getConnection_insert, if_true] at h
      obtain rfl := Except.ok.inj h
      refine .set ⟨_, by rw [ConnectionStore.level, hc]; rfl, fun hlevel => ?_⟩ ?_ fun q hq => ?_
      · by_contra hno
        obtain ⟨hne, hconfirmed⟩ := not_or.1 hno
        exact hgate ⟨hlevel, hne, hconfirmed⟩
      · rw [level_insert, if_pos rfl]
        split
        · simp [assign]
        · rename_i hflag
          simp [assign, hflag]
      · simp [level_insert, Ne.symm hq]

theorem setAutonomyInPlace_spec (p : String) (level : AutonomyLevel) (confirmed : Bool) :
    Spec (· = s) (setAutonomyInPlace now p level confirmed)
      (fun _ t => Changed s (s.autonomyCall now p level confirmed) t)
      (fun _ t => t = s ∧ s.autonomyCall now p level confirmed = none) := by
  rintro _ rfl
  rename_i s
  rw [run_setAutonomyInPlace, autonomyCall]
  cases h : s.setAutonomy now p level confirmed with
  | ok t => exact setAutonomy_changed h
  | error e => exact ⟨rfl, rfl⟩

/-- An update that names neither the level nor the flag. -/
theorem updateInPlace_spec (p : String) {updates : ConnectionUpdates}
    (hlevel : updates.autonomyLevel = none) (hflag : updates.circuitBreakerTripped = none) :
    Spec (· = s) (updateInPlace now p updates) (fun _ t => ∀ q, t.level q = s.level q)
      (fun _ t => t = s) := by
  refine Spec.get_bind fun s' => ?_
  cases hc : s'.getConnection p with
  | none => exact .throw fun _ h => h.2
  | some c =>
    refine .modify ?_
    rintro _ ⟨rfl, rfl⟩ q
    rw [level_insert]
    split
    · rename_i hq
      subst hq
      simp [level, hc, assign, hlevel, hflag]
    · rfl

theorem applySetting_spec (p : String) (setting : Setting) :
    Spec (· = s) (applySetting now p setting) (fun _ t => ∀ q, t.level q = s.level q)
      (fun _ t => t = s) := by
  unfold applySetting
  cases setting with
  | permissions manifest =>
    simp only [Setting.updates]
    split
    · rename_i updates h
      split at h
      · obtain rfl := Except.ok.inj h
        exact updateInPlace_spec p rfl rfl
      · cases h
    · exact .throw fun _ h => h
  | _ => exact updateInPlace_spec p rfl rfl

theorem throwIf_keeps {P : ConnectionStore → Prop} (e : Option String) : Keeps P (throwIf e) := by
  cases e with
  | none => exact .pure fun _ h => h
  | some e => exact .throw fun _ h => h

theorem storePolicy_keeps (parsed : AutonomyRequest) :
    Keeps (Changed s call) (storePolicy now parsed) := by
  unfold storePolicy
  split
  · rename_i policy _
    split
    · intro t ht
      have hspec : Spec (· = t)
          (updateInPlace now parsed.address { autoRespondPolicy := some policy }) _ _ :=
        updateInPlace_spec parsed.address rfl rfl
      exact hspec.conseq (Q := fun _ => Changed s call) (E := fun _ => Changed s call)
        (fun _ h => h) (fun _ _ h => ht.after h) (fun _ _ h => h ▸ ht) t rfl
    · exact .pure fun _ h => h
  · exact .pure fun _ h => h

theorem changeLevel_spec (saveError : Option String) (parsed : AutonomyRequest) :
    Spec (· = s) (changeLevel now saveError parsed)
      (fun _ => Changed s (s.autonomyCall now parsed.address parsed.level parsed.confirmed))
      (fun _ => Changed s (s.autonomyCall now parsed.address parsed.level parsed.confirmed)) := by
  have hsame (h : s.autonomyCall now parsed.address parsed.level parsed.confirmed = none) :
      Changed s (s.autonomyCall now parsed.address parsed.level parsed.confirmed) s :=
    h ▸ .same fun _ => rfl
  refine .get_bind fun s' => ?_
  rintro _ ⟨rfl, rfl⟩
  rename_i s
  cases hc : s.getConnection parsed.address with
  | none => exact hsame (by simp [autonomyCall, setAutonomy, hc])
  | some connection =>
    dsimp only
    by_cases hgate : parsed.level = .fullAuto ∧ connection.autonomyLevel ≠ .fullAuto ∧
        parsed.confirmed = false
    · rw [if_pos hgate]
      exact hsame (by simp [autonomyCall, setAutonomy, hc, hgate])
    · rw [if_neg hgate]
      refine Spec.bind (P := (· = s)) ((setAutonomyInPlace_spec _ _ _).conseq (fun _ h => h)
        (fun _ _ h => h) fun _ t h => ?_) (fun _ => ?_) s rfl
      · exact h.1 ▸ hsame h.2
      · exact .bind (storePolicy_keeps parsed) fun _ => .bind (throwIf_keeps saveError) fun _ =>
          .pure fun _ h => h

theorem pinchAutonomy_spec (bootstrapError saveError : Option String) (args : List String) :
    Spec (· = s) (pinchAutonomy now bootstrapError saveError args)
      (fun _ => Changed s (s.toolCall now bootstrapError args))
      (fun _ => Changed s (s.toolCall now bootstrapError args)) := by
  unfold pinchAutonomy toolCall
  cases parseArgs args with
  | error e => exact .throw fun _ h => .same fun q => h ▸ rfl
  | ok parsed =>
    have hclear : Changed s none s.clearPassthroughFlags := .same level_clearPassthroughFlags
    refine .bind (R := fun _ t => t = s.clearPassthroughFlags) (.modify fun _ h => h ▸ rfl) fun _ => ?_
    cases bootstrapError with
    | some e =>
      exact .bind (R := fun _ _ => False) (.throw fun _ h => h ▸ hclear) fun _ => fun _ h => h.elim
    | none =>
      refine .bind (R := fun _ t => t = s.clearPassthroughFlags) (.pure fun _ h => h) fun _ => ?_
      exact (changeLevel_spec saveError parsed).conseq (fun _ h => h)
        (fun _ _ h => h.before level_clearPassthroughFlags)
        fun _ _ h => h.before level_clearPassthroughFlags

section Columns

variable {α : Type} {f : Connection → α} {v : String → Option α}

/-- One part of every record. -/
def column (f : Connection → α) (s : ConnectionStore) : String → Option α := fun p =>
  (s.getConnection p).map f

theorem column_insert {c : Connection} (c' : Connection) (hc : s.getConnection p = some c)
    (h : f c' = f c) : column f (s.insert p c') = s.column f := by
  funext q
  rw [column, getConnection_insert]
  split_ifs with hq
  · subst hq
    simp [column, hc, h]
  · rfl

theorem column_mapRecords {g : Connection → Connection} (h : ∀ c, f (g c) = f c) :
    (s.mapRecords g).column f = s.column f := by
  funext q
  simp only [column, getConnection_mapRecords, Option.map_map, Function.comp_def, h]

theorem updateInPlace_column {u : ConnectionUpdates} (h : ∀ c, f (assign c u now) = f c) :
    Keeps (fun s => s.column f = v) (updateInPlace now p u) := by
  refine Spec.get_bind fun s' => ?_
  cases hc : s'.getConnection p with
  | none => exact .throw fun _ hv => hv.2
  | some c =>
    refine .modify ?_
    rintro _ ⟨rfl, hv⟩
    exact (column_insert (assign c u now) hc (h c)).trans hv

/-- A part of the record that changes of the level leave alone. -/
structure LevelFree (f : Connection → α) : Prop where
  flag : ∀ c, f { c with circuitBreakerTripped := some false } = f c
  level : ∀ c level now, f (assign c { autonomyLevel := some level } now) = f c
  policy : ∀ c text now, f (assign c { autoRespondPolicy := some text } now) = f c

variable (hf : LevelFree f)

include hf

theorem LevelFree.setAutonomyInPlace {level : AutonomyLevel} {confirmed : Bool} :
    Keeps (fun s => s.column f = v) (setAutonomyInPlace now p level confirmed) := by
  refine Spec.get_bind fun s' => ?_
  cases hc : s'.getConnection p with
  | none => exact .throw fun _ hv => hv.2
  | some c =>
    dsimp only
    split_ifs with hgate hflag
    · exact .throw fun _ hv => hv.2
    · refine Spec.bind (.modify ?_) fun _ => updateInPlace_column fun c => hf.level c level now
      rintro _ ⟨rfl, hv⟩
      exact (column_insert { c with circuitBreakerTripped := some false } hc (hf.flag c)).trans hv
    · refine Spec.bind (.modify ?_) fun _ => updateInPlace_column fun c => hf.level c level now
      rintro _ ⟨rfl, hv⟩
      exact (column_insert c hc rfl).trans hv

theorem LevelFree.storePolicy {parsed : AutonomyRequest} :
    Keeps (fun s => s.column f = v) (storePolicy now parsed) := by
  unfold Pinch.storePolicy
  split
  · split_ifs
    · exact updateInPlace_column fun c => hf.policy c _ now
    · exact .pure fun _ hv => hv
  · exact .pure fun _ hv => hv

theorem LevelFree.changeLevel {saveError : Option String} {parsed : AutonomyRequest} :
    Keeps (fun s => s.column f = v) (changeLevel now saveError parsed) := by
  refine Spec.read_bind fun s' => ?_
  split
  · exact .pure fun _ hv => hv
  · split_ifs
    · exact .pure fun _ hv => hv
    · refine Spec.bind hf.setAutonomyInPlace fun _ => ?_
      refine Spec.bind hf.storePolicy fun _ => ?_
      exact Spec.bind (throwIf_keeps saveError) fun _ => .pure fun _ hv => hv

end Columns

end ConnectionStore

end Pinch
