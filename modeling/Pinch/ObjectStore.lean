import Pinch.JsHeap
import Pinch.StoreFile

/-! The connection store as the object that it is. Its keys come from envelopes, and the names of
`Object.prototype` are keys, too. -/

namespace Pinch

open JsHeap

namespace ConnectionField

def all : List ConnectionField :=
  [.peerAddress, .peerPublicKey, .state, .nickname, .autonomyLevel, .autoRespondPolicy,
    .circuitBreakerTripped, .permissionsManifest, .muted, .passthrough, .shortMessage, .createdAt,
    .lastActivity, .expiresAt]

def name : ConnectionField → String
  | peerAddress => "peerAddress"
  | peerPublicKey => "peerPublicKey"
  | state => "state"
  | nickname => "nickname"
  | autonomyLevel => "autonomyLevel"
  | autoRespondPolicy => "autoRespondPolicy"
  | circuitBreakerTripped => "circuitBreakerTripped"
  | permissionsManifest => "permissionsManifest"
  | muted => "muted"
  | passthrough => "passthrough"
  | shortMessage => "shortMessage"
  | createdAt => "createdAt"
  | lastActivity => "lastActivity"
  | expiresAt => "expiresAt"

def ofName (name : String) : Option ConnectionField := all.find? (·.name == name)

end ConnectionField

def jsText : Option String → JsValue
  | some text => .string text
  | none => .undefined

def jsFlag : Option Bool → JsValue
  | some flag => .bool flag
  | none => .undefined

/-- The value of a property. A manifest is an object of its own. -/
def FieldValue.js : FieldValue → JsValue
  | .text value => jsText value
  | .state value => .string value.name
  | .level value => .string value.name
  | .flag value => jsFlag value
  | .manifest _ => .undefined

/-- The own properties of the argument of `addConnection`. -/
def NewConnection.own (conn : NewConnection) (manifest : Option JsValue) :
    ConnectionField → Option JsValue
  | .peerAddress => some (.string conn.peerAddress)
  | .peerPublicKey => some (.string conn.peerPublicKey)
  | .state => some (.string conn.state.name)
  | .nickname => some (.string conn.nickname)
  | .autonomyLevel => conn.autonomyLevel.map fun level => .string level.name
  | .autoRespondPolicy => conn.autoRespondPolicy.map .string
  | .circuitBreakerTripped => conn.circuitBreakerTripped.map .bool
  | .permissionsManifest => manifest
  | .muted => conn.muted.map .bool
  | .passthrough => conn.passthrough.map .bool
  | .shortMessage => conn.shortMessage.map .string
  | .expiresAt => conn.expiresAt.map .string
  | .createdAt | .lastActivity => none

/-- The own properties of the argument of `updateConnection`. -/
def ConnectionUpdates.own (updates : ConnectionUpdates) (manifest : Option JsValue) :
    ConnectionField → Option JsValue
  | .state => updates.state.map fun state => .string state.name
  | .nickname => updates.nickname.map .string
  | .autonomyLevel => updates.autonomyLevel.map fun level => .string level.name
  | .peerPublicKey => updates.peerPublicKey.map jsText
  | .autoRespondPolicy => updates.autoRespondPolicy.map .string
  | .circuitBreakerTripped => updates.circuitBreakerTripped.map .bool
  | .permissionsManifest => manifest
  | .muted => updates.muted.map .bool
  | .passthrough => updates.passthrough.map .bool
  | .peerAddress | .shortMessage | .createdAt | .lastActivity | .expiresAt => none

def entriesOf (own : ConnectionField → Option JsValue) (fields : List ConnectionField) :
    List (String × JsValue) :=
  fields.filterMap fun f => (own f).map (f.name, ·)

abbrev StoreHeap := JsHeap PermissionsManifest

abbrev StoreJs := JsOp PermissionsManifest

def literal (own : ConnectionField → Option JsValue) : JsObject PermissionsManifest where
  proto := some objectPrototype
  props name := ((ConnectionField.ofName name).bind own).map .data

def manifestObject (manifest : PermissionsManifest) : JsObject PermissionsManifest where
  proto := some objectPrototype
  props _ := none
  content := some manifest

/-- The manifest that the caller passes. -/
def passManifest : Option PermissionsManifest → StoreJs (Option JsValue)
  | none => pure none
  | some manifest => do
    let r ← JsOp.new (manifestObject manifest)
    pure (some (.object r))

namespace ObjectStore

def getConnection (connections : ℕ) (peerAddress : String) : StoreJs JsValue :=
  JsOp.property (.object connections) peerAddress

/-- Reading a property of an argument. -/
def argument (own : ConnectionField → Option JsValue) (f : ConnectionField) : StoreJs JsValue :=
  match own f with
  | some value => pure value
  | none => JsOp.property (.object objectPrototype) f.name

def tooLong : JsValue → Bool
  | .string text => decide (ConnectionStore.maxShortMessageLength < utf16Length text)
  | _ => false

/-- `value ?? other`. -/
def orElse (value : JsValue) (other : StoreJs JsValue) : StoreJs JsValue :=
  match value with
  | .undefined | .null => other
  | _ => pure value

/-- The properties that are written after those of the argument. -/
def extended (own : ConnectionField → Option JsValue) (level manifest : JsValue) (now : String) :
    ConnectionField → Option JsValue
  | .autonomyLevel => some level
  | .permissionsManifest => some manifest
  | .createdAt | .lastActivity => some (.string now)
  | f => own f

def addConnection (connections : ℕ) (now : Int) (conn : NewConnection) : StoreJs JsValue := do
  let passed ← passManifest conn.permissionsManifest
  let own := conn.own passed
  let shortMessage ← argument own .shortMessage
  if tooLong shortMessage then throw "shortMessage exceeds 280 character limit"
  else
    let level ← orElse (← argument own .autonomyLevel)
      (pure (.string AutonomyLevel.fullManual.name))
    let manifest ← orElse (← argument own .permissionsManifest) do
      let r ← JsOp.new (manifestObject defaultPermissionsManifest)
      pure (.object r)
    let connection ← JsOp.new (literal (extended own level manifest (isoString now)))
    JsOp.assignProperty (.object connections) conn.peerAddress (.object connection)
    pure (.object connection)

def updateConnection (connections : ℕ) (now : Int) (peerAddress : String)
    (updates : ConnectionUpdates) : StoreJs JsValue := do
  let passed ← passManifest updates.permissionsManifest
  let conn ← JsOp.property (.object connections) peerAddress
  if conn.truthy then
    JsOp.objectAssign conn (entriesOf (updates.own passed) ConnectionField.all)
    JsOp.objectAssign conn [("lastActivity", .string (isoString now))]
    pure conn
  else throw ("connection not found: " ++ peerAddress)

def setAutonomy (connections : ℕ) (now : Int) (peerAddress : String) (level : AutonomyLevel)
    (confirmed : Bool) : StoreJs JsValue := do
  let conn ← JsOp.property (.object connections) peerAddress
  if conn.truthy then
    let current ← JsOp.property conn "autonomyLevel"
    if level = .fullAuto ∧ current ≠ .string "full_auto" ∧ confirmed ≠ true then
      throw "Upgrading to Full Auto requires explicit confirmation"
    else
      let tripped ← JsOp.property conn "circuitBreakerTripped"
      if tripped.truthy then
        JsOp.assignProperty conn "circuitBreakerTripped" (.bool false)
        updateConnection connections now peerAddress { autonomyLevel := some level }
      else updateConnection connections now peerAddress { autonomyLevel := some level }
  else throw ("connection not found: " ++ peerAddress)

end ObjectStore

inductive StoreCall
  | addConnection (now : Int) (conn : NewConnection)
  | updateConnection (now : Int) (peerAddress : String) (updates : ConnectionUpdates)
  | setAutonomy (now : Int) (peerAddress : String) (level : AutonomyLevel) (confirmed : Bool)
  | getConnection (peerAddress : String)

/-- The record whose flag of the breaker `setAutonomy` has cleared. -/
def flagCleared (c : Connection) : Connection :=
  if c.circuitBreakerTripped = some true then { c with circuitBreakerTripped := some false } else c

namespace StoreCall

def key : StoreCall → String
  | addConnection _ conn => conn.peerAddress
  | updateConnection _ peerAddress _ => peerAddress
  | setAutonomy _ peerAddress _ _ => peerAddress
  | getConnection peerAddress => peerAddress

def run (connections : ℕ) : StoreCall → StoreJs JsValue
  | addConnection now conn => ObjectStore.addConnection connections now conn
  | updateConnection now peerAddress updates =>
    ObjectStore.updateConnection connections now peerAddress updates
  | setAutonomy now peerAddress level confirmed =>
    ObjectStore.setAutonomy connections now peerAddress level confirmed
  | getConnection peerAddress => ObjectStore.getConnection connections peerAddress

/-- The call on a finite map. -/
def apply (s : ConnectionStore) : StoreCall → Except String ConnectionStore
  | addConnection now conn => s.addConnection now conn
  | updateConnection now peerAddress updates => s.updateConnection now peerAddress updates
  | setAutonomy now peerAddress level confirmed => s.setAutonomy now peerAddress level confirmed
  | getConnection _ => .ok s

/-- A call that throws leaves the map as it is. -/
def next (s : ConnectionStore) (call : StoreCall) : ConnectionStore :=
  match call.apply s with
  | .ok s' => s'
  | .error _ => s

/-- The finite map after the calls. -/
def mapAll (calls : List StoreCall) : ConnectionStore := calls.foldl next ∅

/-- The heap after the calls. -/
def runAll (connections : ℕ) (calls : List StoreCall) (h : StoreHeap) : StoreHeap :=
  calls.foldl (fun h call => finalState ((call.run connections).run h)) h

end StoreCall

/-- A store without records is made. -/
def withStore (h : StoreHeap) : StoreHeap := h.alloc (literal fun _ => none)

/-! ### The records in the heap -/

namespace ConnectionField

theorem name_not_inherited (f : ConnectionField) : f.name ∉ inheritedNames := by
  cases f <;> decide

@[simp] theorem ofName_name (f : ConnectionField) : ofName f.name = some f := by
  cases f <;> rfl

theorem name_injective {f g : ConnectionField} (h : f.name = g.name) : f = g := by
  have hof := congrArg ofName h
  rw [ofName_name, ofName_name] at hof
  exact Option.some.inj hof

theorem mem_all (f : ConnectionField) : f ∈ all := by
  cases f <;> decide

end ConnectionField

section Records

variable {h h' : StoreHeap} {r r' : ℕ} {f : ConnectionField}
  {own : ConnectionField → Option JsValue} {c : Connection}

theorem literal_data (own : ConnectionField → Option JsValue) (key : String) :
    (literal own).props key ≠ some .protoAccessor := by
  intro hkey
  obtain ⟨value, -, hvalue⟩ := Option.map_eq_some_iff.1 hkey
  cases hvalue

theorem own_literal (own : ConnectionField → Option JsValue) (f : ConnectionField) (h : StoreHeap) :
    (h.alloc (literal own)).own h.size f.name = (own f).getD .undefined := by
  unfold JsHeap.own
  rw [alloc_objects_new]
  simp only [literal, ConnectionField.ofName_name, Option.bind_some]
  cases own f <;> rfl

/-- The fields of an object after `Object.assign`. -/
theorem own_putAll_entriesOf {fields : List ConnectionField} (hnodup : fields.Nodup) :
    (h.putAll r (entriesOf own fields)).own r f.name =
      if f ∈ fields then (own f).getD (h.own r f.name) else h.own r f.name := by
  induction fields generalizing h with
  | nil => rfl
  | cons g fields ih =>
    obtain ⟨hg, hfields⟩ := List.nodup_cons.1 hnodup
    cases hown : own g with
    | none =>
      have hentries : entriesOf own (g :: fields) = entriesOf own fields := by
        simp [entriesOf, hown]
      rw [hentries, ih hfields]
      by_cases hfg : f = g
      · subst hfg
        simp [hg, hown]
      · simp [hfg]
    | some value =>
      have hentries : h.putAll r (entriesOf own (g :: fields)) =
          (h.put r g.name value).putAll r (entriesOf own fields) := by
        simp [entriesOf, hown, putAll]
      rw [hentries, ih hfields]
      by_cases hfg : f = g
      · subst hfg
        simp [hg, hown]
      · have hne : f.name ≠ g.name := fun hname => hfg (ConnectionField.name_injective hname)
        rw [own_put_of_ne (.inr hne)]
        simp [hfg]

theorem entriesOf_not_inherited (own : ConnectionField → Option JsValue)
    (fields : List ConnectionField) :
    ∀ entry ∈ entriesOf own fields, entry.1 ∉ inheritedNames := by
  intro entry hentry
  obtain ⟨g, -, hg⟩ := List.mem_filterMap.1 hentry
  obtain ⟨value, -, rfl⟩ := Option.map_eq_some_iff.1 hg
  exact g.name_not_inherited

/-- The value of the property is an object with this manifest. -/
def HoldsManifest (h : StoreHeap) : JsValue → Option PermissionsManifest → Prop
  | value, none => value = .undefined
  | value, some manifest =>
    ∃ k, value = .object k ∧ k < h.size ∧ (h.objects k).content = some manifest

/-- The properties of the object are the fields of the record. -/
structure Represents (h : StoreHeap) (r : ℕ) (c : Connection) : Prop where
  plain : h.Plain r
  fields : ∀ f : ConnectionField, f ≠ .permissionsManifest → h.own r f.name = (f.value c).js
  manifest :
    HoldsManifest h (h.own r ConnectionField.permissionsManifest.name) c.permissionsManifest

theorem HoldsManifest.mono {value : JsValue} {manifest : Option PermissionsManifest}
    (hm : HoldsManifest h value manifest) (hsize : h.size ≤ h'.size)
    (hcontent : ∀ k < h.size, (h'.objects k).content = (h.objects k).content) :
    HoldsManifest h' value manifest := by
  cases manifest with
  | none => exact hm
  | some m =>
    obtain ⟨k, hk, hlt, hm⟩ := hm
    exact ⟨k, hk, hlt.trans_le hsize, (hcontent k hlt).trans hm⟩

theorem Represents.mono (hr : Represents h r c) (hplain : h'.Plain r)
    (hobject : h'.objects r = h.objects r) (hsize : h.size ≤ h'.size)
    (hcontent : ∀ k < h.size, (h'.objects k).content = (h.objects k).content) :
    Represents h' r c := by
  have hown : ∀ key, h'.own r key = h.own r key := by
    intro key
    simp only [JsHeap.own, hobject]
  refine ⟨hplain, fun f hf => ?_, ?_⟩
  · rw [hown, hr.fields f hf]
  · rw [hown]
    exact hr.manifest.mono hsize hcontent

theorem Represents.getProperty (hr : Represents h r c) (hp : h.Pristine)
    (hf : f ≠ .permissionsManifest) : h.getProperty r f.name = (f.value c).js := by
  rw [getProperty_plain hp hr.plain f.name_not_inherited]
  exact hr.fields f hf

theorem Represents.grows (hr : Represents h r c) (hg : Grows h h') : Represents h' r c :=
  hr.mono (hr.plain.grows hg) (hg.objects r hr.plain.lt) hg.size fun k hk => by
    rw [hg.objects k hk]

theorem Represents.putAll {entries : List (String × JsValue)} (hr : Represents h r c)
    (hne : r ≠ r') : Represents (h.putAll r' entries) r c :=
  hr.mono hr.plain.putAll (putAll_objects_of_ne hne) putAll_size.ge fun k _ => putAll_content k

end Records

end Pinch
