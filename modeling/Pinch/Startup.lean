import Pinch.AutonomyControl
import Pinch.ConnectionManager

/-! The start of a tool. Both files are read before anything else is done, and a file that cannot
be read is replaced by a fresh one. -/

namespace Pinch

/-- A value that `JSON.parse` returns, with its fields in the order in which they are enumerated.
A number is given by the bits of its double. -/
inductive JsonValue
  | null
  | bool (value : Bool)
  | number (bits : UInt64)
  | string (value : String)
  | array (elements : List JsonValue)
  | object (fields : List (String × JsonValue))

namespace JsonValue

def one : JsonValue := .number 0x3FF0000000000000

def isOne : Option JsonValue → Bool
  | some (.number bits) => bits == 0x3FF0000000000000
  | _ => false

/-- Reading a property; `none` is `undefined`. -/
def get (key : String) : JsonValue → Except String (Option JsonValue)
  | .null => .error ("Cannot read properties of null (reading '" ++ key ++ "')")
  | .object fields => .ok (fields.lookup key)
  | _ => .ok none

/-- Zero is falsy with both signs; JSON has no other number that is. -/
def truthy : Option JsonValue → Bool
  | none | some .null => false
  | some (.bool value) => value
  | some (.number bits) => bits != 0 && bits != 0x8000000000000000
  | some (.string value) => value != ""
  | some (.array _) | some (.object _) => true

/-- Assigning to a property that the object has. -/
def assign (v : JsonValue) (key : String) (value : JsonValue) : JsonValue :=
  match v with
  | .object fields => .object (fields.map fun f => if f.1 = key then (key, value) else f)
  | _ => v

end JsonValue

open JsonValue

/-- The libraries that read and write the files. -/
structure FileLibraries where
  parseJson : String → Except String JsonValue
  /-- `JSON.stringify(value, null, 2)`. -/
  stringify : JsonValue → String
  /-- `sodium.from_base64` with the original alphabet. -/
  fromBase64 : Option JsonValue → Except String Bytes
  /-- The text that a template makes of a value. -/
  display : Option JsonValue → String

structure Keypair where
  publicKey : Bytes
  privateKey : Bytes

/-- What becomes of `writeFile`: the file is opened, and so truncated, or it is not. -/
inductive WriteOutcome
  | written
  | refused (error : String)
  | interrupted (length : ℕ) (error : String)

def WriteOutcome.apply (text : String) (file : Option Bytes) : WriteOutcome → Option Bytes
  | .written => some (textEncode text)
  | .refused _ => file
  | .interrupted length _ => some ((textEncode text).take length)

def WriteOutcome.result : WriteOutcome → Except String Unit
  | .written => .ok ()
  | .refused error | .interrupted _ error => .error error

/-- What the system answers to the calls for one file. -/
structure FileAccess where
  read : Except String Unit
  mkdir : Except String Unit
  write : WriteOutcome
  chmod : Except String Unit

structure StartContext where
  relayUrl : Option String
  now : Int
  /-- `ensureSodiumReady`. -/
  sodium : Except String Unit
  generated : Keypair
  keypairFile : FileAccess
  storeFile : FileAccess
  /-- What follows on the two files: the database, the connection to the relay. -/
  rest : Except String Unit

/-- The files, and the results that the process keeps of earlier calls. -/
structure Machine where
  keypairJson : Option Bytes
  connectionsJson : Option Bytes
  bootstrapped : Bool
  localBootstrapped : Bool

def readFile (access : FileAccess) : Option Bytes → Except String String
  | none => .error "ENOENT: no such file or directory"
  | some bytes => do
    access.read
    .ok (String.ofList (decodeBytes {} bytes))

section Keypair

variable (lib : FileLibraries) (ctx : StartContext)

def loadKeypair (file : Option Bytes) : Except String Keypair := do
  ctx.sodium
  let data ← lib.parseJson (← readFile ctx.keypairFile file)
  let version ← data.get "version"
  if isOne version then
    let publicKey ← lib.fromBase64 (← data.get "public_key")
    let privateKey ← lib.fromBase64 (← data.get "private_key")
    .ok ⟨publicKey, privateKey⟩
  else .error ("Unsupported keypair file version: " ++ lib.display version)

def keypairFileJson (keypair : Keypair) (createdAt : String) : JsonValue :=
  .object [("version", one), ("public_key", .string (Base64.encode keypair.publicKey)),
    ("private_key", .string (Base64.encode keypair.privateKey)),
    ("created_at", .string createdAt)]

def saveKeypair (keypair : Keypair) : EStateM String Machine Unit := do
  MonadExcept.ofExcept ctx.keypairFile.mkdir
  match toISOString ctx.now with
  | none => throw "Invalid time value"
  | some createdAt =>
    modify fun s => { s with
      keypairJson := ctx.keypairFile.write.apply
        (lib.stringify (keypairFileJson keypair createdAt)) s.keypairJson }
    MonadExcept.ofExcept ctx.keypairFile.write.result
    MonadExcept.ofExcept ctx.keypairFile.chmod

def generateKeypair : Except String Keypair := do
  ctx.sodium
  .ok ctx.generated

def loadOrGenerateKeypair : EStateM String Machine Keypair := do
  let s ← get
  match loadKeypair lib ctx s.keypairJson with
  | .ok keypair => pure keypair
  | .error _ =>
    let keypair ← MonadExcept.ofExcept (generateKeypair ctx)
    saveKeypair lib ctx keypair
    pure keypair

end Keypair

namespace StoreData

def empty : JsonValue := .object [("version", one), ("connections", .object [])]

/-- The part of `load` that can throw. -/
def read (lib : FileLibraries) (ctx : StartContext) (file : Option Bytes) :
    Except String JsonValue := do
  lib.parseJson (← readFile ctx.storeFile file)

def load (lib : FileLibraries) (ctx : StartContext) (file : Option Bytes) : JsonValue :=
  match read lib ctx file with
  | .ok data => data
  | .error _ => empty

def save (lib : FileLibraries) (ctx : StartContext) (data : JsonValue) :
    EStateM String Machine Unit := do
  MonadExcept.ofExcept ctx.storeFile.mkdir
  modify fun s => { s with
    connectionsJson := ctx.storeFile.write.apply (lib.stringify data) s.connectionsJson }
  MonadExcept.ofExcept ctx.storeFile.write.result

def clearRecord (conn : JsonValue) : Except String JsonValue := do
  if truthy (← conn.get "passthrough") then .ok (conn.assign "passthrough" (.bool false))
  else .ok conn

/-- The loop of `clearPassthroughFlags`. A text or a number has no values that could be set. -/
def clearPassthroughFlags (data : JsonValue) : Except String JsonValue := do
  match ← data.get "connections" with
  | none | some .null => .error "Cannot convert undefined or null to object"
  | some (.object fields) =>
    let fields ← fields.mapM fun f => return (f.1, ← clearRecord f.2)
    .ok (data.assign "connections" (.object fields))
  | some (.array elements) =>
    let elements ← elements.mapM clearRecord
    .ok (data.assign "connections" (.array elements))
  | some _ => .ok data

def openStore (lib : FileLibraries) (ctx : StartContext) : EStateM String Machine Unit := do
  let s ← get
  let cleared ← MonadExcept.ofExcept (clearPassthroughFlags (load lib ctx s.connectionsJson))
  save lib ctx cleared

end StoreData

section Bootstrap

variable (lib : FileLibraries) (ctx : StartContext)

def bootstrap : EStateM String Machine Unit := do
  let s ← get
  if s.bootstrapped then pure ()
  else if ctx.relayUrl.getD "" = "" then throw "PINCH_RELAY_URL environment variable is required"
  else
    let _ ← loadOrGenerateKeypair lib ctx
    StoreData.openStore lib ctx
    MonadExcept.ofExcept ctx.rest
    modify ({ · with bootstrapped := true })

def bootstrapLocal : EStateM String Machine Unit := do
  let s ← get
  if s.localBootstrapped then pure ()
  else
    let _ ← loadOrGenerateKeypair lib ctx
    StoreData.openStore lib ctx
    MonadExcept.ofExcept ctx.rest
    modify ({ · with localBootstrapped := true })

end Bootstrap

/-! ### The records of the store -/

namespace StoreData

variable (manifest : PermissionsManifest → JsonValue)

/-- A property with the value `undefined` is not written. -/
def present (fields : List (String × Option JsonValue)) : List (String × JsonValue) :=
  fields.filterMap fun f => f.2.map (f.1, ·)

def recordFields (c : Connection) : List (String × Option JsonValue) :=
  [("peerAddress", some (.string c.peerAddress)), ("peerPublicKey", c.peerPublicKey.map .string),
    ("state", some (.string c.state.name)), ("nickname", some (.string c.nickname)),
    ("autonomyLevel", some (.string c.autonomyLevel.name)),
    ("autoRespondPolicy", c.autoRespondPolicy.map .string),
    ("circuitBreakerTripped", c.circuitBreakerTripped.map .bool),
    ("permissionsManifest", c.permissionsManifest.map manifest), ("muted", c.muted.map .bool),
    ("passthrough", c.passthrough.map .bool), ("shortMessage", c.shortMessage.map .string),
    ("createdAt", some (.string c.createdAt)), ("lastActivity", some (.string c.lastActivity)),
    ("expiresAt", c.expiresAt.map .string)]

def recordJson (c : Connection) : JsonValue := .object (present (recordFields manifest c))

def recordsJson (s : ConnectionStore) : List (String × JsonValue) :=
  s.entries.map fun e => (e.1, recordJson manifest e.2)

def storeJson (s : ConnectionStore) : JsonValue :=
  .object [("version", one), ("connections", .object (recordsJson manifest s))]

theorem lookup_present_none {fields : List (String × Option JsonValue)} {key : String}
    (h : key ∉ fields.map Prod.fst) : (present fields).lookup key = none := by
  induction fields with
  | nil => rfl
  | cons f fields ih =>
    obtain ⟨hf, hfields⟩ : key ≠ f.1 ∧ key ∉ fields.map Prod.fst := by simpa using h
    obtain ⟨name, value⟩ := f
    cases value with
    | none => exact ih hfields
    | some v =>
      have hkey : (key == name) = false := by simpa using hf
      simpa [present, List.lookup_cons, hkey] using ih hfields

theorem lookup_present {fields : List (String × Option JsonValue)} {key : String}
    (h : (fields.map Prod.fst).Nodup) : (present fields).lookup key = (fields.lookup key).join := by
  induction fields with
  | nil => rfl
  | cons f fields ih =>
    obtain ⟨name, value⟩ := f
    obtain ⟨hname, hfields⟩ := List.nodup_cons.1 h
    by_cases hkey : key = name
    · subst hkey
      cases value with
      | none =>
        have hnone : (present fields).lookup key = none := lookup_present_none hname
        rw [List.lookup_cons_self]
        exact hnone
      | some v => simp [present]
    · have hbeq : (key == name) = false := by simpa using hkey
      cases value with
      | none => simpa [present, List.lookup_cons, hbeq] using ih hfields
      | some v => simpa [present, List.lookup_cons, hbeq] using ih hfields

theorem assign_present (fields : List (String × Option JsonValue)) (key : String)
    (value : JsonValue) :
    (JsonValue.object (present fields)).assign key value = .object (present (fields.map fun f =>
      if f.1 = key then (key, f.2.map fun _ => value) else f)) := by
  simp only [assign, present, List.map_filterMap, List.filterMap_map]
  congr 1
  apply List.filterMap_congr
  rintro ⟨name, v⟩ -
  by_cases hkey : name = key
  · cases v <;> simp [hkey]
  · cases v <;> simp [hkey]

theorem clearRecord_recordJson (c : Connection) :
    clearRecord (recordJson manifest c) =
      .ok (recordJson manifest (ConnectionStore.clearPassthrough c)) := by
  have hnodup : ((recordFields manifest c).map Prod.fst).Nodup := by
    show (List.map _ _).Nodup
    simp [recordFields]
  have hget : (recordJson manifest c).get "passthrough" = .ok (c.passthrough.map .bool) := by
    simp only [recordJson, JsonValue.get, lookup_present hnodup]
    rfl
  unfold clearRecord
  rw [hget]
  by_cases hc : c.passthrough = some true
  · have hassign : (recordJson manifest c).assign "passthrough" (.bool false) =
        recordJson manifest { c with passthrough := some false } := by
      unfold recordJson
      rw [assign_present]
      simp [recordFields, hc]
    simp only [ConnectionStore.clearPassthrough, hc, if_true, ← hassign]
    rfl
  · have hfalsy : truthy (c.passthrough.map .bool) = false := by
      cases hp : c.passthrough with
      | none => rfl
      | some b =>
        cases b with
        | false => rfl
        | true => exact absurd hp hc
    simp only [ConnectionStore.clearPassthrough, hc, if_false]
    show (if truthy (c.passthrough.map .bool) = true then _ else _) = _
    rw [hfalsy]
    rfl

theorem mapM_ok {α β : Type} {f : α → Except String β} {g : α → β} (h : ∀ a, f a = .ok (g a))
    (l : List α) : l.mapM f = .ok (l.map g) := by
  obtain rfl : f = fun a => pure (g a) := funext h
  rw [List.mapM_pure]
  rfl

/-- On a file that `save` has written, the flags are cleared as they are on the records. -/
theorem clearPassthroughFlags_storeJson (s : ConnectionStore) :
    clearPassthroughFlags (storeJson manifest s) =
      .ok (storeJson manifest s.clearPassthroughFlags) := by
  have hrecords : (recordsJson manifest s).mapM
      (fun f => return (f.1, ← clearRecord f.2) : String × JsonValue → Except String _) =
      .ok (recordsJson manifest s.clearPassthroughFlags) := by
    unfold recordsJson
    rw [List.mapM_map, mapM_ok (g := fun e : (_ : String) × Connection =>
      (e.1, recordJson manifest (ConnectionStore.clearPassthrough e.2)))]
    · rw [ConnectionStore.clearPassthroughFlags, ConnectionStore.mapRecords, List.map_map]
      rfl
    · intro e
      simp only [Function.comp_apply, clearRecord_recordJson]
      rfl
  have hget : (storeJson manifest s).get "connections" =
      .ok (some (.object (recordsJson manifest s))) := rfl
  unfold clearPassthroughFlags
  rw [hget]
  show (do
    let fields ← (recordsJson manifest s).mapM
      (fun f => return (f.1, ← clearRecord f.2) : String × JsonValue → Except String _)
    Except.ok ((storeJson manifest s).assign "connections" (.object fields))) = _
  rw [hrecords]
  rfl

theorem openStore_run {lib : FileLibraries} {ctx : StartContext} {t : Machine} {cleared : JsonValue}
    (hclear : clearPassthroughFlags (load lib ctx t.connectionsJson) = .ok cleared)
    (hmkdir : ctx.storeFile.mkdir = .ok ()) (hwrite : ctx.storeFile.write = .written) :
    (openStore lib ctx).run t =
      .ok () { t with connectionsJson := some (textEncode (lib.stringify cleared)) } := by
  show EStateM.run (do
    let cleared ← MonadExcept.ofExcept (clearPassthroughFlags (load lib ctx t.connectionsJson))
    save lib ctx cleared) t = _
  rw [hclear]
  show EStateM.run (save lib ctx cleared) t = _
  unfold save
  rw [hmkdir, hwrite]
  rfl

/-- A file with these records is written again with the flags cleared. -/
theorem openStore_storeJson {lib : FileLibraries} {ctx : StartContext} {t : Machine}
    {s : ConnectionStore} (hread : read lib ctx t.connectionsJson = .ok (storeJson manifest s))
    (hmkdir : ctx.storeFile.mkdir = .ok ()) (hwrite : ctx.storeFile.write = .written) :
    (openStore lib ctx).run t = .ok () { t with
      connectionsJson :=
        some (textEncode (lib.stringify (storeJson manifest s.clearPassthroughFlags))) } := by
  have hload : load lib ctx t.connectionsJson = storeJson manifest s := by simp [load, hread]
  apply openStore_run _ hmkdir hwrite
  rw [hload, clearPassthroughFlags_storeJson]

end StoreData

/-! ### What becomes of the files -/

section Files

variable {lib : FileLibraries} {ctx : StartContext} {s t : Machine}

theorem readFile_textEncode {access : FileAccess} (h : access.read = .ok ()) (text : String) :
    readFile access (some (textEncode text)) = .ok text := by
  simp only [readFile, h, decodeBytes_textEncode, String.ofList_toList]
  rfl

/-- The keypair of an existing file can be loaded. -/
def KeypairLoads (lib : FileLibraries) (ctx : StartContext) (file : Option Bytes) : Prop :=
  ∃ keypair, loadKeypair lib ctx file = .ok keypair

/-- The store of an existing file can be read and parsed. -/
def StoreLoads (lib : FileLibraries) (ctx : StartContext) (file : Option Bytes) : Prop :=
  ∃ data, StoreData.read lib ctx file = .ok data

/-- A keypair that was there is as it was. Records that were there are as they were, or they have
been written again from what was read, with the flags cleared. -/
structure Kept (lib : FileLibraries) (ctx : StartContext) (s t : Machine) : Prop where
  keypair : s.keypairJson ≠ none → t.keypairJson = s.keypairJson
  connections : s.connectionsJson ≠ none → t.connectionsJson = s.connectionsJson ∨
    ∃ data cleared, StoreData.read lib ctx s.connectionsJson = .ok data ∧
      StoreData.clearPassthroughFlags data = .ok cleared ∧
      t.connectionsJson = ctx.storeFile.write.apply (lib.stringify cleared) s.connectionsJson

/-- The text goes over the keypair: the file could not be loaded, and nothing has stopped the tool
before it writes. -/
structure KeypairWritten (lib : FileLibraries) (ctx : StartContext) (s : Machine) (text : String) :
    Prop where
  unloaded : ¬ KeypairLoads lib ctx s.keypairJson
  sodium : ctx.sodium = .ok ()
  mkdir : ctx.keypairFile.mkdir = .ok ()
  text : ∃ createdAt, toISOString ctx.now = some createdAt ∧
    text = lib.stringify (keypairFileJson ctx.generated createdAt)

/-- The tool has a keypair and goes on to the store. -/
def KeypairPasses (lib : FileLibraries) (ctx : StartContext) (s : Machine) : Prop :=
  KeypairLoads lib ctx s.keypairJson ∨ (∃ text, KeypairWritten lib ctx s text) ∧
    ctx.keypairFile.write.result = .ok () ∧ ctx.keypairFile.chmod = .ok ()

/-- What is written over an existing keypair changes nothing. -/
def KeypairSafe (lib : FileLibraries) (ctx : StartContext) (s : Machine) : Prop :=
  s.keypairJson ≠ none → ∀ text, KeypairWritten lib ctx s text →
    ctx.keypairFile.write.apply text s.keypairJson = s.keypairJson

/-- Existing records can be loaded, or the empty store that is written over them changes nothing. -/
def StoreSafe (lib : FileLibraries) (ctx : StartContext) (s : Machine) : Prop :=
  s.connectionsJson ≠ none → StoreLoads lib ctx s.connectionsJson ∨
    (ctx.storeFile.mkdir = .ok () →
      ctx.storeFile.write.apply (lib.stringify StoreData.empty) s.connectionsJson =
        s.connectionsJson)

/-- Where the first part of a start leaves the machine. -/
inductive KeypairOutcome (lib : FileLibraries) (ctx : StartContext) (s : Machine) : Machine → Prop
  | same (h : ∀ text, ¬ KeypairWritten lib ctx s text) : KeypairOutcome lib ctx s s
  | written {text : String} (h : KeypairWritten lib ctx s text) :
      KeypairOutcome lib ctx s { s with
        keypairJson := ctx.keypairFile.write.apply text s.keypairJson }

theorem KeypairWritten.text_eq {text text' : String} (h : KeypairWritten lib ctx s text)
    (h' : KeypairWritten lib ctx s text') : text = text' := by
  obtain ⟨createdAt, hnow, rfl⟩ := h.text
  obtain ⟨createdAt', hnow', rfl⟩ := h'.text
  rw [Option.some.inj (hnow.symm.trans hnow')]

theorem KeypairOutcome.safe_iff (h : KeypairOutcome lib ctx s t) :
    (s.keypairJson ≠ none → t.keypairJson = s.keypairJson) ↔ KeypairSafe lib ctx s := by
  cases h with
  | same h => exact iff_of_true (fun _ => rfl) fun _ text htext => absurd htext (h text)
  | written h =>
    refine ⟨fun hkept hexists text htext => ?_, fun hsafe hexists => hsafe hexists _ h⟩
    rw [htext.text_eq h]
    exact hkept hexists

theorem KeypairOutcome.connectionsJson (h : KeypairOutcome lib ctx s t) :
    t.connectionsJson = s.connectionsJson := by
  cases h <;> rfl

theorem generateKeypair_ok (h : ctx.sodium = .ok ()) :
    generateKeypair ctx = .ok ctx.generated := by
  unfold generateKeypair
  rw [h]
  rfl

theorem loadOrGenerateKeypair_run (h : ¬ KeypairLoads lib ctx s.keypairJson) :
    (loadOrGenerateKeypair lib ctx).run s = (do
      let keypair ← MonadExcept.ofExcept (generateKeypair ctx)
      saveKeypair lib ctx keypair
      pure keypair : EStateM String Machine Keypair).run s := by
  cases hload : loadKeypair lib ctx s.keypairJson with
  | ok keypair => exact absurd ⟨keypair, hload⟩ h
  | error error => simp [loadOrGenerateKeypair, hload]

/-- Whatever stops the tool before it writes leaves the machine alone. -/
theorem loadOrGenerateKeypair_stopped (hunloaded : ¬ KeypairLoads lib ctx s.keypairJson)
    (h : ∀ text, ¬ KeypairWritten lib ctx s text) :
    ∃ e, (loadOrGenerateKeypair lib ctx).run s = .error e s := by
  rw [loadOrGenerateKeypair_run hunloaded]
  cases hsodium : ctx.sodium with
  | error e =>
    refine ⟨e, ?_⟩
    simp only [generateKeypair, hsodium]
    rfl
  | ok _ =>
    rw [generateKeypair_ok hsodium]
    unfold saveKeypair
    cases hmkdir : ctx.keypairFile.mkdir with
    | error e => exact ⟨e, rfl⟩
    | ok _ =>
      cases hnow : toISOString ctx.now with
      | none => exact ⟨_, rfl⟩
      | some createdAt => exact absurd ⟨hunloaded, hsodium, hmkdir, createdAt, hnow, rfl⟩ (h _)

theorem loadOrGenerateKeypair_written {text : String} (h : KeypairWritten lib ctx s text) :
    finalState ((loadOrGenerateKeypair lib ctx).run s) = { s with
        keypairJson := ctx.keypairFile.write.apply text s.keypairJson } ∧
      (Returns (loadOrGenerateKeypair lib ctx) s ↔
        ctx.keypairFile.write.result = .ok () ∧ ctx.keypairFile.chmod = .ok ()) := by
  obtain ⟨createdAt, hnow, rfl⟩ := h.text
  have hrun := loadOrGenerateKeypair_run h.unloaded
  rw [generateKeypair_ok h.sodium] at hrun
  unfold saveKeypair at hrun
  rw [h.mkdir, hnow] at hrun
  rw [Returns, hrun]
  cases ctx.keypairFile.write.result with
  | error e =>
    refine ⟨rfl, iff_of_false ?_ (by simp)⟩
    rintro ⟨_, _, h⟩
    cases h
  | ok _ =>
    cases ctx.keypairFile.chmod with
    | error e =>
      refine ⟨rfl, iff_of_false ?_ (by simp)⟩
      rintro ⟨_, _, h⟩
      cases h
    | ok _ => exact ⟨rfl, iff_of_true ⟨_, _, rfl⟩ ⟨rfl, rfl⟩⟩

theorem loadOrGenerateKeypair_outcome (lib : FileLibraries) (ctx : StartContext) (s : Machine) :
    KeypairOutcome lib ctx s (finalState ((loadOrGenerateKeypair lib ctx).run s)) ∧
      (Returns (loadOrGenerateKeypair lib ctx) s ↔ KeypairPasses lib ctx s) := by
  by_cases hloads : KeypairLoads lib ctx s.keypairJson
  · obtain ⟨keypair, hload⟩ := hloads
    have hrun : (loadOrGenerateKeypair lib ctx).run s = .ok keypair s := by
      simp [loadOrGenerateKeypair, hload]
    rw [hrun]
    exact ⟨.same fun _ h => h.unloaded ⟨keypair, hload⟩,
      iff_of_true ⟨_, _, hrun⟩ (.inl ⟨keypair, hload⟩)⟩
  by_cases hwrites : ∃ text, KeypairWritten lib ctx s text
  · obtain ⟨text, hwritten⟩ := hwrites
    obtain ⟨hfinal, hreturns⟩ := loadOrGenerateKeypair_written hwritten
    rw [hfinal, hreturns]
    refine ⟨.written hwritten, ?_⟩
    exact ((or_iff_right hloads).trans (and_iff_right ⟨_, hwritten⟩)).symm
  · rw [not_exists] at hwrites
    obtain ⟨e, hrun⟩ := loadOrGenerateKeypair_stopped hloads hwrites
    rw [hrun]
    refine ⟨.same hwrites, iff_of_false ?_ ?_⟩
    · rintro ⟨_, _, hok⟩
      cases hrun.symm.trans hok
    · rintro (h | ⟨⟨text, htext⟩, -⟩)
      · exact hloads h
      · exact hwrites text htext

/-- The records of a machine whose keypair has passed. -/
theorem StoreData.openStore_safe_iff (lib : FileLibraries) (ctx : StartContext) (t : Machine) :
    (finalState ((StoreData.openStore lib ctx).run t)).keypairJson = t.keypairJson ∧
    ((t.connectionsJson ≠ none →
        (finalState ((StoreData.openStore lib ctx).run t)).connectionsJson = t.connectionsJson ∨
        ∃ data cleared, StoreData.read lib ctx t.connectionsJson = .ok data ∧
          StoreData.clearPassthroughFlags data = .ok cleared ∧
          (finalState ((StoreData.openStore lib ctx).run t)).connectionsJson =
            ctx.storeFile.write.apply (lib.stringify cleared) t.connectionsJson) ↔
      StoreSafe lib ctx t) := by
  have hrun : (StoreData.openStore lib ctx).run t = (do
      let cleared ← MonadExcept.ofExcept
        (StoreData.clearPassthroughFlags (StoreData.load lib ctx t.connectionsJson))
      StoreData.save lib ctx cleared : EStateM String Machine Unit).run t := rfl
  have hsave (cleared : JsonValue) : finalState ((StoreData.save lib ctx cleared).run t) =
      if ctx.storeFile.mkdir = .ok () then { t with
        connectionsJson := ctx.storeFile.write.apply (lib.stringify cleared) t.connectionsJson }
      else t := by
    unfold StoreData.save
    cases ctx.storeFile.mkdir with
    | error e => rfl
    | ok _ =>
      rw [if_pos rfl]
      cases ctx.storeFile.write.result <;> rfl
  cases hread : StoreData.read lib ctx t.connectionsJson with
  | ok data =>
    have hsafe : StoreSafe lib ctx t := fun _ => .inl ⟨data, hread⟩
    have hload : StoreData.load lib ctx t.connectionsJson = data := by simp [StoreData.load, hread]
    rw [hrun, hload]
    cases hclear : StoreData.clearPassthroughFlags data with
    | error e => exact ⟨rfl, iff_of_true (fun _ => .inl rfl) hsafe⟩
    | ok cleared =>
      have hfinal : finalState ((do
          let cleared ← MonadExcept.ofExcept (Except.ok cleared)
          StoreData.save lib ctx cleared : EStateM String Machine Unit).run t) = _ := hsave cleared
      rw [hfinal]
      split
      · exact ⟨rfl, iff_of_true (fun _ => .inr ⟨data, cleared, rfl, hclear, rfl⟩) hsafe⟩
      · exact ⟨rfl, iff_of_true (fun _ => .inl rfl) hsafe⟩
  | error e =>
    have hload : StoreData.load lib ctx t.connectionsJson = StoreData.empty := by
      simp [StoreData.load, hread]
    have hunread : ¬ StoreLoads lib ctx t.connectionsJson := by
      rintro ⟨data, hok⟩
      cases hread.symm.trans hok
    have hempty : StoreData.clearPassthroughFlags StoreData.empty = .ok StoreData.empty := rfl
    rw [hrun, hload, hempty]
    have hfinal : finalState ((do
        let cleared ← MonadExcept.ofExcept (Except.ok StoreData.empty)
        StoreData.save lib ctx cleared : EStateM String Machine Unit).run t) = _ :=
      hsave StoreData.empty
    rw [hfinal, StoreSafe]
    split
    · rename_i hmkdir
      simp [hunread, hmkdir]
    · rename_i hmkdir
      simp [hmkdir]

/-- The two functions, as a tool calls them. -/
inductive StartUp
  | bootstrap
  | bootstrapLocal

def StartUp.run (lib : FileLibraries) (ctx : StartContext) (s : Machine) : StartUp → Machine
  | .bootstrap => finalState ((Pinch.bootstrap lib ctx).run s)
  | .bootstrapLocal => finalState ((Pinch.bootstrapLocal lib ctx).run s)

/-- The call comes to the files. -/
def StartUp.Begins (ctx : StartContext) (s : Machine) : StartUp → Prop
  | .bootstrap => s.bootstrapped = false ∧ ctx.relayUrl.getD "" ≠ ""
  | .bootstrapLocal => s.localBootstrapped = false

/-- What both functions do with the files. -/
def openFiles (lib : FileLibraries) (ctx : StartContext) (mark : Machine → Machine) :
    EStateM String Machine Unit := do
  let _ ← loadOrGenerateKeypair lib ctx
  StoreData.openStore lib ctx
  MonadExcept.ofExcept ctx.rest
  modify mark

theorem openFiles_kept_iff (lib : FileLibraries) (ctx : StartContext) (s : Machine)
    {mark : Machine → Machine} (hkeypair : ∀ t, (mark t).keypairJson = t.keypairJson)
    (hconnections : ∀ t, (mark t).connectionsJson = t.connectionsJson) :
    Kept lib ctx s (finalState ((openFiles lib ctx mark).run s)) ↔
      KeypairSafe lib ctx s ∧ (KeypairPasses lib ctx s → StoreSafe lib ctx s) := by
  obtain ⟨houtcome, hreturns⟩ := loadOrGenerateKeypair_outcome lib ctx s
  rw [← houtcome.safe_iff, ← hreturns]
  have hconn := houtcome.connectionsJson
  cases hrun : (loadOrGenerateKeypair lib ctx).run s with
  | ok keypair t =>
    rw [hrun] at hconn
    change t.connectionsJson = s.connectionsJson at hconn
    have hfiles : ∀ u : Machine, u = finalState ((StoreData.openStore lib ctx).run t) →
        (finalState ((openFiles lib ctx mark).run s)).keypairJson = u.keypairJson ∧
        (finalState ((openFiles lib ctx mark).run s)).connectionsJson = u.connectionsJson := by
      rintro u rfl
      unfold openFiles
      rw [EStateM.run_bind, hrun]
      dsimp only
      rw [EStateM.run_bind]
      cases (StoreData.openStore lib ctx).run t with
      | error e u => exact ⟨rfl, rfl⟩
      | ok _ u =>
        cases ctx.rest with
        | error e => exact ⟨rfl, rfl⟩
        | ok _ => exact ⟨hkeypair u, hconnections u⟩
    obtain ⟨hkeypair', hconnections'⟩ := hfiles _ rfl
    obtain ⟨hsame, hstore⟩ := StoreData.openStore_safe_iff lib ctx t
    have hsafe : StoreSafe lib ctx t ↔ StoreSafe lib ctx s := by
      unfold StoreSafe
      rw [hconn]
    rw [hconn, hsafe] at hstore
    have hreturned : Returns (loadOrGenerateKeypair lib ctx) s := ⟨_, _, hrun⟩
    have hfinal : finalState (.ok keypair t : EStateM.Result String Machine Keypair) = t := rfl
    rw [imp_iff_right hreturned, ← hstore, hfinal, ← hsame, ← hkeypair', ← hconnections']
    exact ⟨fun h => ⟨h.keypair, h.connections⟩, fun h => ⟨h.1, h.2⟩⟩
  | error e t =>
    rw [hrun] at hconn
    have hfinal : finalState ((openFiles lib ctx mark).run s) = t := by
      unfold openFiles
      rw [EStateM.run_bind, hrun]
      rfl
    rw [hfinal]
    refine ⟨fun h => ⟨h.keypair, fun ⟨_, _, hok⟩ => by cases hrun.symm.trans hok⟩, fun h => ?_⟩
    exact ⟨h.1, fun _ => .inl hconn⟩

/-- A start keeps the data exactly if it does not come to the files, or a keypair that is there is
loaded or not changed and, if the tool goes on to it, so is the store. -/
theorem startup_keeps_data_iff (lib : FileLibraries) (ctx : StartContext) (s : Machine)
    (start : StartUp) : Kept lib ctx s (start.run lib ctx s) ↔
      (start.Begins ctx s →
        KeypairSafe lib ctx s ∧ (KeypairPasses lib ctx s → StoreSafe lib ctx s)) := by
  have hsame : Kept lib ctx s s := ⟨fun _ => rfl, fun _ => .inl rfl⟩
  cases start with
  | bootstrap =>
    by_cases hdone : s.bootstrapped = true
    · have hrun : StartUp.bootstrap.run lib ctx s = s := by
        simp [StartUp.run, bootstrap, hdone, finalState]
      rw [hrun]
      exact iff_of_true hsame fun h => by cases hdone.symm.trans h.1
    · by_cases hurl : ctx.relayUrl.getD "" = ""
      · have hrun : StartUp.bootstrap.run lib ctx s = s := by
          simp [StartUp.run, bootstrap, hdone, hurl, finalState]
        rw [hrun]
        exact iff_of_true hsame fun h => absurd hurl h.2
      · have hrun : StartUp.bootstrap.run lib ctx s =
            finalState ((openFiles lib ctx ({ · with bootstrapped := true })).run s) := by
          simp [StartUp.run, bootstrap, hdone, hurl, openFiles]
        have hbegins : StartUp.bootstrap.Begins ctx s := ⟨eq_false_of_ne_true hdone, hurl⟩
        rw [hrun, imp_iff_right hbegins]
        exact openFiles_kept_iff lib ctx s (fun _ => rfl) fun _ => rfl
  | bootstrapLocal =>
    by_cases hdone : s.localBootstrapped = true
    · have hrun : StartUp.bootstrapLocal.run lib ctx s = s := by
        simp [StartUp.run, bootstrapLocal, hdone, finalState]
      rw [hrun]
      exact iff_of_true hsame fun h => by cases hdone.symm.trans h
    · have hrun : StartUp.bootstrapLocal.run lib ctx s =
          finalState ((openFiles lib ctx ({ · with localBootstrapped := true })).run s) := by
        simp [StartUp.run, bootstrapLocal, hdone, openFiles]
      have hbegins : StartUp.bootstrapLocal.Begins ctx s := eq_false_of_ne_true hdone
      rw [hrun, imp_iff_right hbegins]
      exact openFiles_kept_iff lib ctx s (fun _ => rfl) fun _ => rfl

/-- If the system lets it, the fresh values are written over files that could not be loaded. -/
theorem bootstrapLocal_replaces {error error' createdAt : String}
    (hfirst : s.localBootstrapped = false) (hsodium : ctx.sodium = .ok ())
    (hnow : toISOString ctx.now = some createdAt)
    (hkeypair : loadKeypair lib ctx s.keypairJson = .error error)
    (hstore : StoreData.read lib ctx s.connectionsJson = .error error')
    (hkeypairFile : ctx.keypairFile.mkdir = .ok () ∧ ctx.keypairFile.write = .written ∧
      ctx.keypairFile.chmod = .ok ())
    (hstoreFile : ctx.storeFile.mkdir = .ok () ∧ ctx.storeFile.write = .written) :
    (StartUp.bootstrapLocal.run lib ctx s).keypairJson =
      some (textEncode (lib.stringify (keypairFileJson ctx.generated createdAt))) ∧
    (StartUp.bootstrapLocal.run lib ctx s).connectionsJson =
      some (textEncode (lib.stringify StoreData.empty)) := by
  obtain ⟨hmkdir, hwrite, hchmod⟩ := hkeypairFile
  obtain ⟨t, ht⟩ : ∃ t : Machine, t = { s with
    keypairJson := some (textEncode (lib.stringify (keypairFileJson ctx.generated createdAt))) } :=
    ⟨_, rfl⟩
  have hsave : (saveKeypair lib ctx ctx.generated).run s = .ok () t := by
    unfold saveKeypair
    rw [hmkdir, hnow, hwrite, hchmod, ht]
    rfl
  have hload : (loadOrGenerateKeypair lib ctx).run s = .ok ctx.generated t := by
    have hgenerated : generateKeypair ctx = .ok ctx.generated := by
      unfold generateKeypair
      rw [hsodium]
      rfl
    unfold loadOrGenerateKeypair
    rw [EStateM.run_bind]
    simp only [EStateM.run_get, hkeypair, hgenerated]
    show (saveKeypair lib ctx ctx.generated >>= fun _ => pure ctx.generated).run s = _
    rw [EStateM.run_bind, hsave]
    rfl
  have hopen : (StoreData.openStore lib ctx).run t = .ok () { t with
      connectionsJson := some (textEncode (lib.stringify StoreData.empty)) } := by
    apply StoreData.openStore_run _ hstoreFile.1 hstoreFile.2
    rw [ht]
    simp only [StoreData.load, hstore]
    rfl
  have hrun : (bootstrapLocal lib ctx).run s = (do
      MonadExcept.ofExcept ctx.rest
      modify ({ · with localBootstrapped := true }) : EStateM String Machine Unit).run { t with
        connectionsJson := some (textEncode (lib.stringify StoreData.empty)) } := by
    unfold bootstrapLocal
    rw [EStateM.run_bind]
    simp only [EStateM.run_get, hfirst, Bool.false_eq_true, if_false, EStateM.run_bind, hload,
      hopen]
  unfold StartUp.run
  rw [hrun, ht]
  cases ctx.rest with
  | ok _ => exact ⟨rfl, rfl⟩
  | error _ => exact ⟨rfl, rfl⟩

def bobText (flag : String) : String :=
  "\x7b\n  \"version\": 1,\n  \"connections\": \x7b\n    \"pinch:bob@relay\": \x7b\n" ++
    "      \"passthrough\": " ++ flag ++ "\n    \x7d\n  \x7d\n\x7d"

def emptyText : String := "\x7b\n  \"version\": 1,\n  \"connections\": \x7b\x7d\n\x7d"

def newKeypairText : String :=
  "\x7b\n  \"version\": 1,\n  \"public_key\": \"AQ==\",\n  \"private_key\": \"Ag==\",\n" ++
    "  \"created_at\": \"1970-01-01T00:00:00.000Z\"\n\x7d"

def bobData : JsonValue :=
  .object [("version", one), ("connections",
    .object [("pinch:bob@relay", .object [("passthrough", .bool true)])])]

def plainLibraries : FileLibraries where
  parseJson text := if text = bobText "true" then .ok bobData
    else .error "Unexpected end of JSON input"
  stringify
    | .object [_, (_, .object [])] => emptyText
    | .object [_, (_, .object [(_, .object [(_, .bool flag)])])] => bobText (toString flag)
    | _ => newKeypairText
  fromBase64
    | some (.string value) =>
      match Base64.decodeString value with
      | some bytes => .ok bytes
      | none => .error "invalid input"
    | _ => .error "unsupported input type for input"
  display _ := "undefined"

def goodAccess : FileAccess := ⟨.ok (), .ok (), .written, .ok ()⟩

def goodContext : StartContext where
  relayUrl := none
  now := 0
  sodium := .ok ()
  generated := ⟨[1], [2]⟩
  keypairFile := goodAccess
  storeFile := goodAccess
  rest := .ok ()

theorem startup_keeps_data_iff_bob :
    (StoreLoads plainLibraries goodContext (some (textEncode (bobText "true")))) ∧
    Kept plainLibraries goodContext ⟨none, some (textEncode (bobText "true")), false, false⟩
      (StartUp.bootstrapLocal.run plainLibraries goodContext
        ⟨none, some (textEncode (bobText "true")), false, false⟩) := by
  have hloads : StoreLoads plainLibraries goodContext (some (textEncode (bobText "true"))) := by
    refine ⟨bobData, ?_⟩
    unfold StoreData.read
    rw [readFile_textEncode rfl]
    have hparse : plainLibraries.parseJson (bobText "true") = .ok bobData := by
      simp [plainLibraries]
    exact hparse
  exact ⟨hloads, (startup_keeps_data_iff plainLibraries goodContext _ .bootstrapLocal).2 fun _ =>
    ⟨fun h => absurd rfl h, fun _ _ => .inl hloads⟩⟩

def tornKeypairText : String := "\x7b\n  \"version\": 1,\n  \"public_k"

def tornStoreText : String := "\x7b\n  \"version\": 1,\n  \"connecti"

/-- Both files are torn, and both are replaced. A store that is whole but cannot be opened for
reading at that moment is replaced, too. -/
theorem unread_files_replaced :
    ((StartUp.bootstrapLocal.run plainLibraries goodContext ⟨some (textEncode tornKeypairText),
      some (textEncode tornStoreText), false, false⟩).keypairJson =
        some (textEncode newKeypairText) ∧
    (StartUp.bootstrapLocal.run plainLibraries goodContext ⟨some (textEncode tornKeypairText),
      some (textEncode tornStoreText), false, false⟩).connectionsJson =
        some (textEncode emptyText)) ∧
    (StartUp.bootstrapLocal.run plainLibraries
      { goodContext with
        storeFile := { goodAccess with read := .error "EMFILE: too many open files" } }
      ⟨none, some (textEncode (bobText "true")), false, false⟩).connectionsJson =
        some (textEncode emptyText) := by
  have hparse : ∀ text, text ≠ bobText "true" →
      plainLibraries.parseJson text = .error "Unexpected end of JSON input" :=
    fun text h => by simp [plainLibraries, h]
  have hdate : toISOString 0 = some "1970-01-01T00:00:00.000Z" := by decide
  constructor
  · have hkeypair : loadKeypair plainLibraries goodContext (some (textEncode tornKeypairText)) =
        .error "Unexpected end of JSON input" := by
      have hread : readFile goodContext.keypairFile (some (textEncode tornKeypairText)) =
          .ok tornKeypairText := readFile_textEncode rfl _
      have htorn := hparse tornKeypairText (by decide)
      simp only [loadKeypair, hread, bind, Except.bind, htorn]
      rfl
    have hstore : StoreData.read plainLibraries goodContext (some (textEncode tornStoreText)) =
        .error "Unexpected end of JSON input" := by
      unfold StoreData.read
      rw [readFile_textEncode rfl]
      exact hparse tornStoreText (by decide)
    exact bootstrapLocal_replaces rfl rfl hdate hkeypair hstore ⟨rfl, rfl, rfl⟩ ⟨rfl, rfl⟩
  · exact (bootstrapLocal_replaces rfl rfl hdate rfl rfl ⟨rfl, rfl, rfl⟩ ⟨rfl, rfl⟩).2

end Files

end Pinch
