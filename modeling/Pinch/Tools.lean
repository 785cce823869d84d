import Pinch.AutonomyControl
import Pinch.RemoteInput
import Pinch.SendMessage

/-! The command-line tools. Each of them is a process of its own, which loads the records, clears
their passthrough flags and saves them before it does anything else. The tools of one agent are
run one after the other here, and share the store file and the database. -/

namespace Pinch

inductive InterveneMode
  | start
  | stop
  | send (body : String)

/-- A tool with its parsed arguments; those that only select what is printed are left out. -/
inductive Tool
  | accept (connection : String)
  | activity
  | auditExport
  | auditVerify
  | autonomy (request : AutonomyRequest)
  | connect (toAddress message : String)
  | contacts
  | history
  | intervene (mode : InterveneMode) (connection : String)
  | mute (connection : String) (unmute : Bool)
  /-- No change for `--show`. -/
  | permissions (address : String) (change : Option (PermissionsManifest → PermissionsManifest))
  | reject (connection : String)
  | send (params : SendMessageParams)
  | status

/-- The tools that start with `bootstrapLocal` and never connect to the relay. -/
def Tool.isLocal : Tool → Bool
  | .auditExport | .auditVerify | .permissions .. => true
  | _ => false

namespace Sender

def onAgent {α : Type} (x : Op α) : SenderOp α :=
  zoom (·.toAgent) (fun s agent => { s with toAgent := agent }) x

def onStore {α : Type} (x : StoreOp α) : SenderOp α :=
  zoom (·.connectionStore) (fun s store => { s with connectionStore := store }) x

end Sender

namespace Tool

variable (setup : SendSetup) (ctx : SendContext)

/-- A setting is written and saved, and the feed says so. -/
def applySetting (p : String) (setting : ConnectionStore.Setting) (eventType badge : String) :
    SenderOp Unit := do
  Sender.onStore (ConnectionStore.applySetting ctx.now p setting)
  Sender.onStore (throwIf ctx.saveError)
  Sender.onNode (Node.recordActivity ctx.now
    { connectionAddress := p
      eventType := eventType
      actionType := some eventType
      badge := some badge })

/-- A manifest that is not valid is reported and nothing is saved. -/
def setPermissions (address : String) (change : Option (PermissionsManifest → PermissionsManifest)) :
    SenderOp Unit := do
  match (← get).connectionStore.getConnection address, change with
  | some connection, some change =>
    let manifest := change (connection.permissionsManifest.getD defaultPermissionsManifest)
    tryCatch
      (do
        Sender.onStore (ConnectionStore.applySetting ctx.now address (.permissions manifest))
        Sender.onStore (throwIf ctx.saveError))
      fun _ => pure ()
  | _, _ => pure ()

/-- What a tool does between `bootstrap` and `shutdown`. -/
def command : Tool → SenderOp Unit
  | .accept p => Sender.onAgent ((ConnectionEvent.approveRequest p).perform ctx.toCallContext)
  | .autonomy request => discard (Sender.onStore (changeLevel ctx.now ctx.saveError request))
  | .connect toAddress message =>
    Sender.onAgent ((ConnectionEvent.sendRequest toAddress message).perform ctx.toCallContext)
  | .intervene .start p =>
    applySetting ctx p (.passthrough true) "intervention_started" "intervention"
  | .intervene .stop p =>
    applySetting ctx p (.passthrough false) "intervention_ended" "intervention"
  | .intervene (.send body) p => discard (MessageManager.sendMessage setup ctx
      { recipient := p, body := body, attribution := some .human })
  | .mute p unmute =>
    let eventType := if unmute then "connection_unmuted" else "connection_muted"
    applySetting ctx p (.muted !unmute) eventType "muted"
  | .permissions address change => setPermissions ctx address change
  | .reject p => Sender.onAgent ((ConnectionEvent.rejectRequest p).perform ctx.toCallContext)
  | .send params => discard (MessageManager.sendMessage setup ctx params)
  | .activity | .auditExport | .auditVerify | .contacts | .history | .status => pure ()

end Tool

/-- The tables of `messages.db`. -/
structure Database where
  messageStore : MessageStore
  activityFeed : List ActivityEvent
  sequences : AList fun _ : String => Nat

structure ToolProcess where
  tool : Tool
  process : Process
  sequences : AList fun _ : String => Nat
  /-- The tool is done with its work and about to shut down. -/
  commanded : Bool

def ToolProcess.store (t : ToolProcess) : ConnectionStore := t.process.node.connectionStore

structure Host where
  connectionsJson : ConnectionStore
  database : Database
  running : Option ToolProcess

inductive HostLabel
  | invoke (tool : Tool)
  | command (ctx : SendContext)
  | input (x : InputLabel)
  /-- A call of `save()` writes the records as they are. -/
  | save
  /-- The tool shuts down, or an exception ends it. -/
  | exit

/-- Both setups of one agent. -/
structure HostSetup where
  receive : Setup
  send : SendSetup

namespace Host

/-- `bootstrap` up to `relayClient.connect()`, or `bootstrapLocal`, of a tool whose arguments have
been parsed. -/
def bootstrap (s : Host) (tool : Tool) : Host :=
  let store := s.connectionsJson.clearPassthroughFlags
  let node : Node :=
    { connectionStore := store
      outbox := []
      messageStore := s.database.messageStore
      breakerEvents := ∅
      activityFeed := s.database.activityFeed
      flush := ⟨-1, false, false⟩ }
  { s with
    connectionsJson := store
    running := some ⟨tool, .idle node, s.database.sequences, false⟩ }

def runCommand (setup : HostSetup) (ctx : SendContext) (t : ToolProcess) : ToolProcess :=
  let s := finalState ((t.tool.command setup.send ctx).run ⟨t.process.node, t.sequences⟩)
  { t with
    process := { t.process with node := s.toNode }
    sequences := s.sequences
    commanded := true }

def step (setup : HostSetup) (s : Host) : HostLabel → Option Host
  | .invoke tool =>
    match s.running with
    | none => some (s.bootstrap tool)
    | some _ => none
  | .command ctx =>
    match s.running with
    | some t => if t.commanded then none else some { s with running := some (runCommand setup ctx t) }
    | none => none
  | .input x =>
    match s.running with
    | some t =>
      if t.tool.isLocal then none
      else (t.process.input setup.receive x).map fun process =>
        { s with running := some { t with process := process } }
    | none => none
  | .save => s.running.map fun t => { s with connectionsJson := t.store }
  | .exit => s.running.map fun t =>
      { s with
        database := ⟨t.process.node.messageStore, t.process.node.activityFeed, t.sequences⟩
        running := none }

end Host

end Pinch
