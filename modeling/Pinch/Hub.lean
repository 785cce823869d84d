import Pinch.Envelope
import Pinch.MessageQueue
import Pinch.Transition
import Mathlib.Logic.Function.Basic

/-! The relay's hub. Every goroutine has a program counter, and a step of the hub
is one access to what they share: the routing table, a client's send channel,
flushing flag or context, the block store and the durable queue. -/

namespace Pinch

def maxEnvelopeSize : ℕ := 65536

def flushBatchSize : ℕ := 50

def sendBufferSize : ℕ := 256

/-- Bytes from a client: their length, and what `proto.Unmarshal` makes of them. -/
structure Frame where
  size : ℕ
  envelope : Option Envelope
  deriving DecidableEq

/-- A frame with the number of the `RouteMessage` call that handles it. The hub does
not read the number. -/
structure Parcel where
  frame : Frame
  call : ℕ
  deriving DecidableEq

inductive Item
  | direct (sender : String) (parcel : Parcel)
  | queued (key : QueueKey) (sender : String) (parcel : Parcel)
  | control (envelope : Envelope)
  deriving DecidableEq

inductive RoutePc
  | reply (envelope : Envelope)
  | block (blockedAddress : String)
  | unblock (unblockedAddress : String)
  | isBlocked (toAddress : String)
  | lookupClient (toAddress : String)
  | isFlushing (toAddress : String) (recipient : ℕ)
  | enqueue (toAddress : String)
  | deliver (recipient : ℕ)
  deriving DecidableEq

structure RouteCall where
  parcel : Parcel
  pc : RoutePc
  deriving DecidableEq

inductive FlushPc
  | checkCtx
  | flushBatch
  | sending (entries : List (QueueEntry Parcel))
  | removing (entry : QueueEntry Parcel) (rest : List (QueueEntry Parcel))
  | clearing
  deriving DecidableEq

/-- Where a client's connection stands: the handshake is waiting for its result to be
sent, `ReadPump` is running, `Unregister` is waiting for the hub, or all is over. -/
inductive ClientStage
  | handshaking
  | reading
  | leaving
  | gone
  deriving DecidableEq

structure Client where
  address : String
  send : List Item := []
  closed : Bool := false
  cancelled : Bool := false
  flushing : Bool := false
  stage : ClientStage := .handshaking
  writing : Bool := false
  route : Option RouteCall := none
  flush : Option FlushPc := none
  deriving DecidableEq

inductive RunPc
  | idle
  | counting (client : ℕ)
  | announcing (client count : ℕ)
  | flagging (client : ℕ)
  | cancelling (client : ℕ) (shutdown : Bool)
  | stopping
  | stopped
  deriving DecidableEq

structure BlockStore where
  keys : List String

namespace BlockStore

def key (blockerAddr blockedAddr : String) : String := blockerAddr ++ ":" ++ blockedAddr

def block (b : BlockStore) (blockerAddr blockedAddr : String) : BlockStore :=
  ⟨key blockerAddr blockedAddr :: b.keys⟩

def unblock (b : BlockStore) (blockerAddr blockedAddr : String) : BlockStore :=
  ⟨b.keys.filter (· ≠ key blockerAddr blockedAddr)⟩

def isBlocked (b : BlockStore) (blockerAddr senderAddr : String) : Bool :=
  key blockerAddr senderAddr ∈ b.keys

end BlockStore

structure Placement where
  client : ℕ
  address : String
  item : Item
  deriving DecidableEq

/-- Clients are numbered in the order of their registration. `clock` is the last clock
reading, `placed` lists what was ever placed in a send channel; neither is read. -/
structure Hub where
  clients : String → Option ℕ
  heap : ℕ → Client
  nextClient : ℕ
  nextCall : ℕ
  mq : MessageQueue Parcel
  blockStore : BlockStore
  run : RunPc
  serverDone : Bool
  panicked : Bool
  clock : Int64
  placed : List Placement

inductive HubLabel
  | register (address : String)
  | run (ok : Bool)
  | unregister (client : ℕ)
  | signal
  | propagate (client : ℕ)
  | beginShutdown
  | closeNext (client : ℕ)
  | stop
  | authResult (client : ℕ) (ok : Bool)
  | readError (client : ℕ)
  | route (client : ℕ) (frame : Frame) (allowed : Bool)
  | routeStep (client : ℕ) (now : Int64) (ok : Bool)
  | flushStep (client : ℕ) (now : Int64) (ok : Bool)
  | write (client : ℕ)
  | sweep (now : Int64)
  deriving DecidableEq

def HubLabel.succeeds : HubLabel → Bool
  | .run ok | .routeStep _ _ ok | .flushStep _ _ ok => ok
  | _ => true

def rateLimitedEnvelope : Envelope where
  version := 1
  type := .rateLimited
  payload := .rateLimited ⟨1000, "per-connection rate limit exceeded"⟩

def queueFullEnvelope (recipientAddress : String) : Envelope where
  version := 1
  type := .queueFull
  payload := .queueFull ⟨recipientAddress, "recipient message queue is full (limit: 1000)"⟩

def queueStatusEnvelope (pendingCount : ℤ) : Envelope where
  version := 1
  type := .queueStatus
  payload := .queueStatus ⟨pendingCount⟩

namespace Hub

/-- A hub that has just started on an existing database. A number that has not been
given out yet stands for a client that is gone. -/
def start (mq : MessageQueue Parcel) (blockStore : BlockStore) : Hub where
  clients := fun _ => none
  heap := fun _ => { address := "", closed := true, cancelled := true, stage := .gone }
  nextClient := 0
  nextCall := 0
  mq := mq
  blockStore := blockStore
  run := .idle
  serverDone := false
  panicked := false
  clock := 0
  placed := []

def modify (s : Hub) (c : ℕ) (f : Client → Client) : Hub :=
  { s with heap := Function.update s.heap c (f (s.heap c)) }

/-- `Client.Send`. A send on a closed channel panics, and a full channel drops the item. -/
def send (s : Hub) (c : ℕ) (item : Item) : Hub :=
  if (s.heap c).closed then { s with panicked := true }
  else if (s.heap c).send.length < sendBufferSize then
    { s with placed := s.placed ++ [Placement.mk c (s.heap c).address item] }.modify c
      (fun x => { x with send := x.send ++ [item] })
  else s

def close (s : Hub) (c : ℕ) (shutdown : Bool) : Hub :=
  { s with
    clients := Function.update s.clients (s.heap c).address none
    run := .cancelling c shutdown }.modify c (fun x => { x with closed := true })

/-- The write lock is held across steps only while clients are being closed. -/
def locked (s : Hub) : Bool :=
  match s.run with
  | .cancelling _ _ | .stopping => true
  | _ => false

def lookupClient (s : Hub) (address : String) : Option ℕ := s.clients address

/-- The register case of `Run` up to the reply to `Register`. -/
def register (s : Hub) (address : String) : Hub :=
  match s.clients address with
  | some _ => s
  | none =>
    { s with
      clients := Function.update s.clients address (some s.nextClient)
      nextClient := s.nextClient + 1
      run := .counting s.nextClient }.modify s.nextClient
        (fun _ => { address := address, cancelled := s.serverDone })

def runStep (s : Hub) (ok : Bool) : Option Hub :=
  match s.run with
  | .counting c =>
    let count := if ok then s.mq.count (s.heap c).address else 0
    some { s with run := if 0 < count then .announcing c count else .idle }
  | .announcing c count =>
    let status := queueStatusEnvelope ((count : ℤ).bmod 4294967296)
    some ({ s with run := .flagging c }.send c (.control status))
  | .flagging c =>
    some ({ s with run := .idle }.modify c
      (fun x => { x with flushing := true, flush := some .checkCtx }))
  | .cancelling c shutdown =>
    some ({ s with run := if shutdown then .stopping else .idle }.modify c
      (fun x => { x with cancelled := true }))
  | _ => none

def unregister (s : Hub) (c : ℕ) : Hub :=
  let s' := s.modify c (fun x => { x with stage := .gone })
  if s.clients (s.heap c).address = some c then s'.close c false else s'

/-- `RouteMessage` up to its first access to shared state; `none` when it returns. -/
def routeMessage (frame : Frame) (allowed : Bool) : Option RoutePc :=
  if !allowed then some (.reply rateLimitedEnvelope)
  else if maxEnvelopeSize < frame.size then none
  else match frame.envelope with
    | none => none
    | some env =>
      match env.type, env.payload with
      | .blockNotification, .blockNotification bn => some (.block bn.blockedAddress)
      | .blockNotification, _ => none
      | .unblockNotification, .unblockNotification un => some (.unblock un.unblockedAddress)
      | .unblockNotification, _ => none
      | _, _ => if env.toAddress = "" then none else some (.isBlocked env.toAddress)

@[simp]
def setRoute (s : Hub) (c : ℕ) (route : Option RouteCall) : Hub :=
  s.modify c (fun x => { x with route := route })

def routeStep (s : Hub) (c : ℕ) (now : Int64) (ok : Bool) : Option Hub :=
  let sender := (s.heap c).address
  (s.heap c).route.bind fun call =>
    match call.pc with
    | .reply env => some ((s.send c (.control env)).setRoute c none)
    | .block target =>
      let blockStore := if ok then s.blockStore.block sender target else s.blockStore
      some ({ s with blockStore := blockStore }.setRoute c none)
    | .unblock target =>
      let blockStore := if ok then s.blockStore.unblock sender target else s.blockStore
      some ({ s with blockStore := blockStore }.setRoute c none)
    | .isBlocked toAddress =>
      some (s.setRoute c (if ok && s.blockStore.isBlocked toAddress sender then none
        else some { call with pc := .lookupClient toAddress }))
    | .lookupClient toAddress =>
      if s.locked then none
      else match s.lookupClient toAddress with
        | none => some (s.setRoute c (some { call with pc := .enqueue toAddress }))
        | some recipient =>
          some (s.setRoute c (some { call with pc := .isFlushing toAddress recipient }))
    | .isFlushing toAddress recipient =>
      let pc := if (s.heap recipient).flushing then .enqueue toAddress else .deliver recipient
      some (s.setRoute c (some { call with pc := pc }))
    | .enqueue toAddress =>
      if ok then
        match s.mq.enqueue toAddress sender call.parcel now with
        | .error .queueFull =>
          some (s.setRoute c (some { call with pc := .reply (queueFullEnvelope toAddress) }))
        | .ok mq => some ({ s with mq := mq, clock := now }.setRoute c none)
      else some (s.setRoute c none)
    | .deliver recipient =>
      some ((s.send recipient (.direct sender call.parcel)).setRoute c none)

@[simp]
def setFlush (s : Hub) (c : ℕ) (pc : FlushPc) : Hub :=
  s.modify c (fun x => { x with flush := some pc })

def flushQueuedMessages (s : Hub) (c : ℕ) (now : Int64) (ok : Bool) : Option Hub :=
  let address := (s.heap c).address
  (s.heap c).flush.bind fun pc =>
    match pc with
    | .checkCtx => some (s.setFlush c (if (s.heap c).cancelled then .clearing else .flushBatch))
    | .flushBatch =>
      if ok then
        let entries := s.mq.flushBatch address flushBatchSize now
        some ({ s with clock := now }.setFlush c
          (if entries = [] then .clearing else .sending entries))
      else some (s.setFlush c .clearing)
    | .sending [] => some (s.setFlush c .checkCtx)
    | .sending (e :: rest) =>
      some ((s.send c (.queued e.key e.senderAddr e.envelope)).setFlush c (.removing e rest))
    | .removing e rest =>
      let mq := if ok then s.mq.remove address e.key else s.mq
      some ({ s with mq := mq }.setFlush c (.sending rest))
    | .clearing =>
      some (s.modify c (fun x => { x with flushing := false, flush := none }))

def step (s : Hub) (label : HubLabel) : Option Hub :=
  if s.panicked then none
  else match label with
    | .register address => if s.run = .idle then some (s.register address) else none
    | .run ok => s.runStep ok
    | .unregister c =>
      if s.run = .idle ∧ (s.heap c).stage = .leaving then some (s.unregister c) else none
    | .signal => some { s with serverDone := true }
    | .propagate c =>
      if s.serverDone ∧ c < s.nextClient then
        some (s.modify c (fun x => { x with cancelled := true }))
      else none
    | .beginShutdown =>
      if s.serverDone ∧ s.run = .idle then some { s with run := .stopping } else none
    | .closeNext c =>
      if s.run = .stopping ∧ s.clients (s.heap c).address = some c then some (s.close c true)
      else none
    | .stop =>
      if s.run = .stopping ∧ ∀ c < s.nextClient, s.clients (s.heap c).address ≠ some c then
        some { s with run := .stopped }
      else none
    | .authResult c ok =>
      if (s.heap c).stage = .handshaking then
        some (s.modify c (fun x =>
          { x with stage := if ok then .reading else .leaving, writing := ok }))
      else none
    | .readError c =>
      if (s.heap c).stage = .reading ∧ (s.heap c).route = none then
        some (s.modify c (fun x => { x with stage := .leaving }))
      else none
    | .route c frame allowed =>
      if (s.heap c).stage = .reading ∧ (s.heap c).route = none then
        let route := (routeMessage frame allowed).map (⟨⟨frame, s.nextCall⟩, ·⟩)
        some ({ s with nextCall := s.nextCall + 1 }.setRoute c route)
      else none
    | .routeStep c now ok => s.routeStep c now ok
    | .flushStep c now ok => s.flushQueuedMessages c now ok
    | .write c =>
      if (s.heap c).writing ∧ (s.heap c).send ≠ [] then
        some (s.modify c (fun x => { x with send := x.send.tail }))
      else none
    | .sweep now => some { s with mq := (s.mq.sweep now).2, clock := now }

abbrev FreeRun (s : Hub) (l : List HubLabel) (t : Hub) : Prop :=
  Transition.Run step (fun _ _ => True) s l t

end Hub

end Pinch
