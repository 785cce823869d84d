import Pinch.Transition
import Mathlib.Logic.Function.Basic
import Mathlib.Data.Int.Order.Basic

/-! The client's connection to the relay. A step is one event of the runtime: a call by the
user, a timer, or an event of a socket, with everything that runs before the next one. Sockets are
numbered in the order of their creation, and the listeners of a socket outlive its replacement. -/

namespace Pinch

/-- `OPEN` is written `opened`. -/
inductive ReadyState
  | connecting
  | opened
  | closing
  | closed
  deriving DecidableEq

inductive AuthState
  | awaitingChallenge
  | awaitingResult
  | done
  deriving DecidableEq

/-- Who awaits a `connect()`. -/
inductive Caller
  | user
  | loop
  deriving DecidableEq

/-- A socket with the variables of the `connect()` that made it. `outcome` is how its promise was
settled, and `closers` counts the calls of `disconnectAsync` that wait for its end. -/
structure Socket where
  readyState : ReadyState := .connecting
  authState : AuthState := .awaitingChallenge
  outcome : Option (Except String Unit) := none
  authTimer : Bool := true
  caller : Caller
  closers : ℕ := 0

inductive HandshakePayload
  | authResult (success : Bool) (errorMessage assignedAddress : String)
  | other (name : String)

/-- A message on a socket: whether it is binary, how `respondToAuthChallenge` ends on it, and what
`fromBinary` makes of it. -/
structure HandshakeMessage where
  isBinary : Bool
  respond : Except String Unit
  decoded : Except String HandshakePayload

/-- `userPreparing` and `loopPreparing` count the calls of `connect()` that still wait for the
library, and `waiting` the reconnect loops in their back-off. `leaked` counts the heartbeat
intervals that `heartbeatTimer` no longer refers to. -/
structure RelayClient where
  ws : Option ℕ := none
  sockets : ℕ → Socket := fun _ =>
    { readyState := .closed, outcome := some (.ok ()), authTimer := false, caller := .user }
  nextSocket : ℕ := 0
  userPreparing : ℕ := 0
  loopPreparing : ℕ := 0
  waiting : ℕ := 0
  heartbeatTimer : Bool := false
  leaked : ℕ := 0
  lastPongTime : ℤ := 0
  heartbeatInterval : ℤ := 25000
  pongTimeout : ℤ := 7000
  authenticated : Bool := false
  assignedAddress : Option String := none
  reconnectAttempt : ℕ := 0
  autoReconnect : Bool := false
  disconnectHandler : Bool := false
  handlerCalled : Bool := false

inductive ClientEvent
  | connect
  | ready (caller : Caller)
  | opened (n : ℕ)
  | message (n : ℕ) (m : HandshakeMessage) (now : ℤ)
  | pong (n : ℕ) (now : ℤ)
  | peerClose (n : ℕ)
  | closed (n : ℕ)
  | error (n : ℕ) (err : String)
  | authTimeout (n : ℕ)
  | tick (now : ℤ)
  | backoff
  | onDisconnect
  | disconnect
  | disconnectAsync
  | asyncTimeout (n : ℕ)

def maxAttempts : ℕ := 20

namespace RelayClient

def modify (s : RelayClient) (n : ℕ) (f : Socket → Socket) : RelayClient :=
  { s with sockets := Function.update s.sockets n (f (s.sockets n)) }

def cleanup (s : RelayClient) : RelayClient :=
  { s with authenticated := false, heartbeatTimer := false }

/-- `close()` or `terminate()` of a socket. Its close event is still to come. -/
def shut (s : RelayClient) (n : ℕ) : RelayClient :=
  s.modify n fun x =>
    { x with readyState := if x.readyState = .closed then .closed else .closing }

/-- The same with `this.ws?`, which may be a newer socket. -/
def shutCurrent (s : RelayClient) : RelayClient :=
  match s.ws with
  | none => s
  | some n => s.shut n

/-- The head of the loop of `attemptReconnect`, and what follows the loop. -/
def attemptReconnect (s : RelayClient) : RelayClient :=
  if s.reconnectAttempt < maxAttempts then { s with waiting := s.waiting + 1 }
  else if s.disconnectHandler then { s with handlerCalled := true }
  else s

def settle (s : RelayClient) (n : ℕ) (outcome : Except String Unit) : RelayClient :=
  s.modify n fun x => { x with outcome := some outcome }

/-- A reconnect loop that awaits the promise counts the attempt and goes on. -/
def rejectOnce (s : RelayClient) (n : ℕ) (err : String) : RelayClient :=
  match (s.sockets n).outcome, (s.sockets n).caller with
  | some _, _ => s
  | none, .user => s.settle n (.error err)
  | none, .loop =>
    { s.settle n (.error err) with reconnectAttempt := s.reconnectAttempt + 1 }.attemptReconnect

/-- A reconnect loop that awaits the promise ends. -/
def resolveOnce (s : RelayClient) (n : ℕ) : RelayClient :=
  match (s.sockets n).outcome, (s.sockets n).caller with
  | some _, _ => s
  | none, .user => s.settle n (.ok ())
  | none, .loop => { s.settle n (.ok ()) with reconnectAttempt := 0 }

/-- `connect()` once the library is ready. -/
def newSocket (s : RelayClient) (caller : Caller) : RelayClient :=
  { s with
    ws := some s.nextSocket
    nextSocket := s.nextSocket + 1 }.modify s.nextSocket fun _ => { caller := caller }

def clearAuthTimer (s : RelayClient) (n : ℕ) : RelayClient :=
  s.modify n fun x => { x with authTimer := false }

/-- The end of a handshake that fails. -/
def refuse (s : RelayClient) (n : ℕ) (err : String) : RelayClient :=
  (s.clearAuthTimer n).shutCurrent.rejectOnce n err

/-- An interval that is still running is not cleared first. -/
def startHeartbeat (s : RelayClient) : RelayClient :=
  { s with
    heartbeatTimer := true
    leaked := if s.heartbeatTimer then s.leaked + 1 else s.leaked }

def accept (s : RelayClient) (n : ℕ) (assignedAddress : String) (now : ℤ) : RelayClient :=
  (({ s with
    assignedAddress := some assignedAddress
    authenticated := true
    lastPongTime := now }.modify n fun x =>
      { x with authState := .done, authTimer := false }).startHeartbeat).resolveOnce n

/-- After the handshake a message goes to the handlers. -/
def onMessage (s : RelayClient) (n : ℕ) (m : HandshakeMessage) (now : ℤ) : RelayClient :=
  match (s.sockets n).authState with
  | .awaitingChallenge =>
    if !m.isBinary then s.refuse n "expected binary auth challenge"
    else match m.respond with
      | .ok () => s.modify n fun x => { x with authState := .awaitingResult }
      | .error err => s.refuse n err
  | .awaitingResult =>
    if !m.isBinary then s.refuse n "expected binary auth result"
    else match m.decoded with
      | .error err => s.refuse n err
      | .ok (.other name) => s.refuse n ("expected AuthResult, got " ++ name)
      | .ok (.authResult false errorMessage _) =>
        s.refuse n ("auth failed: " ++
          if errorMessage = "" then "unknown error" else errorMessage)
      | .ok (.authResult true _ assignedAddress) => s.accept n assignedAddress now
  | .done => s

/-- The close event. Calls of `disconnectAsync` that wait for it clean up once more. -/
def onClose (s : RelayClient) (n : ℕ) : RelayClient :=
  let t := (s.modify n fun x =>
    { x with readyState := .closed, authTimer := false, closers := 0 }).cleanup
  if (s.sockets n).authState ≠ .done then
    t.rejectOnce n "connection closed during auth handshake"
  else if s.authenticated && s.autoReconnect then t.attemptReconnect
  else t

/-- The error event. The socket is closing by then. -/
def onError (s : RelayClient) (n : ℕ) (err : String) : RelayClient :=
  ((s.clearAuthTimer n).shut n).rejectOnce n err

def onAuthTimeout (s : RelayClient) (n : ℕ) : RelayClient :=
  (s.clearAuthTimer n).shutCurrent.rejectOnce n "auth handshake timed out"

/-- A heartbeat tick. A ping that is sent changes nothing here. -/
def onTick (s : RelayClient) (now : ℤ) : RelayClient :=
  match s.ws with
  | none => s.cleanup
  | some n =>
    if (s.sockets n).readyState ≠ .opened then s.cleanup
    else if s.heartbeatInterval + s.pongTimeout < now - s.lastPongTime then (s.shut n).cleanup
    else s

def disconnect (s : RelayClient) : RelayClient :=
  match s.ws with
  | none => { s with autoReconnect := false }
  | some n => ({ s with autoReconnect := false }.shut n).cleanup

def disconnectAsync (s : RelayClient) : RelayClient :=
  match s.ws with
  | none => { s with autoReconnect := false }
  | some n =>
    ({ s with autoReconnect := false }.modify n fun x => { x with closers := x.closers + 1 }).shut n

def onAsyncTimeout (s : RelayClient) (n : ℕ) : RelayClient :=
  ((s.modify n fun x => { x with closers := x.closers - 1 }).shut n).cleanup

def isConnected (s : RelayClient) : Bool :=
  s.authenticated && s.ws.any fun n => (s.sockets n).readyState = .opened

/-- Messages and pongs can still come in while a socket is closing. -/
def receives (s : RelayClient) (n : ℕ) : Bool :=
  n < s.nextSocket &&
    ((s.sockets n).readyState = .opened || (s.sockets n).readyState = .closing)

def step (s : RelayClient) (e : ClientEvent) : Option RelayClient :=
  match e with
  | .connect => some { s with userPreparing := s.userPreparing + 1 }
  | .ready .user =>
    if 0 < s.userPreparing then
      some ({ s with userPreparing := s.userPreparing - 1 }.newSocket .user)
    else none
  | .ready .loop =>
    if 0 < s.loopPreparing then
      some ({ s with loopPreparing := s.loopPreparing - 1 }.newSocket .loop)
    else none
  | .opened n =>
    if n < s.nextSocket ∧ (s.sockets n).readyState = .connecting then
      some (s.modify n fun x => { x with readyState := .opened })
    else none
  | .message n m now => if s.receives n then some (s.onMessage n m now) else none
  | .pong n now => if s.receives n then some { s with lastPongTime := now } else none
  | .peerClose n =>
    if n < s.nextSocket ∧ (s.sockets n).readyState = .opened then some (s.shut n) else none
  | .closed n =>
    if n < s.nextSocket ∧ (s.sockets n).readyState ≠ .closed then some (s.onClose n) else none
  | .error n err =>
    if n < s.nextSocket ∧ (s.sockets n).readyState ≠ .closed then some (s.onError n err) else none
  | .authTimeout n => if (s.sockets n).authTimer then some (s.onAuthTimeout n) else none
  | .tick now => if s.heartbeatTimer ∨ 0 < s.leaked then some (s.onTick now) else none
  | .backoff =>
    if 0 < s.waiting then
      some { s with waiting := s.waiting - 1, loopPreparing := s.loopPreparing + 1 }
    else none
  | .onDisconnect => some { s with disconnectHandler := true }
  | .disconnect => some s.disconnect
  | .disconnectAsync => some s.disconnectAsync
  | .asyncTimeout n => if 0 < (s.sockets n).closers then some (s.onAsyncTimeout n) else none

end RelayClient

end Pinch
