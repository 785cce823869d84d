import Pinch.Base64
import Pinch.IsoDate
import Pinch.Identity
import Pinch.PermissionsManifest
import Mathlib.Data.List.AList

/-! The agent's connection records, one per peer address. The code keeps them in a plain object,
which also answers to the twelve names that every object inherits, such as `constructor`. A finite
map is this object for all other keys; what becomes of the twelve is modelled with the objects of
the language. -/

namespace Pinch

inductive ConnectionState
  | active
  | pendingOutbound
  | pendingInbound
  | blocked
  | revoked
  deriving DecidableEq

def ConnectionState.name : ConnectionState → String
  | active => "active"
  | pendingOutbound => "pending_outbound"
  | pendingInbound => "pending_inbound"
  | blocked => "blocked"
  | revoked => "revoked"

inductive AutonomyLevel
  | fullManual
  | notify
  | autoRespond
  | fullAuto
  deriving DecidableEq

structure Connection where
  peerAddress : String
  peerPublicKey : Option String
  state : ConnectionState
  nickname : String
  autonomyLevel : AutonomyLevel
  autoRespondPolicy : Option String
  circuitBreakerTripped : Option Bool
  permissionsManifest : Option PermissionsManifest
  muted : Option Bool
  passthrough : Option Bool
  shortMessage : Option String
  createdAt : String
  lastActivity : String
  expiresAt : Option String
  deriving DecidableEq

structure NewConnection where
  peerAddress : String
  peerPublicKey : String
  state : ConnectionState
  nickname : String
  autonomyLevel : Option AutonomyLevel
  autoRespondPolicy : Option String := none
  circuitBreakerTripped : Option Bool := none
  permissionsManifest : Option PermissionsManifest := none
  muted : Option Bool := none
  passthrough : Option Bool := none
  shortMessage : Option String
  expiresAt : Option String

/-- The argument of `updateConnection`. `Object.assign` also copies a property
that is present with the value `undefined`, which only happens for the key. -/
structure ConnectionUpdates where
  state : Option ConnectionState := none
  nickname : Option String := none
  autonomyLevel : Option AutonomyLevel := none
  peerPublicKey : Option (Option String) := none
  autoRespondPolicy : Option String := none
  circuitBreakerTripped : Option Bool := none
  permissionsManifest : Option PermissionsManifest := none
  muted : Option Bool := none
  passthrough : Option Bool := none

abbrev ConnectionStore := AList (fun _ : String => Connection)

namespace ConnectionStore

def maxShortMessageLength : Nat := 280

def getConnection (s : ConnectionStore) (peerAddress : String) : Option Connection :=
  s.lookup peerAddress

/-- The record `addConnection` writes: full manual and the deny-all manifest unless
the caller says otherwise. -/
def freshConnection (now : Int) (conn : NewConnection) : Connection where
  peerAddress := conn.peerAddress
  peerPublicKey := some conn.peerPublicKey
  state := conn.state
  nickname := conn.nickname
  autonomyLevel := conn.autonomyLevel.getD .fullManual
  autoRespondPolicy := conn.autoRespondPolicy
  circuitBreakerTripped := conn.circuitBreakerTripped
  permissionsManifest := some (conn.permissionsManifest.getD defaultPermissionsManifest)
  muted := conn.muted
  passthrough := conn.passthrough
  shortMessage := conn.shortMessage
  createdAt := isoString now
  lastActivity := isoString now
  expiresAt := conn.expiresAt

def addConnection (s : ConnectionStore) (now : Int) (conn : NewConnection) :
    Except String ConnectionStore :=
  if maxShortMessageLength < utf16Length (conn.shortMessage.getD "") then
    .error "shortMessage exceeds 280 character limit"
  else .ok (s.insert conn.peerAddress (freshConnection now conn))

def assign (c : Connection) (u : ConnectionUpdates) (now : Int) : Connection :=
  { c with
    state := u.state.getD c.state
    nickname := u.nickname.getD c.nickname
    autonomyLevel := u.autonomyLevel.getD c.autonomyLevel
    peerPublicKey := u.peerPublicKey.getD c.peerPublicKey
    autoRespondPolicy := u.autoRespondPolicy <|> c.autoRespondPolicy
    circuitBreakerTripped := u.circuitBreakerTripped <|> c.circuitBreakerTripped
    permissionsManifest := u.permissionsManifest <|> c.permissionsManifest
    muted := u.muted <|> c.muted
    passthrough := u.passthrough <|> c.passthrough
    lastActivity := isoString now }

def updateConnection (s : ConnectionStore) (now : Int) (peerAddress : String)
    (updates : ConnectionUpdates) : Except String ConnectionStore :=
  match s.getConnection peerAddress with
  | none => .error ("connection not found: " ++ peerAddress)
  | some conn => .ok (s.insert peerAddress (assign conn updates now))

def setAutonomy (s : ConnectionStore) (now : Int) (peerAddress : String) (level : AutonomyLevel)
    (confirmed : Bool) : Except String ConnectionStore :=
  match s.getConnection peerAddress with
  | none => .error ("connection not found: " ++ peerAddress)
  | some conn =>
    if level = .fullAuto ∧ conn.autonomyLevel ≠ .fullAuto ∧ confirmed ≠ true then
      .error "Upgrading to Full Auto requires explicit confirmation"
    else
      let conn := if conn.circuitBreakerTripped = some true then
        { conn with circuitBreakerTripped := some false } else conn
      updateConnection (s.insert peerAddress conn) now peerAddress { autonomyLevel := some level }

def getPeerPublicKey (sha256 : Bytes → Bytes) (s : ConnectionStore) (peerAddress : String) :
    Option Bytes :=
  match (s.getConnection peerAddress).bind (·.peerPublicKey) with
  | some key => if key ≠ "" then some (Base64.decode key) else embeddedKey sha256 peerAddress
  | none => embeddedKey sha256 peerAddress

theorem getConnection_insert (s : ConnectionStore) (p q : String) (c : Connection) :
    getConnection (s.insert q c) p = if q = p then some c else s.getConnection p := by
  by_cases h : q = p
  · subst h
    simp [getConnection]
  · simp [getConnection, AList.lookup_insert_ne (Ne.symm h), h]

end ConnectionStore

end Pinch
