import CoreVpn.Core.AddressPools
import CoreVpn.Lib.Tables

namespace CoreVpn.Core.Sessions

open Lib.Computation Lib.Tables Networks AddressPools

abbrev SessionId := BitVec 128

abbrev UserId := String

inductive SessionState where
  | connecting
  | handshaking
  | authenticating
  | active
  | disconnecting
  | terminated
  deriving DecidableEq, Repr

def SessionState.name : SessionState → String
  | .connecting => "Connecting"
  | .handshaking => "Handshaking"
  | .authenticating => "Authenticating"
  | .active => "Active"
  | .disconnecting => "Disconnecting"
  | .terminated => "Terminated"

def hexDigits (width n : Nat) : String :=
  String.ofList ((Nat.toDigits 16 n).leftpad width '0')

def SessionId.text (id : SessionId) : String :=
  let part (start width : Nat) := hexDigits width (id.toNat / 16 ^ start % 16 ^ width)
  part 24 8 ++ "-" ++ part 20 4 ++ "-" ++ part 16 4 ++ "-" ++ part 12 4 ++ "-" ++ part 0 12

/-- Times and durations are counted in the smallest unit of the calendar clock. -/
structure Session where
  id : SessionId
  userId : Option UserId
  state : SessionState
  vpnAddress : Option VpnAddress
  clientIp : IpAddr
  clientPort : UInt16
  createdAt : Int
  lastActivity : Int
  expiresAt : Int
  bytesRx : UInt64
  bytesTx : UInt64
  packetsRx : UInt64
  packetsTx : UInt64
  clientVersion : Option String
  oauthToken : Option String
  deriving DecidableEq

namespace Session

def new (id : SessionId) (now : Int) (clientIp : IpAddr) (clientPort : UInt16) (lifetime : Int) : Session where
  id := id
  userId := none
  state := .connecting
  vpnAddress := none
  clientIp := clientIp
  clientPort := clientPort
  createdAt := now
  lastActivity := now
  expiresAt := now + lifetime
  bytesRx := 0
  bytesTx := 0
  packetsRx := 0
  packetsTx := 0
  clientVersion := none
  oauthToken := none

def isExpired (now : Int) (session : Session) : Bool := decide (now > session.expiresAt)

def touch (now : Int) (session : Session) : Session := { session with lastActivity := now }

def recordRx (now : Int) (bytes : UInt64) (session : Session) : Session :=
  touch now { session with bytesRx := session.bytesRx + bytes, packetsRx := session.packetsRx + 1 }

def recordTx (now : Int) (bytes : UInt64) (session : Session) : Session :=
  touch now { session with bytesTx := session.bytesTx + bytes, packetsTx := session.packetsTx + 1 }

def extend (now duration : Int) (session : Session) : Session := { session with expiresAt := now + duration }

def validTransition : SessionState → SessionState → Bool
  | .connecting, .handshaking => true
  | .handshaking, .authenticating => true
  | .authenticating, .active => true
  | .active, .disconnecting => true
  | _, .terminated => true
  | _, _ => false

def transition (newState : SessionState) : Program Session CoreError Unit := do
  let session ← get
  if validTransition session.state newState then
    modify fun session => { session with state := newState }
  else
    fail (.internal s!"Invalid state transition: {session.state.name} -> {newState.name}")

end Session

structure SessionManager where
  sessions : Table SessionId Session
  maxSessions : Nat
  defaultLifetime : Int

namespace SessionManager

def new (maxSessions : Nat) (defaultLifetime : Int) : SessionManager where
  sessions := .empty
  maxSessions := maxSessions
  defaultLifetime := defaultLifetime

def retainUnexpired (now : Int) (manager : SessionManager) : SessionManager :=
  { manager with sessions := manager.sessions.retain fun session => !session.isExpired now }

/-- Sessions that have expired are dropped only when there is no room. -/
def checkCapacity (now : Int) : Program SessionManager CoreError Unit := do
  let manager ← get
  if manager.sessions.len ≥ manager.maxSessions then do
    modify (retainUnexpired now)
    let manager ← get
    if manager.sessions.len ≥ manager.maxSessions then
      fail (.internal "Maximum sessions reached")
    else
      pure ()
  else
    pure ()

def createSession (id : SessionId) (now : Int) (clientIp : IpAddr) (clientPort : UInt16) :
    Program SessionManager CoreError Session := do
  checkCapacity now
  let manager ← get
  let session := Session.new id now clientIp clientPort manager.defaultLifetime
  modify fun manager => { manager with sessions := manager.sessions.insert session.id session }
  return session

def getSession (id : SessionId) (manager : SessionManager) : Option Session := manager.sessions.find id

/-- The session is stored as it is handed in, in place of the one there. -/
def updateSession (session : Session) : Program SessionManager CoreError Unit := do
  let manager ← get
  match manager.sessions.find session.id with
  | some _ => modify fun manager => { manager with sessions := manager.sessions.insert session.id session }
  | none => fail (.sessionNotFound session.id.text)

def removeSession (id : SessionId) : Program SessionManager CoreError (Option Session) := do
  let manager ← get
  modify fun manager => { manager with sessions := manager.sessions.erase id }
  return manager.sessions.find id

def cleanupExpired (now : Int) : Program SessionManager CoreError Nat := do
  let manager ← get
  modify (retainUnexpired now)
  return manager.sessions.len - (manager.retainUnexpired now).sessions.len

def ofUser (userId : UserId) (session : Session) : Bool := session.userId == some userId

def terminate (userId : UserId) (session : Session) : Session :=
  if ofUser userId session then { session with state := .terminated } else session

def terminateUserSessions (userId : UserId) : Program SessionManager CoreError Nat := do
  let manager ← get
  modify fun manager => { manager with sessions := manager.sessions.map (terminate userId) }
  return (manager.sessions.keysWith (ofUser userId)).card

end SessionManager

end CoreVpn.Core.Sessions
