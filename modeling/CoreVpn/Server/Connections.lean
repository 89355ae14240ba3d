import CoreVpn.Core.AddressPools
import CoreVpn.Crypto.Prf
import CoreVpn.Lib.Text
import CoreVpn.Protocol.Sending
import CoreVpn.Protocol.TlsHandlers
import CoreVpn.Server.Events

namespace CoreVpn.Server.Connections

open Lib.Computation Lib.Wire Lib.Text Core.Networks Core.AddressPools Crypto.Ciphers Crypto.Prf
open Protocol.Errors Protocol.Packets Protocol.Reliable Protocol.Sessions Protocol.TlsHandlers Events

structure OAuthSettings where
  enabled : Bool
  oauthPort : UInt16
  externalUrl : Option String

/-- The defaults are those of an entry that a configuration file leaves out. -/
structure ConnectionLogEvents where
  attempts : Bool := false
  connects : Bool := true
  disconnects : Bool := true
  authEvents : Bool := false
  transferStats : Bool := false
  ipChanges : Bool := false
  renegotiations : Bool := false

/-- The settings the handlers read. The subnet is stored as text, and no
server starts with one that does not parse. -/
structure ServerConfig where
  publicHost : String
  subnet : Ipv4Net
  dns : List String
  pushRoutes : List String
  redirectGateway : Bool
  cipher : String
  renegSec : UInt32
  oauth : Option OAuthSettings
  connectionEvents : ConnectionLogEvents

def ServerConfig.oauthEnabled (config : ServerConfig) : Bool :=
  match config.oauth with
  | some oauth => oauth.enabled
  | none => false

/-- What the server takes from outside, and the part of it that never changes.
Upper-casing depends on the Unicode tables. -/
structure Host (C : Type) where
  primitives : Primitives
  hashes : PrfHashes
  toUppercase : String → String
  engine : TlsEngine C
  config : ServerConfig
  tlsConfigured : Bool
  tlsAuthKey : Option (ByteVec 256)

/-- What one call of a handler reads from its surroundings: the clocks, the
random values it draws, and which of its sends succeed. -/
structure Env where
  clock : Clock
  timestamp : Timestamp
  sessionId : SessionId
  connectionId : ConnectionId
  serverRandom1 : ByteVec 32
  serverRandom2 : ByteVec 32
  stateToken : BitVec 128
  sends : Nat → Bool

variable {C : Type}

structure Connection (C : Type) where
  protocol : ProtocolSession
  tls : Option (TlsHandler C)
  lastActivity : Instant
  connectedAt : Instant
  peerAddr : SocketAddr
  vpnIp : Option Ipv4Addr
  connectionId : ConnectionId
  username : Option String
  authMethod : AuthMethod
  stats : TransferStats
  hardResetResponse : Option Bytes
  pendingPushReply : Option String
  oauthState : Option String
  negotiatedCipher : Option String

namespace Connection

def new (env : Env) (peerAddr : SocketAddr) (cipherSuite : CipherSuite) : Connection C where
  protocol := ProtocolSession.newServer cipherSuite env.sessionId env.clock.now
  tls := none
  lastActivity := env.clock.now
  connectedAt := env.clock.now
  peerAddr := peerAddr
  vpnIp := none
  connectionId := env.connectionId
  username := none
  authMethod := .unknown
  stats := {}
  hardResetResponse := none
  pendingPushReply := none
  oauthState := none
  negotiatedCipher := none

def touch (now : Instant) (conn : Connection C) : Connection C := { conn with lastActivity := now }

def isStale (now : Instant) (timeout : Duration) (conn : Connection C) : Bool :=
  decide (now - conn.lastActivity > timeout)

def duration (now : Instant) (conn : Connection C) : Duration := now - conn.connectedAt

def addBytesRx (bytes : Nat) (conn : Connection C) : Connection C :=
  { conn with stats := { conn.stats with
      bytesRx := conn.stats.bytesRx + UInt64.ofNat bytes, packetsRx := conn.stats.packetsRx + 1 } }

def addBytesTx (bytes : Nat) (conn : Connection C) : Connection C :=
  { conn with stats := { conn.stats with
      bytesTx := conn.stats.bytesTx + UInt64.ofNat bytes, packetsTx := conn.stats.packetsTx + 1 } }

end Connection

structure AuthCompleted where
  state : String
  email : String
  deriving DecidableEq

structure PendingOAuth where
  peerAddr : SocketAddr
  createdAt : Instant
  deriving DecidableEq

structure VpnServer (C : Type) where
  addressPool : AddressPool
  connections : SocketAddr → Option (Connection C)
  pendingOauths : String → Option PendingOAuth

namespace VpnServer

def new (config : ServerConfig) : Outcome CoreError (VpnServer C) := do
  let addressPool ← AddressPool.new (some config.subnet) none
  return { addressPool, connections := fun _ => none, pendingOauths := fun _ => none }

end VpnServer

def getCipherSuite (config : ServerConfig) : CipherSuite :=
  if contains config.cipher "chacha" then .chaCha20Poly1305 else .aes256Gcm

inductive ServerError where
  | protocol (e : ProtocolError)
  | tlsInitFailed (e : ProtocolError)
  | tlsProcessingFailed (e : ProtocolError)
  | tlsOutgoingFailed (e : ProtocolError)
  | io
  deriving DecidableEq

end CoreVpn.Server.Connections
