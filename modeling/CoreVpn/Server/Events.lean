import CoreVpn.Core.Networks

namespace CoreVpn.Server.Events

open Core.Networks

abbrev ConnectionId := BitVec 128

/-- A reading of the calendar clock, in nanoseconds since the earliest day it has. -/
abbrev Timestamp := Nat

inductive AuthMethod where
  | certificate
  | usernamePassword
  | oauth2
  | saml
  | psk
  | unknown
  deriving DecidableEq, Repr

inductive DisconnectReason where
  | clientDisconnect
  | serverDisconnect
  | idleTimeout
  | sessionTimeout
  | authFailure
  | protocolError
  | connectionReset
  | serverShutdown
  | adminTerminated
  | renegotiationFailure
  | unknown
  deriving DecidableEq, Repr

inductive AuthResult where
  | success
  | invalidCredentials
  | expired
  | notAuthorized
  | rateLimited
  | providerError
  | timeout
  | unknown
  deriving DecidableEq, Repr

structure TransferStats where
  bytesRx : UInt64 := 0
  bytesTx : UInt64 := 0
  packetsRx : UInt64 := 0
  packetsTx : UInt64 := 0
  deriving DecidableEq

inductive ConnectionEvent where
  | connectionAttempt (id : ConnectionId) (timestamp : Timestamp) (clientAddr : SocketAddr)
      (protocolVersion : Option String)
  | authentication (id : ConnectionId) (timestamp : Timestamp) (clientAddr : SocketAddr)
      (username : Option String) (authMethod : AuthMethod) (result : AuthResult) (details : Option String)
  | connected (id : ConnectionId) (timestamp : Timestamp) (clientAddr : SocketAddr)
      (username : Option String) (vpnIp : IpAddr) (authMethod : AuthMethod) (clientInfo : Option String)
  | disconnected (id : ConnectionId) (timestamp : Timestamp) (clientAddr : SocketAddr)
      (username : Option String) (reason : DisconnectReason) (duration : Nat) (stats : Option TransferStats)
  | ipChange (id : ConnectionId) (timestamp : Timestamp) (oldAddr newAddr : SocketAddr) (username : Option String)
  | renegotiation (id : ConnectionId) (timestamp : Timestamp) (clientAddr : SocketAddr) (success : Bool)
  deriving DecidableEq

def ConnectionEvent.timestamp : ConnectionEvent → Timestamp
  | .connectionAttempt _ timestamp _ _ => timestamp
  | .authentication _ timestamp _ _ _ _ _ => timestamp
  | .connected _ timestamp _ _ _ _ _ => timestamp
  | .disconnected _ timestamp _ _ _ _ _ => timestamp
  | .ipChange _ timestamp _ _ _ => timestamp
  | .renegotiation _ timestamp _ _ => timestamp

namespace ConnectionEventBuilder

def attempt (id : ConnectionId) (now : Timestamp) (clientAddr : SocketAddr) : ConnectionEvent :=
  .connectionAttempt id now clientAddr none

def authentication (id : ConnectionId) (now : Timestamp) (clientAddr : SocketAddr)
    (username : Option String) (authMethod : AuthMethod) (result : AuthResult) : ConnectionEvent :=
  .authentication id now clientAddr username authMethod result none

def disconnected (id : ConnectionId) (now : Timestamp) (clientAddr : SocketAddr)
    (username : Option String) (reason : DisconnectReason) (duration : Nat)
    (stats : Option TransferStats) : ConnectionEvent :=
  .disconnected id now clientAddr username reason duration stats

def renegotiation (id : ConnectionId) (now : Timestamp) (clientAddr : SocketAddr) (success : Bool) :
    ConnectionEvent :=
  .renegotiation id now clientAddr success

end ConnectionEventBuilder

end CoreVpn.Server.Events
