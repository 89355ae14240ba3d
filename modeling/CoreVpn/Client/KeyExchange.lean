import CoreVpn.Crypto.Prf
import CoreVpn.Protocol.ControlMessages
import CoreVpn.Protocol.Sessions

namespace CoreVpn.Client.KeyExchange

open Lib.Computation Lib.Wire Lib.Text Crypto.Errors Crypto.Ciphers Crypto.Keys Crypto.Prf
open Protocol.Errors Protocol.Packets Protocol.Reliable Protocol.ControlMessages Protocol.Sessions

structure OvpnConfig where
  cipher : String
  tlsAuthKey : Option Bytes
  keyDirection : Option UInt8

inductive ClientError where
  | unsupportedCipher (cipher : String)
  | hmacAuth (e : CryptoError)
  | missingRemoteSessionId
  | keyInstallation (e : ProtocolError)
  deriving DecidableEq

structure Secrets where
  preMaster : ByteVec 48
  random1 : ByteVec 32
  random2 : ByteVec 32

variable (toUppercase : String → String)

/-- The configured name is compared in upper case. -/
def chooseCipherSuite (config : OvpnConfig) : Outcome ClientError CipherSuite :=
  match toUppercase config.cipher with
  | "CHACHA20-POLY1305" => .ok .chaCha20Poly1305
  | "AES-256-GCM" => .ok .aes256Gcm
  | other => .error (.error (.unsupportedCipher other))

/-- The client's session before its first packet. A tls-auth key that is too
short is a panic. -/
def openSession (config : OvpnConfig) (sessionId : SessionId) (now : Instant) :
    Outcome ClientError ProtocolSession := do
  let cipherSuite ← chooseCipherSuite toUppercase config
  let session := ProtocolSession.newClient cipherSuite sessionId now
  match config.tlsAuthKey with
  | some taKeyBytes =>
    let taKey ← readFixed 256 taKeyBytes 0
    let hmacAuth ← Outcome.mapFault .hmacAuth (HmacAuth.fromTaKey taKey false config.keyDirection)
    return session.setTlsAuth hmacAuth
  | none => return session

/-- The ciphers are always advertised in this order, whatever is configured. -/
def peerInfo : String :=
  "IV_VER=corevpn-0.4.0\nIV_PLAT=linux\nIV_NCP=2\nIV_TCPNL=1\nIV_PROTO=30\n" ++
    "IV_CIPHERS=CHACHA20-POLY1305:AES-256-GCM:AES-128-GCM\n"

def clientKeyMethod (config : OvpnConfig) (secrets : Secrets) : KeyMethodV2 where
  preMaster := secrets.preMaster
  random1 := secrets.random1
  random2 := secrets.random2
  options := "V4,dev-type tun,link-mtu 1560,tun-mtu 1500,proto UDPv4,cipher " ++ config.cipher ++
    ",auth [null-digest],keysize 256,key-method 2,tls-client"
  username := none
  password := none
  peerInfo := some peerInfo

def deriveKeyBlock (hashes : PrfHashes) (secrets : Secrets) (serverKm : KeyMethodV2)
    (clientSid serverSid : SessionId) : Bytes :=
  let seed1 := secrets.random1.toList ++ serverKm.random1.toList
  let masterSecret := openvpnPrf hashes secrets.preMaster.toList (asBytes "OpenVPN master secret") seed1 48
  let seed2 := secrets.random2.toList ++ serverKm.random2.toList ++ clientSid.toList ++ serverSid.toList
  openvpnPrf hashes masterSecret (asBytes "OpenVPN key expansion") seed2 256

def deriveKeys (hashes : PrfHashes) (secrets : Secrets) (serverKm : KeyMethodV2) :
    Program ProtocolSession ClientError Unit := do
  let session ← get
  match session.remoteSessionId with
  | some serverSid =>
    let keyBlock := deriveKeyBlock hashes secrets serverKm session.localSessionId serverSid
    let material ← lift (Outcome.mapFault (fun e => .keyInstallation (.cryptoError e))
      (KeyMaterial.fromOpenvpnKey2Block keyBlock))
    zoom id (fun s _ => s) .keyInstallation (ProtocolSession.installKeys material false)
  | none => fail .missingRemoteSessionId

end CoreVpn.Client.KeyExchange
