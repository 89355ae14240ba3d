import CoreVpn.Protocol.ControlMessages
import CoreVpn.Server.Connections

namespace CoreVpn.Server.KeyExchange

open Lib.Computation Lib.Wire Lib.Text Core.Networks Core.AddressPools Crypto.Ciphers Crypto.Keys Crypto.Prf
open Protocol.Errors Protocol.Packets Protocol.Sessions Protocol.Sending Protocol.ControlMessages
open Protocol.TlsHandlers Events Connections

variable {C α : Type}

/-- What a handler works on while it holds the lock on the connections: one
connection, the shared maps, and the packets and events to send later. -/
structure Ctx (C : Type) where
  conn : Connection C
  addressPool : AddressPool
  pendingOauths : String → Option PendingOAuth
  packets : List Bytes
  logEvents : List ConnectionEvent

abbrev Handler (C α : Type) := Program (Ctx C) ServerError α

def onConn (f : Connection C → Connection C) : Handler C Unit := modify fun s => { s with conn := f s.conn }

def onProtocol (p : Program ProtocolSession ProtocolError α) : Handler C α :=
  zoom (fun s => s.conn.protocol) (fun t s => { s with conn := { s.conn with protocol := t } }) .protocol p

def onTls (wrap : ProtocolError → ServerError) (p : Program (TlsHandler C) ProtocolError α) :
    Handler C α := fun s =>
  match s.conn.tls with
  | some tls =>
    let r := p tls
    (r.1.mapFault wrap, { s with conn := { s.conn with tls := some r.2 } })
  | none => (.error .panic, s)

def sendLater (packets : List Bytes) : Handler C Unit :=
  modify fun s => { s with packets := s.packets ++ packets }

variable (H : Host C)

def wantsWrite (s : Ctx C) : Bool :=
  match s.conn.tls with
  | some tls => H.engine.wantsWrite tls.conn
  | none => false

def backlog (s : Ctx C) : Nat :=
  match s.conn.tls with
  | some tls => H.engine.backlog tls.conn
  | none => 0

theorem backlog_getOutgoing {s t : Ctx C} {bytes : Bytes} {wrap : ProtocolError → ServerError}
    (h : onTls wrap (TlsHandler.getOutgoing H.engine) s = (.ok (some bytes), t)) :
    backlog H t < backlog H s := by
  unfold onTls at h
  unfold backlog
  cases htls : s.conn.tls with
  | none =>
    rw [htls] at h
    cases h
  | some tls =>
    rw [htls] at h
    cases hout : TlsHandler.getOutgoing H.engine tls with
    | mk result tls' =>
      simp only [hout] at h
      cases result with
      | error e => cases h
      | ok out =>
        cases h
        exact getOutgoing_backlog hout

def flush (clock : Clock) : Nat → Handler C Unit
  | 0 => return ()
  | fuel + 1 => do
    let s ← get
    if wantsWrite H s then
      match ← onTls .tlsOutgoingFailed (TlsHandler.getOutgoing H.engine) with
      | some tlsOut =>
        let packets ← onProtocol (createControlPackets H.primitives clock tlsOut)
        sendLater packets
        flush clock fuel
      | none => return ()
    else return ()

/-- Every turn takes something off the backlog, which therefore bounds the turns. -/
def flushTls (clock : Clock) : Handler C Unit := do
  let s ← get
  flush H clock (backlog H s + 1)

theorem flush_fuel (clock : Clock) {n m : Nat} {s : Ctx C} (hn : backlog H s < n) (hm : backlog H s < m) :
    flush H clock n s = flush H clock m s := by
  induction n generalizing m s with
  | zero => exact absurd hn (Nat.not_lt_zero _)
  | succ n ih =>
    cases m with
    | zero => exact absurd hm (Nat.not_lt_zero _)
    | succ m =>
      refine bind_congr_ok fun s' t hget => ?_
      cases hget
      split
      · refine bind_congr_ok fun tlsOut t hout => ?_
        cases tlsOut with
        | none => rfl
        | some tlsOut =>
          have hlt : backlog H t < backlog H s := backlog_getOutgoing H hout
          refine bind_congr_ok fun packets u hu => ?_
          refine bind_congr_ok fun _ v hv => ?_
          have hprotocol : backlog H t = backlog H u := congrArg (fun r => backlog H r.2) hu
          have hlater : backlog H u = backlog H v := congrArg (fun r => backlog H r.2) hv
          exact ih (by omega) (by omega)
      · rfl

/-- The loop ends by itself: turns beyond the backlog change nothing. -/
theorem flush_eq_flushTls (clock : Clock) {n : Nat} {s : Ctx C} (h : backlog H s < n) :
    flush H clock n s = flushTls H clock s := flush_fuel H clock h (Nat.lt_succ_self _)

/-- A failed write is only reported in the server's own log. -/
def tryWrite (data : Bytes) : Handler C Bool := do
  match ← attempt (onTls .protocol (TlsHandler.writePlaintext H.engine data)) with
  | .ok _ => return true
  | .error (_ : ServerError) => return false

def supported : List String := ["AES-256-GCM", "AES-128-GCM", "CHACHA20-POLY1305"]

/-- The first cipher of the client's list that the server supports, as the
client spells it. Without one, the configured cipher in upper case. -/
def negotiateCipher (peerInfo : Option String) : String :=
  match peerInfo with
  | some info =>
    let clientCiphers := match (lines info).find? (startsWith · "IV_CIPHERS=") with
      | some line => (split (trimStartMatches line "IV_CIPHERS=") ':').filter fun s : String => !s.isEmpty
      | none => []
    match clientCiphers.find? fun c => supported.contains (H.toUppercase c) with
    | some c => c
    | none => H.toUppercase H.config.cipher
  | none => H.toUppercase H.config.cipher

def negotiatedSuite (cipher : String) : CipherSuite :=
  if contains cipher "CHACHA" then .chaCha20Poly1305 else .aes256Gcm

def serverKeyMethod (env : Env) (cipher : String) : KeyMethodV2 where
  preMaster := zeros 48
  random1 := env.serverRandom1
  random2 := env.serverRandom2
  options := "V4,dev-type tun,link-mtu 1560,tun-mtu 1500,proto UDPv4,cipher " ++ cipher ++
    ",auth [null-digest],keysize 256,key-method 2,tls-server"
  username := none
  password := none
  peerInfo := none

def deriveKeyBlock (env : Env) (clientKm : KeyMethodV2) (session : ProtocolSession) : Bytes :=
  let seed1 := clientKm.random1.toList ++ env.serverRandom1.toList
  let masterSecret := openvpnPrf H.hashes clientKm.preMaster.toList (asBytes "OpenVPN master secret") seed1 48
  let clientSid := session.remoteSessionId.getD (zeros 8)
  let seed2 := clientKm.random2.toList ++ env.serverRandom2.toList ++ clientSid.toList ++
    session.localSessionId.toList
  openvpnPrf H.hashes masterSecret (asBytes "OpenVPN key expansion") seed2 256

/-- From the client's message to the installed keys. The server's answer is
on its way before the keys are there. -/
def exchangeKeys (env : Env) (clientKm : KeyMethodV2) : Handler C String := do
  onConn fun conn => match clientKm.username with
    | some user => { conn with username := some user }
    | none => conn
  let cipher := negotiateCipher H clientKm.peerInfo
  onConn fun conn => { conn with protocol := conn.protocol.setCipherSuite (negotiatedSuite cipher) }
  let _ ← tryWrite H ((serverKeyMethod env cipher).encode true)
  flushTls H env.clock
  let s ← get
  let keyBlock := deriveKeyBlock H env clientKm s.conn.protocol
  let material ← lift (Outcome.mapFault (fun e => .protocol (.cryptoError e))
    (KeyMaterial.fromOpenvpnKey2Block keyBlock))
  onProtocol (ProtocolSession.installKeys material true)
  return cipher

def cidrToNetmask (cidr : String) : Option (String × String) :=
  match split cidr '/' with
  | [network, length] => do
    let prefixLen ← parseU32 length
    if prefixLen > 32 then none
    else some (network, dotted (BitVec.ofNat 32 (2 ^ 32 - 2 ^ (32 - prefixLen))))
  | _ => none

def pushReply (gatewayIp clientIp cipher : String) : PushReply where
  ifconfig := some (clientIp, dotted H.config.subnet.netmask)
  topology := .subnet
  dns := H.config.dns
  redirectGateway := H.config.redirectGateway
  routeGateway := if H.config.redirectGateway then some gatewayIp else none
  routes := H.config.pushRoutes.filterMap fun cidr =>
    (cidrToNetmask cidr).map fun p => PushRoute.new p.1 p.2
  ping := 10
  pingRestart := 60
  options := [s!"reneg-sec {H.config.renegSec}", s!"cipher {cipher}"]

def buildOauthBaseUrl (oauth : OAuthSettings) (publicHost : String) : String :=
  match oauth.externalUrl with
  | some ext => trimEndMatches ext '/'
  | none =>
    if oauth.oauthPort = 443 then s!"https://{publicHost}" else s!"https://{publicHost}:{oauth.oauthPort}"

def deferReply (env : Env) (peerAddr : SocketAddr) (oauth : OAuthSettings) (cipher reply : String) :
    Handler C Unit := do
  let token := hexPadded 32 env.stateToken.toNat
  onConn fun conn => { conn with
    pendingPushReply := some reply, oauthState := some token, negotiatedCipher := some cipher }
  modify fun s => { s with
    pendingOauths := Function.update s.pendingOauths token (some ⟨peerAddr, env.clock.now⟩) }
  let authUrl := s!"{buildOauthBaseUrl oauth H.config.publicHost}/auth/start?state={token}"
  let _ ← tryWrite H (asBytes "AUTH_PENDING,timeout 120\x00")
  let _ ← tryWrite H (asBytes ("INFO_PRE,WEB_AUTH::" ++ authUrl ++ "\x00"))
  flushTls H env.clock

/-- Without OAuth the reply goes out at once, and is kept for later requests. -/
def sendReply (env : Env) (reply : String) : Handler C Unit := do
  let _ ← tryWrite H (asBytes (reply ++ "\x00"))
  onConn fun conn => { conn with pendingPushReply := some reply }
  flushTls H env.clock
  onConn fun conn => { conn with protocol := conn.protocol.setState env.clock.now .established }

def answer (env : Env) (peerAddr : SocketAddr) (cipher reply : String) : Handler C Unit :=
  match H.config.oauth with
  | some oauth =>
    if oauth.enabled then deferReply H env peerAddr oauth cipher reply else sendReply H env reply
  | none => sendReply H env reply

/-- The address is taken from the pool before anything that can still fail. -/
def assignAddress (env : Env) (peerAddr : SocketAddr) (cipher : String) : Handler C Unit := do
  match ← attempt (zoom Ctx.addressPool (fun p s => { s with addressPool := p }) id AddressPool.allocate) with
  | .ok vpnAddr =>
    onConn fun conn => { conn with vpnIp := vpnAddr.ipv4 }
    let s ← get
    let clientIp := (vpnAddr.ipv4.map dotted).getD ""
    let gatewayIp := (s.addressPool.gatewayV4.map dotted).getD "10.8.0.1"
    answer H env peerAddr cipher (pushReply H gatewayIp clientIp cipher).encode
  | .error (_ : CoreError) => return ()

end CoreVpn.Server.KeyExchange
