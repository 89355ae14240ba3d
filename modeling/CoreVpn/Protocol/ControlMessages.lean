import CoreVpn.Lib.Text
import CoreVpn.Protocol.Errors

namespace CoreVpn.Protocol.ControlMessages

open Lib.Computation Lib.Wire Lib.Text Errors

structure KeyMethodV2 where
  preMaster : ByteVec 48
  random1 : ByteVec 32
  random2 : ByteVec 32
  options : String
  username : Option String
  password : Option String
  peerInfo : Option String
  deriving DecidableEq

namespace KeyMethodV2

def readLengthPrefixedString (data : Bytes) (offset : Nat) : Outcome ProtocolError (String × Nat) := do
  if offset + 2 > data.length then
    .error (.error (.packetTooShort (offset + 2) data.length))
  else
    let hi ← index data offset
    let lo ← index data (offset + 1)
    let len := (fromBe16 hi lo).toNat
    let start := offset + 2
    if start + len > data.length then
      .error (.error (.packetTooShort (start + len) data.length))
    else
      match fromUtf8 (← slice data start (start + len)) with
      | some s => return (trimEndMatches s '\x00', start + len)
      | none => .error (.error (.invalidPacket "invalid UTF-8 in key method v2"))

/-- The strings behind the options may be missing, or empty. -/
def readOptional (data : Bytes) (offset : Nat) : Outcome ProtocolError (Option String × Nat) :=
  if offset + 2 ≤ data.length then do
    let (s, next) ← readLengthPrefixedString data offset
    return (if s.isEmpty then none else some s, next)
  else return (none, offset)

def parse (data : Bytes) : Outcome ProtocolError KeyMethodV2 := do
  if data.length < 119 then
    .error (.error (.packetTooShort 119 data.length))
  else
    let keyMethod ← index data 4
    if keyMethod ≠ 2 then
      .error (.error (.invalidPacket s!"unsupported key method: {keyMethod}"))
    else
      let preMaster ← readFixed 48 data 5
      let random1 ← readFixed 32 data 53
      let random2 ← readFixed 32 data 85
      let (options, offset) ← readLengthPrefixedString data 117
      let (username, offset) ← readOptional data offset
      let (password, offset) ← readOptional data offset
      let (peerInfo, _) ← readOptional data offset
      return { preMaster, random1, random2, options, username, password, peerInfo }

/-- What a server sends has no pre-master secret, and only the options behind
the random values are read. -/
def parseFromServer (data : Bytes) : Outcome ProtocolError KeyMethodV2 := do
  if data.length < 71 then
    .error (.error (.packetTooShort 71 data.length))
  else
    let keyMethod ← index data 4
    if keyMethod ≠ 2 then
      .error (.error (.invalidPacket s!"unsupported key method: {keyMethod}"))
    else
      let random1 ← readFixed 32 data 5
      let random2 ← readFixed 32 data 37
      let (options, _) ← readLengthPrefixedString data 69
      return { preMaster := zeros 48, random1, random2, options, username := none, password := none
               peerInfo := none }

/-- The length covers the terminating zero byte, and is cut to 16 bits. -/
def writeString (s : String) : Bytes :=
  let bytes := asBytes s
  toBe16 (UInt16.ofNat (bytes.length + 1)) ++ bytes ++ [0]

/-- A server leaves out the pre-master secret. -/
def encode (km : KeyMethodV2) (isServer : Bool) : Bytes :=
  [0, 0, 0, 0, 2] ++ (if isServer then [] else km.preMaster.toList) ++ km.random1.toList ++
    km.random2.toList ++ writeString km.options ++ writeString (km.username.getD "") ++
    writeString (km.password.getD "") ++
    match km.peerInfo with
    | some peerInfo => writeString peerInfo
    | none => []

end KeyMethodV2

inductive Topology where
  | net30
  | p2p
  | subnet
  deriving DecidableEq, Repr

def Topology.asStr : Topology → String
  | .net30 => "net30"
  | .p2p => "p2p"
  | .subnet => "subnet"

/-- The comparison does not depend on case, and an unknown name is a subnet. -/
def Topology.parse (toLowercase : String → String) (s : String) : Topology :=
  match toLowercase s with
  | "net30" => .net30
  | "p2p" => .p2p
  | _ => .subnet

def isOctet (s : String) : Bool :=
  s.toList.all Char.isDigit && (s == "0" || !startsWith s "0") &&
    match parseU32 s with
    | some n => decide (n < 256)
    | none => false

/-- The texts that the standard parser takes for an IPv4 address. -/
def isIpv4Addr (s : String) : Bool :=
  let octets := split s '.'
  octets.length == 4 && octets.all isOctet

def validateIpv4 (s : String) : Outcome ProtocolError Unit :=
  if isIpv4Addr s then .ok () else .error (.error (.invalidPacket ("invalid IPv4 address: " ++ s)))

structure PushRoute where
  network : String
  netmask : String
  gateway : Option String
  metric : Option UInt32
  deriving DecidableEq

namespace PushRoute

def new (network netmask : String) : PushRoute := ⟨network, netmask, none, none⟩

def encode (route : PushRoute) : String :=
  let gateway := match route.gateway with
    | some gw => s!" {gw}"
    | none => " vpn_gateway"
  let metric := match route.metric with
    | some metric => s!" {metric}"
    | none => ""
  s!"route {route.network} {route.netmask}" ++ gateway ++ metric

/-- A gateway that is no address counts as none, as does a metric out of bounds. -/
def parse (s : String) : Outcome ProtocolError PushRoute :=
  match (splitWhitespace s).drop 1 with
  | [] => .error (.error (.invalidPacket "missing network in route"))
  | network :: rest => do
    validateIpv4 network
    match rest with
    | [] => .error (.error (.invalidPacket "missing netmask in route"))
    | netmask :: rest =>
      validateIpv4 netmask
      let gateway := rest.head?.bind fun g =>
        if g = "vpn_gateway" then none else if isIpv4Addr g then some g else none
      let metric := (rest.drop 1).head?.bind fun m =>
        ((parseU32 m).filter fun n => n ≤ 9999).map UInt32.ofNat
      return { network, netmask, gateway, metric }

end PushRoute

structure PushReply where
  routes : List PushRoute := []
  ifconfig : Option (String × String) := none
  ifconfigIpv6 : Option String := none
  dns : List String := []
  dnsSearch : List String := []
  redirectGateway : Bool := false
  routeGateway : Option String := none
  topology : Topology := .subnet
  ping : UInt32 := 10
  pingRestart : UInt32 := 60
  options : List String := []
  deriving DecidableEq

/-- The route gateway has to stand before the redirection. -/
def PushReply.encode (reply : PushReply) : String :=
  String.intercalate "," (
    ["PUSH_REPLY", s!"topology {reply.topology.asStr}"] ++
    (reply.ifconfig.map fun p => s!"ifconfig {p.1} {p.2}").toList ++
    (reply.ifconfigIpv6.map fun ipv6 => s!"ifconfig-ipv6 {ipv6}").toList ++
    reply.routes.map PushRoute.encode ++
    (reply.routeGateway.map fun gw => s!"route-gateway {gw}").toList ++
    (if reply.redirectGateway then ["redirect-gateway def1"] else []) ++
    reply.dns.map (fun dns => s!"dhcp-option DNS {dns}") ++
    reply.dnsSearch.map (fun domain => s!"dhcp-option DOMAIN {domain}") ++
    [s!"ping {reply.ping}", s!"ping-restart {reply.pingRestart}"] ++
    reply.options)

/-- What one directive adds to a reply. A directive that lacks its argument is
dropped, as is a route that does not parse, and an unknown one is kept as it is. -/
def PushReply.apply (toLowercase : String → String) (reply : PushReply) (part : String) : PushReply :=
  match splitWhitespace part with
  | "topology" :: rest =>
    match rest with
    | topo :: _ => { reply with topology := Topology.parse toLowercase topo }
    | [] => reply
  | "ifconfig" :: rest =>
    { reply with ifconfig := some (rest.head?.getD "", (rest.drop 1).head?.getD "") }
  | "ifconfig-ipv6" :: rest =>
    match rest with
    | ipv6 :: _ => { reply with ifconfigIpv6 := some ipv6 }
    | [] => reply
  | "route" :: _ =>
    match PushRoute.parse part with
    | .ok route => { reply with routes := reply.routes ++ [route] }
    | .error _ => reply
  | "route-gateway" :: rest =>
    match rest with
    | gw :: _ => { reply with routeGateway := some gw }
    | [] => reply
  | "redirect-gateway" :: _ => { reply with redirectGateway := true }
  | "dhcp-option" :: rest =>
    match rest with
    | "DNS" :: dns :: _ => { reply with dns := reply.dns ++ [dns] }
    | "DOMAIN" :: domain :: _ => { reply with dnsSearch := reply.dnsSearch ++ [domain] }
    | _ => reply
  | "ping" :: rest =>
    match rest.head?.bind parseU32 with
    | some p => { reply with ping := .ofNat p }
    | none => reply
  | "ping-restart" :: rest =>
    match rest.head?.bind parseU32 with
    | some p => { reply with pingRestart := .ofNat p }
    | none => reply
  | _ => { reply with options := reply.options ++ [part] }

/-- The name of the message may be missing. -/
def PushReply.parse (toLowercase : String → String) (s : String) : Outcome ProtocolError PushReply :=
  let s := (stripPrefix s "PUSH_REPLY,").getD s
  let parts := ((split s ',').map trim).filter fun part => !part.isEmpty
  .ok (parts.foldl (PushReply.apply toLowercase) {})

end CoreVpn.Protocol.ControlMessages
