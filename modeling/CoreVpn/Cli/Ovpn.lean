import CoreVpn.Config.Addresses
import CoreVpn.Lib.Lines

namespace CoreVpn.Cli.Ovpn

open Lib.Computation Lib.Wire Lib.Text Lib.Lines Core.Networks Config.Addresses

structure OvpnConfig where
  remote : SocketAddr
  protocol : String
  cipher : String
  dataCiphers : List String
  auth : String
  verb : UInt8
  caPem : String
  certPem : String
  keyPem : String
  tlsAuthKey : Option Bytes
  keyDirection : Option UInt8
  remoteCertTls : Bool
  dev : String
  deriving DecidableEq

def parseU16 (s : String) : Option UInt16 := ((parseU32 s).filter (· < 2 ^ 16)).map UInt16.ofNat

def parseU8 (s : String) : Option UInt8 := ((parseU32 s).filter (· < 2 ^ 8)).map UInt8.ofNat

section InlineBlocks

/-- The text between the first opening tag and the first closing tag. -/
def extractInlineBlock (content tag : String) : Option String := do
  let startTag := "<" ++ tag ++ ">"
  let endTag := "</" ++ tag ++ ">"
  let startIdx ← find content startTag
  let endIdx ← find content endTag
  if startIdx ≥ endIdx then none
  else some (trim (slice content (startIdx + startTag.toList.length) endIdx))

/-- A byte of two hexadecimal digits. A plus sign may stand for the first. -/
def fromStrRadix (first second : Char) : Option UInt8 :=
  if first = '+' then (hexDigit second).map UInt8.ofNat
  else do
    let high ← hexDigit first
    let low ← hexDigit second
    return UInt8.ofNat (high * 16 + low)

/-- The text is cut every two bytes, and a cut inside a character panics. -/
def hexDecodeFrom : Nat → List Char → Outcome String Bytes
  | _, [] => .ok []
  | i, [c] => if c.utf8Size = 2 then .error (.error s!"Invalid hex at position {i}") else .error .panic
  | i, first :: second :: rest =>
    if first.utf8Size = 2 then .error (.error s!"Invalid hex at position {i}")
    else if first.utf8Size = 1 ∧ second.utf8Size = 1 then
      match fromStrRadix first second with
      | none => .error (.error s!"Invalid hex at position {i}")
      | some byte => do
        let bytes ← hexDecodeFrom (i + 2) rest
        return byte :: bytes
    else .error .panic

def hexDecode (hex : String) : Outcome String Bytes :=
  if (asBytes hex).length % 2 ≠ 0 then .error (.error "Hex string has odd length")
  else hexDecodeFrom 0 hex.toList

/-- The lines of a key that are neither blank nor a comment nor a marker. -/
def isHexLine (line : String) : Bool :=
  !(line.isEmpty || startsWith line "#" || startsWith line "-" || contains line "OpenVPN Static key")

def addLine (data line : String) : String := if isHexLine (trim line) then data ++ trim line else data

def hexData (pemBlock : String) : String := (lines pemBlock).foldl addLine ""

def parseStaticKey (pemBlock : String) : Outcome String Bytes := do
  let bytes ← (hexDecode (hexData pemBlock)).mapFault fun _ => "Failed to decode tls-auth key hex data"
  if bytes.length ≠ 256 then
    .error (.error s!"tls-auth key has wrong length: expected 256 bytes, got {bytes.length}")
  else .ok bytes

def parseTlsAuth : Option String → Outcome String (Option Bytes)
  | none => .ok none
  | some raw => do
    let key ← parseStaticKey raw
    return some key

end InlineBlocks

section Directives

structure Settings where
  remoteHost : String
  remotePort : UInt16
  protocol : String
  cipher : String
  dataCiphers : List String
  auth : String
  verb : UInt8
  remoteCertTls : Bool
  keyDirection : Option UInt8
  dev : String

def Settings.initial : Settings where
  remoteHost := ""
  remotePort := 1194
  protocol := "udp"
  cipher := "AES-256-GCM"
  dataCiphers := []
  auth := "SHA256"
  verb := 3
  remoteCertTls := false
  keyDirection := none
  dev := "tun"

def words (line : String) : List String :=
  let line := trim line
  if line.isEmpty || startsWith line "#" || startsWith line ";" then [] else splitWhitespace line

/-- A directive without its argument changes nothing, a number that cannot be
read gives a default, and any other line is passed over: also one of an inline
block. -/
def Settings.read (s : Settings) (line : String) : Settings :=
  match words line with
  | "remote" :: args =>
    { s with
      remoteHost := args[0]?.getD s.remoteHost
      remotePort := (args[1]?.map fun port => (parseU16 port).getD 1194).getD s.remotePort }
  | "proto" :: args => { s with protocol := args[0]?.getD s.protocol }
  | "cipher" :: args => { s with cipher := args[0]?.getD s.cipher }
  | "data-ciphers" :: args => { s with dataCiphers := (args[0]?.map fun ciphers => split ciphers ':').getD s.dataCiphers }
  | "auth" :: args => { s with auth := args[0]?.getD s.auth }
  | "verb" :: args => { s with verb := (args[0]?.map fun v => (parseU8 v).getD 3).getD s.verb }
  | "remote-cert-tls" :: _ => { s with remoteCertTls := true }
  | "key-direction" :: args =>
    { s with keyDirection := (args[0]?.map fun d => some ((parseU8 d).getD 1)).getD s.keyDirection }
  | "dev" :: args => { s with dev := args[0]?.getD s.dev }
  | _ => s

end Directives

def require {α : Type} (message : String) : Option α → Outcome String α
  | some a => .ok a
  | none => .error (.error message)

/-- Of an error only the outermost message is kept. -/
def parse (content : String) : Outcome String OvpnConfig := do
  let caPem ← require "Missing <ca> block in .ovpn file" (extractInlineBlock content "ca")
  let certPem ← require "Missing <cert> block in .ovpn file" (extractInlineBlock content "cert")
  let keyPem ← require "Missing <key> block in .ovpn file" (extractInlineBlock content "key")
  let tlsAuthKey ← parseTlsAuth (extractInlineBlock content "tls-auth")
  let s := (lines content).foldl Settings.read .initial
  if s.remoteHost.isEmpty then .error (.error "Missing 'remote' directive in .ovpn file")
  else
    let address := s.remoteHost ++ ":" ++ toString s.remotePort
    let remote ← require ("Invalid remote address: " ++ address) (parseSocketAddr address)
    return { s with remote, caPem, certPem, keyPem, tlsAuthKey }

end CoreVpn.Cli.Ovpn
