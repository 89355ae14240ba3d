import CoreVpn.Config.Addresses
import CoreVpn.Lib.Lines

namespace CoreVpn.Config.ClientConfigs

open Lib.Computation Lib.Text Lib.Lines Validation

structure ClientConfig where
  remoteHost : String
  remotePort : UInt16
  protocol : String
  caCert : String
  clientCert : String
  clientKey : String
  tlsAuthKey : Option String
  tlsCryptKey : Option String
  cipher : String
  auth : String
  keyDirection : Option UInt8
  renegSec : UInt32
  extraOptions : List String

def display : ConfigError → String
  | .missingField field => s!"missing required field: {field}"
  | .validationError message => s!"validation error: {message}"

def invalid {α : Type} (message : String) : Outcome ConfigError α := .error (.error (.validationError message))

section Validation

/-- The header may go on behind the expected type, the footer may not. A text
that is a single line is not looked into. -/
def validatePem (content expectedType : String) : Outcome ConfigError Unit :=
  let content := trim content
  let header := "-----BEGIN " ++ expectedType
  let footer := "-----END " ++ expectedType ++ "-----"
  if !startsWith content header then invalid s!"Invalid PEM format: missing BEGIN {expectedType} header"
  else if !endsWith content footer then invalid s!"Invalid PEM format: missing END {expectedType} footer"
  else
    match find content "\n" <|> find content "\r", rfind content footer with
    | some headerEnd, some footerStart =>
      if footerStart ≤ headerEnd then invalid s!"Invalid PEM format: empty or malformed {expectedType} content"
      else if (trim (slice content (headerEnd + 1) footerStart)).isEmpty then
        invalid s!"Invalid PEM format: empty {expectedType} content"
      else .ok ()
    | _, _ => .ok ()

def validateCert (name content : String) : Outcome ConfigError Unit :=
  (validatePem content "CERTIFICATE").mapFault fun e => .validationError s!"{name}: {display e}"

/-- Static keys are not looked into. -/
def validateStaticKey (name : String) : Option String → Outcome ConfigError Unit
  | none => .ok ()
  | some key =>
    if (trim key).isEmpty then invalid s!"{name} key cannot be empty"
    else if (asBytes (trim key)).length < 32 then invalid s!"{name} key appears to be too short"
    else .ok ()

def validate (c : ClientConfig) : Outcome ConfigError Unit := do
  validateCert "CA certificate" c.caCert
  validateCert "Client certificate" c.clientCert
  let keyValid := ["PRIVATE KEY", "RSA PRIVATE KEY", "EC PRIVATE KEY"].any fun expectedType =>
    (validatePem c.clientKey expectedType).toOption.isSome
  if !keyValid then
    invalid "Client key: Invalid PEM format - must be PRIVATE KEY, RSA PRIVATE KEY, or EC PRIVATE KEY"
  validateStaticKey "tls-auth" c.tlsAuthKey
  validateStaticKey "tls-crypt" c.tlsCryptKey

end Validation

section Writing

def inlineBlock (tag text : String) : List String := ["<" ++ tag ++ ">", trim text, "</" ++ tag ++ ">"]

def directives (c : ClientConfig) : List String :=
  ["# CoreVPN Client Configuration", "# Generated automatically - do not edit", "", "client", "dev tun",
    "proto " ++ c.protocol, "remote " ++ c.remoteHost ++ " " ++ toString c.remotePort, "resolv-retry infinite",
    "nobind", "persist-key", "persist-tun", "remote-cert-tls server", "cipher " ++ c.cipher, "auth " ++ c.auth,
    "verb 3", "", "# Security settings", "tls-client", "tls-version-min 1.3"] ++
    (if c.renegSec > 0 then ["reneg-sec " ++ toString c.renegSec] else []) ++ [""] ++ c.extraOptions ++ [""]

def pemBlocks (c : ClientConfig) : List String :=
  inlineBlock "ca" c.caCert ++ [""] ++ inlineBlock "cert" c.clientCert ++ [""] ++ inlineBlock "key" c.clientKey ++ [""]

/-- A tls-crypt key takes the place of a tls-auth key. -/
def tlsBlock (c : ClientConfig) : List String :=
  match c.tlsCryptKey, c.tlsAuthKey with
  | some key, _ => inlineBlock "tls-crypt" key
  | none, some key => (c.keyDirection.map fun dir => "key-direction " ++ toString dir).toList ++ inlineBlock "tls-auth" key
  | none, none => []

def ovpnText (c : ClientConfig) : String := String.intercalate "\n" (directives c ++ pemBlocks c ++ tlsBlock c)

/-- An invalid configuration is not written at all. -/
def toOvpn (c : ClientConfig) : Outcome ConfigError String :=
  match validate c with
  | .ok () => .ok (ovpnText c)
  | .error _ => .error .panic

end Writing

end CoreVpn.Config.ClientConfigs
