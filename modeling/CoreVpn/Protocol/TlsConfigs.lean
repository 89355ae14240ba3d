import CoreVpn.Lib.Wire
import CoreVpn.Protocol.Errors

namespace CoreVpn.Protocol.TlsConfigs

open Lib.Computation Lib.Wire Errors

structure TrustAnchor where
  subject : Bytes
  subjectPublicKeyInfo : Bytes
  nameConstraints : Option Bytes
  deriving DecidableEq

inductive PrivateKeyDer where
  | pkcs1 (key : Bytes)
  | sec1 (key : Bytes)
  | pkcs8 (key : Bytes)
  deriving DecidableEq

inductive PemItem where
  | pkcs1Key (key : Bytes)
  | sec1Key (key : Bytes)
  | pkcs8Key (key : Bytes)
  | other (der : Bytes)
  deriving DecidableEq

/-- What the configurations take from the TLS library: the PEM parser, the
reading of a CA certificate, and the checks of a certificate with its key. -/
structure TlsLibrary where
  pemCerts : String → List (Except String Bytes)
  pemItems : String → List (Except String PemItem)
  trustAnchor : Bytes → Except String TrustAnchor
  serverCert : List Bytes → PrivateKeyDer → Except String Unit
  clientAuthCert : List Bytes → PrivateKeyDer → Except String Unit

def tlsResult {α : Type} (describe : String → String) : Except String α → Outcome ProtocolError α
  | .ok a => .ok a
  | .error reason => .error (.error (.tlsError (describe reason)))

variable (L : TlsLibrary)

def loadCertsFromPem (pem : String) : Outcome ProtocolError (List Bytes) :=
  (L.pemCerts pem).mapM (tlsResult fun e => s!"Failed to parse cert: {e}")

def privateKey : Except String PemItem → Option PrivateKeyDer
  | .ok (.pkcs8Key key) => some (.pkcs8 key)
  | .ok (.pkcs1Key key) => some (.pkcs1 key)
  | .ok (.sec1Key key) => some (.sec1 key)
  | _ => none

def loadKeyFromPem (pem : String) : Outcome ProtocolError PrivateKeyDer :=
  match (L.pemItems pem).findSome? privateKey with
  | some key => .ok key
  | none => .error (.error (.tlsError "No private key found in PEM"))

section Server

/-- What a server's library asks about a client's chain of certificates, if it
asks for one at all. -/
abbrev ClientCertVerifier := List Bytes → Bool

structure ServerTlsConfig where
  certChain : List Bytes
  key : PrivateKeyDer
  clientCertVerifier : Option ClientCertVerifier

def createServerConfig (certChain : List Bytes) (key : PrivateKeyDer)
    (clientCertVerifier : Option ClientCertVerifier) : Outcome ProtocolError ServerTlsConfig :=
  match clientCertVerifier with
  | some verifier => do
    tlsResult id (L.serverCert certChain key)
    return ⟨certChain, key, some verifier⟩
  | none => do
    tlsResult id (L.serverCert certChain key)
    return ⟨certChain, key, none⟩

end Server

section Client

structure CoreVpnServerVerifier where
  roots : List TrustAnchor
  deriving DecidableEq

namespace CoreVpnServerVerifier

variable (self : CoreVpnServerVerifier)

/-- The chain is put together, and then never looked at. -/
def verifyServerCert (endEntity : Bytes) (intermediates : List Bytes) : Except String Unit :=
  let _chain := endEntity :: intermediates
  let trustAnchors := self.roots.map fun ta => TrustAnchor.mk ta.subject ta.subjectPublicKeyInfo ta.nameConstraints
  if trustAnchors.isEmpty then .error "no trust anchors configured" else .ok ()

/-- Neither are the signatures. -/
def verifyTls12Signature (_self : CoreVpnServerVerifier) (_message _cert _dss : Bytes) : Except String Unit :=
  .ok ()

def verifyTls13Signature (_self : CoreVpnServerVerifier) (_message _cert _dss : Bytes) : Except String Unit :=
  .ok ()

end CoreVpnServerVerifier

structure ClientTlsConfig where
  verifier : CoreVpnServerVerifier
  clientAuth : Option (List Bytes × PrivateKeyDer)
  deriving DecidableEq

def createClientConfig (caCerts : List Bytes) (clientCert : Option (List Bytes × PrivateKeyDer)) :
    Outcome ProtocolError ClientTlsConfig := do
  let roots ← caCerts.mapM fun cert =>
    tlsResult (fun e => s!"Failed to add CA cert to root store: {e}") (L.trustAnchor cert)
  match clientCert with
  | some (certChain, key) =>
    tlsResult id (L.clientAuthCert certChain key)
    return ⟨⟨roots⟩, some (certChain, key)⟩
  | none => return ⟨⟨roots⟩, none⟩

inductive TlsVersion where
  | tls12
  | tls13
  deriving DecidableEq

/-- A handshake goes on if the verifier has nothing against the server's chain,
nor against the signature over the handshake. -/
def ClientTlsConfig.accepts (config : ClientTlsConfig) (version : TlsVersion) (endEntity : Bytes)
    (intermediates : List Bytes) (message dss : Bytes) : Bool :=
  (config.verifier.verifyServerCert endEntity intermediates).isOk &&
    match version with
    | .tls12 => (config.verifier.verifyTls12Signature message endEntity dss).isOk
    | .tls13 => (config.verifier.verifyTls13Signature message endEntity dss).isOk

variable {L}

theorem isEmpty_of_mapM {α β ε : Type} {f : α → Outcome ε β} {as : List α} {bs : List β}
    (h : as.mapM f = .ok bs) : bs.isEmpty = as.isEmpty := by
  cases as with
  | nil =>
    cases h
    rfl
  | cons a as =>
    rw [List.mapM_cons] at h
    obtain ⟨b, -, h⟩ := Outcome.bind_eq_ok_iff.mp h
    obtain ⟨bs', -, h⟩ := Outcome.bind_eq_ok_iff.mp h
    cases h
    rfl

theorem createClientConfig_roots {caCerts : List Bytes} {clientCert : Option (List Bytes × PrivateKeyDer)}
    {config : ClientTlsConfig} (h : createClientConfig L caCerts clientCert = .ok config) :
    config.verifier.roots.isEmpty = caCerts.isEmpty := by
  obtain ⟨roots, hroots, h⟩ := Outcome.bind_eq_ok_iff.mp h
  rw [← isEmpty_of_mapM hroots]
  cases clientCert with
  | none =>
    cases h
    rfl
  | some cert =>
    obtain ⟨_, -, h⟩ := Outcome.bind_eq_ok_iff.mp h
    cases h
    rfl

theorem accepts_eq {caCerts : List Bytes} {clientCert : Option (List Bytes × PrivateKeyDer)}
    {config : ClientTlsConfig} (h : createClientConfig L caCerts clientCert = .ok config)
    (version : TlsVersion) (endEntity : Bytes) (intermediates : List Bytes) (message dss : Bytes) :
    config.accepts version endEntity intermediates message dss = !caCerts.isEmpty := by
  have hroots := createClientConfig_roots h
  unfold ClientTlsConfig.accepts CoreVpnServerVerifier.verifyServerCert
  dsimp only
  rw [List.isEmpty_map, hroots]
  cases caCerts.isEmpty <;> cases version <;> rfl

end Client

end CoreVpn.Protocol.TlsConfigs
