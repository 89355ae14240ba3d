import CoreVpn.Protocol.TlsConfigs
import CoreVpn.Server.OAuthGate
import CoreVpn.Server.StoredConnections

namespace CoreVpn.Server.Certificates

open Lib.Computation Lib.Wire Lib.Machine Core.Networks
open Protocol.Errors Protocol.Sessions Protocol.SessionFrames Protocol.TlsHandlers Protocol.TlsFrames
open Protocol.TlsConfigs
open Connections KeyExchange ControlPackets Handlers HandlerFrames HandlerEffects StoredConnections
open OAuthGate (openConnection_state)
open PlainHost

variable {C α : Type}

section Loading

structure CertFiles where
  certExists : Bool
  keyExists : Bool
  cert : Except String String
  key : Except String String

inductive LoadError where
  | readCert (e : String)
  | readKey (e : String)
  | parseCert (e : ProtocolError)
  | parseKey (e : ProtocolError)
  | createConfig (e : ProtocolError)
  deriving DecidableEq

def readFile (wrap : String → LoadError) : Except String String → Outcome LoadError String
  | .ok content => .ok content
  | .error e => .error (.error (wrap e))

/-- Without the files there is no TLS. -/
def loadTlsConfig (L : TlsLibrary) (files : CertFiles) : Outcome LoadError (Option ServerTlsConfig) := do
  if !files.certExists || !files.keyExists then return none
  else
    let certPem ← readFile .readCert files.cert
    let keyPem ← readFile .readKey files.key
    let certs ← Outcome.mapFault .parseCert (loadCertsFromPem L certPem)
    let key ← Outcome.mapFault .parseKey (loadKeyFromPem L keyPem)
    let tlsConfig ← Outcome.mapFault .createConfig (createServerConfig L certs key none)
    return some tlsConfig

theorem loadTlsConfig_clientCertVerifier {L : TlsLibrary} {files : CertFiles} {config : ServerTlsConfig}
    (h : loadTlsConfig L files = .ok (some config)) : config.clientCertVerifier = none := by
  unfold loadTlsConfig at h
  split at h
  · cases h
  · obtain ⟨certPem, -, h⟩ := Outcome.bind_eq_ok_iff.mp h
    obtain ⟨keyPem, -, h⟩ := Outcome.bind_eq_ok_iff.mp h
    obtain ⟨certs, -, h⟩ := Outcome.bind_eq_ok_iff.mp h
    obtain ⟨key, -, h⟩ := Outcome.bind_eq_ok_iff.mp h
    obtain ⟨tlsConfig, hconfig, h⟩ := Outcome.bind_eq_ok_iff.mp h
    cases h
    obtain ⟨_, -, hconfig⟩ := Outcome.bind_eq_ok_iff.mp (Outcome.mapFault_eq_ok_iff.mp hconfig)
    cases hconfig
    rfl

end Loading

section Handshakes

/-- A handler touches the TLS part of its connection through the library only. -/
structure OnTls (E : TlsEngine C) (s t : Ctx C) : Prop where
  after : ∀ tls ∈ s.conn.tls, ∃ tls' ∈ t.conn.tls, Works E tls tls'
  before : ∀ tls' ∈ t.conn.tls, ∃ tls ∈ s.conn.tls, Works E tls tls'

variable {E : TlsEngine C}

theorem onTls_of_eq {s t : Ctx C} (h : t.conn.tls = s.conn.tls) : OnTls E s t where
  after tls htls := ⟨tls, h ▸ htls, .refl⟩
  before tls htls := ⟨tls, h ▸ htls, .refl⟩

instance : IsPreorder (Ctx C) (OnTls E) where
  refl _ := onTls_of_eq rfl
  trans _ _ _ h h' := by
    constructor
    · intro tls htls
      obtain ⟨tls', htls', hworks⟩ := h.after tls htls
      obtain ⟨tls'', htls'', hworks'⟩ := h'.after tls' htls'
      exact ⟨tls'', htls'', hworks.trans hworks'⟩
    · intro tls'' htls''
      obtain ⟨tls', htls', hworks'⟩ := h'.before tls'' htls''
      obtain ⟨tls, htls, hworks⟩ := h.before tls' htls'
      exact ⟨tls, htls, hworks.trans hworks'⟩

instance : ThroughTls E (OnTls E) where
  tls s tls tls' hs h := by
    constructor
    · intro tls₀ htls
      rw [hs, Option.mem_some_iff] at htls
      exact ⟨tls', rfl, htls ▸ h⟩
    · intro tls₀ htls
      exact ⟨tls, hs, Option.mem_some_iff.mp htls ▸ h⟩

instance : IgnoresLog (OnTls E) := ⟨fun _ _ => onTls_of_eq rfl⟩

instance : Handled (OnTls E) where
  session _ _ _ := onTls_of_eq rfl
  stats _ _ := onTls_of_eq rfl
  packets _ _ := onTls_of_eq rfl
  username _ _ := onTls_of_eq rfl
  setCipherSuite _ _ := onTls_of_eq rfl
  conn _ _ _ _ h := onTls_of_eq h
  incoming _ _ _ _ := onTls_of_eq rfl
  setState _ _ _ := onTls_of_eq rfl

def Completed (conn : Connection C) : Prop := ∃ tls ∈ conn.tls, tls.handshakeComplete = true

theorem OnTls.completed {s t : Ctx C} (h : OnTls E s t) (hs : Completed s.conn) : Completed t.conn := by
  obtain ⟨tls, htls, hcomplete⟩ := hs
  obtain ⟨tls', htls', hworks⟩ := h.after tls htls
  exact ⟨tls', htls', hworks.handshakeComplete hcomplete⟩

variable (H : Host C) (env : Env) (peerAddr : SocketAddr) (data : Bytes)

theorem onTls_after_intake (s : Ctx C) :
    OnTls H.engine (intake H env peerAddr data s).2 (controlBody H env peerAddr data s).2 := by
  cases controlBody_cases (R := OnTls H.engine) H env peerAddr data s with
  | inl hassigned =>
    obtain ⟨cipher, -, hrest⟩ := hassigned
    have hassign : Frames (OnTls H.engine) (assignAddress H env peerAddr cipher) :=
      frames_assignAddress_of H env peerAddr (fun _ _ _ => onTls_of_eq rfl)
        (frames_answer (R := OnTls H.engine) H env peerAddr fun _ _ _ => onTls_of_eq rfl) cipher
    exact trans_of (OnTls H.engine) (hassign _) hrest
  | inr hrest => exact hrest.2

theorem onTls_controlBody : Frames (OnTls H.engine) (controlBody H env peerAddr data) := fun s =>
  trans_of (OnTls H.engine) (frames_intake H env peerAddr data s) (onTls_after_intake H env peerAddr data s)

variable {env peerAddr data} in
theorem openConnection_tls {opened : Bytes × Connection C} {tls : TlsHandler C}
    (h : openConnection H env peerAddr data = .ok opened) (htls : tls ∈ opened.2.tls) :
    TlsHandler.new H.engine = .ok tls := by
  obtain ⟨⟨_, session⟩, -, h⟩ := Outcome.bind_eq_ok_iff.mp h
  obtain ⟨init, hinit, h⟩ := Outcome.bind_eq_ok_iff.mp h
  obtain ⟨⟨_, answered⟩, -, h⟩ := Outcome.bind_eq_ok_iff.mp h
  cases h
  unfold initTls at hinit
  split at hinit
  · obtain ⟨new, hnew, hinit⟩ := Outcome.bind_eq_ok_iff.mp hinit
    cases hinit
    cases htls
    exact Outcome.mapFault_eq_ok_iff.mp hnew
  · cases hinit
    cases htls

theorem lasting_tls {T : TlsHandler C → Prop} (hnew : ∀ tls, TlsHandler.new H.engine = .ok tls → T tls)
    (hstep : ∀ {s t}, Operation H.engine s t → T s → T t) :
    Lasting H fun conn => ∀ tls ∈ conn.tls, T tls := by
  have hkeep : ∀ {α : Type} {p : Handler C α}, Frames (OnTls H.engine) p →
      Keeps (fun conn => ∀ tls ∈ conn.tls, T tls) p := by
    intro α p hp s hs tls' htls'
    obtain ⟨tls, htls, hworks⟩ := (hp s).before tls' htls'
    exact hworks.induct hstep (hs tls htls)
  constructor
  · intro env peerAddr data opened h tls htls
    exact hnew tls (openConnection_tls H h htls)
  · exact fun env peerAddr data => hkeep (onTls_controlBody H env peerAddr data)
  · exact fun env data => hkeep (frames_dataBody H env data)
  · exact fun env auth => hkeep (frames_completeAuth H env auth)
  · exact fun data => hkeep (frames_encryptFor H data)

end Handshakes

section Establishing

variable {H : Host C} {env : Env} {peerAddr : SocketAddr} {data : Bytes}

def unreached (state : ProtocolState) (reply : Option String) : Prop := state ≠ .established ∧ reply = none

/-- Whoever has got that far has completed the handshake. -/
def CompletedFirst (conn : Connection C) : Prop := OnPhase unreached conn ∨ Completed conn

theorem unreached_incoming (P : Primitives) (clock : Clock) (data : Bytes) :
    Frames (KeepsPhase unreached) (onProtocol (ProtocolSession.processPacket P clock data) :
      Handler C ProcessedPacket) :=
  frames_zoom (frames_processPacket P clock data) fun _ _ h hs => ⟨fun ht => hs.1 (h.established ht), hs.2⟩

theorem unreached_tryKeyExchange : Frames (KeepsPhase unreached) (tryKeyExchange H env) := by
  refine frames_bind (frames_modify fun s hs => ?_) fun _ => frames_bind (frames_readKeyMethod H) fun km => ?_
  · unfold beginKeyExchange
    split
    · exact ⟨nofun, hs.2⟩
    · exact hs
  · cases km with
    | none => exact frames_pure _
    | some km => exact frames_bind (frames_exchangeKeys H env km) fun _ => frames_pure _

theorem completed_of_shouldTryKm {s : Ctx C} (h : shouldTryKm s = true) : Completed s.conn := by
  have hcomplete := (Bool.and_eq_true_iff.mp h).1
  unfold isHandshakeComplete at hcomplete
  cases htls : s.conn.tls with
  | none =>
    rw [htls] at hcomplete
    cases hcomplete
  | some tls =>
    rw [htls] at hcomplete
    exact ⟨tls, htls, hcomplete⟩

theorem completed_intake {s t : Ctx C} {cipher : Option String}
    (h : intake H env peerAddr data s = (.ok (.keyExchange cipher), t)) : Completed t.conn := by
  obtain ⟨u, hkm, hu⟩ := intake_eq_keyExchange H env peerAddr data h
  have htls : OnTls H.engine u t := (frames_tryKeyExchange H env).rel hu
  exact htls.completed (completed_of_shouldTryKm hkm)

theorem unreached_controlBody (s : Ctx C) (hs : OnPhase unreached s.conn) :
    CompletedFirst (controlBody H env peerAddr data s).2.conn := by
  have hintake : KeepsPhase unreached s (intake H env peerAddr data s).2 :=
    frames_intake_of H env peerAddr data (fun _ _ => id) (unreached_incoming _ _ _)
      (fun s _ => unreached_tryKeyExchange s) s
  cases controlBody_cases (R := KeepsPhase unreached) H env peerAddr data s with
  | inl hassigned =>
    obtain ⟨cipher, hstage, -⟩ := hassigned
    have hcompleted := completed_intake (Prod.ext hstage rfl : intake H env peerAddr data s = (_, _))
    exact .inr ((onTls_after_intake H env peerAddr data s).completed hcompleted)
  | inr hrest => exact .inl (hrest.2 (hintake hs))

theorem unreached_completeAuth (auth : AuthCompleted) (s : Ctx C) (hs : OnPhase unreached s.conn) :
    (completeAuth H env auth s).2 = s := by
  simp only [completeAuth, bind_apply, get_apply, hs.2, pure_apply]

theorem keeps_completedFirst {p : Handler C α} (htls : Frames (OnTls H.engine) p)
    (hp : ∀ s, OnPhase unreached s.conn → CompletedFirst (p s).2.conn) : Keeps CompletedFirst p := by
  rintro s (hs | hs)
  · exact hp s hs
  · exact .inr ((htls s).completed hs)

theorem lasting_completedFirst : Lasting H CompletedFirst := by
  constructor
  · intro env peerAddr data opened h
    refine .inl ⟨openConnection_state H env peerAddr data h, ?_⟩
    obtain ⟨⟨_, session⟩, -, h⟩ := Outcome.bind_eq_ok_iff.mp h
    obtain ⟨_, -, h⟩ := Outcome.bind_eq_ok_iff.mp h
    obtain ⟨⟨_, answered⟩, -, h⟩ := Outcome.bind_eq_ok_iff.mp h
    cases h
    rfl
  · exact fun env peerAddr data =>
      keeps_completedFirst (onTls_controlBody H env peerAddr data) unreached_controlBody
  · intro env data
    refine keeps_completedFirst (H := H) (frames_dataBody H env data) fun s hs => .inl ?_
    exact frames_dataBody_of (R := KeepsPhase unreached) H env data (fun _ _ => id) (unreached_incoming _ _ _) s hs
  · intro env auth
    refine keeps_completedFirst (H := H) (frames_completeAuth H env auth) fun s hs => ?_
    rw [unreached_completeAuth auth s hs]
    exact .inl hs
  · intro data
    refine keeps_completedFirst (H := H) (frames_encryptFor H data) fun s hs => .inl ?_
    exact frames_encryptFor (R := KeepsPhase unreached) H data s hs

theorem completed_of_established {s₀ : System C} (hstart : start H.config = .ok s₀) (events : List Event)
    {addr : SocketAddr} {conn : Connection C}
    (hconn : (exec (step H) s₀ events).server.connections addr = some conn)
    (hstate : conn.protocol.state = .established) : Completed conn := by
  obtain hunreached | hcompleted := lasting_completedFirst.exec hstart events hconn
  · exact absurd hstate hunreached.1
  · exact hcompleted

end Establishing

section Peers

/-- The peer has presented a chain of certificates, and the verifier has accepted it. -/
def Vouched (peerCertificates : C → Option (List Bytes)) (verifier : ClientCertVerifier) (c : C) : Prop :=
  ∃ chain ∈ peerCertificates c, verifier chain = true

/-- The library asks the verifier that it is given: no handshake is over before the
peer's chain is accepted, and then this stays so. -/
structure Consults (E : TlsEngine C) (peerCertificates : C → Option (List Bytes))
    (verifier : ClientCertVerifier) : Prop where
  concluded : ∀ c, E.isHandshaking c = false → Vouched peerCertificates verifier c
  settled : ∀ {s t}, Operation E s t → Vouched peerCertificates verifier s.conn →
    Vouched peerCertificates verifier t.conn

def PeerVerified (config : ServerTlsConfig) (peerCertificates : C → Option (List Bytes))
    (conn : Connection C) : Prop :=
  ∃ verifier ∈ config.clientCertVerifier, ∃ tls ∈ conn.tls, Vouched peerCertificates verifier tls.conn

variable {H : Host C} {peerCertificates : C → Option (List Bytes)} {verifier : ClientCertVerifier}

theorem Consults.lasting (h : Consults H.engine peerCertificates verifier) :
    Lasting H fun conn => ∀ tls ∈ conn.tls, tls.handshakeComplete = true →
      Vouched peerCertificates verifier tls.conn := by
  refine lasting_tls H (fun tls hnew hcomplete => ?_) fun {s t} hop hs => ?_
  · unfold TlsHandler.new at hnew
    split at hnew
    · cases hnew
      cases hcomplete
    · cases hnew
  · cases hop with
    | complete hdone => exact fun _ => h.concluded _ hdone
    | _ => exact fun hcomplete => h.settled (by constructor) (hs hcomplete)

theorem peerVerified_iff {config : ServerTlsConfig}
    (hlibrary : ∀ verifier ∈ config.clientCertVerifier, Consults H.engine peerCertificates verifier)
    {s₀ : System C} (hstart : start H.config = .ok s₀) (events : List Event) {addr : SocketAddr}
    {conn : Connection C} (hconn : (exec (step H) s₀ events).server.connections addr = some conn)
    (hstate : conn.protocol.state = .established) :
    PeerVerified config peerCertificates conn ↔ config.clientCertVerifier.isSome := by
  constructor
  · rintro ⟨verifier, hverifier, -⟩
    exact Option.isSome_of_mem hverifier
  · intro hsome
    obtain ⟨verifier, hverifier⟩ := Option.isSome_iff_exists.mp hsome
    obtain ⟨tls, htls, hcomplete⟩ := completed_of_established hstart events hconn hstate
    have hvouched := (hlibrary verifier hverifier).lasting.exec hstart events hconn tls htls hcomplete
    exact ⟨verifier, hverifier, tls, htls, hvouched⟩

/-- A client with a CA certificate takes every server for a genuine one, so that only
a genuine one, or no CA certificate, makes it right. The peer of an established
connection is verified if the server has a verifier, and the server never loads one. -/
theorem peers_authenticated_iff (L : TlsLibrary) :
    (∀ caCerts clientCert config, createClientConfig L caCerts clientCert = .ok config →
      ∀ (chains : List TrustAnchor → Bytes → List Bytes → Prop) (signed : Bytes → Bytes → Bytes → Prop)
        (version : TlsVersion) (endEntity : Bytes) (intermediates : List Bytes) (message dss : Bytes),
        ((config.accepts version endEntity intermediates message dss = true →
          chains config.verifier.roots endEntity intermediates ∧ signed message endEntity dss) ↔
            caCerts = [] ∨ chains config.verifier.roots endEntity intermediates ∧ signed message endEntity dss)) ∧
    (∀ (C : Type) (H : Host C) (peerCertificates : C → Option (List Bytes)) (config : ServerTlsConfig),
      (∀ verifier ∈ config.clientCertVerifier, Consults H.engine peerCertificates verifier) →
      ∀ (s₀ : System C), start H.config = .ok s₀ → ∀ (events : List Event) (addr : SocketAddr)
        (conn : Connection C), (exec (step H) s₀ events).server.connections addr = some conn →
        conn.protocol.state = .established →
        (PeerVerified config peerCertificates conn ↔ config.clientCertVerifier.isSome)) ∧
    ∀ files config, loadTlsConfig L files = .ok (some config) → config.clientCertVerifier = none := by
  refine ⟨?_, ?_, ?_⟩
  · intro caCerts clientCert config hconfig chains signed version endEntity intermediates message dss
    rw [accepts_eq hconfig]
    cases caCerts with
    | nil => simp
    | cons cert rest => simp
  · intro C H peerCertificates config hlibrary s₀ hstart events addr conn hconn hstate
    exact peerVerified_iff hlibrary hstart events hconn hstate
  · exact fun _ _ => loadTlsConfig_clientCertVerifier

def library : TlsLibrary where
  pemCerts _ := [.ok [1]]
  pemItems _ := [.ok (.pkcs8Key [2])]
  trustAnchor cert := .ok ⟨cert, [], none⟩
  serverCert _ _ := .ok ()
  clientAuthCert _ _ := .ok ()

def files : CertFiles := ⟨true, true, .ok "", .ok ""⟩

def pinned (roots : List TrustAnchor) (endEntity : Bytes) (intermediates : List Bytes) : Prop :=
  (∃ ta ∈ roots, ta.subject = endEntity) ∧ intermediates = []

theorem exists_connected : ∃ conn,
    (exec (step (plainHost false)) plainStart connecting).server.connections alice = some conn ∧
      conn.protocol.state = .established ∧ conn.authMethod = .certificate := by
  have hrun : ((exec (step (plainHost false)) plainStart connecting).server.connections alice).map
      (fun conn => (conn.protocol.state, conn.authMethod)) = some (.established, .certificate) := by
    decide +kernel
  obtain ⟨conn, hconn, hfacts⟩ := Option.map_eq_some_iff.mp hrun
  exact ⟨conn, hconn, Prod.mk.inj hfacts⟩

section Mutual

/-- The certificate `[1]` is the authority. -/
def trusted (chain : List Bytes) : Bool := chain.getLast? == some [1]

/-- A connection of a server that asks for certificates: the chain of the peer, once
it is accepted, and what was received and not read. -/
abbrev MutualConn := Option { chain : List Bytes // trusted chain = true } × Bytes

/-- As a library without cryptography, but the first record has to bring a chain
that is trusted, with a byte for each certificate. -/
def mutualEngine : TlsEngine MutualConn where
  new := .ok (none, [])
  readTls bytes c := (.ok bytes.length, c.1, c.2 ++ bytes)
  processNewPackets c :=
    if c.1.isSome || c.2.isEmpty then (.ok (), c)
    else if h : trusted ((c.2.drop 5).map fun byte => [byte]) = true then (.ok (), some ⟨_, h⟩, [])
    else (.error "UnknownIssuer", c)
  isHandshaking c := c.1.isNone
  wantsWrite _ := false
  writeTls c := (.ok [], c)
  read limit c := (.ok ((c.2.drop 5).take limit), c.1, [])
  write data c := (.ok data.length, c)
  backlog _ := 0
  backlog_lt h hne := by
    cases h
    exact absurd rfl hne

def presented (c : MutualConn) : Option (List Bytes) := c.1.map Subtype.val

theorem consults_mutualEngine : Consults mutualEngine presented trusted := by
  have haccepted : ∀ c : MutualConn, Vouched presented trusted c ↔ c.1.isSome = true := by
    rintro ⟨_ | ⟨chain, hchain⟩, received⟩
    · simp [Vouched, presented]
    · simp [Vouched, presented, hchain]
  constructor
  · intro c hdone
    have hnone : c.1.isNone = false := hdone
    rw [haccepted, ← Option.not_isNone, hnone, Bool.not_false]
  · intro s t hop hs
    rw [haccepted] at hs ⊢
    cases hop with
    | processNewPackets =>
      have hsame : mutualEngine.processNewPackets s.conn = (.ok (), s.conn) :=
        if_pos (by rw [hs, Bool.true_or])
      rwa [hsame]
    | _ => exact hs

def mutualHost : Host MutualConn :=
  { plainHost false with engine := mutualEngine }

/-- A client with the chain `[5]`, `[1]`. -/
def certified : List Event :=
  [.packet (atSecond 0 0) alice hardReset,
    .packet (atSecond 1 0) alice ([32, 1, 2, 3, 4, 5, 6, 7, 8, 0, 0, 0, 0, 1] ++ [22, 3, 3, 0, 2] ++ [5, 1]),
    .packet (atSecond 2 0) alice (keyMethod 2)]

theorem exists_certified : ∃ conn,
    (exec (step mutualHost) (startOf MutualConn) certified).server.connections alice = some conn ∧
      conn.protocol.state = .established ∧ conn.tls.bind (presented ·.conn) = some [[5], [1]] := by
  have hrun : ((exec (step mutualHost) (startOf MutualConn) certified).server.connections alice).map
      (fun conn => (conn.protocol.state, conn.tls.bind (presented ·.conn))) =
        some (.established, some [[5], [1]]) := by
    decide +kernel
  obtain ⟨conn, hconn, hfacts⟩ := Option.map_eq_some_iff.mp hrun
  exact ⟨conn, hconn, Prod.mk.inj hfacts⟩

end Mutual

theorem peers_authenticated_genuine :
    (∃ config, createClientConfig library [[1]] none = .ok config ∧
      config.accepts .tls13 [1] [] [] [] = true ∧ pinned config.verifier.roots [1] []) ∧
    (∃ conn, (exec (step mutualHost) (startOf MutualConn) certified).server.connections alice = some conn ∧
      conn.tls.bind (presented ·.conn) = some [[5], [1]] ∧
      PeerVerified ⟨[], .pkcs8 [], some trusted⟩ presented conn) ∧
    ∃ config, loadTlsConfig library files = .ok (some config) ∧ config.clientCertVerifier = none := by
  obtain ⟨hclient, hserver, hload⟩ := peers_authenticated_iff library
  refine ⟨⟨⟨⟨[⟨[1], [], none⟩]⟩, none⟩, rfl, rfl, ?_⟩, ?_, ⟨_, rfl, hload files _ rfl⟩⟩
  · have hpinned : pinned [⟨[1], [], none⟩] [1] [] := ⟨⟨_, List.mem_singleton_self _, rfl⟩, rfl⟩
    have hright := (hclient [[1]] none _ rfl pinned (fun _ _ _ => True) .tls13 [1] [] [] []).mpr
      (.inr ⟨hpinned, trivial⟩)
    exact (hright rfl).1
  · obtain ⟨conn, hconn, hstate, hpresented⟩ := exists_certified
    refine ⟨conn, hconn, hpresented, (hserver MutualConn mutualHost _ _ ?_ (startOf MutualConn)
      (start_config MutualConn false) certified alice conn hconn hstate).mpr rfl⟩
    rintro verifier ⟨⟩
    exact consults_mutualEngine

/-- An impostor is accepted, and a client without a certificate is established, as
one that was authenticated by its certificate. -/
theorem impostors_accepted :
    (∃ config, createClientConfig library [[1]] none = .ok config ∧
      config.accepts .tls13 [9] [] [] [] = true ∧ ¬pinned config.verifier.roots [9] []) ∧
    ∃ config conn, loadTlsConfig library files = .ok (some config) ∧
      (exec (step (plainHost false)) plainStart connecting).server.connections alice = some conn ∧
      conn.protocol.state = .established ∧ conn.authMethod = .certificate ∧
      ∀ peerCertificates, ¬PeerVerified config peerCertificates conn := by
  constructor
  · refine ⟨⟨⟨[⟨[1], [], none⟩]⟩, none⟩, rfl, rfl, ?_⟩
    rintro ⟨⟨ta, hta, hsubject⟩, -⟩
    rw [List.mem_singleton.mp hta] at hsubject
    cases hsubject
  · obtain ⟨conn, hconn, hstate, hmethod⟩ := exists_connected
    refine ⟨_, conn, rfl, hconn, hstate, hmethod, ?_⟩
    rintro peerCertificates ⟨verifier, hverifier, -⟩
    cases hverifier

end Peers

end CoreVpn.Server.Certificates
