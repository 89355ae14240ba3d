import CoreVpn.Client.MirroredKeys

namespace CoreVpn.Client.CipherAgreement

open Lib.Computation Lib.Wire Lib.Text Lib.Machine Crypto.Ciphers Crypto.Keys
open Protocol.Errors Protocol.Packets Protocol.Reliable Protocol.Sessions Protocol.Sending
open Protocol.DataChannels Protocol.ControlMessages Protocol.SessionFrames Protocol.SessionRuns
open Protocol.KeyMethods KeyExchange MirroredKeys
open Server.Connections Server.InstalledKeys
open Server.KeyExchange (Ctx exchangeKeys serverKeyMethod pushReply supported negotiateCipher negotiatedSuite)

variable {C : Type}

section Names

/-- The suite that a name stands for. Names are compared in upper case. -/
def Denotes (toUppercase : String → String) (name : String) (suite : CipherSuite) : Prop :=
  toUppercase name = "CHACHA20-POLY1305" ∧ suite = .chaCha20Poly1305 ∨
    toUppercase name = "AES-256-GCM" ∧ suite = .aes256Gcm

/-- A name that is installed as it is announced: AES-256-GCM in any spelling, or
CHACHA20-POLY1305 if its first letters are capitals. -/
def Installable (toUppercase : String → String) (name : String) : Prop :=
  toUppercase name = "AES-256-GCM" ∨
    toUppercase name = "CHACHA20-POLY1305" ∧ contains name "CHACHA" = true

instance (toUppercase : String → String) (name : String) : Decidable (Installable toUppercase name) :=
  inferInstanceAs (Decidable (_ ∨ _))

variable {toUppercase : String → String} {upper : Char → List Char}

theorem Installable.supported {name : String} (h : Installable toUppercase name) :
    toUppercase name ∈ supported := by
  obtain h | ⟨h, -⟩ := h
  · rw [h]
    decide
  · rw [h]
    decide

theorem Denotes.comma_not_mem (hupper : Uppercases toUppercase upper) {name : String} {suite : CipherSuite}
    (h : Denotes toUppercase name suite) : ',' ∉ name.toList := by
  intro hcomma
  have hmem : ',' ∈ (toUppercase name).toList := by
    rw [hupper.toList_eq, List.mem_flatMap]
    refine ⟨',', hcomma, ?_⟩
    rw [hupper.fixed ',' (by decide) (by decide)]
    exact List.mem_singleton_self ','
  obtain ⟨h, -⟩ | ⟨h, -⟩ := h
  · rw [h] at hmem
    exact absurd hmem (by decide)
  · rw [h] at hmem
    exact absurd hmem (by decide)

theorem chooseCipherSuite_eq_ok_iff {config : OvpnConfig} {suite : CipherSuite} :
    chooseCipherSuite toUppercase config = .ok suite ↔ Denotes toUppercase config.cipher suite := by
  unfold chooseCipherSuite Denotes
  split
  · rename_i h
    simp [h, eq_comm]
  · rename_i h
    simp [h, eq_comm]
  · rename_i hchacha haes
    constructor
    · intro h
      cases h
    · rintro (h | h)
      · exact (hchacha h.1).elim
      · exact (haes h.1).elim

theorem denotes_negotiatedSuite_iff (hupper : Uppercases toUppercase upper) (name : String) :
    Denotes toUppercase name (negotiatedSuite name) ↔ Installable toUppercase name := by
  unfold negotiatedSuite
  by_cases hname : contains name "CHACHA" = true
  · rw [if_pos hname]
    have hne : toUppercase name ≠ "AES-256-GCM" := by
      intro h
      have hcontains := hupper.contains (show Capital "CHACHA".toList by decide) hname
      rw [h] at hcontains
      exact absurd hcontains (by decide)
    simp [Denotes, Installable, hname, hne]
  · rw [if_neg hname]
    simp [Denotes, Installable, hname]

def announced (options : List String) : Option String :=
  (options.find? (startsWith · "cipher ")).map fun option => String.ofList (option.toList.drop 7)

theorem announced_eq (before after : List String) {options : List String} {name : String}
    (h : options = before ++ ("cipher " ++ name) :: after)
    (hbefore : ∀ option ∈ before, startsWith option "cipher " = false) : announced options = some name := by
  have hfind : options.find? (startsWith · "cipher ") = some ("cipher " ++ name) :=
    List.find?_eq_some_iff_append.mpr ⟨startsWith_append _ _, before, after, h, by simpa using hbefore⟩
  rw [announced, hfind, Option.map_some, String.toList_append]
  simp

theorem announced_pushReply (H : Host C) (gatewayIp clientIp cipher : String) :
    announced (pushReply H gatewayIp clientIp cipher).options = some cipher := by
  refine announced_eq [s!"reneg-sec {H.config.renegSec}"] [] ?_ ?_
  · simp [pushReply, ToString.toString]
  · simp [startsWith, ToString.toString, List.isPrefixOf]

theorem announced_serverKeyMethod (env : Env) {cipher : String} (h : ',' ∉ cipher.toList) :
    announced (split (serverKeyMethod env cipher).options ',') = some cipher := by
  have hoptions : (serverKeyMethod env cipher).options.toList = [','].intercalate
      (["V4".toList, "dev-type tun".toList, "link-mtu 1560".toList, "tun-mtu 1500".toList, "proto UDPv4".toList,
        ("cipher " ++ cipher).toList, "auth [null-digest]".toList, "keysize 256".toList, "key-method 2".toList,
        "tls-server".toList]) := by
    simp [serverKeyMethod]
  refine announced_eq ["V4", "dev-type tun", "link-mtu 1560", "tun-mtu 1500", "proto UDPv4"]
    ["auth [null-digest]", "keysize 256", "key-method 2", "tls-server"] ?_ (by decide)
  rw [split, hoptions, List.splitOn_intercalate]
  · simp only [List.map_cons, List.map_nil, String.ofList_toList, List.cons_append, List.nil_append]
  · simp [h]
  · exact List.cons_ne_nil _ _

end Names

section Server

variable {H : Host C} {env : Env} {s t : Ctx C} {clientKm : KeyMethodV2} {cipher : String}
  {upper : Char → List Char} {session installed : ProtocolSession} {material : KeyMaterial} {isServer : Bool}

def Uses (session : ProtocolSession) (suite : CipherSuite) : Prop :=
  ∃ channel, currentChannel session = some channel ∧
    channel.encryptCipher.cipher.suite = suite ∧ channel.decryptCipher.cipher.suite = suite

theorem Uses.unique {a b : CipherSuite} (h : Uses session a) (h' : Uses session b) : a = b := by
  obtain ⟨channel, hchannel, ha, -⟩ := h
  obtain ⟨channel', hchannel', hb, -⟩ := h'
  rw [hchannel] at hchannel'
  cases hchannel'
  exact ha.symm.trans hb

theorem uses_installKeys (h : ProtocolSession.installKeys material isServer session = (.ok (), installed)) :
    Uses installed session.cipherSuite := by
  refine ⟨_, installKeys_eq_ok h, ?_, ?_⟩
  · cases isServer <;> rfl
  · cases isServer <;> rfl

theorem uses_exchangeKeys (h : exchangeKeys H env clientKm s = (.ok cipher, t)) :
    Uses t.conn.protocol (negotiatedSuite cipher) := by
  obtain ⟨-, session, material, ⟨_, _, _, rfl⟩, -, hinstalled⟩ := exchangeKeys_eq_ok h
  exact uses_installKeys hinstalled

def offered (peerInfo : Option String) : List String :=
  match peerInfo.bind fun info => (lines info).find? (startsWith · "IV_CIPHERS=") with
  | some line => (split (trimStartMatches line "IV_CIPHERS=") ':').filter fun s : String => !s.isEmpty
  | none => []

theorem negotiateCipher_eq (H : Host C) (peerInfo : Option String) : negotiateCipher H peerInfo =
    ((offered peerInfo).find? fun name => supported.contains (H.toUppercase name)).getD
      (H.toUppercase H.config.cipher) := by
  cases peerInfo with
  | none => rfl
  | some info =>
    unfold negotiateCipher offered
    dsimp only [Option.bind_some]
    cases (lines info).find? (startsWith · "IV_CIPHERS=") with
    | none => rfl
    | some line =>
      dsimp only
      generalize List.find? (fun name => supported.contains (H.toUppercase name)) _ = found
      cases found with
      | none => rfl
      | some name => rfl

/-- The first of the client's names that the server supports is installed as it
is announced. If there is none, the configured name is. -/
def PicksInstallable (H : Host C) (peerInfo : Option String) : Prop :=
  (∃ before name after, offered peerInfo = before ++ name :: after ∧
      (∀ other ∈ before, H.toUppercase other ∉ supported) ∧
      Installable H.toUppercase name) ∨
    (∀ other ∈ offered peerInfo, H.toUppercase other ∉ supported) ∧
      Installable H.toUppercase (H.toUppercase H.config.cipher)

theorem installable_negotiateCipher_iff {peerInfo : Option String} :
    Installable H.toUppercase (negotiateCipher H peerInfo) ↔ PicksInstallable H peerInfo := by
  rw [negotiateCipher_eq, PicksInstallable]
  cases hfind : (offered peerInfo).find? fun name => supported.contains (H.toUppercase name) with
  | none =>
    have hnone : ∀ other ∈ offered peerInfo, H.toUppercase other ∉ supported := by
      simpa using List.find?_eq_none.mp hfind
    rw [Option.getD_none]
    constructor
    · exact fun h => .inr ⟨hnone, h⟩
    · rintro (⟨before, name, after, hsplit, -, hname⟩ | ⟨-, h⟩)
      · exact absurd hname.supported (hnone name (by simp [hsplit]))
      · exact h
  | some name =>
    obtain ⟨hname, before, after, hsplit, hbefore⟩ := List.find?_eq_some_iff_append.mp hfind
    rw [Option.getD_some]
    constructor
    · exact fun h => .inl ⟨before, name, after, hsplit, by simpa using hbefore, h⟩
    · rintro (⟨before', name', after', hsplit', hbefore', h⟩ | ⟨hnone, -⟩)
      · have hfind' : (offered peerInfo).find? (fun name => supported.contains (H.toUppercase name)) =
            some name' := List.find?_eq_some_iff_append.mpr
          ⟨List.contains_iff_mem.mpr h.supported, before', after', hsplit', by simpa using hbefore'⟩
        rw [hfind] at hfind'
        exact Option.some.inj hfind' ▸ h
      · exact absurd (List.contains_iff_mem.mp hname) (hnone name (by simp [hsplit]))

/-- What the server has installed is what it announces, in its key method message
and in the reply that it pushes. -/
def AsAnnounced (H : Host C) (env : Env) (cipher : String) (session : ProtocolSession) : Prop :=
  ∃ suite, Uses session suite ∧
    (∃ name ∈ announced (split (serverKeyMethod env cipher).options ','),
      Denotes H.toUppercase name suite) ∧
    ∀ gatewayIp clientIp, ∃ name ∈ announced (pushReply H gatewayIp clientIp cipher).options,
      Denotes H.toUppercase name suite

theorem asAnnounced_iff (hupper : Uppercases H.toUppercase upper)
    (h : exchangeKeys H env clientKm s = (.ok cipher, t)) :
    AsAnnounced H env cipher t.conn.protocol ↔ PicksInstallable H clientKm.peerInfo := by
  obtain ⟨rfl, -⟩ := exchangeKeys_eq_ok h
  rw [← installable_negotiateCipher_iff, ← denotes_negotiatedSuite_iff hupper]
  have huses := uses_exchangeKeys h
  constructor
  · rintro ⟨suite, hsuite, -, hpushed⟩
    obtain ⟨name, hname, hdenotes⟩ := hpushed "" ""
    rw [announced_pushReply, Option.mem_some_iff] at hname
    rwa [huses.unique hsuite, hname]
  · intro hdenotes
    refine ⟨_, huses, ⟨_, announced_serverKeyMethod env ?_, hdenotes⟩, fun gatewayIp clientIp => ?_⟩
    · exact hdenotes.comma_not_mem hupper
    · exact ⟨_, announced_pushReply H gatewayIp clientIp _, hdenotes⟩

end Server

section Handshake

def KeepsSuite (s t : ProtocolSession) : Prop := t.cipherSuite = s.cipherSuite

instance : IsPreorder ProtocolSession KeepsSuite where
  refl _ := rfl
  trans _ _ _ h h' := h'.trans h

theorem tolerates_keepsSuite : Tolerates KeepsSuite where
  reliable _ _ _ := rfl
  tlsReassembler _ _ _ := rfl
  remoteSessionId _ _ := rfl
  state _ _ _ := rfl

theorem sends_keepsSuite : Sends KeepsSuite where
  reliable _ _ _ := rfl
  tlsAuthPacketId _ _ := rfl

theorem keepsSuite_step (P : Primitives) (s : ProtocolSession) (call : Call)
    (h : ∀ suite, call ≠ .setCipherSuite suite) : KeepsSuite s (step P s call).2 := by
  cases call with
  | session call =>
    refine Protocol.Traffic.rel_step sends_keepsSuite P s fun clock data _ => ?_
    exact frames_processPacket_of P clock tolerates_keepsSuite (fun _ _ => rfl) (fun _ _ => rfl)
      (fun _ _ => rfl) data s
  | installKeys material isServer => exact frames_installKeys (fun _ _ => rfl) material isServer s
  | encryptData data =>
    rw [step, Protocol.Traffic.handOut_snd]
    exact frames_encryptData P (fun _ _ => rfl) data s
  | setCipherSuite suite => exact absurd rfl (h suite)
  | setRemoteSessionId id => exact rfl
  | setState now state => exact rfl
  | setTlsAuth key => exact rfl
  | rotateKey => exact rfl

variable {H : Host C} {P : Primitives} {upper : Char → List Char} {config : OvpnConfig} {secrets : Secrets}
  {serverKm clientKm : KeyMethodV2} {server client : ProtocolSession}

/-- A client and a server have come to the end of their handshake: both have
installed their keys, the client in the session that it has opened, whose suite it
never changes, and the server on the client's message. -/
def Completes (H : Host C) (P : Primitives) (config : OvpnConfig) (server client : ProtocolSession) : Prop :=
  ∃ (sessionId : SessionId) (now : Instant) (opened : ProtocolSession) (calls : List Call) (secrets : Secrets)
    (clientKm serverKm : KeyMethodV2) (env : Env) (s t : Ctx C) (cipher : String),
    openSession H.toUppercase config sessionId now = .ok opened ∧
      (∀ call ∈ calls, ∀ suite, call ≠ .setCipherSuite suite) ∧
      KeyMethodV2.parse ((clientKeyMethod config secrets).encode false) = .ok clientKm ∧
      exchangeKeys H env clientKm s = (.ok cipher, t) ∧ t.conn.protocol = server ∧
      deriveKeys H.hashes secrets serverKm (exec (step P) opened calls) = (.ok (), client)

theorem openSession_cipherSuite {toUppercase : String → String} {sessionId : SessionId} {now : Instant}
    {opened : ProtocolSession} (h : openSession toUppercase config sessionId now = .ok opened) :
    Denotes toUppercase config.cipher opened.cipherSuite := by
  obtain ⟨suite, hsuite, hopened⟩ := openSession_eq_ok h
  have hdenotes := chooseCipherSuite_eq_ok_iff.mp hsuite
  obtain rfl | ⟨hmacAuth, rfl⟩ := hopened
  · exact hdenotes
  · exact hdenotes

theorem uses_deriveKeys {hashes : Crypto.Prf.PrfHashes} {installed : ProtocolSession}
    (h : deriveKeys hashes secrets serverKm client = (.ok (), installed)) : Uses installed client.cipherSuite := by
  obtain ⟨_, _, hget, h⟩ := bind_eq_ok h
  cases hget
  cases hremote : client.remoteSessionId with
  | none =>
    rw [hremote] at h
    cases h
  | some serverSid =>
    rw [hremote] at h
    obtain ⟨material, _, hmaterial, h⟩ := bind_eq_ok h
    rw [lift_apply, Prod.mk.injEq] at hmaterial
    obtain ⟨-, rfl⟩ := hmaterial
    obtain ⟨_, hinstalled, rfl⟩ := zoom_eq_ok h
    exact uses_installKeys hinstalled

theorem fits_clientKeyMethod {toUppercase : String → String} (hupper : Uppercases toUppercase upper)
    {suite : CipherSuite} (h : Denotes toUppercase config.cipher suite) :
    Fits (clientKeyMethod config secrets) := by
  have hlength : config.cipher.toList.length ≤ 17 := by
    refine (hupper.length_le config.cipher).trans ?_
    obtain ⟨h, -⟩ | ⟨h, -⟩ := h
    · rw [h]
      decide
    · rw [h]
      decide
  have hempty : (asBytes "").length + 1 < 65536 := by decide
  have hpeer : (asBytes peerInfo).length + 1 < 65536 := by decide +kernel
  refine ⟨?_, hempty, hempty, fun info hinfo => Option.mem_some_iff.mp hinfo ▸ hpeer⟩
  have hbytes := length_asBytes_le config.cipher
  have hfixed : (asBytes "V4,dev-type tun,link-mtu 1560,tun-mtu 1500,proto UDPv4,cipher ").length +
      (asBytes ",auth [null-digest],keysize 256,key-method 2,tls-client").length < 65000 := by decide +kernel
  rw [clientKeyMethod]
  dsimp only
  rw [asBytes_append, asBytes_append, List.length_append, List.length_append]
  omega

theorem negotiateCipher_peerInfo (hupper : Uppercases H.toUppercase upper) :
    negotiateCipher H (some peerInfo) = "CHACHA20-POLY1305" := by
  have hoffered : offered (some peerInfo) = ["CHACHA20-POLY1305", "AES-256-GCM", "AES-128-GCM"] := by
    decide +kernel
  have hfirst : supported.contains (H.toUppercase "CHACHA20-POLY1305") = true := by
    rw [hupper.eq_self (by decide)]
    decide
  rw [negotiateCipher_eq, hoffered, List.find?_cons, hfirst]
  rfl

theorem same_suite_iff (hupper : Uppercases H.toUppercase upper)
    (h : Completes H P config server client) :
    (∃ suite, Uses server suite ∧ Uses client suite) ↔
      H.toUppercase config.cipher = "CHACHA20-POLY1305" := by
  obtain ⟨sessionId, now, opened, calls, secrets, clientKm, serverKm, env, s, t, cipher, hopened, hcalls, hparse,
    hexchange, rfl, hderive⟩ := h
  have hdenotes := openSession_cipherSuite hopened
  have hclient := uses_deriveKeys hderive
  rw [rel_exec (R := KeepsSuite) (keepsSuite_step P) hcalls opened] at hclient
  have hserver : Uses t.conn.protocol .chaCha20Poly1305 := by
    rw [parse_encode (fits_clientKeyMethod hupper hdenotes)] at hparse
    cases hparse
    have hpeer : (received (clientKeyMethod config secrets)).peerInfo = some peerInfo := by
      rw [received_peerInfo, clientKeyMethod, Option.bind_some]
      decide +kernel
    obtain ⟨hcipher, -⟩ := exchangeKeys_eq_ok hexchange
    rw [hpeer, negotiateCipher_peerInfo hupper] at hcipher
    have hsuite : negotiatedSuite cipher = .chaCha20Poly1305 := by
      rw [hcipher]
      decide
    exact hsuite ▸ uses_exchangeKeys hexchange
  constructor
  · rintro ⟨suite, hsuite, hsuite'⟩
    have heq : opened.cipherSuite = .chaCha20Poly1305 :=
      (hclient.unique hsuite').trans (hsuite.unique hserver)
    obtain ⟨h, -⟩ | ⟨-, h⟩ := hdenotes
    · exact h
    · rw [heq] at h
      cases h
  · intro hname
    refine ⟨_, hserver, ?_⟩
    obtain ⟨-, h⟩ | ⟨h, -⟩ := hdenotes
    · exact h ▸ hclient
    · rw [hname] at h
      exact absurd h (by decide)

end Handshake

/-- What the server installs is what it announces just if it can install the name
that it picks. The client installs the same just if it is set to ChaCha, which
heads the list that it sends. -/
theorem suites_agree_iff {H : Host C} {upper : Char → List Char}
    (hupper : Uppercases H.toUppercase upper) :
    (∀ env clientKm s t cipher, exchangeKeys H env clientKm s = (.ok cipher, t) →
      (AsAnnounced H env cipher t.conn.protocol ↔ PicksInstallable H clientKm.peerInfo)) ∧
    ∀ P config server client, Completes H P config server client →
      ((∃ suite, Uses server suite ∧ Uses client suite) ↔
        H.toUppercase config.cipher = "CHACHA20-POLY1305") :=
  ⟨fun _ _ _ _ _ h => asAnnounced_iff hupper h, fun _ _ _ _ h => same_suite_iff hupper h⟩

def offering (name : String) : KeyMethodV2 := { message with peerInfo := some ("IV_CIPHERS=" ++ name) }

def nameOf : CipherSuite → String
  | .chaCha20Poly1305 => "CHACHA20-POLY1305"
  | .aes256Gcm => "AES-256-GCM"

def handshake : List Call :=
  [.session (.createHardResetClient env.clock), .session (.processPacket env.clock accepted.1)]

theorem exists_completes (suite : CipherSuite) :
    ∃ server client, Completes host host.primitives (settings (nameOf suite)) server client := by
  have hopened : openSession id (settings (nameOf suite)) ⟨[1, 2, 3, 4, 5, 6, 7, 8], rfl⟩ 0 =
      .ok (.newClient suite ⟨[1, 2, 3, 4, 5, 6, 7, 8], rfl⟩ 0) := by
    cases suite <;> rfl
  have hparse : KeyMethodV2.parse ((clientKeyMethod (settings (nameOf suite)) secrets).encode false) =
      .ok (received (clientKeyMethod (settings (nameOf suite)) secrets)) := by
    apply parse_encode
    cases suite <;> exact ⟨by decide +kernel, by decide +kernel, by decide +kernel, by decide +kernel⟩
  have hfst : (exchangeKeys host env (received (clientKeyMethod (settings (nameOf suite)) secrets)) accepting).1 =
      .ok "CHACHA20-POLY1305" := by
    cases suite <;> decide +kernel
  have hfst' : (deriveKeys host.hashes secrets (serverKeyMethod env "CHACHA20-POLY1305")
      (exec (step host.primitives) (.newClient suite ⟨[1, 2, 3, 4, 5, 6, 7, 8], rfl⟩ 0) handshake)).1 = .ok () := by
    cases suite <;> decide +kernel
  obtain ⟨t, hexchange⟩ := exists_of_fst_eq hfst
  obtain ⟨client, hclient⟩ := exists_of_fst_eq hfst'
  refine ⟨t.conn.protocol, client, _, _, _, handshake, secrets, _, _, env, accepting, t, _, hopened, ?_, hparse,
    hexchange, rfl, hclient⟩
  intro call hcall suite
  simp only [handshake, List.mem_cons, List.not_mem_nil, or_false] at hcall
  obtain rfl | rfl := hcall <;> exact nofun

theorem suites_agree_chacha :
    (∃ t, exchangeKeys host env (offering "CHACHA20-POLY1305") accepting = (.ok "CHACHA20-POLY1305", t) ∧
      AsAnnounced host env "CHACHA20-POLY1305" t.conn.protocol) ∧
    ∃ server client, Completes host host.primitives (settings "CHACHA20-POLY1305") server client ∧
      ∃ suite, Uses server suite ∧ Uses client suite := by
  obtain ⟨hserver, hboth⟩ := suites_agree_iff (show Uppercases host.toUppercase _ from uppercases_id)
  constructor
  · have hfst : (exchangeKeys host env (offering "CHACHA20-POLY1305") accepting).1 = .ok "CHACHA20-POLY1305" := by
      decide +kernel
    obtain ⟨t, ht⟩ := exists_of_fst_eq hfst
    refine ⟨t, ht, (hserver _ _ _ _ _ ht).mpr ?_⟩
    exact installable_negotiateCipher_iff.mp (by decide +kernel)
  · obtain ⟨server, client, h⟩ := exists_completes .chaCha20Poly1305
    exact ⟨server, client, h, (hboth _ _ _ _ h).mpr rfl⟩

theorem suites_disagree :
    (∃ t, exchangeKeys host env (offering "AES-128-GCM") accepting = (.ok "AES-128-GCM", t) ∧
      ¬AsAnnounced host env "AES-128-GCM" t.conn.protocol) ∧
    ∃ server client, Completes host host.primitives (settings "AES-256-GCM") server client ∧
      ¬∃ suite, Uses server suite ∧ Uses client suite := by
  constructor
  · have hfst : (exchangeKeys host env (offering "AES-128-GCM") accepting).1 = .ok "AES-128-GCM" := by
      decide +kernel
    obtain ⟨t, ht⟩ := exists_of_fst_eq hfst
    refine ⟨t, ht, fun h => ?_⟩
    have hpicks := installable_negotiateCipher_iff.mpr ((asAnnounced_iff uppercases_id ht).mp h)
    exact absurd hpicks (by decide +kernel)
  · obtain ⟨server, client, h⟩ := exists_completes .aes256Gcm
    refine ⟨server, client, h, fun hsame => ?_⟩
    have hname := (same_suite_iff uppercases_id h).mp hsame
    exact absurd hname (by decide)

end CoreVpn.Client.CipherAgreement
