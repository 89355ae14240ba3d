import CoreVpn.Client.KeyExchange
import CoreVpn.Protocol.HardResets
import CoreVpn.Protocol.KeyMethods
import CoreVpn.Server.InstalledKeys
import CoreVpn.Server.PlainHost

namespace CoreVpn.Client.MirroredKeys

open Lib.Computation Lib.Wire Lib.Text Lib.Machine Core.Networks Crypto.Ciphers Crypto.Keys Crypto.Prf
open Protocol.Errors Protocol.Packets Protocol.Opcodes Protocol.Reliable Protocol.Sessions Protocol.Sending
open Protocol.DataChannels Protocol.ControlMessages Protocol.SessionFrames Protocol.SessionRuns
open Protocol.HardResets Protocol.KeyMethods KeyExchange
open Server.Connections Server.Handlers Server.PlainHost
open Server.KeyExchange (Ctx exchangeKeys serverKeyMethod)
open Server.InstalledKeys

variable {C : Type}

section Resets

variable {H : Host C} {env : Env} {peerAddr : SocketAddr} {reset response : Bytes} {conn : Connection C}
  {toUppercase : String → String} {config : OvpnConfig} {sessionId : SessionId} {now : Instant}
  {session : ProtocolSession}

theorem openSession_eq_ok (h : openSession toUppercase config sessionId now = .ok session) :
    ∃ suite, chooseCipherSuite toUppercase config = .ok suite ∧
      (session = .newClient suite sessionId now ∨
        ∃ hmacAuth, session = (ProtocolSession.newClient suite sessionId now).setTlsAuth hmacAuth) := by
  obtain ⟨suite, hsuite, h⟩ := Outcome.bind_eq_ok_iff.mp h
  refine ⟨suite, hsuite, ?_⟩
  cases hkey : config.tlsAuthKey with
  | none =>
    rw [hkey] at h
    cases h
    exact .inl rfl
  | some taKeyBytes =>
    rw [hkey] at h
    obtain ⟨taKey, -, h⟩ := Outcome.bind_eq_ok_iff.mp h
    obtain ⟨hmacAuth, -, h⟩ := Outcome.bind_eq_ok_iff.mp h
    cases h
    exact .inr ⟨hmacAuth, rfl⟩

theorem openSession_localSessionId (h : openSession toUppercase config sessionId now = .ok session) :
    session.localSessionId = sessionId ∧ Limits session := by
  obtain ⟨suite, -, hsession⟩ := openSession_eq_ok h
  have hlimits : Limits (ProtocolSession.newClient suite sessionId now) :=
    limits_fresh false suite sessionId now
  obtain rfl | ⟨hmacAuth, rfl⟩ := hsession
  · exact ⟨rfl, hlimits⟩
  · exact ⟨rfl, hlimits.windowSize, hlimits.maxSize, hlimits.room, hlimits.keyId_lt⟩

theorem enableTlsAuth_limits (session : ProtocolSession) : KeepsLimits session (enableTlsAuth H session) := by
  intro h
  unfold enableTlsAuth
  split
  · split
    · exact ⟨h.windowSize, h.maxSize, h.room, h.keyId_lt⟩
    · exact h
  · exact h

theorem openConnection_ids {clientSid : SessionId} (hreset : Announces reset .hardResetClientV2 clientSid)
    (h : openConnection H env peerAddr reset = .ok (response, conn)) :
    conn.protocol.remoteSessionId = some clientSid ∧
      Announces response .hardResetServerV2 conn.protocol.localSessionId ∧ Limits conn.protocol := by
  obtain ⟨⟨_, session⟩, hprocess, h⟩ := Outcome.bind_eq_ok_iff.mp h
  obtain ⟨_, -, h⟩ := Outcome.bind_eq_ok_iff.mp h
  obtain ⟨⟨response', answered⟩, hanswer, h⟩ := Outcome.bind_eq_ok_iff.mp h
  cases h
  have hlearned := learned_processPacket (by decide) hreset (evaluate_eq_ok hprocess)
  have hresponse := announces_createHardResetResponse (evaluate_eq_ok hanswer)
  have hids : SameIds session answered := (frames_createReliable _ _ sends_sameIds _ _ _).evaluate hanswer
  refine ⟨hids.remoteSessionId.trans hlearned.remoteSessionId, ?_, ?_⟩
  · rw [hids.localSessionId]
    exact hresponse
  · have hprocessed : KeepsLimits _ session :=
      Frames.evaluate (fun s => traffic_keepsLimits H.primitives s (.processPacket env.clock reset)) hprocess
    have hanswered : KeepsLimits session answered :=
      (frames_createReliable _ _ sends_keepsLimits _ _ _).evaluate hanswer
    exact hanswered (hprocessed (enableTlsAuth_limits _ (limits_fresh true _ env.sessionId env.clock.now)))

/-- A client and a server have exchanged their hard resets: the server has
opened a connection on the client's packet, and the client, who may have done
other things in the meantime, has taken the response. -/
def ExchangedResets (H : Host C) (P : Primitives) (toUppercase : String → String) (config : OvpnConfig)
    (server client : ProtocolSession) : Prop :=
  ∃ (sessionId : SessionId) (now : Instant) (opened sent waiting : ProtocolSession) (clock clock' : Clock)
    (env : Env) (peerAddr : SocketAddr) (reset response : Bytes) (conn : Connection C)
    (result : ProcessedPacket),
    openSession toUppercase config sessionId now = .ok opened ∧
      createHardResetClient P clock opened = (.ok reset, sent) ∧
      openConnection H env peerAddr reset = .ok (response, conn) ∧ conn.protocol = server ∧
      Later P sent waiting ∧ ProtocolSession.processPacket P clock' response waiting = (.ok result, client)

structure Paired (server client : ProtocolSession) : Prop where
  atServer : server.remoteSessionId = some client.localSessionId
  atClient : client.remoteSessionId = some server.localSessionId

theorem Paired.later {P P' : Primitives} {server client server' client' : ProtocolSession}
    (h : Paired server client) (hs : Later P server server') (hc : Later P' client client') :
    Paired server' client' := by
  constructor
  · rw [hs.sameIds.remoteSessionId, hc.sameIds.localSessionId]
    exact h.atServer
  · rw [hc.sameIds.remoteSessionId, hs.sameIds.localSessionId]
    exact h.atClient

theorem ExchangedResets.paired {P : Primitives} {server client : ProtocolSession}
    (h : ExchangedResets H P toUppercase config server client) :
    Paired server client ∧ Limits server ∧ Limits client := by
  obtain ⟨sessionId, now, opened, sent, waiting, clock, clock', env, peerAddr, reset, response, conn, result,
    hopened, hsent, hconn, rfl, hwaiting, hclient⟩ := h
  have hreset := announces_createHardResetClient hsent
  have hids : SameIds opened sent := (frames_createHardResetClient P clock sends_sameIds).rel hsent
  obtain ⟨hremote, hresponse, hlimits⟩ := openConnection_ids hreset hconn
  have hlearned := learned_processPacket (by decide) hresponse hclient
  have hlocal : client.localSessionId = opened.localSessionId :=
    hlearned.localSessionId.trans (hwaiting.sameIds.localSessionId.trans hids.localSessionId)
  refine ⟨⟨hlocal ▸ hremote, hlearned.remoteSessionId⟩, hlimits, ?_⟩
  have hsentLimits : Limits sent :=
    (frames_createHardResetClient P clock sends_keepsLimits).rel hsent (openSession_localSessionId hopened).2
  have hkeeps : Frames KeepsLimits (ProtocolSession.processPacket P clock' response) :=
    fun s => traffic_keepsLimits P s (.processPacket clock' response)
  exact hkeeps.rel hclient (hwaiting.limits hsentLimits)

end Resets

section Keys

/-- What one side encrypts with is what the other decrypts with. -/
structure Mirrored (server client : DataChannel) : Prop where
  fromServer : (server.encryptCipher.cipher, server.encryptCipher.implicitIv) =
    (client.decryptCipher.cipher, client.decryptCipher.implicitIv)
  fromClient : (client.encryptCipher.cipher, client.encryptCipher.implicitIv) =
    (server.decryptCipher.cipher, server.decryptCipher.implicitIv)

def HaveMirroredKeys (server client : ProtocolSession) : Prop :=
  ∃ a b, currentChannel server = some a ∧ currentChannel client = some b ∧ Mirrored a b

structure Bears (km : KeyMethodV2) (secrets : Secrets) : Prop where
  preMaster : km.preMaster = secrets.preMaster
  random1 : km.random1 = secrets.random1
  random2 : km.random2 = secrets.random2

theorem bears_clientKeyMethod (config : OvpnConfig) (secrets : Secrets) :
    Bears (clientKeyMethod config secrets) secrets := ⟨rfl, rfl, rfl⟩

variable {H : Host C} {env : Env} {config : OvpnConfig} {secrets : Secrets}
  {sent clientKm serverKm : KeyMethodV2} {cipher : String} {rest : Bytes} {server server' client : ProtocolSession}
  {material : KeyMaterial}

/-- Both sides come to the same block of keys. -/
theorem deriveKeyBlock_eq (hpaired : Paired server client) (hsent : Bears sent secrets)
    (hclientKm : KeyMethodV2.parse (sent.encode false) = .ok clientKm)
    (hserverKm : KeyMethodV2.parseFromServer ((serverKeyMethod env cipher).encode true ++ rest) =
      .ok serverKm) :
    deriveKeyBlock H.hashes secrets serverKm client.localSessionId server.localSessionId =
      Server.KeyExchange.deriveKeyBlock H env clientKm server := by
  obtain ⟨hpre, hrandom1, hrandom2⟩ := secrets_of_parse hclientKm
  obtain ⟨hserver1, hserver2⟩ := randoms_of_parseFromServer hserverKm
  rw [Server.KeyExchange.deriveKeyBlock, deriveKeyBlock, hpre, hrandom1, hrandom2, hserver1, hserver2,
    hsent.preMaster, hsent.random1, hsent.random2, hpaired.atServer]
  rfl

theorem mirrored_channelOf (h : server.cipherSuite = client.cipherSuite) (material : KeyMaterial) :
    Mirrored (channelOf server material true) (channelOf client material false) := by
  constructor
  · rw [channelOf, channelOf, h]
    rfl
  · rw [channelOf, channelOf, h]
    rfl

theorem haveMirroredKeys_deriveKeys (hpaired : Paired server client)
    (hsuite : server'.cipherSuite = client.cipherSuite)
    (hkeyId : server.currentKeyId.val.toNat < 8) (hkeyId' : client.currentKeyId.val.toNat < 8)
    (hblock : deriveKeyBlock H.hashes secrets serverKm client.localSessionId server.localSessionId =
      Server.KeyExchange.deriveKeyBlock H env clientKm server)
    (hmaterial : KeyMaterial.fromOpenvpnKey2Block (Server.KeyExchange.deriveKeyBlock H env clientKm server) =
      .ok material)
    (hinstalled : ProtocolSession.installKeys material true server = (.ok (), server')) :
    ∃ client', deriveKeys H.hashes secrets serverKm client = (.ok (), client') ∧
      HaveMirroredKeys server' client' := by
  obtain ⟨_, hserver, hsame, hchannel⟩ := installKeys_eq hkeyId material true
  obtain ⟨client', hclient, -, hchannel'⟩ := installKeys_eq hkeyId' material false
  rw [hinstalled] at hserver
  cases hserver
  refine ⟨client', ?_, _, _, hchannel, hchannel', mirrored_channelOf (hsame ▸ hsuite) material⟩
  rw [deriveKeys, bind_apply, get_apply]
  dsimp only
  rw [hpaired.atClient]
  dsimp only
  rw [hblock, hmaterial]
  exact congrArg (fun r => (Outcome.mapFault ClientError.keyInstallation r.1, r.2)) hclient

/-- After the hard resets and the two key method messages, the client and the
server hold the keys of one tunnel, if they have settled on one cipher suite. -/
theorem keys_mirrored {P : Primitives} {toUppercase : String → String} {server₀ client₀ : ProtocolSession}
    {ctx ctx' : Ctx C} (hresets : ExchangedResets H P toUppercase config server₀ client₀)
    (hserver₀ : Later H.primitives server₀ ctx.conn.protocol) (hclient₀ : Later P client₀ client)
    (hsent : Bears sent secrets) (hclientKm : KeyMethodV2.parse (sent.encode false) = .ok clientKm)
    (hexchange : exchangeKeys H env clientKm ctx = (.ok cipher, ctx'))
    (hserverKm : KeyMethodV2.parseFromServer ((serverKeyMethod env cipher).encode true ++ rest) =
      .ok serverKm)
    (hsuite : ctx'.conn.protocol.cipherSuite = client.cipherSuite) :
    ∃ client', deriveKeys H.hashes secrets serverKm client = (.ok (), client') ∧
      HaveMirroredKeys ctx'.conn.protocol client' := by
  obtain ⟨hpaired, hlimits, hlimits'⟩ := hresets.paired
  obtain ⟨-, session, material, hsetup, hmaterial, hinstalled⟩ := exchangeKeys_eq_ok hexchange
  have hlater := hpaired.later hserver₀ hclient₀
  obtain ⟨hsession, hkeyId⟩ : Paired session client ∧ session.currentKeyId = ctx.conn.protocol.currentKeyId := by
    obtain ⟨_, _, _, rfl⟩ := hsetup
    exact ⟨⟨hlater.atServer, hlater.atClient⟩, rfl⟩
  refine haveMirroredKeys_deriveKeys hsession hsuite ?_ ?_ ?_ hmaterial hinstalled
  · rw [hkeyId]
    exact UInt8.lt_iff_toNat_lt.mp (hserver₀.limits hlimits).keyId_lt
  · exact UInt8.lt_iff_toNat_lt.mp (hclient₀.limits hlimits').keyId_lt
  · exact deriveKeyBlock_eq hsession hsent hclientKm hserverKm

end Keys

section OneClient

def host : Host Bytes := plainHost false

def settings (cipher : String) : OvpnConfig := ⟨cipher, none, none⟩

def secrets : Secrets := ⟨zeros 48, zeros 32, zeros 32⟩

def env : Env := { atSecond 1 0 with sessionId := ⟨[8, 7, 6, 5, 4, 3, 2, 1], rfl⟩ }

def resetSent (suite : CipherSuite) : ProtocolSession :=
  (createHardResetClient host.primitives env.clock
    (.newClient suite ⟨[1, 2, 3, 4, 5, 6, 7, 8], rfl⟩ 0)).2

def accepted : Bytes × Connection Bytes :=
  (openConnection host env alice hardReset).toOption.get (by decide +kernel)

def answered (suite : CipherSuite) : ProtocolSession :=
  (ProtocolSession.processPacket host.primitives env.clock accepted.1 (resetSent suite)).2

theorem openConnection_accepted : openConnection host env alice hardReset = .ok accepted :=
  Outcome.eq_ok_get _

theorem exchangedResets_answered {cipher : String} {suite : CipherSuite}
    (h : chooseCipherSuite id (settings cipher) = .ok suite) :
    ExchangedResets host host.primitives id (settings cipher) accepted.2.protocol (answered suite) := by
  have hopened : openSession id (settings cipher) ⟨[1, 2, 3, 4, 5, 6, 7, 8], rfl⟩ 0 =
      .ok (.newClient suite ⟨[1, 2, 3, 4, 5, 6, 7, 8], rfl⟩ 0) :=
    Outcome.bind_eq_ok_iff.mpr ⟨suite, h, rfl⟩
  refine ⟨_, _, _, resetSent suite, resetSent suite, env.clock, env.clock, env, alice, hardReset, accepted.1,
    accepted.2, .hardResetAck, hopened, Prod.ext ?_ rfl, openConnection_accepted, rfl,
    ⟨⟨[], rfl⟩, refl_of SameIds _⟩, Prod.ext ?_ rfl⟩
  · cases suite <;> decide +kernel
  · cases suite <;> decide +kernel

/-- The server takes a control packet of the client. -/
def atServer : List Call := [.session (.processPacket env.clock (keyMethod 1))]

/-- The client sends a TLS record. -/
def atClient : List Call := [.session (.createControlPacket env.clock [22, 3, 3])]

def accepting : Ctx Bytes :=
  ⟨{ accepted.2 with protocol := exec (step host.primitives) accepted.2.protocol atServer },
    plainStart.server.addressPool, fun _ => none, [], []⟩

def greeted : ProtocolSession := exec (step host.primitives) (answered .chaCha20Poly1305) atClient

theorem keepsIds_atServer : ∀ call ∈ atServer, KeepsIds call := by
  intro call hcall
  obtain rfl := List.mem_singleton.mp hcall
  rintro opcode ⟨first, rest, hdata, hop⟩
  cases hdata
  cases hop
  rfl

theorem keepsIds_atClient : ∀ call ∈ atClient, KeepsIds call := by
  intro call hcall
  obtain rfl := List.mem_singleton.mp hcall
  trivial

def message : KeyMethodV2 := clientKeyMethod (settings "CHACHA20-POLY1305") secrets

theorem keys_mirrored_one_client :
    ∃ serverKm ctx client,
      exchangeKeys host env (received message) accepting = (.ok "CHACHA20-POLY1305", ctx) ∧
        deriveKeys host.hashes secrets serverKm greeted = (.ok (), client) ∧
        HaveMirroredKeys ctx.conn.protocol client := by
  have hresets : ExchangedResets host host.primitives id (settings "CHACHA20-POLY1305") accepted.2.protocol
      (answered .chaCha20Poly1305) := exchangedResets_answered rfl
  have hserver : Later host.primitives accepted.2.protocol accepting.conn.protocol := by
    dsimp only [accepting]
    exact later_exec keepsIds_atServer
  have hgreeted : Later host.primitives (answered .chaCha20Poly1305) greeted := later_exec keepsIds_atClient
  have hbears : Bears message secrets := bears_clientKeyMethod _ _
  have hparse : KeyMethodV2.parse (message.encode false) = .ok (received message) :=
    parse_encode ⟨by decide +kernel, by decide +kernel, by decide +kernel, by decide +kernel⟩
  have hoptions : (asBytes (serverKeyMethod env "CHACHA20-POLY1305").options).length + 1 < 65536 := by
    decide +kernel
  have hfst : (exchangeKeys host env (received message) accepting).1 = .ok "CHACHA20-POLY1305" := by
    decide +kernel
  have hsuite : (exchangeKeys host env (received message) accepting).2.conn.protocol.cipherSuite =
      greeted.cipherSuite := by decide +kernel
  obtain ⟨ctx, hexchange⟩ := exists_of_fst_eq hfst
  rw [hexchange] at hsuite
  obtain ⟨client, hclient⟩ := keys_mirrored hresets hserver hgreeted hbears hparse hexchange
    (parseFromServer_encode hoptions []) hsuite
  exact ⟨_, ctx, client, hexchange, hclient⟩

end OneClient

end CoreVpn.Client.MirroredKeys
