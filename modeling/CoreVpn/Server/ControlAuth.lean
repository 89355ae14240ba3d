import CoreVpn.Protocol.Processing
import CoreVpn.Protocol.TlsAuth
import CoreVpn.Server.PlainHost
import CoreVpn.Server.SessionRelations
import CoreVpn.Server.StoredConnections

namespace CoreVpn.Server.ControlAuth

open Lib.Computation Lib.Wire Lib.Machine Core.Networks Crypto.Keys
open Protocol.Errors Protocol.Opcodes Protocol.Sessions Protocol.Sending Protocol.Readback
open Protocol.SessionFrames Protocol.TlsAuth Protocol.Processing
open Connections KeyExchange ControlPackets Handlers HandlerFrames SessionRelations StoredConnections PlainHost

variable {C α : Type}

section Keys

structure SameTlsAuth (s t : ProtocolSession) : Prop where
  useTlsAuth : t.useTlsAuth = s.useTlsAuth
  tlsAuthKey : t.tlsAuthKey = s.tlsAuthKey

instance : IsPreorder ProtocolSession SameTlsAuth where
  refl _ := ⟨rfl, rfl⟩
  trans _ _ _ h h' := ⟨h'.1.trans h.1, h'.2.trans h.2⟩

theorem tolerates_sameTlsAuth : Tolerates SameTlsAuth where
  reliable _ _ _ := ⟨rfl, rfl⟩
  tlsReassembler _ _ _ := ⟨rfl, rfl⟩
  remoteSessionId _ _ := ⟨rfl, rfl⟩
  state _ _ _ := ⟨rfl, rfl⟩

instance : Lasts SameTlsAuth where
  setup _ _ h := by
    obtain ⟨_, _, _, rfl⟩ := h
    exact ⟨rfl, rfl⟩
  incoming P clock data := frames_processPacket_of P clock tolerates_sameTlsAuth (fun _ _ => ⟨rfl, rfl⟩)
    (fun _ _ => ⟨rfl, rfl⟩) (fun _ _ => ⟨rfl, rfl⟩) data
  setState _ _ _ := ⟨rfl, rfl⟩
  setCipherSuite _ _ := ⟨rfl, rfl⟩

def Keyed (key : HmacAuth) (conn : Connection C) : Prop :=
  conn.protocol.useTlsAuth = true ∧ conn.protocol.tlsAuthKey = some key

theorem Keyed.of_same {key : HmacAuth} {s t : ProtocolSession}
    (hs : s.useTlsAuth = true ∧ s.tlsAuthKey = some key) (h : SameTlsAuth s t) :
    t.useTlsAuth = true ∧ t.tlsAuthKey = some key :=
  ⟨h.useTlsAuth.trans hs.1, h.tlsAuthKey.trans hs.2⟩

theorem keeps_keyed {key : HmacAuth} {p : Handler C α} (hp : Frames (OnSession SameTlsAuth) p) :
    Keeps (Keyed key) p := fun s hs => Keyed.of_same hs (hp s)

variable {H : Host C} {taKey : ByteVec 256} {key : HmacAuth}

theorem enableTlsAuth_keyed (hta : H.tlsAuthKey = some taKey)
    (hkey : HmacAuth.fromTaKey taKey true none = .ok key) (session : ProtocolSession) :
    (enableTlsAuth H session).useTlsAuth = true ∧ (enableTlsAuth H session).tlsAuthKey = some key := by
  simp only [enableTlsAuth, hta, hkey]
  exact ⟨rfl, rfl⟩

theorem lasting_keyed (hta : H.tlsAuthKey = some taKey)
    (hkey : HmacAuth.fromTaKey taKey true none = .ok key) : Lasting H (Keyed key) where
  opened {env peerAddr data opened} h := by
    obtain ⟨⟨_, session⟩, hprocess, h⟩ := Outcome.bind_eq_ok_iff.mp h
    obtain ⟨_, -, h⟩ := Outcome.bind_eq_ok_iff.mp h
    obtain ⟨⟨_, answered⟩, hanswer, h⟩ := Outcome.bind_eq_ok_iff.mp h
    cases h
    have hanswered : SameSetup session answered :=
      (frames_createReliable _ _ sends_sameSetup _ _ _).evaluate hanswer
    have hprocessed : SameTlsAuth _ session := (Lasts.incoming _ _ _).evaluate hprocess
    have hsession := Keyed.of_same (enableTlsAuth_keyed hta hkey _) hprocessed
    exact Keyed.of_same hsession (Lasts.setup session answered hanswered)
  control env peerAddr data := keeps_keyed (onSession_controlBody H env peerAddr data)
  data env data := keeps_keyed (frames_dataBody H env data)
  auth env auth := keeps_keyed (frames_completeAuth H env auth)
  encrypt data := keeps_keyed (frames_encryptFor H data)

end Keys

section Inertness

/-- The connection is the same one, and nothing that counts has happened to it. -/
structure Undisturbed (c c' : Connection C) : Prop where
  connectionId : c'.connectionId = c.connectionId
  localSessionId : c'.protocol.localSessionId = c.protocol.localSessionId
  state : c'.protocol.state = c.protocol.state
  replayWindow : c'.protocol.replayWindow = c.protocol.replayWindow
  reliable : c'.protocol.reliable = c.protocol.reliable
  lastActivity : c'.lastActivity = c.lastActivity

theorem Undisturbed.refl (c : Connection C) : Undisturbed c c := ⟨rfl, rfl, rfl, rfl, rfl, rfl⟩

/-- A packet has had no effect: nothing is sent, and the connections are those
from before, undisturbed. -/
def Inert (s : VpnServer C) (r : Response × VpnServer C) : Prop :=
  r.1.sent = [] ∧ ∀ addr, Option.Rel Undisturbed (s.connections addr) (r.2.connections addr)

def CarriesHmac (H : Host C) (key : HmacAuth) (data : Bytes) : Prop :=
  49 ≤ data.length ∧
    (H.primitives.hmac key.rxKey (authenticated (withoutHmac data))).toList = (data.drop 9).take 32

instance (H : Host C) (key : HmacAuth) (data : Bytes) : Decidable (CarriesHmac H key data) :=
  inferInstanceAs (Decidable (_ ∧ _))

/-- What the handlers do with a packet before they check it: they repeat a hard
reset response that is still good, and they note the time of the packet. -/
def Unnoticed (env : Env) (peerAddr : SocketAddr) (s : VpnServer C) : OpCode → Prop
  | .hardResetClientV2 | .hardResetClientV3 => cachedResponse env peerAddr s = none ∨ env.sends 0 = false
  | .controlV1 | .ackV1 | .softResetV1 => ∀ conn ∈ s.connections peerAddr, conn.lastActivity = env.clock.now
  | _ => True

variable {H : Host C} {env : Env} {peerAddr : SocketAddr} {data : Bytes} {s : VpnServer C}
  {e : Fault ProtocolError}

theorem inert_self (s : VpnServer C) {r : Response} (h : r.sent = []) : Inert s (r, s) := by
  refine ⟨h, fun addr => ?_⟩
  change Option.Rel Undisturbed (s.connections addr) (s.connections addr)
  cases s.connections addr with
  | none => exact .none
  | some conn => exact .some (Undisturbed.refl conn)

theorem Inert.lastActivity {r : Response × VpnServer C} (h : Inert s r) (addr : SocketAddr) :
    (r.2.connections addr).map Connection.lastActivity = (s.connections addr).map Connection.lastActivity := by
  have hrel := h.2 addr
  revert hrel
  cases s.connections addr <;> cases r.2.connections addr
  all_goals intro hrel; cases hrel
  · rfl
  · rename_i h
    exact congrArg some h.lastActivity

theorem openConnection_unverified (env : Env) (peerAddr : SocketAddr)
    (hverify : ∀ session, ∃ e, (enableTlsAuth H session).verifyTlsAuth H.primitives data = .error e) :
    ∃ e', openConnection H env peerAddr data = .error e' := by
  let conn : Connection C := Connection.new env peerAddr (getCipherSuite H.config)
  obtain ⟨e, he⟩ := hverify conn.protocol
  have hrun : ProtocolSession.processPacket H.primitives env.clock data (enableTlsAuth H conn.protocol) =
    (.error e, _) := processPacket_of_verify_error he
  refine ⟨e.map .protocol, ?_⟩
  rw [openConnection, evaluate, hrun]
  rfl

theorem handleHardReset_inert_iff
    (hverify : ∀ session, ∃ e, (enableTlsAuth H session).verifyTlsAuth H.primitives data = .error e) :
    Inert s (handleHardReset H env peerAddr data s) ↔
      cachedResponse env peerAddr s = none ∨ env.sends 0 = false := by
  unfold handleHardReset
  cases hcached : cachedResponse env peerAddr s with
  | some response =>
    cases hsend : env.sends 0 with
    | true =>
      simp only [sendEach, hsend]
      refine iff_of_false (fun h => ?_) (by simp)
      cases h.1
    | false =>
      simp only [sendEach, hsend]
      exact iff_of_true (inert_self s rfl) (.inr trivial)
  | none =>
    obtain ⟨e', hopen⟩ := openConnection_unverified env peerAddr hverify
    simp only [hopen]
    exact iff_of_true (inert_self s rfl) (.inl trivial)

def refused (env : Env) (conn : Connection C) : Connection C :=
  { conn with lastActivity := env.clock.now, protocol := noted env.clock conn.protocol }

theorem controlBody_unverified (ctx : Ctx C)
    (hverify : ctx.conn.protocol.verifyTlsAuth H.primitives data = .error e) :
    controlBody H env peerAddr data ctx =
      (.error (e.map .protocol), { ctx with conn := refused env ctx.conn }) := by
  have hrun : ProtocolSession.processPacket H.primitives env.clock data ctx.conn.protocol =
    (.error e, noted env.clock ctx.conn.protocol) := processPacket_of_verify_error hverify
  have hprocess : onProtocol (ProtocolSession.processPacket H.primitives env.clock data)
      { ctx with conn := ctx.conn.touch env.clock.now } =
        (.error (e.map .protocol), { ctx with conn := refused env ctx.conn }) := by
    rw [onProtocol, zoom]
    dsimp only [Connection.touch]
    rw [hrun]
    rfl
  have htouch : onConn (Connection.touch env.clock.now) ctx =
    (.ok (), { ctx with conn := ctx.conn.touch env.clock.now }) := rfl
  have hintake : intake H env peerAddr data ctx =
      (.error (e.map .protocol), { ctx with conn := refused env ctx.conn }) := by
    rw [intake, bind_ok htouch, bind_error hprocess]
  rw [controlBody, bind_error hintake]

theorem undisturbed_refused_iff {conn : Connection C} :
    Undisturbed conn (refused env conn) ↔ conn.lastActivity = env.clock.now :=
  ⟨fun h => h.lastActivity.symm, fun h => ⟨rfl, rfl, rfl, rfl, rfl, h.symm⟩⟩

theorem handleControlPacket_inert_iff
    (hverify : ∀ conn ∈ s.connections peerAddr,
      ∃ e, conn.protocol.verifyTlsAuth H.primitives data = .error e) :
    Inert s (handleControlPacket H env peerAddr data s) ↔
      ∀ conn ∈ s.connections peerAddr, conn.lastActivity = env.clock.now := by
  unfold handleControlPacket
  cases hconn : s.connections peerAddr with
  | none =>
    refine iff_of_true (inert_self s rfl) fun conn hc => ?_
    cases hc
  | some conn =>
    obtain ⟨e, he⟩ := hverify conn hconn
    have hrun : onConnection s peerAddr conn (controlBody H env peerAddr data) =
        ((.error (e.map .protocol), ⟨refused env conn, s.addressPool, s.pendingOauths, [], []⟩),
          { s with connections := Function.update s.connections peerAddr (some (refused env conn)) }) := by
      unfold onConnection
      rw [controlBody_unverified _ he]
    dsimp only
    rw [hrun]
    constructor
    · intro h c hc
      cases hc
      have hrel := h.2 peerAddr
      dsimp only at hrel
      rw [hconn, Function.update_self] at hrel
      cases hrel with
      | some hundisturbed => exact undisturbed_refused_iff.mp hundisturbed
    · intro hnow
      refine ⟨rfl, fun addr => ?_⟩
      dsimp only
      by_cases haddr : addr = peerAddr
      · subst haddr
        rw [hconn, Function.update_self]
        exact .some (undisturbed_refused_iff.mpr (hnow conn rfl))
      · rw [Function.update_of_ne haddr]
        exact (inert_self s (r := {}) rfl).2 addr

theorem verifyTlsAuth_error {session : ProtocolSession} {key : HmacAuth}
    (hkey : session.useTlsAuth = true ∧ session.tlsAuthKey = some key) (hcontrol : IsControl data)
    (h : ¬ CarriesHmac H key data) : ∃ e, session.verifyTlsAuth H.primitives data = .error e := by
  cases hverify : session.verifyTlsAuth H.primitives data with
  | ok _ => exact absurd ((verifyTlsAuth_eq_ok_iff hkey.1 hkey.2 hcontrol).mp hverify) h
  | error e => exact ⟨e, rfl⟩

/-- In every reachable state of a server with a tls-auth key, a control packet
without a valid HMAC has no effect if and only if the handlers come to the check
before they have done anything. -/
theorem unverified_inert_iff (H : Host C) {taKey : ByteVec 256} (hta : H.tlsAuthKey = some taKey)
    {s₀ : System C} (hstart : start H.config = .ok s₀) (events : List Event) (env : Env)
    (peerAddr : SocketAddr) {first : UInt8} (rest : Bytes) {opcode : OpCode}
    (hop : OpCode.fromByte first = .ok opcode) (hcontrol : opcode.isControl = true) :
    ∃ key, HmacAuth.fromTaKey taKey true none = .ok key ∧ (¬ CarriesHmac H key (first :: rest) →
      let s := (exec (step H) s₀ events).server
      (Inert s (handlePacket H env peerAddr (first :: rest) s) ↔ Unnoticed env peerAddr s opcode)) := by
  obtain ⟨key, -, hkey, -⟩ := fromTaKey_mirrored taKey (.inl ⟨.inl rfl, .inl rfl⟩)
  refine ⟨key, hkey, fun hbad => ?_⟩
  intro s
  have hstored : Stored (Keyed key) s := (lasting_keyed hta hkey).exec hstart events
  have hdata : IsControl (first :: rest) := ⟨first, rest, opcode, rfl, hop, hcontrol⟩
  have hreset : Inert s (handleHardReset H env peerAddr (first :: rest) s) ↔
      cachedResponse env peerAddr s = none ∨ env.sends 0 = false :=
    handleHardReset_inert_iff fun session => verifyTlsAuth_error (enableTlsAuth_keyed hta hkey session) hdata hbad
  have hpacket : Inert s (handleControlPacket H env peerAddr (first :: rest) s) ↔
      ∀ conn ∈ s.connections peerAddr, conn.lastActivity = env.clock.now :=
    handleControlPacket_inert_iff fun conn hconn => verifyTlsAuth_error (hstored hconn) hdata hbad
  have hother : Inert s (({}, s) : Response × VpnServer C) ↔ True := iff_of_true (inert_self s rfl) trivial
  rw [handlePacket, hop]
  cases opcode with
  | hardResetClientV2 => exact hreset
  | hardResetClientV3 => exact hreset
  | controlV1 => exact hpacket
  | ackV1 => exact hpacket
  | softResetV1 => exact hpacket
  | dataV1 => cases hcontrol
  | dataV2 => cases hcontrol
  | _ => exact hother

/-- A server with a tls-auth key. All MACs are zero here. -/
def authHost : Host Bytes := { plainHost false with tlsAuthKey := some (zeros 256) }

/-- A packet with the given first byte, HMAC, tls-auth packet id and rest, from
the session with the id of ones. -/
def wrapped (first mac id : UInt8) (rest : Bytes) : Bytes :=
  [first, 1, 1, 1, 1, 1, 1, 1, 1] ++ List.replicate 32 mac ++ [0, 0, 0, id, 0, 0, 0, 0] ++ rest

def opening : Event := .packet (atSecond 0 0) alice (wrapped 56 0 1 [0, 0, 0, 0, 0])

theorem unverified_reset_inert :
    let s := (exec (step authHost) plainStart [opening]).server
    let forged := wrapped 56 255 2 [0, 0, 0, 0, 0]
    (s.connections alice).isSome = true ∧ Inert s (handlePacket authHost (atSecond 40 0) alice forged s) := by
  intro s forged
  obtain ⟨key, -, hiff⟩ := unverified_inert_iff authHost rfl (start_plainHost false) [opening]
    (atSecond 40 0) alice forged.tail (by decide : OpCode.fromByte 56 = .ok .hardResetClientV2) rfl
  have hbad : ¬ CarriesHmac authHost key forged := by
    rintro ⟨-, hmac⟩
    have hzero : (zeros 32).toList = (forged.drop 9).take 32 := hmac
    exact absurd hzero (by decide +kernel +zetaReduce)
  have hidle : cachedResponse (atSecond 40 0) alice s = none := by decide +kernel +zetaReduce
  exact ⟨by decide +kernel +zetaReduce, (hiff hbad).mpr (.inl hidle)⟩

/-- One second after a client has opened its connection, a forged hard reset is
answered, and a forged acknowledgment keeps the connection alive. -/
theorem unverified_packets_noticed :
    let s := (exec (step authHost) plainStart [opening]).server
    let key : HmacAuth := ⟨zeros 32, zeros 32⟩
    let reset := wrapped 56 255 2 [0, 0, 0, 0, 0]
    let ack := wrapped 40 255 2 [0]
    HmacAuth.fromTaKey (zeros 256) true none = .ok key ∧ ¬ CarriesHmac authHost key reset ∧
      ¬ CarriesHmac authHost key ack ∧ ¬ Inert s (handlePacket authHost (atSecond 1 0) alice reset s) ∧
      ¬ Inert s (handlePacket authHost (atSecond 1 0) alice ack s) := by
  intro s key reset ack
  refine ⟨by decide +kernel +zetaReduce, by decide +kernel +zetaReduce, by decide +kernel +zetaReduce, ?_, ?_⟩
  · rintro ⟨hsent, -⟩
    have hone : (handlePacket authHost (atSecond 1 0) alice reset s).1.sent.length = 1 := by
      decide +kernel +zetaReduce
    rw [hsent] at hone
    cases hone
  · intro hinert
    have hbefore : (s.connections alice).map Connection.lastActivity = some 0 := by
      decide +kernel +zetaReduce
    have hafter : ((handlePacket authHost (atSecond 1 0) alice ack s).2.connections alice).map
        Connection.lastActivity = some 1000000000 := by
      decide +kernel +zetaReduce
    have hsame := hinert.lastActivity alice
    rw [hbefore, hafter] at hsame
    exact absurd hsame (by decide)

end Inertness

end CoreVpn.Server.ControlAuth
