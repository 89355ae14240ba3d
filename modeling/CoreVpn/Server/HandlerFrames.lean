import CoreVpn.Protocol.SessionFrames
import CoreVpn.Protocol.TlsFrames
import CoreVpn.Server.Handlers

namespace CoreVpn.Server.HandlerFrames

open Lib.Computation Lib.Wire Core.Networks Core.AddressPools Crypto.Keys
open Protocol.Errors Protocol.Sessions Protocol.Sending Protocol.Readback Protocol.SessionFrames
open Protocol.ControlMessages Protocol.TlsHandlers Protocol.TlsFrames Events Connections KeyExchange ControlPackets Handlers

variable {C α : Type}

structure SameLease (s t : Ctx C) : Prop where
  addressPool : t.addressPool = s.addressPool
  vpnIp : t.conn.vpnIp = s.conn.vpnIp

structure SameState (s t : Ctx C) : Prop extends SameLease s t where
  state : t.conn.protocol.state = s.conn.protocol.state

/-- What most of a handler does: it moves bytes, and leaves alone what the
connection is known by. -/
structure Routine (s t : Ctx C) : Prop extends SameState s t where
  pendingOauths : t.pendingOauths = s.pendingOauths
  username : t.conn.username = s.conn.username
  oauthState : t.conn.oauthState = s.conn.oauthState

/-- A connection that is established afterwards was so before, for the same user. -/
def Guarded (s t : Ctx C) : Prop :=
  t.conn.protocol.state = .established →
    s.conn.protocol.state = .established ∧ t.conn.username = s.conn.username ∧
      t.conn.oauthState = s.conn.oauthState

instance : IsPreorder (Ctx C) SameLease where
  refl _ := ⟨rfl, rfl⟩
  trans _ _ _ h h' := ⟨h'.1.trans h.1, h'.2.trans h.2⟩

instance : IsPreorder (Ctx C) SameState where
  refl _ := ⟨⟨rfl, rfl⟩, rfl⟩
  trans _ _ _ h h' := ⟨trans_of SameLease h.1 h'.1, h'.2.trans h.2⟩

instance : IsPreorder (Ctx C) Routine where
  refl _ := ⟨⟨⟨rfl, rfl⟩, rfl⟩, rfl, rfl, rfl⟩
  trans _ _ _ h h' := ⟨trans_of SameState h.1 h'.1, h'.2.trans h.2, h'.3.trans h.3, h'.4.trans h.4⟩

instance : IsPreorder (Ctx C) Guarded where
  refl _ := fun h => ⟨h, rfl, rfl⟩
  trans _ _ _ h h' := fun hu =>
    have ht := h' hu
    have hs := h ht.1
    ⟨hs.1, ht.2.1.trans hs.2.1, ht.2.2.trans hs.2.2⟩

def leaseOf (s : Ctx C) : AddressPool × Option Ipv4Addr := (s.addressPool, s.conn.vpnIp)

theorem SameLease.leaseOf_eq {s t : Ctx C} (h : SameLease s t) : leaseOf t = leaseOf s := by
  rw [leaseOf, leaseOf, h.addressPool, h.vpnIp]

theorem Routine.guarded {s t : Ctx C} (h : Routine s t) : Guarded s t :=
  fun ht => ⟨h.state ▸ ht, h.username, h.oauthState⟩

theorem guarded_of_state {s t : Ctx C} (h : t.conn.protocol.state ≠ .established) : Guarded s t :=
  fun ht => absurd ht h

theorem routine_of_eq {s t : Ctx C} (h : (t.addressPool, t.pendingOauths, t.conn.vpnIp,
      t.conn.protocol.state, t.conn.username, t.conn.oauthState) =
    (s.addressPool, s.pendingOauths, s.conn.vpnIp, s.conn.protocol.state, s.conn.username,
      s.conn.oauthState)) : Routine s t := by
  simp only [Prod.mk.injEq] at h
  exact ⟨⟨⟨h.1, h.2.2.1⟩, h.2.2.2.1⟩, h.2.1, h.2.2.2.2.1, h.2.2.2.2.2⟩

/-- A relation that stands what the TLS library does to its part of a connection. -/
class ThroughTls (E : TlsEngine C) (R : Ctx C → Ctx C → Prop) : Prop where
  tls : ∀ s tls tls', s.conn.tls = some tls → Works E tls tls' →
    R s { s with conn := { s.conn with tls := some tls' } }

/-- A relation that stands the changes that most of a handler makes: bytes go
through the session, and packets are collected. -/
class Quiet (R : Ctx C → Ctx C → Prop) : Prop where
  session : ∀ s protocol, SameSetup s.conn.protocol protocol → R s { s with conn := { s.conn with protocol } }
  stats : ∀ s stats, R s { s with conn := { s.conn with stats } }
  packets : ∀ s packets, R s { s with packets }

class NotesRenegotiation (H : Host C) (R : Ctx C → Ctx C → Prop) : Prop where
  renegotiation : ∀ env peerAddr, Frames R (noteRenegotiation H env peerAddr)

class Notes (H : Host C) (R : Ctx C → Ctx C → Prop) : Prop extends NotesRenegotiation H R where
  authentication : ∀ env peerAddr, Frames R (noteAuthentication H env peerAddr)

class IgnoresLog (R : Ctx C → Ctx C → Prop) : Prop where
  logEvents : ∀ s logEvents, R s { s with logEvents }

instance {H : Host C} {R : Ctx C → Ctx C → Prop} [IsPreorder (Ctx C) R] [IgnoresLog R] : Notes H R where
  renegotiation env peerAddr := by
    refine frames_bind frames_get fun s => ?_
    split
    · exact frames_modify fun s => IgnoresLog.logEvents s _
    · exact frames_pure ()
  authentication env peerAddr := by
    refine frames_bind frames_get fun s => ?_
    split
    · exact frames_modify fun s => IgnoresLog.logEvents s _
    · exact frames_pure ()

theorem quiet_of_routine {R : Ctx C → Ctx C → Prop} (h : ∀ s t, Routine s t → R s t) : Quiet R where
  session _ _ hsetup := by
    obtain ⟨_, _, _, rfl⟩ := hsetup
    exact h _ _ (routine_of_eq rfl)
  stats _ _ := h _ _ (routine_of_eq rfl)
  packets _ _ := h _ _ (routine_of_eq rfl)

theorem ignoresLog_of_routine {R : Ctx C → Ctx C → Prop} (h : ∀ s t, Routine s t → R s t) : IgnoresLog R :=
  ⟨fun _ _ => h _ _ (routine_of_eq rfl)⟩

theorem throughTls_of_routine {E : TlsEngine C} {R : Ctx C → Ctx C → Prop} (h : ∀ s t, Routine s t → R s t) :
    ThroughTls E R := ⟨fun _ _ _ _ _ => h _ _ (routine_of_eq rfl)⟩

instance : Quiet (Routine (C := C)) := quiet_of_routine fun _ _ => id

instance : IgnoresLog (Routine (C := C)) := ignoresLog_of_routine fun _ _ => id

instance {E : TlsEngine C} : ThroughTls E Routine := throughTls_of_routine fun _ _ => id

instance : Quiet (Guarded (C := C)) := quiet_of_routine fun _ _ h => h.guarded

instance : IgnoresLog (Guarded (C := C)) := ignoresLog_of_routine fun _ _ h => h.guarded

instance {E : TlsEngine C} : ThroughTls E Guarded := throughTls_of_routine fun _ _ h => h.guarded

/-- A relation that stands a key exchange as well, which may name the user and
settles the cipher suite. -/
class Exchanging (R : Ctx C → Ctx C → Prop) : Prop extends Quiet R where
  username : ∀ s username, R s { s with conn := { s.conn with username } }
  setCipherSuite : ∀ s suite,
    R s { s with conn := { s.conn with protocol := s.conn.protocol.setCipherSuite suite } }

instance {E : TlsEngine C} : ThroughTls E SameState := throughTls_of_routine fun _ _ h => h.toSameState

instance : Exchanging (SameState (C := C)) where
  toQuiet := quiet_of_routine fun _ _ h => h.toSameState
  username _ _ := ⟨⟨rfl, rfl⟩, rfl⟩
  setCipherSuite _ _ := ⟨⟨rfl, rfl⟩, rfl⟩

class Handled (R : Ctx C → Ctx C → Prop) : Prop extends Exchanging R where
  conn : ∀ s conn, conn.protocol = s.conn.protocol → conn.vpnIp = s.conn.vpnIp → conn.tls = s.conn.tls →
    R s { s with conn }
  incoming : ∀ P clock data (s : Ctx C), R s { s with conn := { s.conn with
    protocol := (ProtocolSession.processPacket P clock data s.conn.protocol).2 } }
  setState : ∀ s now state, R s { s with conn := { s.conn with protocol := s.conn.protocol.setState now state } }

instance {E : TlsEngine C} : ThroughTls E SameLease := throughTls_of_routine fun _ _ h => h.toSameLease

instance : IgnoresLog (SameLease (C := C)) := ignoresLog_of_routine fun _ _ h => h.toSameLease

instance : Handled (SameLease (C := C)) where
  toQuiet := quiet_of_routine fun _ _ h => h.toSameLease
  username _ _ := ⟨rfl, rfl⟩
  setCipherSuite _ _ := ⟨rfl, rfl⟩
  conn _ _ _ hip _ := ⟨rfl, hip⟩
  incoming _ _ _ _ := ⟨rfl, rfl⟩
  setState _ _ _ := ⟨rfl, rfl⟩

section Phases

/-- What decides whether a connection can still be established: the state of
its session, and the reply that waits for an authentication. -/
def OnPhase (I : ProtocolState → Option String → Prop) (conn : Connection C) : Prop :=
  I conn.protocol.state conn.pendingPushReply

def KeepsPhase (I : ProtocolState → Option String → Prop) (s t : Ctx C) : Prop :=
  OnPhase I s.conn → OnPhase I t.conn

variable {I : ProtocolState → Option String → Prop}

instance : IsPreorder (Ctx C) (KeepsPhase I) where
  refl _ := id
  trans _ _ _ h h' := h' ∘ h

instance {E : TlsEngine C} : ThroughTls E (KeepsPhase I) := ⟨fun _ _ _ _ _ => id⟩

instance : IgnoresLog (KeepsPhase (C := C) I) := ⟨fun _ _ => id⟩

instance : Exchanging (KeepsPhase (C := C) I) where
  session _ _ h hs := by
    obtain ⟨_, _, _, rfl⟩ := h
    exact hs
  stats _ _ := id
  packets _ _ := id
  username _ _ := id
  setCipherSuite _ _ := id

end Phases

section Routine

variable (H : Host C) (env : Env) {R : Ctx C → Ctx C → Prop} [IsPreorder (Ctx C) R] [Quiet R]

omit [Quiet R] in
theorem frames_onTls {E : TlsEngine C} [ThroughTls E R] {p : Program (TlsHandler C) ProtocolError α}
    (hp : Frames (Works E) p) (wrap : ProtocolError → ServerError) : Frames R (onTls wrap p) := by
  intro s
  unfold onTls
  cases htls : s.conn.tls with
  | none => exact refl_of R s
  | some tls => exact ThroughTls.tls s tls _ htls (hp tls)

omit [IsPreorder (Ctx C) R] in
theorem frames_onProtocol {p : Program ProtocolSession ProtocolError α} (hp : Frames SameSetup p) :
    Frames R (onProtocol p : Handler C α) :=
  frames_zoom hp fun s _ h => Quiet.session s _ h

omit [IsPreorder (Ctx C) R] in
theorem frames_sendLater (packets : List Bytes) : Frames R (sendLater packets : Handler C Unit) :=
  frames_modify fun s => Quiet.packets s _

section Library

variable [ThroughTls H.engine R]

theorem frames_flush (clock : Clock) (fuel : Nat) : Frames R (flush H clock fuel) := by
  induction fuel with
  | zero => exact frames_pure ()
  | succ fuel ih =>
    refine frames_bind frames_get fun s => ?_
    split
    · refine frames_bind (frames_onTls works_getOutgoing _) fun tlsOut => ?_
      cases tlsOut with
      | none => exact frames_pure ()
      | some tlsOut =>
        refine frames_bind (frames_onProtocol (frames_createControlPackets _ _ sends_sameSetup _)) fun packets => ?_
        exact frames_bind (frames_sendLater packets) fun _ => ih
    · exact frames_pure ()

theorem frames_flushTls (clock : Clock) : Frames R (flushTls H clock) :=
  frames_bind frames_get fun _ => frames_flush H clock _

omit [Quiet R] in
theorem frames_tryWrite (data : Bytes) : Frames R (tryWrite H data) := by
  refine frames_bind (frames_attempt (frames_onTls (works_writePlaintext data) _)) fun result => ?_
  cases result <;> exact frames_pure _

omit [Quiet R] in
theorem frames_readKeyMethod : Frames R (readKeyMethod H) := by
  refine frames_bind (frames_attempt (frames_onTls (works_readPlaintext 4096) _)) fun result => ?_
  split
  · exact frames_pure _
  · split
    · exact frames_pure _
    · exact frames_lift _
    · exact frames_pure _
  · exact frames_pure _

theorem frames_repeatReply (reply : Option String) : Frames R (repeatReply H env reply) := by
  cases reply with
  | none => exact frames_pure ()
  | some reply =>
    refine frames_bind (frames_tryWrite H _) fun written => ?_
    split
    · exact frames_flushTls H env.clock
    · exact frames_pure ()

theorem frames_answerPushRequest : Frames R (answerPushRequest H env) := by
  refine frames_bind frames_get fun s => ?_
  split
  · refine frames_bind (frames_attempt (frames_onTls (works_readPlaintext 4096) _)) fun result => ?_
    cases result with
    | error e => exact frames_pure ()
    | ok bytes =>
      dsimp only
      split
      · exact frames_repeatReply H env _
      · exact frames_pure ()
  · exact frames_pure ()

end Library

theorem frames_collectAck : Frames R (collectAck H env) := by
  refine frames_bind frames_get fun s => ?_
  split
  · refine frames_bind (frames_onProtocol (frames_createAckPacket _ _ sends_sameSetup)) fun ack => ?_
    exact frames_sendLater _
  · exact frames_pure ()

theorem frames_collectRetransmits : Frames R (collectRetransmits H env) :=
  frames_bind (frames_onProtocol (frames_getRetransmits _ _ sends_sameSetup)) fun _ => frames_sendLater _

theorem frames_encryptFor (data : Bytes) : Frames R (encryptFor H data) := by
  refine frames_bind (frames_attempt (frames_onProtocol (frames_encryptData _ sameSetup_dataChannels _))) fun result => ?_
  cases result with
  | error e => exact frames_pure ()
  | ok encrypted => exact frames_bind (frames_modify fun s => Quiet.stats s _) fun _ => frames_sendLater _

theorem frames_dispatchData (ipPacket : Bytes) : Frames R (dispatchData H ipPacket) := by
  unfold dispatchData
  split
  · exact frames_bind (frames_encryptFor H _) fun _ => frames_pure _
  · exact frames_pure _

end Routine

section Exchange

variable (H : Host C) (env : Env) (peerAddr : SocketAddr) {R : Ctx C → Ctx C → Prop} [IsPreorder (Ctx C) R]
  [ThroughTls H.engine R]

theorem frames_exchangeKeys [Exchanging R] (clientKm : KeyMethodV2) :
    Frames R (exchangeKeys H env clientKm) := by
  refine frames_bind (frames_modify fun s => ?_) fun _ => ?_
  · cases clientKm.username with
    | none => exact refl_of R s
    | some user => exact Exchanging.username s (some user)
  refine frames_bind (frames_modify fun s => Exchanging.setCipherSuite s _) fun _ => ?_
  refine frames_bind (frames_tryWrite H _) fun _ => frames_bind (frames_flushTls H _) fun _ => ?_
  refine frames_bind frames_get fun s => frames_bind (frames_lift _) fun material => ?_
  exact frames_bind (frames_onProtocol (frames_installKeys sameSetup_dataChannels _ _)) fun _ => frames_pure _

theorem frames_deferReply [Quiet R]
    (hconn : ∀ s conn, conn.protocol = s.conn.protocol → conn.vpnIp = s.conn.vpnIp → conn.tls = s.conn.tls →
      R s { s with conn })
    (hpending : ∀ s pendingOauths, R s { s with pendingOauths }) (oauth : OAuthSettings)
    (cipher reply : String) : Frames R (deferReply H env peerAddr oauth cipher reply) := by
  refine frames_bind (frames_modify fun s => hconn s _ rfl rfl rfl) fun _ => ?_
  refine frames_bind (frames_modify fun s => hpending s _) fun _ => ?_
  refine frames_bind (frames_tryWrite H _) fun _ => frames_bind (frames_tryWrite H _) fun _ => ?_
  exact frames_flushTls H _

theorem frames_sendReply [Handled R] (reply : String) : Frames R (sendReply H env reply) := by
  refine frames_bind (frames_tryWrite H _) fun _ => ?_
  refine frames_bind (frames_modify fun s => Handled.conn s _ rfl rfl rfl) fun _ => ?_
  exact frames_bind (frames_flushTls H _) fun _ => frames_modify fun s => Handled.setState s _ _

theorem frames_answer_oauth [Quiet R] (hoauth : H.config.oauthEnabled = true)
    (hconn : ∀ s conn, conn.protocol = s.conn.protocol → conn.vpnIp = s.conn.vpnIp → conn.tls = s.conn.tls →
      R s { s with conn })
    (hpending : ∀ s pendingOauths, R s { s with pendingOauths }) (cipher reply : String) :
    Frames R (answer H env peerAddr cipher reply) := by
  unfold answer
  unfold ServerConfig.oauthEnabled at hoauth
  split
  · rename_i oauth ho
    rw [ho] at hoauth
    rw [if_pos hoauth]
    exact frames_deferReply H env peerAddr hconn hpending oauth cipher reply
  · rename_i ho
    rw [ho] at hoauth
    cases hoauth

theorem frames_answer [Handled R]
    (hpending : H.config.oauthEnabled = true → ∀ s pendingOauths, R s { s with pendingOauths })
    (cipher reply : String) : Frames R (answer H env peerAddr cipher reply) := by
  cases hoauth : H.config.oauthEnabled with
  | true => exact frames_answer_oauth H env peerAddr hoauth Handled.conn (hpending hoauth) cipher reply
  | false =>
    unfold answer
    unfold ServerConfig.oauthEnabled at hoauth
    split
    · rename_i oauth ho
      rw [ho] at hoauth
      rw [if_neg (Bool.eq_false_iff.mp hoauth)]
      exact frames_sendReply H env reply
    · exact frames_sendReply H env reply

theorem frames_tryKeyExchange [Handled R] : Frames R (tryKeyExchange H env) := by
  refine frames_bind (frames_modify fun s => ?_) fun _ => frames_bind (frames_readKeyMethod H) fun km => ?_
  · unfold beginKeyExchange
    split
    · exact trans_of R (Handled.conn s { s.conn with authMethod := .certificate } rfl rfl rfl)
        (Handled.setState _ env.clock.now .keyExchange)
    · exact refl_of R s
  · cases km with
    | none => exact frames_pure _
    | some km => exact frames_bind (frames_exchangeKeys H env km) fun _ => frames_pure _

theorem tryKeyExchange_state {s : Ctx C} (h : shouldTryKm s = true) :
    (tryKeyExchange H env s).2.conn.protocol.state = .keyExchange := by
  have hbegin : (beginKeyExchange env s.conn).protocol.state = .keyExchange := by
    unfold beginKeyExchange
    split
    · rfl
    · rename_i hno
      simpa [shouldTryKm, hno] using (Bool.and_eq_true_iff.mp h).2
  refine (frames_after (R := SameState) (fun _ => ?_) s).state.trans hbegin
  refine frames_bind (frames_readKeyMethod H) fun km => ?_
  cases km with
  | none => exact frames_pure _
  | some km => exact frames_bind (frames_exchangeKeys H env km) fun _ => frames_pure _

end Exchange

section Handlers

variable (H : Host C) (env : Env) (peerAddr : SocketAddr) (data : Bytes) {R : Ctx C → Ctx C → Prop}
  [IsPreorder (Ctx C) R]

theorem frames_takeRecords_of [Quiet R] [ThroughTls H.engine R]
    (hkm : ∀ s, shouldTryKm s = true → R s (tryKeyExchange H env s).2) (records : List Bytes) :
    Frames R (takeRecords H env records) := by
  refine frames_bind frames_get fun s => ?_
  split
  · refine frames_bind (frames_onTls (works_processTlsRecords records) _) fun _ => ?_
    refine frames_bind (frames_flushTls H _) fun _ => ?_
    refine frames_get_bind fun s => ?_
    by_cases hs : shouldTryKm s = true
    · rw [if_pos hs]
      exact hkm s hs
    · rw [if_neg hs]
      exact refl_of R s
  · exact frames_pure _

theorem frames_intake_of [Quiet R] [NotesRenegotiation H R] [ThroughTls H.engine R]
    (htouch : ∀ s now, R s { s with conn := { s.conn with lastActivity := now } })
    (hincoming : Frames R (onProtocol (ProtocolSession.processPacket H.primitives env.clock data)))
    (hkm : ∀ s, shouldTryKm s = true → R s (tryKeyExchange H env s).2) :
    Frames R (intake H env peerAddr data) := by
  refine frames_bind (frames_modify fun s => htouch s _) fun _ => frames_bind hincoming fun result => ?_
  cases result with
  | tlsData records => exact frames_takeRecords_of H env hkm records
  | softReset => exact frames_bind (NotesRenegotiation.renegotiation env peerAddr) fun _ => frames_pure _
  | _ => exact frames_pure _

theorem frames_dataBody_of [Quiet R]
    (htouch : ∀ s now, R s { s with conn := { s.conn with lastActivity := now } })
    (hincoming : Frames R (onProtocol (ProtocolSession.processPacket H.primitives env.clock data))) :
    Frames R (dataBody H env data) := by
  refine frames_bind (frames_modify fun s => htouch s _) fun _ => frames_bind frames_get fun s => ?_
  split
  · refine frames_bind (frames_modify fun s => Quiet.stats s _) fun _ => frames_bind hincoming fun result => ?_
    cases result with
    | data ipPacket => exact frames_dispatchData H ipPacket
    | _ => exact frames_pure _
  · exact frames_pure _

variable [Handled R]

theorem frames_dataBody : Frames R (dataBody H env data) :=
  frames_dataBody_of H env data (fun s _ => Handled.conn s _ rfl rfl rfl) fun s => Handled.incoming _ _ _ s

variable [ThroughTls H.engine R]

theorem frames_intake [NotesRenegotiation H R] : Frames R (intake H env peerAddr data) :=
  frames_intake_of H env peerAddr data (fun s _ => Handled.conn s _ rfl rfl rfl)
    (fun s => Handled.incoming _ _ _ s) fun s _ => frames_tryKeyExchange H env s

theorem frames_completeAuth (auth : AuthCompleted) : Frames R (completeAuth H env auth) := by
  refine frames_bind frames_get fun s => ?_
  split
  · refine frames_bind (frames_modify fun s => Handled.conn s _ rfl rfl rfl) fun _ => ?_
    split
    · refine frames_bind (frames_tryWrite H _) fun written => ?_
      split
      · exact frames_bind (frames_flushTls H _) fun _ => frames_modify fun s => Handled.setState s _ _
      · exact frames_pure ()
    · exact frames_pure ()
  · exact frames_pure ()

end Handlers

end CoreVpn.Server.HandlerFrames
