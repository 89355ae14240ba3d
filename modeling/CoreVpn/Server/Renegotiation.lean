import CoreVpn.Protocol.Processing
import CoreVpn.Server.OAuthGate
import CoreVpn.Server.Routing
import CoreVpn.Server.StoredConnections

namespace CoreVpn.Server.Renegotiation

open Lib.Computation Lib.Wire Lib.Machine Core.Networks Crypto.Ciphers
open Protocol.Errors Protocol.Opcodes Protocol.Sessions Protocol.Readback Protocol.SessionFrames
open Protocol.Processing Protocol.TlsHandlers
open Protocol.PacketCodec (Begins)
open Connections KeyExchange ControlPackets Handlers HandlerFrames HandlerEffects AddressLeases OAuthGate
open Routing StoredConnections PlainHost

variable {C α : Type}

section Phases

def answered (state : ProtocolState) (reply : Option String) : Prop := state = .established → reply = none

/-- The session is being renegotiated, and no authentication is waited for. -/
def dormant (H : Host C) (state : ProtocolState) (reply : Option String) : Prop :=
  state = .rekeying ∧ (H.config.oauthEnabled = true → reply = none)

variable {H : Host C} {env : Env} {peerAddr : SocketAddr} {data : Bytes} {s : Ctx C}

theorem answered_of_state {conn : Connection C} (h : conn.protocol.state ≠ .established) :
    OnPhase answered conn := fun hs => absurd hs h

theorem answered_incoming (P : Primitives) (clock : Clock) (data : Bytes) :
    Frames (KeepsPhase answered) (onProtocol (ProtocolSession.processPacket P clock data) :
      Handler C ProcessedPacket) :=
  frames_zoom (frames_processPacket P clock data) fun _ _ h hs ht => hs (h.established ht)

theorem answered_controlBody (hoauth : H.config.oauthEnabled = true) (env : Env) (peerAddr : SocketAddr)
    (data : Bytes) : Frames (KeepsPhase answered) (controlBody H env peerAddr data) := by
  intro s
  cases controlBody_cases (R := KeepsPhase answered) H env peerAddr data s with
  | inl hassigned =>
    obtain ⟨cipher, hstage, hrest⟩ := hassigned
    have hkm := intake_keyExchange H env peerAddr data (Prod.ext hstage rfl)
    have hassign := frames_keepsState_assignAddress H env peerAddr hoauth cipher
      (intake H env peerAddr data s).2
    refine fun _ => hrest (answered_of_state ?_)
    rw [hassign, hkm]
    decide
  | inr hrest =>
    have hkm : ∀ s : Ctx C, shouldTryKm s = true → KeepsPhase answered s (tryKeyExchange H env s).2 := by
      intro s hs _
      apply answered_of_state
      rw [tryKeyExchange_state H env hs]
      decide
    have hintake : KeepsPhase answered s (intake H env peerAddr data s).2 :=
      frames_intake_of H env peerAddr data (fun _ _ => id) (answered_incoming _ _ _) hkm s
    exact trans_of (KeepsPhase answered) hintake hrest.2

theorem completeAuth_pendingPushReply (auth : AuthCompleted) (s : Ctx C) :
    (completeAuth H env auth s).2.conn.pendingPushReply = none := by
  unfold completeAuth
  rw [bind_apply, get_apply]
  dsimp only
  cases hreply : s.conn.pendingPushReply with
  | none => exact hreply
  | some reply =>
    refine frames_after (R := KeepsPhase fun _ reply => reply = none) (fun _ => ?_) s rfl
    split
    · refine frames_bind (frames_tryWrite H _) fun written => ?_
      split
      · exact frames_bind (frames_flushTls H _) fun _ => frames_modify fun _ => id
      · exact frames_pure ()
    · exact frames_pure ()

theorem lasting_answered (hoauth : H.config.oauthEnabled = true) : Lasting H (OnPhase answered) where
  opened h := answered_of_state (openConnection_state H _ _ _ h)
  control env peerAddr data := answered_controlBody hoauth env peerAddr data
  data env data :=
    frames_dataBody_of (R := KeepsPhase answered) H env data (fun _ _ => id) (answered_incoming _ _ _)
  auth _ auth s _ _ := completeAuth_pendingPushReply auth s
  encrypt data := frames_encryptFor (R := KeepsPhase answered) H data

theorem final_dormant (H : Host C) : Final (dormant H) where
  rekeying h := ⟨rfl, h.2⟩
  tlsHandshake _ h := by cases h.1
  keyExchange _ h := by cases h.1

theorem dormant_of_softReset
    (hsoft : (ProtocolSession.processPacket H.primitives env.clock data s.conn.protocol).1 = .ok .softReset)
    (hreply : H.config.oauthEnabled = true → s.conn.pendingPushReply = none) :
    OnPhase (dormant H) (controlBody H env peerAddr data s).2.conn := by
  apply (final_dormant H).controlBody_of_intake
  obtain ⟨session, hrun⟩ := exists_of_fst_eq hsoft
  have hprocess : onProtocol (ProtocolSession.processPacket H.primitives env.clock data)
      { s with conn := s.conn.touch env.clock.now } =
        (.ok .softReset, { s with conn := { s.conn.touch env.clock.now with protocol := session } }) := by
    rw [onProtocol, zoom]
    dsimp only [Connection.touch]
    rw [hrun]
    rfl
  have htouch : onConn (Connection.touch env.clock.now) s =
    (.ok (), { s with conn := s.conn.touch env.clock.now }) := rfl
  rw [intake, bind_ok htouch, bind_ok hprocess]
  refine frames_bind (R := KeepsPhase (dormant H)) (NotesRenegotiation.renegotiation env peerAddr) (fun _ => frames_pure _) _ ?_
  exact ⟨state_of_softReset hrun, hreply⟩

theorem dataBody_of_dormant (h : OnPhase (dormant H) s.conn) :
    dataBody H env data s = (.ok none, { s with conn := s.conn.touch env.clock.now }) := by
  have hstate : (s.conn.touch env.clock.now).protocol.state ≠ .established := by
    change s.conn.protocol.state ≠ .established
    rw [h.1]
    decide
  simp only [dataBody, bind_apply, onConn, modify_apply, get_apply, if_neg hstate, pure_apply]

end Phases

section Waiting

def SamePending (s t : Ctx C) : Prop := t.pendingOauths = s.pendingOauths

instance : IsPreorder (Ctx C) SamePending where
  refl _ := rfl
  trans _ _ _ h h' := Eq.trans h' h

instance {E : TlsEngine C} : ThroughTls E SamePending := throughTls_of_routine fun _ _ h => h.pendingOauths

instance : IgnoresLog (SamePending (C := C)) := ignoresLog_of_routine fun _ _ h => h.pendingOauths

instance : Handled (SamePending (C := C)) where
  toQuiet := quiet_of_routine fun _ _ h => h.pendingOauths
  username _ _ := rfl
  setCipherSuite _ _ := rfl
  conn _ _ _ _ _ := rfl
  incoming _ _ _ _ := rfl
  setState _ _ _ := rfl

def NoneWaiting (s : VpnServer C) : Prop := ∀ token, s.pendingOauths token = none

def KeepsWaiting (s t : VpnServer C) : Prop := NoneWaiting s → NoneWaiting t

instance : IsPreorder (VpnServer C) KeepsWaiting where
  refl _ := id
  trans _ _ _ h h' := h' ∘ h

theorem keepsWaiting_of_eq {s t : VpnServer C} (h : t.pendingOauths = s.pendingOauths) : KeepsWaiting s t := by
  intro hs token
  rw [h]
  exact hs token

theorem keepsWaiting_onConnection {s : VpnServer C} {addr : SocketAddr} {conn : Connection C} {p : Handler C α}
    (hp : Frames SamePending p) : KeepsWaiting s (onConnection s addr conn p).2 :=
  keepsWaiting_of_eq (hp _)

variable {H : Host C}

theorem keepsWaiting_handlePacket (hoauth : H.config.oauthEnabled = false) (env : Env) (peerAddr : SocketAddr)
    (data : Bytes) (s : VpnServer C) : KeepsWaiting s (handlePacket H env peerAddr data s).2 := by
  refine rel_handlePacket H env peerAddr data (fun _ _ _ => ?_) (fun _ _ _ => ?_) ?_
  · apply keepsWaiting_of_eq
    cases handleHardReset_cases H env peerAddr data s with
    | inl hcached => rw [hcached.2]
    | inr hopened =>
      obtain ⟨-, opened, -, hafter⟩ := hopened
      rw [hafter]
  · unfold handleControlPacket
    split
    · refine keepsWaiting_onConnection (frames_controlBody H env peerAddr data (fun _ _ _ => rfl) fun h => ?_)
      rw [hoauth] at h
      cases h
    · exact id
  · unfold handleDataPacket
    split
    · dsimp only
      split <;> exact keepsWaiting_onConnection (frames_dataBody H env data)
    · exact id

theorem noneWaiting_step (hoauth : H.config.oauthEnabled = false) (s : System C) (event : Event) :
    KeepsWaiting s.server (step H s event).2.server := by
  apply rel_step
  · exact fun env peerAddr data _ => keepsWaiting_handlePacket hoauth env peerAddr data s.server
  · exact rel_encryptTo H fun _ _ _ _ hp _ => keepsWaiting_onConnection (hp.mono fun _ _ h => h.pendingOauths)
  · intro env auth h
    unfold handleAuthCompleted
    rw [h auth.state]
    exact h
  · exact fun _ _ => id

theorem noneWaiting_exec (hoauth : H.config.oauthEnabled = false) {s₀ : System C}
    (hstart : start H.config = .ok s₀) (events : List Event) :
    NoneWaiting (exec (step H) s₀ events).server := by
  refine exec_of_step (P := fun s : System C => NoneWaiting s.server) (noneWaiting_step hoauth) ?_ events
  rw [start_eq hstart]
  exact fun _ => rfl

end Waiting

section Sleeping

/-- The connection of an address is not replaced by a new one. -/
def Stays (H : Host C) (addr : SocketAddr) (s : System C) : Event → Prop
  | .packet env peerAddr data => peerAddr = addr → storesNew H env peerAddr data s.server = false
  | _ => True

instance (H : Host C) (addr : SocketAddr) (s : System C) : (event : Event) → Decidable (Stays H addr s event)
  | .packet _ _ _ => inferInstanceAs (Decidable (_ → _))
  | .authCompleted _ _ | .tunPacket _ _ _ | .keepalive _ _ | .collectStale _ _ _ | .removeStale =>
    inferInstanceAs (Decidable True)

variable {H : Host C} {addr : SocketAddr}

theorem keepsDormant_handleAuthCompleted (env : Env) (auth : AuthCompleted) {s : VpnServer C}
    (hwaiting : H.config.oauthEnabled = false → NoneWaiting s) :
    KeepsAt (OnPhase (dormant H)) addr s (handleAuthCompleted H env auth s).2 := by
  intro h conn' hconn'
  cases handleAuthCompleted_cases env hconn' with
  | inl hsame => exact h conn' hsame
  | inr hchanged =>
    obtain ⟨pending, conn, hpending, -, hconn, hreply, -, -⟩ := hchanged
    cases hoauth : H.config.oauthEnabled with
    | true => exact absurd ((h conn hconn).2 hoauth) hreply
    | false =>
      rw [hwaiting hoauth auth.state] at hpending
      cases hpending

theorem keepsDormant_step {s : System C} {event : Event}
    (hwaiting : H.config.oauthEnabled = false → NoneWaiting s.server) (hstays : Stays H addr s event) :
    KeepsAt (OnPhase (dormant H)) addr s.server (step H s event).2.server := by
  refine (final_dormant H).step (fun env data hevent => ?_) fun env auth => ?_
  · subst hevent
    exact hstays rfl
  · exact keepsDormant_handleAuthCompleted env auth hwaiting

theorem keepsDormant_exec {s : System C} (hwaiting : H.config.oauthEnabled = false → NoneWaiting s.server)
    {events : List Event} (hstays : EachStep (step H) (Stays H addr) s events) :
    KeepsAt (OnPhase (dormant H)) addr s.server (exec (step H) s events).server := by
  induction events generalizing s with
  | nil => exact id
  | cons event events ih =>
    have hstep : KeepsAt (OnPhase (dormant H)) addr s.server (step H s event).2.server :=
      keepsDormant_step hwaiting hstays.1
    exact trans_of (KeepsAt (OnPhase (dormant H)) addr) hstep
      (ih (fun hoauth => noneWaiting_step hoauth s event (hwaiting hoauth)) hstays.2)

end Sleeping

section Traffic

variable {H : Host C} {addr : SocketAddr}

theorem handleDataPacket_of_dormant {s : VpnServer C} (h : HoldsAt (OnPhase (dormant H)) addr s) (env : Env) (data : Bytes) :
    (handleDataPacket H env addr data s).1 = {} := by
  unfold handleDataPacket
  cases hconn : s.connections addr with
  | none => rfl
  | some conn =>
    have hdormant : OnPhase (dormant H) conn := h conn hconn
    dsimp only [onConnection]
    rw [dataBody_of_dormant (s := ⟨conn, s.addressPool, s.pendingOauths, [], []⟩) hdormant]
    rfl

theorem handleTunPacket_of_dormant {s : System C} (h : HoldsAt (OnPhase (dormant H)) addr s.server)
    (horderly : Orderly H s) {conn : Connection C} {dest : Ipv4Addr} (hconn : s.server.connections addr = some conn)
    (hip : conn.vpnIp = some dest) (env : Env) (order : List SocketAddr) {ipPacket : Bytes}
    (hdest : destination ipPacket = some dest) :
    handleTunPacket H env order ipPacket s.server = ({}, s.server) := by
  refine handleTunPacket_of_none H env order fun dest' a hdest' => ?_
  cases hdest.symm.trans hdest'
  by_contra hroute
  have htrue : routesTo s.server dest a = true := Bool.eq_true_of_not_eq_false hroute
  -- no two connections have the same address
  have ha : a = addr := horderly.sound.unique (vpnIpAt_of_routesTo htrue).1 (vpnIpAt_eq_some hconn hip)
  subst ha
  simp only [routesTo, hconn, hip, (h conn hconn).1] at htrue
  cases htrue

def TakesSoftReset (H : Host C) (env : Env) (soft : Bytes) (conn : Connection C) : Prop :=
  Begins soft .softResetV1 ∧
    (ProtocolSession.processPacket H.primitives env.clock soft conn.protocol).1 = .ok .softReset

theorem dormantAt_of_softReset {s : System C} {conn : Connection C}
    (hanswered : H.config.oauthEnabled = true → Stored (OnPhase answered) s.server)
    (hconn : s.server.connections addr = some conn) (hstate : conn.protocol.state = .established) {env : Env}
    {soft : Bytes} (hsoft : TakesSoftReset H env soft conn) :
    HoldsAt (OnPhase (dormant H)) addr (step H s (.packet env addr soft)).2.server := by
  obtain ⟨⟨first, rest, rfl, hop⟩, hprocess⟩ := hsoft
  intro conn' hconn'
  change (handlePacket H env addr (first :: rest) s.server).2.connections addr = some conn' at hconn'
  rw [handlePacket, hop] at hconn'
  dsimp only [handleControlPacket] at hconn'
  rw [hconn] at hconn'
  dsimp only [onConnection] at hconn'
  rw [Function.update_self] at hconn'
  cases hconn'
  exact dormant_of_softReset hprocess fun hoauth => hanswered hoauth hconn hstate

/-- In every run in which an established connection takes a soft reset, and for
as long as it is not replaced by a new one, no data packet of its peer is
forwarded or answered and no packet for its address is sent. -/
theorem soft_reset_ends_traffic (H : Host C) {s₀ : System C} (hstart : start H.config = .ok s₀)
    (before : List Event) {addr : SocketAddr} {conn : Connection C}
    (hconn : (exec (step H) s₀ before).server.connections addr = some conn)
    (hstate : conn.protocol.state = .established) {env : Env} {soft : Bytes}
    (hsoft : TakesSoftReset H env soft conn) (after : List Event)
    (hstays : EachStep (step H) (Stays H addr) (exec (step H) s₀ (before ++ [.packet env addr soft])) after) :
    let s := (exec (step H) s₀ (before ++ .packet env addr soft :: after)).server
    (∀ env data, (handleDataPacket H env addr data s).1 = {}) ∧
      ∀ conn' dest env order ipPacket, s.connections addr = some conn' → conn'.vpnIp = some dest →
        destination ipPacket = some dest → handleTunPacket H env order ipPacket s = ({}, s) := by
  have hanswered : H.config.oauthEnabled = true → Stored (OnPhase answered) (exec (step H) s₀ before).server :=
    fun hoauth => (lasting_answered hoauth).exec hstart before
  have hasleep : HoldsAt (OnPhase (dormant H)) addr (exec (step H) s₀ (before ++ [.packet env addr soft])).server := by
    rw [exec_append]
    exact dormantAt_of_softReset hanswered hconn hstate hsoft
  have hafter : HoldsAt (OnPhase (dormant H)) addr (exec (step H) s₀ (before ++ .packet env addr soft :: after)).server := by
    rw [List.append_cons, exec_append]
    exact keepsDormant_exec (fun hoauth => noneWaiting_exec hoauth hstart _) hstays hasleep
  have horderly : Orderly H (exec (step H) s₀ (before ++ .packet env addr soft :: after)) :=
    (Orderly.start hstart).exec _
  refine ⟨fun env data => handleDataPacket_of_dormant hafter env data, ?_⟩
  intro conn' dest env order ipPacket hconn' hip hdest
  exact handleTunPacket_of_dormant hafter horderly hconn' hip env order hdest

def ipPacket : Bytes := 0x45 :: List.replicate 15 0 ++ [10, 8, 0, 2]

def oneMessageHost : Host Bytes :=
  { plainHost false with
    primitives := .single ipPacket }

def softReset : Bytes := [24, 1, 2, 3, 4, 5, 6, 7, 8, 0, 0, 0, 0, 2]

def dataPacket : Bytes := [48, 0, 0, 0, 1] ++ ipPacket ++ List.replicate 16 0

/-- After the soft reset the client goes on with a key method message, and still
nothing gets through. -/
theorem soft_reset_ends_traffic_one_client :
    let after : List Event := [.packet (atSecond 3 0) alice (keyMethod 2)]
    let s := (exec (step oneMessageHost) plainStart
      (connecting ++ .packet (atSecond 2 0) alice softReset :: after)).server
    (handleDataPacket oneMessageHost (atSecond 4 0) alice dataPacket s).1.tun = [] ∧
      (handleTunPacket oneMessageHost (atSecond 4 0) [alice] ipPacket s).1.sent = [] := by
  intro after s
  have hbefore : ((exec (step oneMessageHost) plainStart connecting).server.connections alice).map
      (fun conn => (conn.protocol.state, (ProtocolSession.processPacket oneMessageHost.primitives
        (atSecond 2 0).clock softReset conn.protocol).1)) = some (.established, .ok .softReset) := by
    decide +kernel
  obtain ⟨conn, hconn, hfacts⟩ := Option.map_eq_some_iff.mp hbefore
  obtain ⟨hstate, hprocess⟩ := Prod.mk.inj hfacts
  have hsoft : TakesSoftReset oneMessageHost (atSecond 2 0) softReset conn :=
    ⟨⟨24, softReset.tail, rfl, by decide⟩, hprocess⟩
  have hstays : EachStep (step oneMessageHost) (Stays oneMessageHost alice) (exec (step oneMessageHost)
      plainStart (connecting ++ [.packet (atSecond 2 0) alice softReset])) after := by
    decide +kernel +zetaReduce
  obtain ⟨hdata, htun⟩ := soft_reset_ends_traffic oneMessageHost (start_plainHost false) connecting
    hconn hstate hsoft after hstays
  have hip : vpnIpAt s alice = some (ofOctets 10 8 0 2) := by decide +kernel +zetaReduce
  obtain ⟨conn', hconn', hdest⟩ := Option.bind_eq_some_iff.mp hip
  rw [hdata, htun conn' _ (atSecond 4 0) [alice] ipPacket hconn' hdest (by decide)]
  exact ⟨rfl, rfl⟩

/-- Without the soft reset a packet of the client is forwarded and one for it is
sent. With it neither is. -/
theorem traffic_interrupted :
    let s := (exec (step oneMessageHost) plainStart connecting).server
    let t := (exec (step oneMessageHost) plainStart
      (connecting ++ [.packet (atSecond 2 0) alice softReset])).server
    (handleDataPacket oneMessageHost (atSecond 4 0) alice dataPacket s).1.tun = [ipPacket] ∧
      (handleDataPacket oneMessageHost (atSecond 4 0) alice dataPacket t).1.tun = [] ∧
      (handleTunPacket oneMessageHost (atSecond 4 0) [alice] ipPacket s).1.sent.length = 1 ∧
      (handleTunPacket oneMessageHost (atSecond 4 0) [alice] ipPacket t).1.sent = [] := by
  intro s t
  refine ⟨?_, ?_, ?_, ?_⟩
  all_goals decide +kernel +zetaReduce

end Traffic

end CoreVpn.Server.Renegotiation
