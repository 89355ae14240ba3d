import CoreVpn.Protocol.Processing
import CoreVpn.Server.OAuthGate

namespace CoreVpn.Server.StoredConnections

open Lib.Computation Lib.Wire Lib.Machine Core.Networks Core.AddressPools
open Protocol.Errors Protocol.Opcodes Protocol.Sessions Protocol.Processing
open Protocol.PacketCodec (Begins)
open Connections KeyExchange ControlPackets Handlers HandlerFrames HandlerEffects AddressLeases OAuthGate

variable {C α : Type}

def Stored (I : Connection C → Prop) (s : VpnServer C) : Prop :=
  ∀ ⦃addr conn⦄, s.connections addr = some conn → I conn

def Keeps (I : Connection C → Prop) (p : Handler C α) : Prop := ∀ s, I s.conn → I (p s).2.conn

/-- A property that every new connection has, and that no handler takes from one. -/
structure Lasting (H : Host C) (I : Connection C → Prop) : Prop where
  opened : ∀ {env peerAddr data opened}, openConnection H env peerAddr data = .ok opened → I opened.2
  control : ∀ env peerAddr data, Keeps I (controlBody H env peerAddr data)
  data : ∀ env data, Keeps I (dataBody H env data)
  auth : ∀ env auth, Keeps I (completeAuth H env auth)
  encrypt : ∀ data, Keeps I (encryptFor H data)

variable {H : Host C} {I : Connection C → Prop} {s : VpnServer C}

def KeepsStored (I : Connection C → Prop) (s t : VpnServer C) : Prop := Stored I s → Stored I t

instance : IsPreorder (VpnServer C) (KeepsStored I) where
  refl _ := id
  trans _ _ _ h h' := h' ∘ h

theorem stored_update {addr : SocketAddr} {conn : Option (Connection C)} (h : Stored I s)
    (hconn : ∀ c, conn = some c → I c) :
    Stored I { s with connections := Function.update s.connections addr conn } := by
  intro a c hc
  change Function.update s.connections addr conn a = some c at hc
  by_cases ha : a = addr
  · subst ha
    rw [Function.update_self] at hc
    exact hconn c hc
  · rw [Function.update_of_ne ha] at hc
    exact h hc

theorem stored_onConnection {addr : SocketAddr} {conn : Connection C} {p : Handler C α} (hp : Keeps I p)
    (hconn : s.connections addr = some conn) : KeepsStored I s (onConnection s addr conn p).2 := by
  intro h
  refine stored_update (s := { s with
    addressPool := _, pendingOauths := _ }) (fun a c hc => h hc) fun c hc => ?_
  cases hc
  exact hp _ (h hconn)

theorem Lasting.encryptTo (hI : Lasting H I) (data : Bytes) (addr : SocketAddr) (s : VpnServer C) :
    KeepsStored I s (encryptTo H data addr s).2 := by
  unfold Handlers.encryptTo
  cases hconn : s.connections addr with
  | none => exact id
  | some conn => exact stored_onConnection (hI.encrypt data) hconn

theorem Lasting.handlePacket (hI : Lasting H I) (env : Env) (peerAddr : SocketAddr) (data : Bytes)
    (s : VpnServer C) : KeepsStored I s (handlePacket H env peerAddr data s).2 := by
  refine rel_handlePacket H env peerAddr data (fun _ _ _ => ?_) (fun _ _ _ => ?_) ?_
  · cases handleHardReset_cases H env peerAddr data s with
    | inl hcached =>
      rw [hcached.2]
      exact id
    | inr hopened =>
      obtain ⟨-, opened, hopen, hafter⟩ := hopened
      rw [hafter]
      intro h
      refine stored_update h fun c hc => ?_
      cases hc
      exact hI.opened hopen
  · unfold handleControlPacket
    cases hconn : s.connections peerAddr with
    | none => exact id
    | some conn => exact stored_onConnection (hI.control env peerAddr data) hconn
  · unfold handleDataPacket
    cases hconn : s.connections peerAddr with
    | none => exact id
    | some conn =>
      dsimp only
      split <;> exact stored_onConnection (hI.data env data) hconn

theorem Lasting.handleAuthCompleted (hI : Lasting H I) (env : Env) (auth : AuthCompleted) (s : VpnServer C) :
    KeepsStored I s (handleAuthCompleted H env auth s).2 := by
  intro h
  unfold Handlers.handleAuthCompleted
  split
  · dsimp only
    split
    · rename_i conn hconn
      exact stored_onConnection (hI.auth env auth) hconn fun a c hc => h hc
    · exact fun a c hc => h hc
  · exact h

theorem Lasting.step (hI : Lasting H I) (s : System C) (event : Event) :
    KeepsStored I s.server (step H s event).2.server := by
  refine rel_step H s event (fun env peerAddr data _ => hI.handlePacket env peerAddr data s.server)
    hI.encryptTo (fun env auth => hI.handleAuthCompleted env auth s.server) fun s addr h => ?_
  exact stored_update h fun c hc => by cases hc

/-- A lasting property holds of every connection in every state of a run. -/
theorem Lasting.exec (hI : Lasting H I) {s₀ : System C} (hstart : start H.config = .ok s₀)
    (events : List Event) : Stored I (exec (Handlers.step H) s₀ events).server := by
  have hempty : Stored I s₀.server := by
    rw [start_eq hstart]
    exact fun _ _ hconn => by cases hconn
  exact exec_of_step (P := fun s : System C => Stored I s.server) hI.step hempty events

section Addresses

def HoldsAt (I : Connection C → Prop) (addr : SocketAddr) (s : VpnServer C) : Prop :=
  ∀ conn ∈ s.connections addr, I conn

def KeepsAt (I : Connection C → Prop) (addr : SocketAddr) (s t : VpnServer C) : Prop :=
  HoldsAt I addr s → HoldsAt I addr t

variable {addr : SocketAddr}

instance : IsPreorder (VpnServer C) (KeepsAt I addr) where
  refl _ := id
  trans _ _ _ h h' := h' ∘ h

theorem keepsAt_of_eq {t : VpnServer C} (h : t.connections addr = s.connections addr) : KeepsAt I addr s t := by
  intro hs conn hconn
  exact hs conn (h ▸ hconn)

theorem keepsAt_onConnection {a : SocketAddr} {conn : Connection C} {p : Handler C α} (hp : Keeps I p)
    (hconn : s.connections a = some conn) : KeepsAt I addr s (onConnection s a conn p).2 := by
  by_cases ha : addr = a
  · subst ha
    intro h conn' hconn'
    change Function.update s.connections addr _ addr = some conn' at hconn'
    rw [Function.update_self] at hconn'
    cases hconn'
    exact hp _ (h conn hconn)
  · exact keepsAt_of_eq (Function.update_of_ne ha _ _)

theorem keepsAt_removeConnection (s : VpnServer C) (a : SocketAddr) :
    KeepsAt I addr s { s with connections := Function.update s.connections a none } := by
  by_cases ha : addr = a
  · subst ha
    intro _ conn hconn
    cases (Function.update_self addr _ _).symm.trans hconn
  · exact keepsAt_of_eq (Function.update_of_ne ha _ _)

theorem storesNew_of_begins {env : Env} {data : Bytes} {opcode : OpCode} (hbegins : Begins data opcode)
    (hop : opcode ∈ [OpCode.hardResetClientV2, .hardResetClientV3]) :
    storesNew H env addr data s = opens H env addr data s := by
  obtain ⟨first, rest, rfl, hfirst⟩ := hbegins
  rw [storesNew, hfirst]
  simp only [List.mem_cons, List.not_mem_nil, or_false] at hop
  cases hop <;> subst opcode <;> rfl

end Addresses

section Phases

/-- A phase behind the key exchange, which is left at most for a renegotiation. -/
structure Final (I : ProtocolState → Option String → Prop) : Prop where
  rekeying : ∀ {state reply}, I state reply → I .rekeying reply
  tlsHandshake : ∀ reply, ¬ I .tlsHandshake reply
  keyExchange : ∀ reply, ¬ I .keyExchange reply

variable {I : ProtocolState → Option String → Prop} {env : Env} {peerAddr : SocketAddr} {data : Bytes}
  {opcode : OpCode} {s : Ctx C}

theorem Final.incoming (hI : Final I) (hbegins : Begins data opcode) (hreset : opcode.isHardReset = false) :
    Frames (KeepsPhase I) (onProtocol (ProtocolSession.processPacket H.primitives env.clock data) :
      Handler C ProcessedPacket) := by
  intro s hs
  have hother : ∀ opcode', Begins data opcode' → opcode'.isHardReset = false :=
    fun _ hbegins' => hbegins.unique hbegins' ▸ hreset
  change I (ProtocolSession.processPacket H.primitives env.clock data s.conn.protocol).2.state _
  cases continues_lapses.processPacket H.primitives env.clock hother s.conn.protocol with
  | inl hsame =>
    rw [hsame]
    exact hs
  | inr hrekeying =>
    rw [hrekeying]
    exact hI.rekeying hs

theorem Final.not_shouldTryKm (hI : Final I) (h : OnPhase I s.conn) : ¬ shouldTryKm s = true := by
  intro hkm
  obtain ⟨-, hstate⟩ := Bool.and_eq_true_iff.mp hkm
  rw [Bool.or_eq_true_iff, decide_eq_true_iff, decide_eq_true_iff] at hstate
  rw [OnPhase] at h
  cases hstate with
  | inl hstate => exact hI.tlsHandshake _ (hstate ▸ h)
  | inr hstate => exact hI.keyExchange _ (hstate ▸ h)

theorem Final.intake (hI : Final I) (hbegins : Begins data opcode) (hreset : opcode.isHardReset = false) :
    Keeps (OnPhase I) (intake H env peerAddr data) :=
  frames_intake_of (R := KeepsPhase I) H env peerAddr data (fun _ _ => id) (hI.incoming hbegins hreset)
    fun _ hkm hs => absurd hkm (hI.not_shouldTryKm hs)

theorem Final.controlBody_of_intake (hI : Final I)
    (h : OnPhase I (ControlPackets.intake H env peerAddr data s).2.conn) :
    OnPhase I (controlBody H env peerAddr data s).2.conn := by
  cases controlBody_cases (R := KeepsPhase I) H env peerAddr data s with
  | inl hassigned =>
    obtain ⟨cipher, hstage, -⟩ := hassigned
    have hkm := intake_keyExchange H env peerAddr data (Prod.ext hstage rfl)
    rw [OnPhase, hkm] at h
    exact absurd h (hI.keyExchange _)
  | inr hrest => exact hrest.2 h

theorem Final.controlBody (hI : Final I) (hbegins : Begins data opcode) (hreset : opcode.isHardReset = false) :
    Keeps (OnPhase I) (controlBody H env peerAddr data) :=
  fun s hs => hI.controlBody_of_intake (hI.intake hbegins hreset s hs)

theorem Final.dataBody (hI : Final I) (hbegins : Begins data opcode) (hreset : opcode.isHardReset = false) :
    Keeps (OnPhase I) (dataBody H env data) :=
  frames_dataBody_of (R := KeepsPhase I) H env data (fun _ _ => id) (hI.incoming hbegins hreset)

theorem Final.handlePacket (hI : Final I) {s : VpnServer C} (hnew : storesNew H env peerAddr data s = false) :
    KeepsAt (OnPhase I) peerAddr s (handlePacket H env peerAddr data s).2 := by
  obtain ⟨opcode, hop, hbegins, h⟩ | ⟨opcode, hop, hbegins, h⟩ | ⟨opcode, hop, hbegins, h⟩ | ⟨result, h⟩ :=
    handlePacket_cases H env peerAddr data s
  · rw [storesNew_of_begins hbegins hop] at hnew
    cases handleHardReset_cases H env peerAddr data s with
    | inl hcached =>
      rw [h, hcached.2]
      exact id
    | inr hopened =>
      rw [hnew] at hopened
      cases hopened.1
  · have hreset : opcode.isHardReset = false := by
      simp only [List.mem_cons, List.not_mem_nil, or_false] at hop
      obtain rfl | rfl | rfl := hop <;> rfl
    rw [h, handleControlPacket]
    cases hconn : s.connections peerAddr with
    | none => exact id
    | some conn => exact keepsAt_onConnection (hI.controlBody hbegins hreset) hconn
  · have hreset : opcode.isHardReset = false := by
      simp only [List.mem_cons, List.not_mem_nil, or_false] at hop
      obtain rfl | rfl := hop <;> rfl
    rw [h, handleDataPacket]
    cases hconn : s.connections peerAddr with
    | none => exact id
    | some conn =>
      dsimp only
      split <;> exact keepsAt_onConnection (hI.dataBody hbegins hreset) hconn
  · rw [h]
    exact id

/-- The phase of a connection that is not replaced lasts, if the completion of
an authentication does not end it. -/
theorem Final.step (hI : Final I) {addr : SocketAddr} {s : System C} {event : Event}
    (hnew : ∀ env data, event = .packet env addr data → storesNew H env addr data s.server = false)
    (hauth : ∀ env auth, KeepsAt (OnPhase I) addr s.server (handleAuthCompleted H env auth s.server).2) :
    KeepsAt (OnPhase I) addr s.server (step H s event).2.server := by
  refine rel_step H s event (fun env peerAddr data hevent => ?_) (fun data a s => ?_) hauth keepsAt_removeConnection
  · by_cases haddr : addr = peerAddr
    · subst haddr
      exact hI.handlePacket (hnew env data hevent)
    · exact keepsAt_of_eq (handlePacket_of_ne H env peerAddr data haddr s.server)
  · unfold Handlers.encryptTo
    cases hconn : s.connections a with
    | none => exact id
    | some conn => exact keepsAt_onConnection (frames_encryptFor (R := KeepsPhase I) H data) hconn

end Phases

end CoreVpn.Server.StoredConnections
