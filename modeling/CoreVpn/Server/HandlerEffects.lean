import CoreVpn.Core.PoolFamilies
import CoreVpn.Server.HandlerFrames

namespace CoreVpn.Server.HandlerEffects

open Lib.Computation Lib.Wire Core.Networks Core.AddressPools
open Protocol.Errors Protocol.Opcodes Protocol.Sessions Protocol.SessionFrames Protocol.TlsHandlers
open Protocol.PacketCodec (Begins)
open Connections KeyExchange ControlPackets Handlers HandlerFrames

variable {C α : Type} (H : Host C) (env : Env) (peerAddr : SocketAddr) (data : Bytes)

section Intake

theorem frames_guarded_onProtocol {p : Program ProtocolSession ProtocolError α} (hp : Frames Onward p) :
    Frames Guarded (onProtocol p : Handler C α) :=
  frames_zoom hp fun _ _ h ht => ⟨h.established ht, rfl, rfl⟩

theorem frames_guarded_intake : Frames Guarded (intake H env peerAddr data) := by
  refine frames_intake_of H env peerAddr data (fun _ _ h => ⟨h, rfl, rfl⟩)
    (frames_guarded_onProtocol (frames_processPacket _ _ _)) fun s hkm => guarded_of_state ?_
  rw [tryKeyExchange_state H env hkm]
  decide

theorem intake_eq_keyExchange {s t : Ctx C} {cipher : Option String}
    (h : intake H env peerAddr data s = (.ok (.keyExchange cipher), t)) :
    ∃ u, shouldTryKm u = true ∧ tryKeyExchange H env u = (.ok (.keyExchange cipher), t) := by
  obtain ⟨_, s₁, -, h⟩ := bind_eq_ok h
  obtain ⟨result, s₂, -, h⟩ := bind_eq_ok h
  cases result with
  | tlsData records =>
    obtain ⟨s₃, s₄, hget, h⟩ := bind_eq_ok h
    cases hget
    split at h
    · obtain ⟨_, s₅, -, h⟩ := bind_eq_ok h
      obtain ⟨_, s₆, -, h⟩ := bind_eq_ok h
      obtain ⟨s₇, s₈, hget, h⟩ := bind_eq_ok h
      cases hget
      split at h
      · rename_i hkm
        exact ⟨s₆, hkm, h⟩
      · cases h
    · cases h
  | softReset =>
    obtain ⟨_, s₃, -, h⟩ := bind_eq_ok h
    cases h
  | none => cases h
  | hardReset sessionId => cases h
  | hardResetAck => cases h
  | data payload => cases h

theorem intake_keyExchange {s t : Ctx C} {cipher : Option String}
    (h : intake H env peerAddr data s = (.ok (.keyExchange cipher), t)) :
    t.conn.protocol.state = .keyExchange := by
  obtain ⟨u, hkm, hu⟩ := intake_eq_keyExchange H env peerAddr data h
  have hstate := tryKeyExchange_state H env hkm
  rw [hu] at hstate
  exact hstate

end Intake

section Leases

/-- The pool is one of IPv4 addresses from the configured subnet. -/
structure Serves (subnet : Ipv4Net) (pool : AddressPool) : Prop where
  ipv4Net : pool.ipv4Net = some subnet
  ipv6Net : pool.ipv6Net = none
  reservedV4 : pool.reservedV4 = {subnet.network, subnet.broadcast, subnet.gateway}

def leased (pool : AddressPool) (vpnIp : Option Ipv4Addr) : Option Ipv4Addr → AddressPool × Option Ipv4Addr
  | some addr => ({ pool with allocatedV4 := insert addr pool.allocatedV4 }, some addr)
  | none => (pool, vpnIp)

variable {s : Ctx C}

theorem attempt_allocate_none (hpool : Serves H.config.subnet s.addressPool)
    (hfree : AddressPool.freeV4 H.config.subnet s.addressPool = none) :
    (attempt (zoom Ctx.addressPool (fun p s => { s with addressPool := p }) id AddressPool.allocate) :
      Handler C (Except CoreError VpnAddress)) s = (.ok (.error .addressPoolExhausted), s) := by
  have hallocate := allocate_v4_only hpool.ipv4Net hpool.ipv6Net
  change Family.ipv4.free _ _ = _ at hfree
  rw [Family.answer, hfree] at hallocate
  simp only [attempt, zoom, hallocate, Outcome.mapFault, Fault.map, id]

theorem attempt_allocate_some (hpool : Serves H.config.subnet s.addressPool) {addr : Ipv4Addr}
    (hfree : AddressPool.freeV4 H.config.subnet s.addressPool = some addr) :
    (attempt (zoom Ctx.addressPool (fun p s => { s with addressPool := p }) id AddressPool.allocate) :
      Handler C (Except CoreError VpnAddress)) s = (.ok (.ok ⟨some addr, none⟩),
        { s with addressPool := { s.addressPool with allocatedV4 := insert addr s.addressPool.allocatedV4 } }) := by
  have hallocate := allocate_v4_only hpool.ipv4Net hpool.ipv6Net
  change Family.ipv4.free _ _ = _ at hfree
  rw [Family.answer, hfree] at hallocate
  simp only [attempt, zoom, hallocate, Outcome.mapFault]
  rfl

theorem leaseOf_assignAddress (hpool : Serves H.config.subnet s.addressPool) (cipher : String) :
    leaseOf (assignAddress H env peerAddr cipher s).2 =
      leased s.addressPool s.conn.vpnIp (AddressPool.freeV4 H.config.subnet s.addressPool) := by
  cases hfree : AddressPool.freeV4 H.config.subnet s.addressPool with
  | none =>
    rw [assignAddress, bind_ok (attempt_allocate_none H hpool hfree)]
    rfl
  | some addr =>
    let pool := { s.addressPool with allocatedV4 := insert addr s.addressPool.allocatedV4 }
    rw [assignAddress, bind_ok (attempt_allocate_some H hpool hfree)]
    exact SameLease.leaseOf_eq (frames_answer H env peerAddr (fun _ _ _ => ⟨rfl, rfl⟩) cipher _
      { s with addressPool := pool, conn := { s.conn with vpnIp := some addr } })

/-- The address a control packet brings: it completes a key method message,
and the pool has one left. -/
def granted (s : Ctx C) : Option Ipv4Addr :=
  match (intake H env peerAddr data s).1 with
  | .ok (.keyExchange (some _)) => AddressPool.freeV4 H.config.subnet s.addressPool
  | _ => none

section Settling

variable {R : Ctx C → Ctx C → Prop} [IsPreorder (Ctx C) R] [Quiet R]

theorem frames_afterSettle : Frames R (do collectAck H env; collectRetransmits H env) :=
  frames_bind (frames_collectAck H env) fun _ => frames_collectRetransmits H env

variable [Notes H R] [ThroughTls H.engine R]

theorem frames_afterAssign : Frames R (do noteAuthentication H env peerAddr; answerPushRequest H env) :=
  frames_bind (Notes.authentication env peerAddr) fun _ => frames_answerPushRequest H env

theorem frames_settle {stage : Stage} (h : ∀ cipher, stage ≠ .keyExchange (some cipher)) :
    Frames R (settle H env peerAddr stage) := by
  cases stage with
  | idle => exact frames_pure ()
  | records => exact frames_answerPushRequest H env
  | keyExchange cipher =>
    cases cipher with
    | none => exact frames_bind (frames_pure ()) fun _ => frames_afterAssign H env peerAddr
    | some cipher => exact absurd rfl (h cipher)

/-- What a control packet comes to: an address is assigned after the intake,
or the rest is routine. -/
theorem controlBody_cases (s : Ctx C) :
    (∃ cipher, (intake H env peerAddr data s).1 = .ok (.keyExchange (some cipher)) ∧
      R (assignAddress H env peerAddr cipher (intake H env peerAddr data s).2).2
        (controlBody H env peerAddr data s).2) ∨
    ((∀ cipher, (intake H env peerAddr data s).1 ≠ .ok (.keyExchange (some cipher))) ∧
      R (intake H env peerAddr data s).2 (controlBody H env peerAddr data s).2) := by
  obtain ⟨result, t, hintake⟩ : ∃ result t, intake H env peerAddr data s = (result, t) := ⟨_, _, rfl⟩
  rw [hintake]
  cases result with
  | error e =>
    rw [controlBody, bind_error hintake]
    exact .inr ⟨nofun, refl_of R t⟩
  | ok stage =>
    rw [controlBody, bind_ok hintake]
    have hafter : R (settle H env peerAddr stage t).2 _ := frames_after (fun _ => frames_afterSettle H env) t
    by_cases hstage : ∃ cipher, stage = .keyExchange (some cipher)
    · obtain ⟨cipher, rfl⟩ := hstage
      have hassign : R (assignAddress H env peerAddr cipher t).2 _ :=
        frames_after (fun _ => frames_afterAssign H env peerAddr) t
      exact .inl ⟨cipher, rfl, trans_of R hassign hafter⟩
    · have hroutine : R t _ := frames_settle H env peerAddr (fun cipher hc => hstage ⟨cipher, hc⟩) t
      refine .inr ⟨fun cipher hc => hstage ⟨cipher, Except.ok.inj hc⟩, trans_of R hroutine hafter⟩

end Settling

section Assigning

variable {R : Ctx C → Ctx C → Prop} [IsPreorder (Ctx C) R]
  (hlease : ∀ s addressPool vpnIp, R s { s with addressPool, conn := { s.conn with vpnIp } })

include hlease

theorem frames_assignAddress_of (hanswer : ∀ cipher reply, Frames R (answer H env peerAddr cipher reply))
    (cipher : String) : Frames R (assignAddress H env peerAddr cipher) := by
  refine frames_bind (frames_attempt fun s => hlease s _ s.conn.vpnIp) fun result => ?_
  cases result with
  | error e => exact frames_pure ()
  | ok vpnAddr =>
    refine frames_bind (frames_modify fun s => hlease s s.addressPool vpnAddr.ipv4) fun _ => ?_
    exact frames_bind frames_get fun s => hanswer cipher _

theorem frames_controlBody [Handled R] [Notes H R] [ThroughTls H.engine R]
    (hpending : H.config.oauthEnabled = true → ∀ s pendingOauths, R s { s with pendingOauths }) :
    Frames R (controlBody H env peerAddr data) := by
  intro s
  have hintake : R s _ := frames_intake H env peerAddr data s
  cases controlBody_cases (R := R) H env peerAddr data s with
  | inl hassigned =>
    obtain ⟨cipher, -, hrest⟩ := hassigned
    have hassign : Frames R (assignAddress H env peerAddr cipher) :=
      frames_assignAddress_of H env peerAddr hlease (frames_answer H env peerAddr hpending) cipher
    exact trans_of R (trans_of R hintake (hassign _)) hrest
  | inr hrest => exact trans_of R hintake hrest.2

end Assigning

theorem leaseOf_controlBody (hpool : Serves H.config.subnet s.addressPool) :
    leaseOf (controlBody H env peerAddr data s).2 =
      leased s.addressPool s.conn.vpnIp (granted H env peerAddr data s) := by
  have hlease : SameLease s _ := frames_intake H env peerAddr data s
  cases controlBody_cases (R := SameLease) H env peerAddr data s with
  | inl hassigned =>
    obtain ⟨cipher, hstage, hroutine⟩ := hassigned
    rw [hroutine.leaseOf_eq, granted, hstage,
      leaseOf_assignAddress H env peerAddr (hlease.addressPool.symm ▸ hpool), hlease.addressPool,
      hlease.vpnIp]
  | inr hrest =>
    obtain ⟨hstage, hroutine⟩ := hrest
    have hnone : granted H env peerAddr data s = none := by
      unfold granted
      split
      · rename_i cipher hc
        exact absurd hc (hstage cipher)
      · rfl
    rw [hroutine.leaseOf_eq, hlease.leaseOf_eq, hnone]
    rfl

end Leases

section OtherHandlers

theorem frames_guarded_dataBody : Frames Guarded (dataBody H env data) :=
  frames_dataBody_of H env data (fun _ _ h => ⟨h, rfl, rfl⟩)
    (frames_guarded_onProtocol (frames_processPacket _ _ _))

end OtherHandlers

section Openings

/-- A hard reset stores a new connection: it is not answered from the cache,
the connection can be opened, and the response is sent. -/
def opens (s : VpnServer C) : Bool :=
  (cachedResponse env peerAddr s).isNone && (openConnection H env peerAddr data).isOk && env.sends 0

theorem handleHardReset_cases (s : VpnServer C) :
    (opens H env peerAddr data s = false ∧ (handleHardReset H env peerAddr data s).2 = s) ∨
      (opens H env peerAddr data s = true ∧ ∃ opened, openConnection H env peerAddr data = .ok opened ∧
        (handleHardReset H env peerAddr data s).2 =
          { s with connections := Function.update s.connections peerAddr (some opened.2) }) := by
  unfold handleHardReset opens
  cases cachedResponse env peerAddr s with
  | some response => exact .inl ⟨rfl, rfl⟩
  | none =>
    cases openConnection H env peerAddr data with
    | error e => exact .inl ⟨rfl, rfl⟩
    | ok opened =>
      cases hsend : env.sends 0 with
      | false => exact .inl ⟨rfl, rfl⟩
      | true => exact .inr ⟨rfl, opened, rfl, rfl⟩

end Openings

section Dispatch

theorem handlePacket_cases (s : VpnServer C) :
    (∃ opcode ∈ [OpCode.hardResetClientV2, .hardResetClientV3], Begins data opcode ∧
      handlePacket H env peerAddr data s = handleHardReset H env peerAddr data s) ∨
    (∃ opcode ∈ [OpCode.controlV1, .ackV1, .softResetV1], Begins data opcode ∧
      handlePacket H env peerAddr data s = handleControlPacket H env peerAddr data s) ∨
    (∃ opcode ∈ [OpCode.dataV1, .dataV2], Begins data opcode ∧
      handlePacket H env peerAddr data s = handleDataPacket H env peerAddr data s) ∨
    ∃ result, handlePacket H env peerAddr data s = ({ result }, s) := by
  cases data with
  | nil => exact .inr (.inr (.inr ⟨_, rfl⟩))
  | cons first rest =>
    unfold handlePacket
    dsimp only
    cases hop : OpCode.fromByte first with
    | error e => exact .inr (.inr (.inr ⟨_, rfl⟩))
    | ok opcode =>
      have hbegins : Begins (first :: rest) opcode := ⟨first, rest, rfl, hop⟩
      cases opcode with
      | hardResetClientV2 => exact .inl ⟨_, by decide, hbegins, rfl⟩
      | hardResetClientV3 => exact .inl ⟨_, by decide, hbegins, rfl⟩
      | controlV1 => exact .inr (.inl ⟨_, by decide, hbegins, rfl⟩)
      | ackV1 => exact .inr (.inl ⟨_, by decide, hbegins, rfl⟩)
      | softResetV1 => exact .inr (.inl ⟨_, by decide, hbegins, rfl⟩)
      | dataV1 => exact .inr (.inr (.inl ⟨_, by decide, hbegins, rfl⟩))
      | dataV2 => exact .inr (.inr (.inl ⟨_, by decide, hbegins, rfl⟩))
      | _ => exact .inr (.inr (.inr ⟨_, rfl⟩))

end Dispatch

section Rules

variable {R : VpnServer C → VpnServer C → Prop} [IsPreorder (VpnServer C) R] {s : VpnServer C}

theorem rel_handlePacket
    (hreset : ∀ opcode ∈ [OpCode.hardResetClientV2, .hardResetClientV3], Begins data opcode →
      R s (handleHardReset H env peerAddr data s).2)
    (hcontrol : ∀ opcode ∈ [OpCode.controlV1, .ackV1, .softResetV1], Begins data opcode →
      R s (handleControlPacket H env peerAddr data s).2)
    (hdata : R s (handleDataPacket H env peerAddr data s).2) :
    R s (handlePacket H env peerAddr data s).2 := by
  obtain ⟨opcode, hop, hbegins, h⟩ | ⟨opcode, hop, hbegins, h⟩ | ⟨_, _, _, h⟩ | ⟨result, h⟩ :=
    handlePacket_cases H env peerAddr data s
  · exact h ▸ hreset opcode hop hbegins
  · exact h ▸ hcontrol opcode hop hbegins
  · exact h ▸ hdata
  · exact h ▸ refl_of R s

/-- The relation holds whenever a routine handler has run on a stored connection. -/
def RespectsRoutine (R : VpnServer C → VpnServer C → Prop) : Prop :=
  ∀ ⦃s addr conn⦄ (p : Handler C Unit), Frames Routine p → s.connections addr = some conn →
    R s (onConnection s addr conn p).2

theorem rel_encryptTo (h : RespectsRoutine R) (data : Bytes) (addr : SocketAddr) (s : VpnServer C) :
    R s (encryptTo H data addr s).2 := by
  unfold encryptTo
  cases hconn : s.connections addr with
  | none => exact refl_of R s
  | some conn => exact h (encryptFor H data) (frames_encryptFor H data) hconn

theorem rel_handleTunPacket (h : ∀ data addr s, R s (encryptTo H data addr s).2)
    (order : List SocketAddr) (s : VpnServer C) : R s (handleTunPacket H env order data s).2 := by
  unfold handleTunPacket
  split
  · split
    · exact h data _ s
    · exact refl_of R s
  · exact refl_of R s

theorem rel_pingEach (h : ∀ data addr s, R s (encryptTo H data addr s).2) (order : List SocketAddr)
    (s : VpnServer C) : R s (pingEach H order s).2 := by
  induction order generalizing s with
  | nil => exact refl_of R s
  | cons addr rest ih =>
    have hone : R s (pingOne H addr s).2 := by
      unfold pingOne
      split
      · split
        · exact h pingPayload addr s
        · exact refl_of R s
      · exact refl_of R s
    exact trans_of R hone (ih _)

theorem rel_removeConnections
    (h : ∀ (s : VpnServer C) addr, R s { s with connections := Function.update s.connections addr none })
    (stale : List StaleConnection) (s : VpnServer C) : R s (removeConnections stale s) := by
  induction stale generalizing s with
  | nil => exact refl_of R s
  | cons c rest ih => exact trans_of R (h s c.addr) (ih _)

/-- What a step does to the server, event by event. -/
theorem rel_step (s : System C) (event : Event)
    (hpacket : ∀ env peerAddr data, event = .packet env peerAddr data →
      R s.server (handlePacket H env peerAddr data s.server).2)
    (hencrypt : ∀ data addr s, R s (encryptTo H data addr s).2)
    (hauth : ∀ env auth, R s.server (handleAuthCompleted H env auth s.server).2)
    (hremove : ∀ (s : VpnServer C) addr,
      R s { s with connections := Function.update s.connections addr none }) :
    R s.server (step H s event).2.server := by
  cases event with
  | packet env peerAddr data => exact hpacket env peerAddr data rfl
  | tunPacket env order ipPacket => exact rel_handleTunPacket H env ipPacket hencrypt order s.server
  | keepalive env order => exact rel_pingEach H hencrypt order s.server
  | authCompleted env auth => exact hauth env auth
  | collectStale env timeout order =>
    rw [step]
    split <;> exact refl_of R s.server
  | removeStale => exact rel_removeConnections hremove s.stale s.server

end Rules

section Strangers

def SameAt (addr : SocketAddr) (s t : VpnServer C) : Prop := t.connections addr = s.connections addr

instance (addr : SocketAddr) : IsPreorder (VpnServer C) (SameAt addr) where
  refl _ := rfl
  trans _ _ _ h h' := Eq.trans h' h

def StaysAbsent (addr : SocketAddr) (s t : VpnServer C) : Prop :=
  s.connections addr = none → t.connections addr = none

instance (addr : SocketAddr) : IsPreorder (VpnServer C) (StaysAbsent addr) where
  refl _ := id
  trans _ _ _ h h' := h' ∘ h

theorem handlePacket_of_ne {addr : SocketAddr} (h : addr ≠ peerAddr) (s : VpnServer C) :
    (handlePacket H env peerAddr data s).2.connections addr = s.connections addr := by
  refine rel_handlePacket (R := SameAt addr) H env peerAddr data (fun _ _ _ => ?_) (fun _ _ _ => ?_) ?_
  · cases handleHardReset_cases H env peerAddr data s with
    | inl hcached => rw [hcached.2]; rfl
    | inr hopened =>
      obtain ⟨-, opened, -, hafter⟩ := hopened
      rw [hafter]
      exact Function.update_of_ne h _ _
  · unfold handleControlPacket
    split
    · exact Function.update_of_ne h _ _
    · rfl
  · unfold handleDataPacket
    split
    · dsimp only
      split <;> exact Function.update_of_ne h _ _
    · rfl

def comesFrom (addr : SocketAddr) : Event → Bool
  | .packet _ peerAddr _ => decide (peerAddr = addr)
  | _ => false

variable {addr : SocketAddr}

theorem onConnection_stranger {s : VpnServer C} {a : SocketAddr} {conn : Connection C} (p : Handler C α)
    (hconn : s.connections a = some conn) : StaysAbsent addr s (onConnection s a conn p).2 := by
  intro h
  have hne : addr ≠ a := by
    rintro rfl
    rw [h] at hconn
    cases hconn
  exact (Function.update_of_ne hne _ _).trans h

theorem respectsRoutine_staysAbsent : RespectsRoutine (StaysAbsent (C := C) addr) :=
  fun _ _ _ p _ hconn => onConnection_stranger p hconn

theorem removeConnection_stranger (s : VpnServer C) (a : SocketAddr) :
    StaysAbsent addr s { s with connections := Function.update s.connections a none } := by
  intro h
  by_cases ha : addr = a
  · subst ha
    exact Function.update_self ..
  · exact (Function.update_of_ne ha _ _).trans h

theorem handleAuthCompleted_stranger (auth : AuthCompleted) (s : VpnServer C) :
    StaysAbsent addr s (handleAuthCompleted H env auth s).2 := by
  intro h
  unfold handleAuthCompleted
  split
  · dsimp only
    split
    · rename_i conn hconn
      exact onConnection_stranger (completeAuth H env auth) hconn h
    · exact h
  · exact h

theorem step_stranger {s : System C} (h : s.server.connections addr = none) {event : Event}
    (hevent : comesFrom addr event = false) : (step H s event).2.server.connections addr = none := by
  refine rel_step (R := StaysAbsent addr) H s event ?_ (rel_encryptTo H respectsRoutine_staysAbsent)
    (fun env auth => handleAuthCompleted_stranger H env auth s.server) removeConnection_stranger h
  rintro env peerAddr data rfl h
  have hne : addr ≠ peerAddr := fun he => of_decide_eq_false hevent he.symm
  exact (handlePacket_of_ne H env peerAddr data hne s.server).trans h

theorem exec_stranger {s : System C} (h : s.server.connections addr = none) (events : List Event)
    (hevents : events.all (fun event => !comesFrom addr event) = true) :
    (Lib.Machine.exec (step H) s events).server.connections addr = none := by
  induction events generalizing s with
  | nil => exact h
  | cons event rest ih =>
    obtain ⟨hhead, hrest⟩ := Bool.and_eq_true_iff.mp hevents
    exact ih (step_stranger H h (by simpa using hhead)) hrest

end Strangers

end CoreVpn.Server.HandlerEffects
