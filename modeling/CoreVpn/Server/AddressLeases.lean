import CoreVpn.Lib.Leases
import CoreVpn.Server.HandlerEffects

namespace CoreVpn.Server.AddressLeases

open Lib.Computation Lib.Wire Lib.Machine Core.Networks Core.AddressPools Protocol.Opcodes
open Lib.Leases hiding step
open Connections KeyExchange ControlPackets Handlers HandlerFrames HandlerEffects

variable {C α : Type}

def vpnIpAt (s : VpnServer C) (addr : SocketAddr) : Option Ipv4Addr :=
  (s.connections addr).bind Connection.vpnIp

/-- The addresses of the pool as leases, which the connections hold. -/
def registry (s : VpnServer C) : Registry SocketAddr Ipv4Addr := ⟨s.addressPool.allocatedV4, vpnIpAt s⟩

def reserved (subnet : Ipv4Net) : Finset Ipv4Addr := {subnet.network, subnet.broadcast, subnet.gateway}

section Moves

variable (H : Host C) (env : Env) (peerAddr : SocketAddr) (data : Bytes)

def grantedTo (s : VpnServer C) : Option Ipv4Addr :=
  (s.connections peerAddr).bind fun conn =>
    granted H env peerAddr data ⟨conn, s.addressPool, s.pendingOauths, [], []⟩

def packetMoves (s : VpnServer C) : List (Move SocketAddr Ipv4Addr) :=
  match data with
  | [] => []
  | first :: _ =>
    match OpCode.fromByte first with
    | .ok .hardResetClientV2 | .ok .hardResetClientV3 =>
      if opens H env peerAddr data s then [.drop peerAddr] else []
    | .ok .controlV1 | .ok .ackV1 | .ok .softResetV1 =>
      (grantedTo H env peerAddr data s).toList.map (.grant peerAddr)
    | _ => []

def moves (s : System C) : Event → List (Move SocketAddr Ipv4Addr)
  | .packet env peerAddr data => packetMoves H env peerAddr data s.server
  | .removeStale => s.stale.map fun c => .drop c.addr
  | _ => []

end Moves

/-- From `s` to `t` the leases change by the given moves, and the pool goes on
serving its subnet. -/
structure Moved (subnet : Ipv4Net) (s : VpnServer C) (ms : List (Move SocketAddr Ipv4Addr))
    (t : VpnServer C) : Prop where
  registry_eq : registry t = exec Lib.Leases.step (registry s) ms
  serves : Serves subnet s.addressPool → Serves subnet t.addressPool

variable {subnet : Ipv4Net} {s t u : VpnServer C} {peerAddr : SocketAddr} {conn : Connection C}

theorem Moved.refl (s : VpnServer C) : Moved subnet s [] s := ⟨rfl, id⟩

theorem Moved.trans {ms ns : List (Move SocketAddr Ipv4Addr)} (h : Moved subnet s ms t)
    (h' : Moved subnet t ns u) : Moved subnet s (ms ++ ns) u :=
  ⟨by rw [exec_append, ← h.registry_eq, h'.registry_eq], h'.serves ∘ h.serves⟩

instance : IsPreorder (VpnServer C) (Moved subnet · [] ·) where
  refl := Moved.refl
  trans _ _ _ h h' := h.trans h'

theorem registry_update (s : VpnServer C) (c : Option (Connection C)) (pool : AddressPool)
    (pendingOauths : String → Option PendingOAuth) :
    registry ⟨pool, Function.update s.connections peerAddr c, pendingOauths⟩ =
      ⟨pool.allocatedV4, Function.update (vpnIpAt s) peerAddr (c.bind Connection.vpnIp)⟩ := by
  rw [registry]
  congr 1
  funext addr
  by_cases h : addr = peerAddr
  · subst h
    simp [vpnIpAt]
  · simp [vpnIpAt, Function.update_of_ne h]

theorem moved_of_lease {after : Ctx C} {addr : Option Ipv4Addr} (hconn : s.connections peerAddr = some conn)
    (h : leaseOf after = leased s.addressPool conn.vpnIp addr) :
    Moved subnet s (addr.toList.map (.grant peerAddr))
      ⟨after.addressPool, Function.update s.connections peerAddr (some after.conn), after.pendingOauths⟩ := by
  have hheld : vpnIpAt s peerAddr = conn.vpnIp := by rw [vpnIpAt, hconn, Option.bind_some]
  cases addr with
  | none =>
    obtain ⟨hpool, hip⟩ := Prod.mk.inj h
    refine ⟨?_, fun hs => hpool ▸ hs⟩
    rw [registry_update, Option.bind_some, hpool, hip, ← hheld, Function.update_eq_self]
    rfl
  | some addr =>
    obtain ⟨hpool, hip⟩ := Prod.mk.inj h
    refine ⟨?_, fun hs => hpool ▸ ⟨hs.ipv4Net, hs.ipv6Net, hs.reservedV4⟩⟩
    rw [registry_update, Option.bind_some, hpool, hip]
    rfl

theorem moved_of_sameLease {p : Handler C α} (hp : Frames SameLease p)
    (hconn : s.connections peerAddr = some conn) : Moved subnet s [] (onConnection s peerAddr conn p).2 := by
  have hlease : leaseOf (p ⟨conn, s.addressPool, s.pendingOauths, [], []⟩).2 =
      leased s.addressPool conn.vpnIp none := (hp _).leaseOf_eq
  exact moved_of_lease hconn hlease

theorem respectsRoutine_moved : RespectsRoutine (C := C) (Moved subnet · [] ·) :=
  fun _ _ _ _ hp hconn => moved_of_sameLease (hp.mono fun _ _ h => h.toSameLease) hconn

theorem vpnIp_openConnection {H : Host C} {env : Env} {data : Bytes} {opened : Bytes × Connection C}
    (h : openConnection H env peerAddr data = .ok opened) : opened.2.vpnIp = none := by
  obtain ⟨_, -, h⟩ := Outcome.bind_eq_ok_iff.mp h
  obtain ⟨_, -, h⟩ := Outcome.bind_eq_ok_iff.mp h
  obtain ⟨_, -, h⟩ := Outcome.bind_eq_ok_iff.mp h
  cases h
  rfl

section Handlers

variable (H : Host C) (env : Env) (peerAddr : SocketAddr) (data : Bytes)

theorem moved_handleHardReset (s : VpnServer C) :
    Moved H.config.subnet s (if opens H env peerAddr data s then [.drop peerAddr] else [])
      (handleHardReset H env peerAddr data s).2 := by
  cases handleHardReset_cases H env peerAddr data s with
  | inl hcached =>
    rw [hcached.1, hcached.2]
    exact Moved.refl s
  | inr hopened =>
    obtain ⟨hopens, opened, hopen, hafter⟩ := hopened
    rw [hopens, hafter]
    refine ⟨(registry_update s (some opened.2) _ _).trans ?_, id⟩
    rw [Option.bind_some, vpnIp_openConnection hopen]
    rfl

theorem moved_handleControlPacket {s : VpnServer C} (hpool : Serves H.config.subnet s.addressPool) :
    Moved H.config.subnet s ((grantedTo H env peerAddr data s).toList.map (.grant peerAddr))
      (handleControlPacket H env peerAddr data s).2 := by
  unfold handleControlPacket grantedTo
  cases hconn : s.connections peerAddr with
  | none => exact Moved.refl s
  | some conn => exact moved_of_lease hconn (leaseOf_controlBody H env peerAddr data hpool)

theorem moved_handleDataPacket (s : VpnServer C) :
    Moved H.config.subnet s [] (handleDataPacket H env peerAddr data s).2 := by
  unfold handleDataPacket
  cases hconn : s.connections peerAddr with
  | none => exact Moved.refl s
  | some conn =>
    have hmoved : Moved H.config.subnet s [] (onConnection s peerAddr conn (dataBody H env data)).2 :=
      moved_of_sameLease (frames_dataBody H env data) hconn
    dsimp only
    split <;> exact hmoved

theorem moved_handlePacket {s : VpnServer C} (hpool : Serves H.config.subnet s.addressPool) :
    Moved H.config.subnet s (packetMoves H env peerAddr data s) (handlePacket H env peerAddr data s).2 := by
  unfold handlePacket packetMoves
  cases data with
  | nil => exact Moved.refl s
  | cons first rest =>
    dsimp only
    cases OpCode.fromByte first with
    | error e => exact Moved.refl s
    | ok opcode =>
      cases opcode with
      | hardResetClientV2 => exact moved_handleHardReset H env peerAddr _ s
      | hardResetClientV3 => exact moved_handleHardReset H env peerAddr _ s
      | controlV1 => exact moved_handleControlPacket H env peerAddr _ hpool
      | ackV1 => exact moved_handleControlPacket H env peerAddr _ hpool
      | softResetV1 => exact moved_handleControlPacket H env peerAddr _ hpool
      | dataV1 => exact moved_handleDataPacket H env peerAddr _ s
      | dataV2 => exact moved_handleDataPacket H env peerAddr _ s
      | _ => exact Moved.refl s

theorem moved_handleAuthCompleted (auth : AuthCompleted) (s : VpnServer C) :
    Moved subnet s [] (handleAuthCompleted H env auth s).2 := by
  unfold handleAuthCompleted
  split
  · rename_i pending hpending
    -- taking the token off the list changes no lease
    have htoken : Moved subnet s []
        { s with pendingOauths := Function.update s.pendingOauths auth.state none } := ⟨rfl, id⟩
    dsimp only
    split
    · rename_i conn hconn
      exact htoken.trans (moved_of_sameLease (frames_completeAuth H env auth) hconn)
    · exact htoken
  · exact Moved.refl s

theorem moved_removeConnections (stale : List StaleConnection) (s : VpnServer C) :
    Moved subnet s (stale.map fun c => .drop c.addr) (removeConnections stale s) := by
  induction stale generalizing s with
  | nil => exact Moved.refl s
  | cons c rest ih =>
    have hone : Moved subnet s [.drop c.addr]
        { s with connections := Function.update s.connections c.addr none } :=
      ⟨registry_update s none _ _, id⟩
    exact hone.trans (ih _)

end Handlers

theorem moved_step (H : Host C) {s : System C} (hpool : Serves H.config.subnet s.server.addressPool)
    (event : Event) : Moved H.config.subnet s.server (moves H s event) (step H s event).2.server := by
  cases event with
  | packet env peerAddr data => exact moved_handlePacket H env peerAddr data hpool
  | tunPacket env order ipPacket =>
    exact rel_handleTunPacket H env ipPacket (rel_encryptTo H respectsRoutine_moved) order s.server
  | keepalive env order => exact rel_pingEach H (rel_encryptTo H respectsRoutine_moved) order s.server
  | authCompleted env auth => exact moved_handleAuthCompleted H env auth s.server
  | collectStale env timeout order =>
    rw [step]
    split <;> exact Moved.refl s.server
  | removeStale => exact moved_removeConnections s.stale s.server

theorem legal_packetMoves (H : Host C) (env : Env) (peerAddr : SocketAddr) (data : Bytes) {s : VpnServer C}
    (hpool : Serves H.config.subnet s.addressPool) :
    EachStep Lib.Leases.step (Legal (reserved H.config.subnet)) (registry s)
      (packetMoves H env peerAddr data s) := by
  have hgrant : EachStep Lib.Leases.step (Legal (reserved H.config.subnet)) (registry s)
      ((grantedTo H env peerAddr data s).toList.map (.grant peerAddr)) := by
    cases hg : grantedTo H env peerAddr data s with
    | none => trivial
    | some addr =>
      obtain ⟨conn, -, hg⟩ := Option.bind_eq_some_iff.mp hg
      unfold granted at hg
      split at hg
      · obtain ⟨hres, hfree⟩ := firstFree_spec hg
        have hres : addr ∉ s.addressPool.reservedV4 := hres
        rw [hpool.reservedV4] at hres
        exact ⟨⟨hfree, hres⟩, trivial⟩
      · cases hg
  have hdrop : EachStep Lib.Leases.step (Legal (reserved H.config.subnet)) (registry s)
      (if opens H env peerAddr data s then [.drop peerAddr] else []) := by
    split
    · exact legal_drops [peerAddr]
    · trivial
  unfold packetMoves
  split
  · trivial
  · split
    · exact hdrop
    · exact hdrop
    · exact hgrant
    · exact hgrant
    · exact hgrant
    · trivial

theorem legal_moves (H : Host C) {s : System C} (hpool : Serves H.config.subnet s.server.addressPool)
    (event : Event) : EachStep Lib.Leases.step (Legal (reserved H.config.subnet)) (registry s.server)
      (moves H s event) := by
  cases event with
  | packet env peerAddr data => exact legal_packetMoves H env peerAddr data hpool
  | removeStale =>
    have hdrops : EachStep Lib.Leases.step (Legal (reserved H.config.subnet)) (registry s.server)
        ((s.stale.map StaleConnection.addr).map Move.drop) := legal_drops _
    rw [List.map_map] at hdrops
    exact hdrops
  | _ => trivial

/-- The pool serves its subnet, and what the connections hold is theirs alone. -/
structure Orderly (H : Host C) (s : System C) : Prop where
  serves : Serves H.config.subnet s.server.addressPool
  sound : Sound (reserved H.config.subnet) (registry s.server)

theorem Orderly.step {H : Host C} {s : System C} (h : Orderly H s) (event : Event) :
    Orderly H (step H s event).2 := by
  have hmoved := moved_step H h.serves event
  refine ⟨hmoved.serves h.serves, ?_⟩
  rw [hmoved.registry_eq]
  exact h.sound.exec (legal_moves H h.serves event)

theorem start_eq {config : ServerConfig} {s : System C} (h : start config = .ok s) :
    s = ⟨⟨AddressPool.newUnchecked (some config.subnet) none, fun _ => none, fun _ => none⟩, []⟩ := by
  obtain ⟨server, hserver, h⟩ := Outcome.bind_eq_ok_iff.mp h
  obtain ⟨pool, hpool, hserver⟩ := Outcome.bind_eq_ok_iff.mp hserver
  obtain ⟨_, -, hpool⟩ := Outcome.bind_eq_ok_iff.mp hpool
  cases hpool
  cases hserver
  cases h
  rfl

theorem registry_start {config : ServerConfig} {s : System C} (h : start config = .ok s) :
    registry s.server = ⟨∅, fun _ => none⟩ := by
  rw [start_eq h]
  rfl

theorem Orderly.start {H : Host C} {s : System C} (h : start H.config = .ok s) : Orderly H s := by
  refine ⟨?_, ?_⟩
  · rw [start_eq h]
    exact ⟨rfl, rfl, rfl⟩
  · rw [registry_start h]
    exact sound_empty

theorem Orderly.exec {H : Host C} {s : System C} (h : Orderly H s) (events : List Event) :
    Orderly H (exec (Handlers.step H) s events) :=
  exec_of_step (P := Orderly H) (fun _ event hs => hs.step event) h events

end CoreVpn.Server.AddressLeases
