import CoreVpn.Server.AddressLeases
import CoreVpn.Server.PlainHost

namespace CoreVpn.Server.Routing

open Lib.Computation Lib.Wire Lib.Machine Core.Networks
open Connections Handlers HandlerEffects AddressLeases PlainHost

variable {C : Type}

/-- An order in which the hash map may list its keys: all of them, and no others. -/
def Enumerates (s : VpnServer C) (order : List SocketAddr) : Prop :=
  ∀ addr, addr ∈ order ↔ (s.connections addr).isSome = true

theorem find?_eq_of_only {α : Type} {p : α → Bool} {l : List α} {a : α} (ha : p a = true)
    (hmem : a ∈ l) (huniq : ∀ b, p b = true → b = a) : l.find? p = some a := by
  cases hf : l.find? p with
  | none => exact absurd ha (List.find?_eq_none.mp hf a hmem)
  | some b => rw [huniq b (List.find?_some hf)]

theorem vpnIpAt_eq_some {s : VpnServer C} {addr : SocketAddr} {conn : Connection C} {ip : Ipv4Addr}
    (hconn : s.connections addr = some conn) (hip : conn.vpnIp = some ip) : vpnIpAt s addr = some ip := by
  rw [vpnIpAt, hconn, Option.bind_some, hip]

theorem vpnIpAt_of_routesTo {s : VpnServer C} {dest : Ipv4Addr} {addr : SocketAddr}
    (h : routesTo s dest addr = true) : vpnIpAt s addr = some dest ∧ (s.connections addr).isSome = true := by
  unfold routesTo at h
  split at h
  · rename_i conn hconn
    simp only [Bool.and_eq_true, decide_eq_true_eq] at h
    exact ⟨vpnIpAt_eq_some hconn h.1, by rw [hconn]; rfl⟩
  · cases h

variable {H : Host C} {s : System C}

theorem Orderly.routesTo_unique (h : Orderly H s) {dest : Ipv4Addr} {a b : SocketAddr}
    (ha : routesTo s.server dest a = true) (hb : routesTo s.server dest b = true) : a = b :=
  h.sound.unique (vpnIpAt_of_routesTo ha).1 (vpnIpAt_of_routesTo hb).1

/-- A packet goes to the connection that has its destination, wherever the
hash map lists that connection. -/
theorem Orderly.handleTunPacket_eq (h : Orderly H s) (env : Env) {order : List SocketAddr} {ipPacket : Bytes}
    {dest : Ipv4Addr} {addr : SocketAddr} (horder : Enumerates s.server order)
    (hdest : destination ipPacket = some dest) (haddr : routesTo s.server dest addr = true) :
    handleTunPacket H env order ipPacket s.server =
      ({ sent := sendSome env (encryptTo H ipPacket addr s.server).1 },
        (encryptTo H ipPacket addr s.server).2) := by
  have hfind : order.find? (routesTo s.server dest) = some addr :=
    find?_eq_of_only haddr ((horder addr).mpr (vpnIpAt_of_routesTo haddr).2)
      fun b hb => routesTo_unique h hb haddr
  simp only [handleTunPacket, hdest, hfind]

theorem handleTunPacket_of_none (H : Host C) (env : Env) {s : VpnServer C} (order : List SocketAddr)
    {ipPacket : Bytes} (h : ∀ dest addr, destination ipPacket = some dest → routesTo s dest addr = false) :
    handleTunPacket H env order ipPacket s = ({}, s) := by
  unfold handleTunPacket
  cases hdest : destination ipPacket with
  | none => rfl
  | some dest =>
    have hfind : order.find? (routesTo s dest) = none :=
      List.find?_eq_none.mpr fun addr _ => by rw [h dest addr hdest]; exact Bool.false_ne_true
    simp only [hfind]

theorem Orderly.handleTunPacket_order (h : Orderly H s) (env : Env) {order order' : List SocketAddr}
    (ipPacket : Bytes) (ho : Enumerates s.server order) (ho' : Enumerates s.server order') :
    handleTunPacket H env order ipPacket s.server = handleTunPacket H env order' ipPacket s.server := by
  by_cases hhit : ∃ dest addr, destination ipPacket = some dest ∧ routesTo s.server dest addr = true
  · obtain ⟨dest, addr, hdest, haddr⟩ := hhit
    rw [handleTunPacket_eq h env ho hdest haddr, handleTunPacket_eq h env ho' hdest haddr]
  · have hnone : ∀ dest addr, destination ipPacket = some dest → routesTo s.server dest addr = false := by
      intro dest addr hdest
      by_contra hr
      exact hhit ⟨dest, addr, hdest, Bool.eq_true_of_not_eq_false hr⟩
    rw [handleTunPacket_of_none H env order hnone, handleTunPacket_of_none H env order' hnone]

/-- In every state that a server reaches from its start: no two connections
have the same address, none has the network, gateway or broadcast address, and
what is done with a packet from the TUN device does not depend on the order in
which the connections are listed. It is encrypted for the connection that has the
destination address, and for no other. -/
theorem routing_unambiguous (H : Host C) {s₀ : System C} (hstart : start H.config = .ok s₀)
    (events : List Event) :
    let s := (exec (step H) s₀ events).server
    (∀ a b conn conn' ip, s.connections a = some conn → s.connections b = some conn' →
      conn.vpnIp = some ip → conn'.vpnIp = some ip → a = b) ∧
    (∀ a conn ip, s.connections a = some conn → conn.vpnIp = some ip →
      ip ≠ H.config.subnet.network ∧ ip ≠ H.config.subnet.gateway ∧ ip ≠ H.config.subnet.broadcast) ∧
    (∀ env ipPacket order order', Enumerates s order → Enumerates s order' →
      handleTunPacket H env order ipPacket s = handleTunPacket H env order' ipPacket s) ∧
    (∀ env ipPacket order dest addr, Enumerates s order → destination ipPacket = some dest →
      routesTo s dest addr = true →
        handleTunPacket H env order ipPacket s =
          ({ sent := sendSome env (encryptTo H ipPacket addr s).1 }, (encryptTo H ipPacket addr s).2)) := by
  have horderly := (Orderly.start hstart).exec events
  refine ⟨?_, ?_, ?_, ?_⟩
  · intro a b conn conn' ip ha hb hip hip'
    exact horderly.sound.unique (vpnIpAt_eq_some ha hip) (vpnIpAt_eq_some hb hip')
  · intro a conn ip ha hip
    have hres := horderly.sound.not_reserved (horderly.sound.mem_taken (vpnIpAt_eq_some ha hip))
    simp only [reserved, Finset.mem_insert, Finset.mem_singleton, not_or] at hres
    exact ⟨hres.1, hres.2.2, hres.2.1⟩
  · intro env ipPacket order order' ho ho'
    exact Orderly.handleTunPacket_order horderly env ipPacket ho ho'
  · intro env ipPacket order dest addr ho hdest haddr
    exact Orderly.handleTunPacket_eq horderly env ho hdest haddr

/-- Two clients, each with an address of its own, and a packet for the second:
the order in which the two are listed does not matter. -/
theorem routing_unambiguous_two_clients :
    let H := plainHost false
    let s := (exec (step H) plainStart (connecting ++ joining)).server
    let packet : Bytes := 0x45 :: List.replicate 15 0 ++ [10, 8, 0, 3]
    vpnIpAt s alice = some (ofOctets 10 8 0 2) ∧ vpnIpAt s bob = some (ofOctets 10 8 0 3) ∧
      destination packet = some (ofOctets 10 8 0 3) ∧ routesTo s (ofOctets 10 8 0 3) bob = true ∧
      handleTunPacket H (atSecond 4 0) [alice, bob] packet s =
        handleTunPacket H (atSecond 4 0) [bob, alice] packet s := by
  intro H s packet
  have hfacts : vpnIpAt s alice = some (ofOctets 10 8 0 2) ∧ vpnIpAt s bob = some (ofOctets 10 8 0 3) ∧
      destination packet = some (ofOctets 10 8 0 3) ∧ routesTo s (ofOctets 10 8 0 3) bob = true := by
    decide +kernel +zetaReduce
  have hlisted : ∀ addr, (s.connections addr).isSome = true ↔ addr = alice ∨ addr = bob := by
    have hstored : (s.connections alice).isSome = true ∧ (s.connections bob).isSome = true := by
      decide +kernel +zetaReduce
    intro addr
    refine ⟨fun h => ?_, fun h => by cases h <;> simp_all only⟩
    by_contra hno
    obtain ⟨ha, hb⟩ := not_or.mp hno
    have hnone : s.connections addr = none :=
      exec_stranger H rfl _ (by simp [connecting, joining, comesFrom, Ne.symm ha, Ne.symm hb])
    rw [hnone] at h
    cases h
  have hsame := (routing_unambiguous H (start_plainHost false) (connecting ++ joining)).2.2.1
  refine ⟨hfacts.1, hfacts.2.1, hfacts.2.2.1, hfacts.2.2.2, hsame _ packet _ _ ?_ ?_⟩
  · exact fun addr => Iff.trans (by simp) (hlisted addr).symm
  · exact fun addr => Iff.trans (by simp [or_comm]) (hlisted addr).symm

end CoreVpn.Server.Routing
