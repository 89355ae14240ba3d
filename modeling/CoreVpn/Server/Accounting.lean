import CoreVpn.Server.AddressLeases
import CoreVpn.Server.PlainHost

namespace CoreVpn.Server.Accounting

open Lib.Computation Lib.Wire Lib.Machine Core.Networks Protocol.Opcodes
open Lib.Leases hiding step
open Connections Handlers HandlerEffects AddressLeases PlainHost

variable {C : Type}

def AddressesAccounted (s : System C) : Prop :=
  ∀ ip, ip ∈ s.server.addressPool.allocatedV4 ↔
    ∃ addr conn, s.server.connections addr = some conn ∧ conn.vpnIp = some ip

/-- Nobody loses an address: a packet that opens a connection or brings an
address comes from a peer without one, and so are the connections that are removed. -/
def Tidy (H : Host C) (s : System C) : Event → Prop
  | .packet env peerAddr data =>
    packetMoves H env peerAddr data s.server ≠ [] → vpnIpAt s.server peerAddr = none
  | .removeStale => ∀ c ∈ s.stale, vpnIpAt s.server c.addr = none
  | _ => True

instance (H : Host C) (s : System C) : (event : Event) → Decidable (Tidy H s event)
  | .packet _ _ _ => inferInstanceAs (Decidable (_ → _))
  | .removeStale => inferInstanceAs (Decidable (∀ _ ∈ _, _))
  | .tunPacket _ _ _ | .keepalive _ _ | .authCompleted _ _ | .collectStale _ _ _ =>
    inferInstanceAs (Decidable True)

theorem addressesAccounted_iff (s : System C) : AddressesAccounted s ↔ Accounted (registry s.server) := by
  refine forall_congr' fun ip => iff_congr Iff.rfl (exists_congr fun addr => ?_)
  exact Option.bind_eq_some_iff.symm

theorem packetMoves_cases (H : Host C) (env : Env) (peerAddr : SocketAddr) (data : Bytes) (s : VpnServer C) :
    packetMoves H env peerAddr data s = [] ∨
      ∃ m, packetMoves H env peerAddr data s = [m] ∧ m.holder = peerAddr := by
  have hdrop : ∀ b : Bool, (if b = true then [Move.drop peerAddr] else []) = ([] : List (Move _ Ipv4Addr)) ∨
      ∃ m : Move SocketAddr Ipv4Addr, (if b = true then [Move.drop peerAddr] else []) = [m] ∧
        m.holder = peerAddr := by
    intro b
    cases b with
    | false => exact .inl rfl
    | true => exact .inr ⟨_, rfl, rfl⟩
  have hgrant : ∀ addr : Option Ipv4Addr, addr.toList.map (Move.grant peerAddr) = [] ∨
      ∃ m, addr.toList.map (Move.grant peerAddr) = [m] ∧ m.holder = peerAddr := by
    intro addr
    cases addr with
    | none => exact .inl rfl
    | some addr => exact .inr ⟨_, rfl, rfl⟩
  unfold packetMoves
  split
  · exact .inl rfl
  · split
    · exact hdrop _
    · exact hdrop _
    · exact hgrant _
    · exact hgrant _
    · exact hgrant _
    · exact .inl rfl

theorem tidy_iff (H : Host C) (s : System C) (event : Event) :
    Tidy H s event ↔ EachStep Lib.Leases.step Spares (registry s.server) (moves H s event) := by
  cases event with
  | packet env peerAddr data =>
    rw [moves]
    cases packetMoves_cases H env peerAddr data s.server with
    | inl hnil => simp [Tidy, hnil, EachStep]
    | inr hone =>
      obtain ⟨m, hm, hholder⟩ := hone
      simp [Tidy, hm, EachStep, Spares, hholder, registry]
  | removeStale =>
    have hdrops : EachStep Lib.Leases.step Spares (registry s.server)
        ((s.stale.map StaleConnection.addr).map Move.drop) ↔ _ := spares_drops
    rw [List.map_map, List.forall_mem_map] at hdrops
    exact hdrops.symm
  | _ => exact Iff.rfl

def runMoves (H : Host C) : System C → List Event → List (Move SocketAddr Ipv4Addr)
  | _, [] => []
  | s, event :: events => moves H s event ++ runMoves H (step H s event).2 events

variable {H : Host C} {s : System C}

theorem registry_exec (h : Orderly H s) (events : List Event) :
    registry (exec (step H) s events).server =
      exec Lib.Leases.step (registry s.server) (runMoves H s events) := by
  induction events generalizing s with
  | nil => rfl
  | cons event events ih =>
    rw [exec_cons, ih (h.step event), runMoves, exec_append, (moved_step H h.serves event).registry_eq]

theorem legal_runMoves (h : Orderly H s) (events : List Event) :
    EachStep Lib.Leases.step (Legal (reserved H.config.subnet)) (registry s.server)
      (runMoves H s events) := by
  induction events generalizing s with
  | nil => trivial
  | cons event events ih =>
    have hrest := ih (h.step event)
    rw [(moved_step H h.serves event).registry_eq] at hrest
    exact EachStep.append.mpr ⟨legal_moves H h.serves event, hrest⟩

theorem spares_runMoves_iff (h : Orderly H s) (events : List Event) :
    EachStep Lib.Leases.step Spares (registry s.server) (runMoves H s events) ↔
      EachStep (step H) (Tidy H) s events := by
  induction events generalizing s with
  | nil => exact Iff.rfl
  | cons event events ih =>
    rw [runMoves, EachStep.append, ← (moved_step H h.serves event).registry_eq, ih (h.step event), EachStep,
      tidy_iff]

/-- A run of a new server ends with all addresses accounted for if and only if
every step of it was tidy: a lost address is never found again. -/
theorem accounted_exec_iff_tidy {s₀ : System C} (hstart : start H.config = .ok s₀) (events : List Event) :
    AddressesAccounted (exec (step H) s₀ events) ↔ EachStep (step H) (Tidy H) s₀ events := by
  have horderly := Orderly.start hstart
  have haccounted : Accounted (registry s₀.server) := by
    rw [registry_start hstart]
    exact accounted_empty
  rw [addressesAccounted_iff, registry_exec horderly, ← spares_runMoves_iff horderly]
  exact accounted_exec_iff horderly.sound haccounted (legal_runMoves horderly events)

/-- In a run of a new server all of whose steps are tidy, the allocated
addresses are those of the stored connections in every state. A run with a step
that is not tidy ends in a state where they are not. -/
theorem addresses_accounted_iff_tidy (H : Host C) {s₀ : System C} (hstart : start H.config = .ok s₀)
    (events : List Event) :
    (EachStep (step H) (Tidy H) s₀ events → Always (step H) AddressesAccounted s₀ events) ∧
      (AddressesAccounted (exec (step H) s₀ events) ↔ EachStep (step H) (Tidy H) s₀ events) := by
  refine ⟨fun htidy => ?_, accounted_exec_iff_tidy hstart events⟩
  refine Always.iff.mpr fun before rest hsplit => (accounted_exec_iff_tidy hstart before).mpr ?_
  rw [hsplit, EachStep.append] at htidy
  exact htidy.1

theorem addresses_accounted_one_client :
    let H := plainHost false
    vpnIpAt (exec (step H) plainStart connecting).server alice = some (ofOctets 10 8 0 2) ∧
      Always (step H) AddressesAccounted plainStart connecting := by
  intro H
  have hip : vpnIpAt (exec (step H) plainStart connecting).server alice = some (ofOctets 10 8 0 2) := by
    decide +kernel +zetaReduce
  have htidy : EachStep (step H) (Tidy H) plainStart connecting := by decide +kernel +zetaReduce
  exact ⟨hip, (addresses_accounted_iff_tidy H (start_plainHost false) connecting).1 htidy⟩

/-- Three ways to lose an address: the connection that has it is removed as
stale, or replaced by a new one of the same peer, or sends a second key method
message. Each time 10.8.0.2 stays allocated, and no connection has it. -/
theorem address_stays_allocated :
    let removed := exec (step (plainHost false)) plainStart
      (connecting ++ [.collectStale (atSecond 400 0) 300000000000 [alice], .removeStale])
    let replaced := exec (step (plainHost false)) plainStart
      (connecting ++ [.packet (atSecond 40 0) alice hardReset])
    let repeated := exec (step (plainHost true)) plainStart
      (connecting ++ [.packet (atSecond 2 1) alice (keyMethod 2)])
    ∀ s ∈ [removed, replaced, repeated], ofOctets 10 8 0 2 ∈ s.server.addressPool.allocatedV4 ∧
      ∀ addr conn, s.server.connections addr = some conn → conn.vpnIp ≠ some (ofOctets 10 8 0 2) := by
  intro removed replaced repeated s hs
  have hfacts : ∀ s ∈ [removed, replaced, repeated], ofOctets 10 8 0 2 ∈ s.server.addressPool.allocatedV4 ∧
      vpnIpAt s.server alice ≠ some (ofOctets 10 8 0 2) := by
    decide +kernel +zetaReduce
  have hsilent : ∀ (H : Host Bytes) (last : List Event) addr, addr ≠ alice →
      last.all (fun event => !comesFrom addr event) = true →
      (exec (step H) plainStart (connecting ++ last)).server.connections addr = none := by
    intro H last addr haddr hlast
    apply exec_stranger H rfl
    simpa [connecting, comesFrom, haddr.symm] using hlast
  have hother : ∀ addr, addr ≠ alice → s.server.connections addr = none := by
    intro addr haddr
    have hlast : ∀ env data,
        List.all [.packet env alice data] (fun event => !comesFrom addr event) = true := by
      simp [comesFrom, haddr.symm]
    have hsystems := hs
    simp only [removed, replaced, repeated, List.mem_cons, List.not_mem_nil, or_false] at hsystems
    rcases hsystems with rfl | rfl | rfl
    · exact hsilent _ _ addr haddr rfl
    · exact hsilent _ _ addr haddr (hlast _ _)
    · exact hsilent _ _ addr haddr (hlast _ _)
  refine ⟨(hfacts s hs).1, fun addr conn hconn hip => ?_⟩
  by_cases haddr : addr = alice
  · subst haddr
    refine (hfacts s hs).2 ?_
    rw [vpnIpAt, hconn, Option.bind_some, hip]
  · rw [hother addr haddr] at hconn
    cases hconn

end CoreVpn.Server.Accounting
