import CoreVpn.Core.PoolFamilies
import CoreVpn.Lib.Machine

namespace CoreVpn.Core.PoolRuns

open Lib.Computation Lib.Machine Networks IpNet AddressPools AddressPool Family

variable {w : Nat} {pool pool' : AddressPool} {addr : VpnAddress}

inductive Call where
  | allocate
  | allocateSpecific (addr : VpnAddress)
  | release (addr : VpnAddress)

def Call.run : Call → Program AddressPool CoreError (Option VpnAddress)
  | .allocate => do
    let addr ← AddressPool.allocate
    return some addr
  | .allocateSpecific addr => do
    let addr ← AddressPool.allocateSpecific addr
    return some addr
  | .release addr => do
    modify (AddressPool.release addr)
    return none

/-- The pool, with a record of what has been handed out and not released. -/
structure Ledger where
  pool : AddressPool
  handedV4 : Finset Ipv4Addr := ∅
  handedV6 : Finset Ipv6Addr := ∅

def record {α : Type} [DecidableEq α] (handed : Finset α) (given released : Option α) : Finset α :=
  (handed \ released.toFinset) ∪ given.toFinset

def Call.released : Call → Option VpnAddress
  | .release addr => some addr
  | _ => none

def given : Outcome CoreError (Option VpnAddress) → Option VpnAddress
  | .ok addr => addr
  | .error _ => none

def step (s : Ledger) (call : Call) : Outcome CoreError (Option VpnAddress) × Ledger :=
  let (result, pool) := call.run s.pool
  (result,
    { pool
      handedV4 := record s.handedV4 ((given result).bind VpnAddress.ipv4) (call.released.bind VpnAddress.ipv4)
      handedV6 := record s.handedV6 ((given result).bind VpnAddress.ipv6) (call.released.bind VpnAddress.ipv6) })

structure Proper (net : IpNet w) (a : BitVec w) : Prop where
  contained : net.contains a = true
  not_network : a ≠ net.network
  not_gateway : a ≠ net.gateway
  not_broadcast : a ≠ net.broadcast

/-- One family of an address may be handed out: it is proper in the network of
the pool, and nobody has it. -/
def Grantable (net : Option (IpNet w)) (handed : Finset (BitVec w)) (a : Option (BitVec w)) : Prop :=
  ∀ b ∈ a, (∃ n ∈ net, Proper n b) ∧ b ∉ handed

/-- A call hands out no address but one that may be. -/
def SafeStep (s : Ledger) (call : Call) : Prop :=
  ∀ addr ∈ given (step s call).1,
    Grantable s.pool.ipv4Net s.handedV4 addr.ipv4 ∧ Grantable s.pool.ipv6Net s.handedV6 addr.ipv6

section Search

variable {a : BitVec w} {net : IpNet w}

theorem proper_of_between {k : Nat} (hk : net.network.toNat + (k + 2) < net.broadcast.toNat)
    (ha : a = net.network + 2 + BitVec.ofNat w k) : Proper net a := by
  have hoffset : a = net.network + BitVec.ofNat w (k + 2) := by
    rw [ha, BitVec.add_assoc, Nat.add_comm k 2, BitVec.ofNat_add]
    rfl
  have ha : a.toNat = net.network.toNat + (k + 2) := by rw [hoffset, toNat_network_add hk.le]
  have hgateway : net.gateway.toNat = net.network.toNat + 1 := toNat_network_add (k := 1) (by omega)
  constructor
  · simp only [contains, Bool.and_eq_true, decide_eq_true_eq, BitVec.le_def]
    omega
  · intro h
    rw [h] at ha
    omega
  · intro h
    rw [h] at ha
    omega
  · intro h
    rw [h] at ha
    omega

theorem proper_of_freeV4 {net : Ipv4Net} {a : Ipv4Addr} (hsize : net.prefixLen + 2 ≤ 32)
    (h : ipv4.free net pool = some a) : Proper net a := by
  obtain ⟨k, hk, ha, -⟩ := firstFree_eq_some h
  have hk : k < net.broadcast.toNat - (net.network + 2).toNat := hk
  have hroom := four_le_size hsize
  have hstart : (net.network + 2).toNat = net.network.toNat + 2 := toNat_network_add (k := 2) (by omega)
  exact proper_of_between (by omega) ha

/-- The search for an IPv6 address is not bounded by the network, but it stops
no later than at a free address. -/
theorem proper_of_freeV6 {net : Ipv6Net} {a b : Ipv6Addr} (hsize : net.prefixLen + 2 ≤ 128)
    (hreserved : pool.reservedV6 = {net.gateway}) (hgateway : net.gateway < b) (hbroadcast : b < net.broadcast)
    (hfree : b ∉ pool.allocatedV6) (h : ipv6.free net pool = some a) : Proper net a := by
  obtain ⟨k, -, ha, hearlier⟩ := firstFree_eq_some h
  have hroom := four_le_size hsize
  have hfirst : net.gateway.toNat = net.network.toNat + 1 := toNat_network_add (k := 1) (by omega)
  rw [BitVec.lt_def] at hgateway hbroadcast
  have hb : b = net.network + 2 + BitVec.ofNat 128 (b.toNat - (net.network.toNat + 2)) := by
    rw [BitVec.add_assoc]
    apply BitVec.eq_of_toNat_eq
    have hoffset : (net.network + BitVec.ofNat 128 (2 + (b.toNat - (net.network.toNat + 2)))).toNat =
        net.network.toNat + (2 + (b.toNat - (net.network.toNat + 2))) := toNat_network_add (by omega)
    rw [BitVec.ofNat_add] at hoffset
    refine Eq.trans ?_ hoffset.symm
    omega
  have hle : k ≤ b.toNat - (net.network.toNat + 2) := by
    by_contra hlt
    apply hearlier _ (not_le.mp hlt)
    rw [← hb]
    refine ⟨?_, hfree⟩
    change b ∉ pool.reservedV6
    rw [hreserved, Finset.mem_singleton]
    intro h
    rw [h] at hgateway
    exact Nat.lt_irrefl _ hgateway
  exact proper_of_between (by omega) ha

end Search

/-- The networks and the reserved addresses stay, and no address is released. -/
structure Grows (pool pool' : AddressPool) : Prop where
  ipv4Net : pool'.ipv4Net = pool.ipv4Net
  ipv6Net : pool'.ipv6Net = pool.ipv6Net
  reservedV4 : pool'.reservedV4 = pool.reservedV4
  reservedV6 : pool'.reservedV6 = pool.reservedV6
  allocatedV4 : pool.allocatedV4 ⊆ pool'.allocatedV4
  allocatedV6 : pool.allocatedV6 ⊆ pool'.allocatedV6

instance : IsPreorder AddressPool Grows where
  refl _ := ⟨rfl, rfl, rfl, rfl, Finset.Subset.refl _, Finset.Subset.refl _⟩
  trans _ _ _ h h' := ⟨h'.1.trans h.1, h'.2.trans h.2, h'.3.trans h.3, h'.4.trans h.4,
    h.5.trans h'.5, h.6.trans h'.6⟩

theorem grows_v4 (pool : AddressPool) (a : Ipv4Addr) : Grows pool (ipv4.grant a pool) :=
  ⟨rfl, rfl, rfl, rfl, Finset.subset_insert _ _, Finset.Subset.refl _⟩

theorem grows_v6 (pool : AddressPool) (a : Ipv6Addr) : Grows pool (ipv6.grant a pool) :=
  ⟨rfl, rfl, rfl, rfl, Finset.Subset.refl _, Finset.subset_insert _ _⟩

theorem allocate_grows : Frames Grows AddressPool.allocate := by
  refine frames_bind frames_get fun pool => ?_
  refine frames_bind (frames_allocateFrom fun _ _ => ipv4.frames_allocate fun p a _ => grows_v4 p a) fun v4 => ?_
  refine frames_bind (frames_allocateFrom fun _ _ => ipv6.frames_allocate fun p a _ => grows_v6 p a) fun v6 => ?_
  cases v4.isNone && v6.isNone with
  | true => exact frames_fail _
  | false => exact frames_pure _

theorem allocateSpecific_grows (addr : VpnAddress) : Frames Grows (allocateSpecific addr) := by
  refine frames_bind (frames_forM fun a => ipv4.frames_claim fun p _ => grows_v4 p a) fun _ => ?_
  exact frames_bind (frames_forM fun a => ipv6.frames_claim fun p _ => grows_v6 p a) fun _ => frames_pure addr

section Granted

theorem allocate_found (h : AddressPool.allocate pool = (.ok addr, pool')) :
    ipv4.Found pool pool' addr.ipv4 ∧ ipv6.Found pool pool' addr.ipv6 := by
  obtain ⟨p0, _, h0, h⟩ := bind_eq_ok h
  cases h0
  obtain ⟨v4, p1, h4, h⟩ := bind_eq_ok h
  obtain ⟨v6, p2, h6, h⟩ := bind_eq_ok h
  obtain ⟨s4, rfl, hfound4⟩ := ipv4.allocateFrom_found pool h4
  obtain ⟨s6, rfl, hfound6⟩ := ipv6.allocateFrom_found (ipv4.store s4 pool) h6
  cases hnone : v4.isNone && v6.isNone with
  | true =>
    rw [hnone] at h
    cases h
  | false =>
    rw [hnone] at h
    cases h
    exact ⟨hfound4, hfound6⟩

theorem allocateSpecific_claimed {wanted : VpnAddress} (h : allocateSpecific wanted pool = (.ok addr, pool')) :
    addr = wanted ∧ ipv4.Claimed pool pool' addr.ipv4 ∧ ipv6.Claimed pool pool' addr.ipv6 := by
  obtain ⟨⟨⟩, p1, h4, h⟩ := bind_eq_ok h
  obtain ⟨⟨⟩, p2, h6, h⟩ := bind_eq_ok h
  obtain ⟨s4, rfl, hclaimed4⟩ := ipv4.forM_claimed h4
  obtain ⟨s6, rfl, hclaimed6⟩ := ipv6.forM_claimed h6
  cases h
  exact ⟨rfl, hclaimed4, hclaimed6⟩

theorem succeeds_allocate (hnet : pool.ipv6Net.isSome) (h4 : ∀ net ∈ pool.ipv4Net, ipv4.Free pool net)
    (h6 : ∀ net ∈ pool.ipv6Net, ipv6.Free pool net) :
    ∃ addr pool', AddressPool.allocate pool = (.ok addr, pool') ∧ addr.ipv6.isSome := by
  obtain ⟨v4, p1, hrun4⟩ := (guarded_allocateFrom ipv4.guarded_allocate).succeeds h4
  obtain ⟨s4, rfl, -⟩ := ipv4.allocateFrom_found pool hrun4
  have h6 : ∀ net ∈ pool.ipv6Net, ipv6.Free (ipv4.store s4 pool) net := h6
  obtain ⟨v6, p2, hrun6⟩ := (guarded_allocateFrom ipv6.guarded_allocate).succeeds h6
  obtain ⟨net, hnet⟩ := Option.isSome_iff_exists.mp hnet
  obtain ⟨rfl, -⟩ | ⟨n, -, a, rfl, -⟩ := allocateFrom_eq_ok hrun6
  · rw [hnet] at hrun6
    obtain ⟨b, u, -, hrun⟩ := bind_eq_ok hrun6
    cases hrun
  · refine ⟨⟨v4, some a⟩, p2, ?_, rfl⟩
    have hfirst : AddressPool.allocate pool = (allocateFrom pool.ipv6Net allocateV6 >>= fun v6 =>
        if v4.isNone && v6.isNone then fail (.configError "No address pools configured")
        else pure ⟨v4, v6⟩) (ipv4.store s4 pool) := bind_ok (f := fun v4 => _) hrun4
    rw [hfirst, bind_ok (p := allocateFrom pool.ipv6Net allocateV6) hrun6]
    simp only [Option.isNone_some, Bool.and_false]
    rfl

theorem succeeds_allocateSpecific (h4 : ∀ a ∈ addr.ipv4, ipv4.Claimable pool a)
    (h6 : ∀ a ∈ addr.ipv6, ipv6.Claimable pool a) : ∃ pool', allocateSpecific addr pool = (.ok addr, pool') := by
  obtain ⟨⟨⟩, p1, hrun4⟩ := (guarded_forM ipv4.guarded_claim).succeeds h4
  obtain ⟨s4, rfl, -⟩ := ipv4.forM_claimed hrun4
  have h6 : ∀ a ∈ addr.ipv6, ipv6.Claimable (ipv4.store s4 pool) a := h6
  obtain ⟨⟨⟩, p2, hrun6⟩ := (guarded_forM ipv6.guarded_claim).succeeds h6
  exact ⟨p2, (bind_ok hrun4).trans (bind_ok hrun6)⟩

end Granted

/-- The network and the reserved addresses of a family are those of a pool made
for a network with room for clients, and whatever is handed out counts as allocated. -/
structure Kept (f : Family w) (reserved : IpNet w → Finset (BitVec w)) (net : Option (IpNet w))
    (handed : Finset (BitVec w)) (pool : AddressPool) : Prop where
  room : ∀ n ∈ net, n.prefixLen + 2 ≤ w
  net_eq : f.net pool = net
  reserved : ∀ n ∈ net, f.reserved pool = reserved n
  handed : handed ⊆ f.allocated pool

structure Consistent (ipv4Net : Option Ipv4Net) (ipv6Net : Option Ipv6Net) (s : Ledger) : Prop where
  v4 : Kept ipv4 (fun net => {net.network, net.broadcast, net.gateway}) ipv4Net s.handedV4 s.pool
  v6 : Kept ipv6 (fun net => {net.gateway}) ipv6Net s.handedV6 s.pool

/-- What a call asks of the pool. An allocation that finds an address of each
family needs an IPv6 address that is free inside the network. Addresses that are
given out on demand need a network of their family, and an IPv6 one must not be
the first or the last address of that network. -/
def InPool (s : Ledger) : Call → Prop
  | .allocate => ∀ net ∈ s.pool.ipv6Net, (∀ net4 ∈ s.pool.ipv4Net, ipv4.Free s.pool net4) → ipv6.Free s.pool net →
      ∃ a, net.gateway < a ∧ a < net.broadcast ∧ a ∉ s.pool.allocatedV6
  | .allocateSpecific addr =>
      (∀ a ∈ addr.ipv4, ipv4.Claimable s.pool a) → (∀ a ∈ addr.ipv6, ipv6.Claimable s.pool a) →
        (addr.ipv4.isSome → s.pool.ipv4Net.isSome) ∧
          ∀ a ∈ addr.ipv6, ∃ net ∈ s.pool.ipv6Net, a ≠ net.network ∧ a ≠ net.broadcast
  | .release _ => True

section Steps

variable {ipv4Net : Option Ipv4Net} {ipv6Net : Option Ipv6Net} {s : Ledger} {call : Call}

theorem validateNet_eq_ok {net : IpNet w} {family linkLocalRange : String} {minLen maxLen : Nat}
    {isLoopback isMulticast isLinkLocal : BitVec w → Bool}
    (h : validateNet family minLen maxLen isLoopback isMulticast isLinkLocal linkLocalRange net = .ok ()) :
    net.prefixLen ≤ maxLen := by
  by_contra hlong
  by_cases hshort : net.prefixLen < minLen
  · rw [validateNet, if_pos hshort] at h
    cases h
  · rw [validateNet, if_neg hshort, if_pos (not_le.mp hlong)] at h
    cases h

theorem new_eq_ok (h : AddressPool.new ipv4Net ipv6Net = .ok pool) :
    (∀ net ∈ ipv4Net, validateIpv4Net net = .ok ()) ∧ (∀ net ∈ ipv6Net, validateIpv6Net net = .ok ()) ∧
      pool = newUnchecked ipv4Net ipv6Net := by
  have h4 : ∀ net ∈ ipv4Net, validateIpv4Net net = .ok () := by
    rintro net ⟨⟩
    obtain ⟨⟨⟩, hvalid, -⟩ := Outcome.bind_eq_ok_iff.mp h
    exact hvalid
  have h6 : ∀ net ∈ ipv6Net, validateIpv6Net net = .ok () := by
    rintro net ⟨⟩
    cases ipv4Net with
    | none =>
      obtain ⟨⟨⟩, hvalid, -⟩ := Outcome.bind_eq_ok_iff.mp h
      exact hvalid
    | some net4 =>
      obtain ⟨⟨⟩, -, h⟩ := Outcome.bind_eq_ok_iff.mp h
      obtain ⟨⟨⟩, hvalid, -⟩ := Outcome.bind_eq_ok_iff.mp h
      exact hvalid
  refine ⟨h4, h6, ?_⟩
  cases ipv4Net with
  | none =>
    cases ipv6Net with
    | none => cases h
    | some net6 =>
      simp only [AddressPool.new, h6 net6 rfl] at h
      cases h
      rfl
  | some net4 =>
    cases ipv6Net with
    | none =>
      simp only [AddressPool.new, h4 net4 rfl] at h
      cases h
      rfl
    | some net6 =>
      simp only [AddressPool.new, h4 net4 rfl, h6 net6 rfl] at h
      cases h
      rfl

theorem consistent_of_new (h : AddressPool.new ipv4Net ipv6Net = .ok pool) :
    Consistent ipv4Net ipv6Net { pool } := by
  obtain ⟨h4, h6, rfl⟩ := new_eq_ok h
  constructor
  · refine ⟨fun net hnet => ?_, rfl, ?_, Finset.empty_subset _⟩
    · have := validateNet_eq_ok (h4 net hnet)
      omega
    · rintro net ⟨⟩
      rfl
  · refine ⟨fun net hnet => ?_, rfl, ?_, Finset.empty_subset _⟩
    · have := validateNet_eq_ok (h6 net hnet)
      omega
    · rintro net ⟨⟩
      rfl

theorem given_step (h : addr ∈ given (step s call).1) :
    (call = .allocate ∧ allocate s.pool = (.ok addr, (step s call).2.pool)) ∨
      ∃ wanted, call = .allocateSpecific wanted ∧
        allocateSpecific wanted s.pool = (.ok addr, (step s call).2.pool) := by
  cases hrun : call.run s.pool with
  | mk result pool' =>
    have hgiven : given result = some addr := by
      simp only [step, hrun] at h
      exact h
    obtain rfl : result = .ok (some addr) := by
      cases result with
      | error e => cases hgiven
      | ok o => exact congrArg _ hgiven
    have hpool : (step s call).2.pool = pool' := by simp only [step, hrun]
    rw [hpool]
    cases call with
    | allocate =>
      obtain ⟨a, p, ha, hrun⟩ := bind_eq_ok hrun
      cases hrun
      exact .inl ⟨rfl, ha⟩
    | allocateSpecific wanted =>
      obtain ⟨a, p, ha, hrun⟩ := bind_eq_ok hrun
      cases hrun
      exact .inr ⟨wanted, rfl, ha⟩
    | release released => cases hrun

theorem step_grows (h : call.released = none) : Grows s.pool (step s call).2.pool := by
  have hrun : Frames Grows call.run := by
    cases call with
    | allocate => exact frames_bind allocate_grows fun _ => frames_pure _
    | allocateSpecific addr => exact frames_bind (allocateSpecific_grows addr) fun _ => frames_pure _
    | release addr => cases h
  exact hrun s.pool

theorem given_fresh (h : addr ∈ given (step s call).1) :
    (∀ a ∈ addr.ipv4, a ∉ s.pool.allocatedV4 ∧ a ∈ (step s call).2.pool.allocatedV4) ∧
      ∀ a ∈ addr.ipv6, a ∉ s.pool.allocatedV6 ∧ a ∈ (step s call).2.pool.allocatedV6 := by
  obtain ⟨-, hrun⟩ | ⟨wanted, -, hrun⟩ := given_step h
  · obtain ⟨h4, h6⟩ := allocate_found hrun
    exact ⟨fun _ => h4.fresh, fun _ => h6.fresh⟩
  · obtain ⟨-, h4, h6⟩ := allocateSpecific_claimed hrun
    exact ⟨fun _ => h4.fresh, fun _ => h6.fresh⟩

theorem InPool.free (hcall : InPool s .allocate) (hrun : AddressPool.allocate s.pool = (.ok addr, pool'))
    {net : Ipv6Net} (hnet : net ∈ s.pool.ipv6Net) :
    ∃ a, net.gateway < a ∧ a < net.broadcast ∧ a ∉ s.pool.allocatedV6 := by
  obtain ⟨p0, _, h0, hrun⟩ := bind_eq_ok hrun
  cases h0
  obtain ⟨v4, p1, h4, hrun⟩ := bind_eq_ok hrun
  obtain ⟨v6, p2, h6, -⟩ := bind_eq_ok hrun
  have hfree4 := (guarded_allocateFrom ipv4.guarded_allocate).succeeds_iff.mp ⟨v4, p1, h4⟩
  have hfree6 := (guarded_allocateFrom ipv6.guarded_allocate).succeeds_iff.mp ⟨v6, p2, h6⟩
  obtain ⟨s4, rfl, -⟩ := ipv4.allocateFrom_found s.pool h4
  exact hcall net hnet hfree4 (hfree6 net hnet)

theorem Consistent.proper_v4 (hs : Consistent ipv4Net ipv6Net s) (hcall : InPool s call)
    (h : addr ∈ given (step s call).1) {a : Ipv4Addr} (ha : a ∈ addr.ipv4) :
    ∃ net ∈ s.pool.ipv4Net, Proper net a := by
  have hnet : s.pool.ipv4Net = ipv4Net := hs.v4.net_eq
  obtain ⟨-, hrun⟩ | ⟨wanted, rfl, hrun⟩ := given_step h
  · obtain ⟨-, net, hmem, hfree⟩ := (allocate_found hrun).1 a ha
    exact ⟨net, hmem, proper_of_freeV4 (hs.v4.room net (hnet ▸ hmem)) hfree⟩
  · obtain ⟨rfl, h4, h6⟩ := allocateSpecific_claimed hrun
    have hwanted := hcall (fun b hb => (h4 b hb).2) fun b hb => (h6 b hb).2
    obtain ⟨net, hmem⟩ := Option.isSome_iff_exists.mp (hwanted.1 (Option.isSome_of_mem ha))
    have hclaim := (h4 a ha).2
    have hreserved := hclaim.not_reserved
    rw [hs.v4.reserved net (hnet ▸ hmem)] at hreserved
    simp only [Finset.mem_insert, Finset.mem_singleton, not_or] at hreserved
    exact ⟨net, hmem, hclaim.contained net hmem, hreserved.1, hreserved.2.2, hreserved.2.1⟩

theorem Consistent.proper_v6 (hs : Consistent ipv4Net ipv6Net s) (hcall : InPool s call)
    (h : addr ∈ given (step s call).1) {a : Ipv6Addr} (ha : a ∈ addr.ipv6) :
    ∃ net ∈ s.pool.ipv6Net, Proper net a := by
  have hnet : s.pool.ipv6Net = ipv6Net := hs.v6.net_eq
  obtain ⟨rfl, hrun⟩ | ⟨wanted, rfl, hrun⟩ := given_step h
  · obtain ⟨-, net, hmem, hfree⟩ := (allocate_found hrun).2 a ha
    obtain ⟨b, hgateway, hbroadcast, hb⟩ := hcall.free hrun hmem
    have hreserved := hs.v6.reserved net (hnet ▸ hmem)
    exact ⟨net, hmem, proper_of_freeV6 (hs.v6.room net (hnet ▸ hmem)) hreserved hgateway hbroadcast hb hfree⟩
  · obtain ⟨rfl, h4, h6⟩ := allocateSpecific_claimed hrun
    have hwanted := hcall (fun b hb => (h4 b hb).2) fun b hb => (h6 b hb).2
    obtain ⟨net, hmem, hnetwork, hbroadcast⟩ := hwanted.2 a ha
    have hclaim := (h6 a ha).2
    have hreserved := hclaim.not_reserved
    rw [hs.v6.reserved net (hnet ▸ hmem), Finset.mem_singleton] at hreserved
    exact ⟨net, hmem, hclaim.contained net hmem, hnetwork, hreserved, hbroadcast⟩

theorem Consistent.safeStep (hs : Consistent ipv4Net ipv6Net s) (hcall : InPool s call) : SafeStep s call := by
  intro addr haddr
  obtain ⟨h4, h6⟩ := given_fresh haddr
  constructor
  · intro a ha
    exact ⟨hs.proper_v4 hcall haddr ha, fun hin => (h4 a ha).1 (hs.v4.handed hin)⟩
  · intro a ha
    exact ⟨hs.proper_v6 hcall haddr ha, fun hin => (h6 a ha).1 (hs.v6.handed hin)⟩

theorem Proper.between {net : Ipv6Net} {a : Ipv6Addr} (hroom : net.prefixLen + 2 ≤ 128) (h : Proper net a) :
    net.gateway < a ∧ a < net.broadcast := by
  have hsize := four_le_size hroom
  have hgateway : net.gateway.toNat = net.network.toNat + 1 := toNat_network_add (k := 1) (by omega)
  obtain ⟨hcontained, hnetwork, hnot, hbroadcast⟩ := h
  rw [contains, Bool.and_eq_true, decide_eq_true_eq, decide_eq_true_eq, BitVec.le_def, BitVec.le_def] at hcontained
  rw [Ne, ← BitVec.toNat_inj] at hnetwork hnot hbroadcast
  rw [BitVec.lt_def, BitVec.lt_def]
  omega

theorem Consistent.inPool (hs : Consistent ipv4Net ipv6Net s) (hsafe : SafeStep s call) : InPool s call := by
  have hnet : s.pool.ipv6Net = ipv6Net := hs.v6.net_eq
  cases call with
  | allocate =>
    intro net hmem h4 h6
    have hfree6 : ∀ n ∈ s.pool.ipv6Net, ipv6.Free s.pool n := by
      intro n hn
      obtain rfl : net = n := Option.some.inj (hmem.symm.trans hn)
      exact h6
    obtain ⟨addr, pool', hrun, hsome⟩ := succeeds_allocate (Option.isSome_of_mem hmem) h4 hfree6
    have hgiven : addr ∈ given (step s .allocate).1 := by
      have hcall : Call.allocate.run s.pool = (.ok (some addr), pool') := bind_ok hrun
      simp only [step, hcall]
      rfl
    obtain ⟨a, ha⟩ := Option.isSome_iff_exists.mp hsome
    obtain ⟨⟨n, hn, hproper⟩, -⟩ := (hsafe addr hgiven).2 a ha
    obtain rfl : net = n := Option.some.inj (hmem.symm.trans hn)
    obtain ⟨hgateway, hbroadcast⟩ := hproper.between (hs.v6.room net (hnet ▸ hmem))
    exact ⟨a, hgateway, hbroadcast, ((given_fresh hgiven).2 a ha).1⟩
  | allocateSpecific addr =>
    intro h4 h6
    obtain ⟨pool', hrun⟩ := succeeds_allocateSpecific h4 h6
    have hgiven : addr ∈ given (step s (.allocateSpecific addr)).1 := by
      have hcall : (Call.allocateSpecific addr).run s.pool = (.ok (some addr), pool') := bind_ok hrun
      simp only [step, hcall]
      rfl
    obtain ⟨hgrant4, hgrant6⟩ := hsafe addr hgiven
    constructor
    · intro hsome
      obtain ⟨a, ha⟩ := Option.isSome_iff_exists.mp hsome
      obtain ⟨⟨n, hn, -⟩, -⟩ := hgrant4 a ha
      exact Option.isSome_of_mem hn
    · intro a ha
      obtain ⟨⟨n, hn, hproper⟩, -⟩ := hgrant6 a ha
      exact ⟨n, hn, hproper.not_network, hproper.not_broadcast⟩
  | release addr => trivial

theorem record_subset {α : Type} [DecidableEq α] {handed allocated : Finset α} {granted : Option α}
    (hhanded : handed ⊆ allocated) (hgranted : ∀ a ∈ granted, a ∈ allocated) :
    record handed granted none ⊆ allocated := by
  intro a ha
  simp only [record, Finset.mem_union, Finset.mem_sdiff, Option.mem_toFinset] at ha
  obtain ⟨ha, -⟩ | ha := ha
  · exact hhanded ha
  · exact hgranted a ha

theorem record_release {α : Type} [DecidableEq α] {handed allocated : Finset α} (released : Option α)
    (hhanded : handed ⊆ allocated) : record handed none released ⊆ allocated \ released.toFinset := by
  intro a ha
  simp only [record, Option.toFinset_none, Finset.union_empty, Finset.mem_sdiff] at ha ⊢
  exact ⟨hhanded ha.1, ha.2⟩

theorem without_eq {α : Type} [DecidableEq α] (addr : Option α) (allocated : Finset α) :
    without addr allocated = allocated \ addr.toFinset := by
  cases addr with
  | none => exact Finset.sdiff_empty.symm
  | some a => exact (Finset.sdiff_singleton_eq_erase a allocated).symm

theorem Kept.next {f : Family w} {reserved : IpNet w → Finset (BitVec w)} {net : Option (IpNet w)}
    {handed handed' : Finset (BitVec w)} (h : Kept f reserved net handed pool) (hnet : f.net pool' = f.net pool)
    (hreserved : f.reserved pool' = f.reserved pool) (hhanded : handed' ⊆ f.allocated pool') :
    Kept f reserved net handed' pool' :=
  ⟨h.room, hnet.trans h.net_eq, fun n hn => hreserved.trans (h.reserved n hn), hhanded⟩

theorem Consistent.next (hs : Consistent ipv4Net ipv6Net s) (call : Call) :
    Consistent ipv4Net ipv6Net (step s call).2 := by
  cases hreleased : call.released with
  | none =>
    have hgrows : Grows s.pool (step s call).2.pool := step_grows hreleased
    have hhanded4 : (step s call).2.handedV4 =
        record s.handedV4 ((given (step s call).1).bind VpnAddress.ipv4) (call.released.bind VpnAddress.ipv4) := rfl
    have hhanded6 : (step s call).2.handedV6 =
        record s.handedV6 ((given (step s call).1).bind VpnAddress.ipv6) (call.released.bind VpnAddress.ipv6) := rfl
    rw [hreleased] at hhanded4 hhanded6
    constructor
    · apply hs.v4.next hgrows.ipv4Net hgrows.reservedV4
      rw [hhanded4]
      apply record_subset (hs.v4.handed.trans hgrows.allocatedV4)
      intro a ha
      obtain ⟨addr, haddr, ha⟩ := Option.mem_bind_iff.mp ha
      exact ((given_fresh haddr).1 a ha).2
    · apply hs.v6.next hgrows.ipv6Net hgrows.reservedV6
      rw [hhanded6]
      apply record_subset (hs.v6.handed.trans hgrows.allocatedV6)
      intro a ha
      obtain ⟨addr, haddr, ha⟩ := Option.mem_bind_iff.mp ha
      exact ((given_fresh haddr).2 a ha).2
  | some addr =>
    cases call with
    | allocate => cases hreleased
    | allocateSpecific wanted => cases hreleased
    | release released =>
      have hkept4 := record_release released.ipv4 hs.v4.handed
      have hkept6 := record_release released.ipv6 hs.v6.handed
      rw [← without_eq] at hkept4 hkept6
      exact ⟨hs.v4.next rfl rfl hkept4, hs.v6.next rfl rfl hkept6⟩

end Steps

/-- In a run on a pool that was accepted, every call is safe if and only if
every call finds in the pool what it asks for. -/
theorem pool_runs_safe_iff {ipv4Net : Option Ipv4Net} {ipv6Net : Option Ipv6Net}
    (hnew : AddressPool.new ipv4Net ipv6Net = .ok pool) (calls : List Call) :
    EachStep step SafeStep { pool } calls ↔ EachStep step InPool { pool } calls := by
  have hstart := consistent_of_new hnew
  constructor
  · exact EachStep.of_invariant (fun _ call _ hs => Consistent.next hs call)
      (fun _ _ hsafe hs => Consistent.inPool hs hsafe) hstart
  · exact EachStep.of_invariant (fun _ call _ hs => Consistent.next hs call)
      (fun _ _ hcall hs => Consistent.safeStep hs hcall) hstart

def lanV4 : Ipv4Net := ⟨ofOctets 10 8 0 0, 24, by decide⟩

def lanV6 : Ipv6Net := ⟨0xfd000000000000000000000000000000, 120, by decide⟩

def lanPool : AddressPool := newUnchecked (some lanV4) (some lanV6)

def lanCalls : List Call :=
  [.allocate, .allocateSpecific ⟨some (ofOctets 10 8 0 9), some 0xfd000000000000000000000000000009⟩,
    .release ⟨some (ofOctets 10 8 0 2), none⟩, .allocate]

theorem pool_runs_safe_lan :
    AddressPool.new (some lanV4) (some lanV6) = .ok lanPool ∧ EachStep step InPool { pool := lanPool } lanCalls ∧
      EachStep step SafeStep { pool := lanPool } lanCalls := by
  have hnew : AddressPool.new (some lanV4) (some lanV6) = .ok lanPool := by decide +kernel
  have hcalls : EachStep step InPool { pool := lanPool } lanCalls := by
    refine ⟨?_, fun _ _ => ⟨fun _ => rfl, ?_⟩, trivial, ?_, trivial⟩
    · rintro net ⟨⟩ - -
      exact ⟨lanV6.network + 16, by decide +kernel⟩
    · rintro a ⟨⟩
      exact ⟨lanV6, rfl, by decide +kernel⟩
    · rintro net ⟨⟩ - -
      exact ⟨lanV6.network + 16, by decide +kernel⟩
  exact ⟨hnew, hcalls, (pool_runs_safe_iff hnew lanCalls).mpr hcalls⟩

/-- A pool without an IPv6 network gives out any IPv6 address it is asked for. -/
theorem pool_gives_foreign_address :
    AddressPool.new (some lanV4) none = .ok (newUnchecked (some lanV4) none) ∧
      ¬ EachStep step SafeStep { pool := newUnchecked (some lanV4) none } [.allocateSpecific ⟨none, some 1⟩] := by
  refine ⟨by decide +kernel, ?_⟩
  rintro ⟨hsafe, -⟩
  obtain ⟨⟨net, hnet, -⟩, -⟩ := (hsafe ⟨none, some 1⟩ (by decide +kernel)).2 1 rfl
  cases hnet

end CoreVpn.Core.PoolRuns
