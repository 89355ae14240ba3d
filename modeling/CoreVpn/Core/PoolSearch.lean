import CoreVpn.Core.PoolRuns
import CoreVpn.Lib.Draws

namespace CoreVpn.Core.PoolSearch

open Lib.Computation Lib.Machine Lib.Draws Networks IpNet AddressPools AddressPool Family PoolRuns

variable {w : Nat} {pool : AddressPool}

def addresses (start : BitVec w) (count : Nat) : Finset (BitVec w) :=
  (Finset.range count).image fun k => start + BitVec.ofNat w k

def Between (net : IpNet w) (a : BitVec w) : Prop := net.gateway < a ∧ a < net.broadcast

section Addresses

variable {start a : BitVec w} {count : Nat}

theorem toNat_add_ofNat {k : Nat} (h : start.toNat + k < 2 ^ w) :
    (start + BitVec.ofNat w k).toNat = start.toNat + k := by
  rw [BitVec.toNat_add, BitVec.toNat_ofNat, Nat.add_mod_mod]
  exact Nat.mod_eq_of_lt h

theorem mem_addresses (h : start.toNat + count ≤ 2 ^ w) :
    a ∈ addresses start count ↔ start.toNat ≤ a.toNat ∧ a.toNat < start.toNat + count := by
  simp only [addresses, Finset.mem_image, Finset.mem_range]
  constructor
  · rintro ⟨k, hk, rfl⟩
    rw [toNat_add_ofNat (by omega)]
    omega
  · rintro ⟨hge, hlt⟩
    refine ⟨a.toNat - start.toNat, by omega, ?_⟩
    apply BitVec.eq_of_toNat_eq
    rw [toNat_add_ofNat (by omega)]
    omega

theorem card_addresses (h : start.toNat + count ≤ 2 ^ w) : (addresses start count).card = count := by
  rw [addresses, Finset.card_image_of_injOn, Finset.card_range]
  intro j hj k hk heq
  have hj := Finset.mem_range.mp hj
  have hk := Finset.mem_range.mp hk
  have hnat := congrArg BitVec.toNat heq
  simp only [] at hnat
  rw [toNat_add_ofNat (by omega), toNat_add_ofNat (by omega)] at hnat
  omega

theorem leastFirst_firstFree {reserved : Finset (BitVec w)} (h : start.toNat + count ≤ 2 ^ w) :
    LeastFirst (addresses start count \ reserved) fun allocated => firstFree reserved allocated count start := by
  constructor
  · intro allocated a hfree
    obtain ⟨k, hk, rfl, hearlier⟩ := firstFree_eq_some hfree
    obtain ⟨hreserved, hallocated⟩ := firstFree_spec hfree
    have hmem : start + BitVec.ofNat w k ∈ addresses start count :=
      Finset.mem_image_of_mem _ (Finset.mem_range.mpr hk)
    refine ⟨⟨Finset.mem_sdiff.mpr ⟨hmem, hreserved⟩, hallocated⟩, ?_⟩
    rintro b ⟨hb, hbfree⟩
    obtain ⟨hb, hbreserved⟩ := Finset.mem_sdiff.mp hb
    obtain ⟨j, hj, rfl⟩ := Finset.mem_image.mp hb
    have hj := Finset.mem_range.mp hj
    -- An address in front of the one found would have been found first.
    have hle : k ≤ j := by
      by_contra hlt
      exact hearlier j (not_le.mp hlt) ⟨hbreserved, hbfree⟩
    rw [BitVec.le_def, toNat_add_ofNat (by omega), toNat_add_ofNat (by omega)]
    omega
  · intro allocated hnone b hb
    obtain ⟨hb, hbreserved⟩ := Finset.mem_sdiff.mp hb
    obtain ⟨j, hj, rfl⟩ := Finset.mem_image.mp hb
    by_contra hbfree
    have hsome : (firstFree reserved allocated count start).isSome :=
      firstFree_isSome_iff.mpr ⟨j, Finset.mem_range.mp hj, hbreserved, hbfree⟩
    rw [hnone] at hsome
    cases hsome

theorem toNat_start {net : IpNet w} (h : net.prefixLen + 2 ≤ w) :
    (net.network + 2).toNat = net.network.toNat + 2 :=
  toNat_network_add (k := 2) (Nat.le_of_succ_le (four_le_size h))

theorem toNat_gateway {net : IpNet w} (h : net.prefixLen + 2 ≤ w) :
    net.gateway.toNat = net.network.toNat + 1 :=
  toNat_network_add (k := 1) (by have := four_le_size h; omega)

end Addresses

section Ipv4

variable {net : Ipv4Net} {a : Ipv4Addr}

def clientsV4 (net : Ipv4Net) : Finset Ipv4Addr :=
  addresses (net.network + 2) (net.broadcast.toNat - (net.network + 2).toNat)

theorem start_add_le (h : net.prefixLen + 2 ≤ 32) :
    (net.network + 2).toNat + (net.broadcast.toNat - (net.network + 2).toNat) ≤ 2 ^ 32 := by
  have hroom := four_le_size h
  have hlt := net.broadcast.isLt
  rw [toNat_start h]
  omega

theorem mem_clientsV4 (h : net.prefixLen + 2 ≤ 32) : a ∈ clientsV4 net ↔ Between net a := by
  have hroom := four_le_size h
  rw [clientsV4, mem_addresses (start_add_le h), Between, BitVec.lt_def, BitVec.lt_def, toNat_gateway h, toNat_start h]
  omega

theorem card_clientsV4 (h : net.prefixLen + 2 ≤ 32) : (clientsV4 net).card = 2 ^ (32 - net.prefixLen) - 3 := by
  rw [clientsV4, card_addresses (start_add_le h), toNat_start h, toNat_broadcast]
  omega

theorem clientsV4_sdiff (h : net.prefixLen + 2 ≤ 32) :
    clientsV4 net \ {net.network, net.broadcast, net.gateway} = clientsV4 net := by
  rw [Finset.sdiff_eq_self_iff_disjoint, Finset.disjoint_left]
  intro a ha hreserved
  rw [mem_clientsV4 h, Between, BitVec.lt_def, BitVec.lt_def, toNat_gateway h] at ha
  simp only [Finset.mem_insert, Finset.mem_singleton] at hreserved
  obtain rfl | rfl | rfl := hreserved
  · omega
  · omega
  · have := toNat_gateway h
    omega

theorem leastFirst_v4 (h : net.prefixLen + 2 ≤ 32) :
    LeastFirst (clientsV4 net) fun allocated =>
      firstFree {net.network, net.broadcast, net.gateway} allocated
        (net.broadcast.toNat - (net.network + 2).toNat) (net.network + 2) := by
  rw [← clientsV4_sdiff h]
  exact leastFirst_firstFree (start_add_le h)

/-- An allocation from an IPv4-only pool takes the least address between the
gateway and the broadcast address that is not allocated, and fails if there is none. -/
structure LeastAllocation (net : Ipv4Net) (pool : AddressPool) : Prop where
  least : ∀ addr pool', AddressPool.allocate pool = (.ok addr, pool') → ∃ a, addr = ⟨some a, none⟩ ∧
    IsLeast {b | Between net b ∧ b ∉ pool.allocatedV4} a ∧
    pool' = { pool with allocatedV4 := insert a pool.allocatedV4 }
  fails_iff : (∃ fault, (AddressPool.allocate pool).1 = .error fault) ↔ ∀ a, Between net a → a ∈ pool.allocatedV4
  kept : ∀ fault pool', AddressPool.allocate pool = (.error fault, pool') → pool' = pool

/-- The sums of the source stay in the range of the machine word, the last value
of the loop counter included. -/
structure FitsWord (net : Ipv4Net) : Prop where
  gateway : net.network.toNat + 1 < 2 ^ 32
  start : net.network.toNat + 2 < 2 ^ 32
  loop : ∀ k ≤ net.broadcast.toNat - (net.network + 2).toNat, (net.network + 2).toNat + k < 2 ^ 32

theorem fitsWord (h : net.prefixLen + 2 ≤ 32) : FitsWord net := by
  have hroom := four_le_size h
  have hlt := net.broadcast.isLt
  refine ⟨by omega, by omega, fun k hk => ?_⟩
  rw [toNat_start h] at hk ⊢
  omega

theorem ncard_between (h : net.prefixLen + 2 ≤ 32) :
    {a | Between net a}.ncard = 2 ^ (32 - net.prefixLen) - 3 := by
  have hset : {a | Between net a} = (clientsV4 net : Set Ipv4Addr) := Set.ext fun a => (mem_clientsV4 h).symm
  rw [hset, Set.ncard_coe_finset, card_clientsV4 h]

theorem leastAllocation (h : net.prefixLen + 2 ≤ 32) (h4 : pool.ipv4Net = some net) (h6 : pool.ipv6Net = none)
    (hreserved : pool.reservedV4 = {net.network, net.broadcast, net.gateway}) : LeastAllocation net pool := by
  have hrun := allocate_v4_only h4 h6
  have hdraw := leastFirst_v4 h
  have hfree : ipv4.free net pool = firstFree pool.reservedV4 pool.allocatedV4
      (net.broadcast.toNat - (net.network + 2).toNat) (net.network + 2) := rfl
  rw [hreserved] at hfree
  rw [answer] at hrun
  cases hfound : ipv4.free net pool with
  | some a =>
    rw [hfound] at hrun
    have hleast := hdraw.least (hfree.symm.trans hfound)
    simp only [mem_clientsV4 h] at hleast
    constructor
    · intro addr pool' heq
      obtain ⟨haddr, hpool⟩ := Prod.mk.inj (hrun.symm.trans heq)
      cases haddr
      exact ⟨a, rfl, hleast, hpool.symm⟩
    · rw [hrun]
      refine iff_of_false ?_ fun hall => hleast.1.2 (hall a hleast.1.1)
      rintro ⟨fault, hfault⟩
      cases hfault
    · intro fault pool' heq
      rw [hrun] at heq
      cases heq
  | none =>
    rw [hfound] at hrun
    have hall := hdraw.exhausted (hfree.symm.trans hfound)
    constructor
    · intro addr pool' heq
      rw [hrun] at heq
      cases heq
    · rw [hrun]
      exact iff_of_true ⟨_, rfl⟩ fun a ha => hall ((mem_clientsV4 h).mpr ha)
    · intro fault pool' heq
      rw [hrun] at heq
      exact (Prod.mk.inj heq).2.symm

end Ipv4

theorem consistent_exec {ipv4Net : Option Ipv4Net} {ipv6Net : Option Ipv6Net}
    (hnew : AddressPool.new ipv4Net ipv6Net = .ok pool) (calls : List Call) :
    Consistent ipv4Net ipv6Net (exec step { pool } calls) :=
  exec_of_step (P := Consistent ipv4Net ipv6Net) (fun _ call h => h.next call) (consistent_of_new hnew) calls

/-- In every state that an IPv4-only pool can reach, an allocation takes the
least free address, of which a network with prefix length `p` has `2 ^ (32 - p) - 3`. -/
theorem ipv4_allocation_least_first {net : Ipv4Net} (hnew : AddressPool.new (some net) none = .ok pool)
    (calls : List Call) :
    LeastAllocation net (exec step { pool } calls).pool ∧
      {a | Between net a}.ncard = 2 ^ (32 - net.prefixLen) - 3 ∧ FitsWord net := by
  have hs := consistent_exec hnew calls
  have hroom := hs.v4.room net rfl
  exact ⟨leastAllocation hroom hs.v4.net_eq hs.v6.net_eq (hs.v4.reserved net rfl), ncard_between hroom, fitsWord hroom⟩

def topNet : Ipv4Net := ⟨ofOctets 255 255 255 252, 30, by decide⟩

theorem top_network_allocates :
    AddressPool.new (some topNet) none = .ok (newUnchecked (some topNet) none) ∧
      LeastAllocation topNet (exec step { pool := newUnchecked (some topNet) none } [.allocate]).pool ∧
      {a | Between topNet a}.ncard = 1 ∧ FitsWord topNet := by
  have hnew : AddressPool.new (some topNet) none = .ok (newUnchecked (some topNet) none) := by decide +kernel
  exact ⟨hnew, ipv4_allocation_least_first hnew [.allocate]⟩

end CoreVpn.Core.PoolSearch
