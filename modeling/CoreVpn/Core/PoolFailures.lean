import CoreVpn.Core.PoolRuns

namespace CoreVpn.Core.PoolFailures

open Lib.Computation Networks IpNet AddressPools AddressPool Family PoolRuns

variable {pool pool' : AddressPool}

def SameAllocated (pool pool' : AddressPool) : Prop :=
  pool'.allocatedV4 = pool.allocatedV4 ∧ pool'.allocatedV6 = pool.allocatedV6

/-- A pool of both families with a free IPv4 address has a free IPv6 address. -/
def FreeTogether (pool : AddressPool) : Prop :=
  ∀ net ∈ pool.ipv4Net, ∀ net' ∈ pool.ipv6Net, ipv4.Free pool net → ipv6.Free pool net'

/-- If the IPv4 address can be given out, the IPv6 address can be as well. -/
def ClaimableTogether (pool : AddressPool) (addr : VpnAddress) : Prop :=
  ∀ a ∈ addr.ipv4, ∀ b ∈ addr.ipv6, ipv4.Claimable pool a → ipv6.Claimable pool b

section Allocate

def allocateRest (net : Option Ipv6Net) (ipv4 : Option Ipv4Addr) : Program AddressPool CoreError VpnAddress := do
  let ipv6 ← allocateFrom net allocateV6
  if ipv4.isNone && ipv6.isNone then fail (.configError "No address pools configured")
  else return ⟨ipv4, ipv6⟩

theorem guarded_allocateRest (pool : AddressPool) (net : Option Ipv6Net) (a : Ipv4Addr) :
    Guarded (∀ n ∈ net, ipv6.Free pool n) (allocateRest net (some a)) pool :=
  (guarded_allocateFrom ipv6.guarded_allocate).bind fun b t _ => ⟨⟨some a, b⟩, t, rfl⟩

theorem atomic_allocateRest_none (net : Option Ipv6Net) : Atomic (allocateRest net none) pool := by
  cases net with
  | none =>
    have hrefused : allocateRest none none pool =
        (.error (.error (.configError "No address pools configured")), pool) := rfl
    exact atomic_of_result hrefused
  | some n =>
    refine ((guarded_allocateFrom ipv6.guarded_allocate).bind fun o t hrun => ?_).atomic
    obtain ⟨b, u, -, hrun⟩ := bind_eq_ok hrun
    cases hrun
    exact ⟨⟨none, some b⟩, _, rfl⟩

theorem atomic_allocate_iff : Atomic AddressPool.allocate pool ↔ FreeTogether pool := by
  change Atomic (allocateFrom pool.ipv4Net ipv4.allocate >>= allocateRest pool.ipv6Net) pool ↔ _
  rw [FreeTogether]
  cases pool.ipv4Net with
  | none => exact iff_of_true (atomic_allocateRest_none pool.ipv6Net) fun net hnet => by cases hnet
  | some net =>
    have hfirst : ∀ o t, allocateFrom (some net) ipv4.allocate pool = (.ok o, t) →
        ∃ a, o = some a ∧ a ∉ pool.allocatedV4 ∧ t = ipv4.grant a pool := by
      intro o t hrun
      obtain ⟨a, u, ha, hrun⟩ := bind_eq_ok hrun
      cases hrun
      obtain ⟨hfree, rfl⟩ := ipv4.allocate_eq_ok ha
      exact ⟨a, rfl, (firstFree_spec hfree).2, rfl⟩
    rw [Guarded.atomic_bind_iff (D := ∀ n ∈ pool.ipv6Net, ipv6.Free pool n)
      (guarded_allocateFrom ipv4.guarded_allocate)]
    · simp only [Option.mem_some_iff, forall_eq']
      exact ⟨fun h net' hnet' hfree => h hfree net' hnet', fun h hfree net' hnet' => h net' hnet' hfree⟩
    · intro o t hrun
      obtain ⟨a, -, hfresh, rfl⟩ := hfirst o t hrun
      exact ipv4.grant_ne hfresh
    · intro o t hrun
      obtain ⟨a, rfl, -, rfl⟩ := hfirst o t hrun
      exact guarded_allocateRest (ipv4.grant a pool) pool.ipv6Net a

end Allocate

section Claim

def claimRest (addr : VpnAddress) : Program AddressPool CoreError VpnAddress := do
  addr.ipv6.forM ipv6.claim
  return addr

theorem guarded_claimRest (pool : AddressPool) (addr : VpnAddress) :
    Guarded (∀ b ∈ addr.ipv6, ipv6.Claimable pool b) (claimRest addr) pool :=
  (guarded_forM ipv6.guarded_claim).bind fun _ t _ => ⟨addr, t, rfl⟩

theorem atomic_allocateSpecific_iff (addr : VpnAddress) :
    Atomic (allocateSpecific addr) pool ↔ ClaimableTogether pool addr := by
  change Atomic (addr.ipv4.forM ipv4.claim >>= fun _ => claimRest addr) pool ↔ _
  rw [ClaimableTogether]
  cases addr.ipv4 with
  | none => exact iff_of_true (guarded_claimRest pool addr).atomic fun a ha => by cases ha
  | some a =>
    refine Iff.trans (b := ipv4.Claimable pool a → ∀ b ∈ addr.ipv6, ipv6.Claimable pool b)
      (Guarded.atomic_bind_iff (ipv4.guarded_claim a) ?_ ?_) ?_
    · intro u t hrun
      obtain ⟨hclaimable, rfl⟩ := ipv4.claim_eq_ok hrun
      exact ipv4.grant_ne hclaimable.not_allocated
    · intro u t hrun
      obtain ⟨-, rfl⟩ := ipv4.claim_eq_ok hrun
      exact guarded_claimRest (ipv4.grant a pool) addr
    · simp only [Option.mem_some_iff, forall_eq']
      exact ⟨fun h b hb hclaimable => h hclaimable b hb, fun h hclaimable b hb => h b hb hclaimable⟩

end Claim

theorem atomic_iff_sameAllocated {α : Type} {p : Program AddressPool CoreError α} (hp : Frames Grows p) :
    Atomic p pool ↔ ∀ fault pool', p pool = (.error fault, pool') → SameAllocated pool pool' := by
  constructor
  · rintro h fault pool' hrun
    obtain rfl := h fault pool' hrun
    exact ⟨rfl, rfl⟩
  · intro h fault pool' hrun
    obtain ⟨h4, h6⟩ := h fault pool' hrun
    obtain ⟨hnet4, hnet6, hreserved4, hreserved6, -, -⟩ := hp.rel hrun
    cases pool
    cases pool'
    exact AddressPool.mk.injEq .. ▸ ⟨hnet4, hnet6, h4, h6, hreserved4, hreserved6⟩

/-- A call that fails leaves the allocated addresses as they were if and only if
it does not find an address of the first family and none of the second. -/
theorem failed_allocations_change_nothing_iff (pool : AddressPool) :
    ((∀ fault pool', AddressPool.allocate pool = (.error fault, pool') → SameAllocated pool pool') ↔ FreeTogether pool) ∧
      ∀ addr, (∀ fault pool', allocateSpecific addr pool = (.error fault, pool') → SameAllocated pool pool') ↔
        ClaimableTogether pool addr := by
  constructor
  · rw [← atomic_iff_sameAllocated allocate_grows, atomic_allocate_iff]
  · intro addr
    rw [← atomic_iff_sameAllocated (allocateSpecific_grows addr), atomic_allocateSpecific_iff]

/-- An address pair that ends in the IPv6 gateway is refused, but its IPv4
address stays allocated. -/
theorem refused_claim_keeps_ipv4 :
    AddressPool.new (some lanV4) (some lanV6) = .ok lanPool ∧
      (allocateSpecific ⟨some (ofOctets 10 8 0 9), some lanV6.gateway⟩ lanPool).1 =
        .error (.error (.invalidAddress (.unavailableV6 lanV6.gateway))) ∧
      ofOctets 10 8 0 9 ∉ lanPool.allocatedV4 ∧
      ofOctets 10 8 0 9 ∈
        (allocateSpecific ⟨some (ofOctets 10 8 0 9), some lanV6.gateway⟩ lanPool).2.allocatedV4 := by
  decide +kernel

end CoreVpn.Core.PoolFailures
