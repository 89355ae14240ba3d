import CoreVpn.Core.PoolSearch

namespace CoreVpn.Core.Availability

open Lib.Computation Lib.Machine Lib.Draws Networks IpNet AddressPools AddressPool Family PoolRuns PoolSearch

variable {pool pool' : AddressPool} {n : Nat}

/-- So many allocations in a row succeed, each with an address of a given kind. -/
def Successes (P : VpnAddress → Prop) : Nat → AddressPool → Prop
  | 0, _ => True
  | n + 1, pool => ∃ addr pool', AddressPool.allocate pool = (.ok addr, pool') ∧ P addr ∧ Successes P n pool'

def Remaining (P : VpnAddress → Prop) (pool : AddressPool) (n : Nat) : Prop :=
  Successes P n pool ∧ ¬ Successes P (n + 1) pool

def InNetworkV4 (pool : AddressPool) (addr : VpnAddress) : Prop :=
  ∃ net ∈ pool.ipv4Net, ∃ a ∈ addr.ipv4, net.contains a = true

def InNetworkV6 (pool : AddressPool) (addr : VpnAddress) : Prop :=
  ∃ net ∈ pool.ipv6Net, ∃ a ∈ addr.ipv6, net.contains a = true

def onlyV4 (pool : AddressPool) : AddressPool := { pool with ipv6Net := none }

def onlyV6 (pool : AddressPool) : AddressPool := { pool with ipv4Net := none }

def ExactV4 (pool : AddressPool) : Prop := Remaining (InNetworkV4 pool) (onlyV4 pool) (availableV4 pool)

def ExactV6 (pool : AddressPool) : Prop := Remaining (InNetworkV6 pool) (onlyV6 pool) (availableV6 pool)

def clientsV6 (net : Ipv6Net) : Finset Ipv6Addr :=
  addresses (net.network + 2) (min 65534 (2 ^ (128 - net.prefixLen) - 2))

/-- All addresses between the gateway and the broadcast address are allocated. -/
def UsedUpV4 (pool : AddressPool) : Prop := ∀ net ∈ pool.ipv4Net, ∀ a, Between net a → a ∈ pool.allocatedV4

/-- The allocated addresses outside the searched part of the network make up for
what that part lacks, or the part is used up and the count has come to zero. -/
def BalancedV6 (pool : AddressPool) : Prop :=
  ∀ net ∈ pool.ipv6Net, (pool.allocatedV6 \ clientsV6 net).card + (clientsV6 net).card = 65534 ∨
    (clientsV6 net ⊆ pool.allocatedV6 ∧ 65534 ≤ pool.allocatedV6.card)

theorem remaining_iff {P : VpnAddress → Prop} {m : Nat} (h : ∀ k, Successes P k pool ↔ k ≤ m) :
    Remaining P pool n ↔ n = m := by
  rw [Remaining, h, h]
  omega

theorem remaining_zero {P : VpnAddress → Prop} (h4 : pool.ipv4Net = none) (h6 : pool.ipv6Net = none) :
    Remaining P pool 0 := by
  refine ⟨trivial, ?_⟩
  rintro ⟨addr, pool', hrun, -⟩
  obtain ⟨ipv4Net, ipv6Net, allocatedV4, allocatedV6, reservedV4, reservedV6⟩ := pool
  subst h4 h6
  cases hrun

section Drawing

variable {w : Nat} {window part : Finset (BitVec w)} {draw : Finset (BitVec w) → Option (BitVec w)}
  {allocated : AddressPool → Finset (BitVec w)} {address : BitVec w → VpnAddress} {Inv : AddressPool → Prop}
  {P : VpnAddress → Prop}

/-- In the pools of a kind, an allocation hands out what is drawn for one family. -/
structure HandsOut (Inv : AddressPool → Prop) (draw : Finset (BitVec w) → Option (BitVec w))
    (allocated : AddressPool → Finset (BitVec w)) (address : BitVec w → VpnAddress) : Prop where
  found : ∀ {pool a}, Inv pool → draw (allocated pool) = some a →
    ∃ pool', AddressPool.allocate pool = (.ok (address a), pool') ∧ Inv pool' ∧
      allocated pool' = insert a (allocated pool)
  exhausted : ∀ {pool}, Inv pool → draw (allocated pool) = none → ∃ fault, (AddressPool.allocate pool).1 = .error fault

theorem HandsOut.successes_iff (h : HandsOut Inv draw allocated address) (hdraw : LeastFirst window draw)
    (hpart : part ⊆ window) (hlower : ∀ a ∈ part, ∀ b ∈ window, b ≤ a → b ∈ part)
    (hP : ∀ a ∈ window, P (address a) ↔ a ∈ part) (hpool : Inv pool) :
    Successes P n pool ↔ n ≤ (part \ allocated pool).card := by
  rw [← hdraw.successive_iff hpart hlower]
  induction n generalizing pool with
  | zero => exact Iff.rfl
  | succ n ih =>
    cases hfound : draw (allocated pool) with
    | none =>
      obtain ⟨fault, hfault⟩ := h.exhausted hpool hfound
      refine iff_of_false ?_ ?_
      · rintro ⟨addr, pool', hrun, -⟩
        rw [hrun] at hfault
        cases hfault
      · rintro ⟨a, -, ha, -⟩
        rw [hfound] at ha
        cases ha
    | some a =>
      obtain ⟨pool', hrun, hpool', hallocated⟩ := h.found hpool hfound
      have hmem := (hdraw.least hfound).1.1
      constructor
      · rintro ⟨addr, pool'', heq, hkind, hrest⟩
        obtain ⟨haddr, rfl⟩ := Prod.mk.inj (hrun.symm.trans heq)
        cases haddr
        rw [ih hpool', hallocated] at hrest
        exact ⟨a, (hP a hmem).mp hkind, hfound, hrest⟩
      · rintro ⟨b, hb, heq, hrest⟩
        obtain rfl : a = b := Option.some.inj (hfound.symm.trans heq)
        rw [← hallocated, ← ih hpool'] at hrest
        exact ⟨address a, pool', hrun, (hP a hmem).mpr hb, hrest⟩

theorem handsOut (f : Family w) (net : IpNet w) {reserved : Finset (BitVec w)}
    (hreserved : ∀ pool, Inv pool → f.reserved pool = reserved) (hgrant : ∀ pool a, Inv pool → Inv (f.grant a pool))
    (hrun : ∀ pool, Inv pool → AddressPool.allocate pool = f.answer address net pool) :
    HandsOut Inv (fun allocated => firstFree reserved allocated (f.searched net) (net.network + 2)) f.allocated
      address := by
  constructor
  · intro p a hp hfound
    have hfree : f.free net p = some a := by rwa [free, hreserved p hp]
    refine ⟨f.grant a p, ?_, hgrant p a hp, f.allocated_store _ p⟩
    rw [hrun p hp, answer, hfree]
  · intro p hp hfound
    have hfree : f.free net p = none := by rwa [free, hreserved p hp]
    refine ⟨.error .addressPoolExhausted, ?_⟩
    rw [hrun p hp, answer, hfree]

end Drawing

section Ipv4

variable {net : Ipv4Net}

structure ServesV4 (net : Ipv4Net) (pool : AddressPool) : Prop where
  ipv4Net : pool.ipv4Net = some net
  ipv6Net : pool.ipv6Net = none
  reserved : pool.reservedV4 = {net.network, net.broadcast, net.gateway}

theorem contains_of_between (h : net.prefixLen + 2 ≤ 32) {a : Ipv4Addr} (ha : Between net a) :
    net.contains a = true := by
  rw [Between, BitVec.lt_def, BitVec.lt_def, toNat_gateway h] at ha
  rw [contains, Bool.and_eq_true, decide_eq_true_eq, decide_eq_true_eq, BitVec.le_def, BitVec.le_def]
  omega

theorem successes_v4 (h : net.prefixLen + 2 ≤ 32) (h4 : pool.ipv4Net = some net)
    (hreserved : pool.reservedV4 = {net.network, net.broadcast, net.gateway}) :
    Successes (InNetworkV4 pool) n (onlyV4 pool) ↔ n ≤ (clientsV4 net \ pool.allocatedV4).card := by
  have hhands := handsOut ipv4 net (fun _ h => h.reserved) (fun _ _ h => ⟨h.1, h.2, h.3⟩)
    fun _ (h : ServesV4 net _) => allocate_v4_only h.ipv4Net h.ipv6Net
  refine hhands.successes_iff (leastFirst_v4 h) (Finset.Subset.refl _) (fun a _ b hb _ => hb) ?_ ⟨h4, rfl, hreserved⟩
  intro a ha
  exact iff_of_true ⟨net, h4, a, rfl, contains_of_between h ((mem_clientsV4 h).mp ha)⟩ ha

/-- The addresses of the hosts and those kept back have the network and the
broadcast address in common, so that these two are taken off twice. -/
theorem availableV4_eq (h : net.prefixLen + 2 ≤ 32) (h4 : pool.ipv4Net = some net)
    (hreserved : pool.reservedV4 = {net.network, net.broadcast, net.gateway}) :
    availableV4 pool = (clientsV4 net).card - 2 - pool.allocatedV4.card := by
  have hroom := four_le_size h
  have hgateway := toNat_gateway h
  have hcard : ({net.network, net.broadcast, net.gateway} : Finset Ipv4Addr).card = 3 := by
    rw [Finset.card_eq_three]
    refine ⟨net.network, net.broadcast, net.gateway, ?_, ?_, ?_, rfl⟩
    · intro heq
      rw [← heq] at hroom
      omega
    · intro heq
      rw [← heq] at hgateway
      omega
    · intro heq
      rw [heq] at hroom
      omega
  have havailable : availableV4 pool = (hosts net).length - pool.reservedV4.card - pool.allocatedV4.card := by
    rw [availableV4, h4]
  rw [havailable, hosts, if_pos (by omega), hreserved, hcard, List.length_map, List.length_range, card_clientsV4 h]
  omega

theorem exactV4_iff (h : net.prefixLen + 2 ≤ 32) (h4 : pool.ipv4Net = some net)
    (hreserved : pool.reservedV4 = {net.network, net.broadcast, net.gateway})
    (hallocated : pool.allocatedV4 ⊆ clientsV4 net) : ExactV4 pool ↔ clientsV4 net ⊆ pool.allocatedV4 := by
  have hfree := Finset.card_sdiff_of_subset hallocated
  have hle := Finset.card_le_card hallocated
  rw [ExactV4, remaining_iff fun k => successes_v4 h h4 hreserved, availableV4_eq h h4 hreserved, hfree,
    ← Finset.sdiff_eq_empty_iff_subset, ← Finset.card_eq_zero, hfree]
  omega

end Ipv4

section Ipv6

variable {net : Ipv6Net}

structure ServesV6 (net : Ipv6Net) (pool : AddressPool) : Prop where
  ipv4Net : pool.ipv4Net = none
  ipv6Net : pool.ipv6Net = some net
  reserved : pool.reservedV6 = {net.gateway}

/-- What is asked of a network for the search not to reach the end of the
address space: the multicast networks, at its end, are not accepted. -/
structure Valid (net : Ipv6Net) : Prop where
  room : net.prefixLen + 2 ≤ 128
  end_le : net.network.toNat + 65536 ≤ 2 ^ 128

theorem not_multicast_of_validateNet {w : Nat} {net : IpNet w} {family linkLocalRange : String}
    {minLen maxLen : Nat} {isLoopback isMulticast isLinkLocal : BitVec w → Bool}
    (h : validateNet family minLen maxLen isLoopback isMulticast isLinkLocal linkLocalRange net = .ok ()) :
    isMulticast net.network = false := by
  by_contra hmulticast
  rw [validateNet, if_pos (Bool.eq_true_of_not_eq_false hmulticast)] at h
  split_ifs at h <;> cases h

theorem valid_of_validate (h : validateIpv6Net net = .ok ()) : Valid net := by
  have hlen := validateNet_eq_ok h
  refine ⟨by omega, ?_⟩
  have hmulticast := not_multicast_of_validateNet h
  rw [beq_eq_false_iff_ne, BitVec.toNat_ushiftRight, Nat.shiftRight_eq_div_pow] at hmulticast
  have hlt := net.network.isLt
  omega

theorem mem_window (h : Valid net) {a : Ipv6Addr} :
    a ∈ addresses (net.network + 2) 65534 ↔ net.network.toNat + 2 ≤ a.toNat ∧ a.toNat < net.network.toNat + 65536 := by
  have hstart := toNat_start h.room
  have hend := h.end_le
  have hmem : a ∈ addresses (net.network + 2) 65534 ↔ _ := mem_addresses (by omega)
  rw [hstart] at hmem
  exact hmem.trans (by omega)

theorem mem_clientsV6 (h : Valid net) {a : Ipv6Addr} :
    a ∈ clientsV6 net ↔ a ∈ addresses (net.network + 2) 65534 ∧ net.contains a = true := by
  have hstart := toNat_start h.room
  have hend := h.end_le
  have hroom := four_le_size h.room
  have hsize := toNat_broadcast net
  rw [mem_window h, clientsV6, mem_addresses (by omega), hstart, contains, Bool.and_eq_true, decide_eq_true_eq,
    decide_eq_true_eq, BitVec.le_def, BitVec.le_def]
  omega

theorem card_clientsV6 (h : Valid net) :
    (clientsV6 net).card = min 65534 (2 ^ (128 - net.prefixLen) - 2) := by
  have hstart := toNat_start h.room
  have hend := h.end_le
  exact card_addresses (by omega)

theorem leastFirst_v6 (h : Valid net) :
    LeastFirst (addresses (net.network + 2) 65534) fun allocated =>
      firstFree {net.gateway} allocated 65534 (net.network + 2) := by
  have hgateway : addresses (net.network + 2) 65534 \ {net.gateway} = addresses (net.network + 2) 65534 := by
    rw [Finset.sdiff_singleton_eq_erase, Finset.erase_eq_self, mem_window h, toNat_gateway h.room]
    omega
  have hstart := toNat_start h.room
  have hend := h.end_le
  rw [← hgateway]
  exact leastFirst_firstFree (by omega)

theorem successes_v6 (h : Valid net) (h6 : pool.ipv6Net = some net) (hreserved : pool.reservedV6 = {net.gateway}) :
    Successes (InNetworkV6 pool) n (onlyV6 pool) ↔ n ≤ (clientsV6 net \ pool.allocatedV6).card := by
  have hhands := handsOut ipv6 net (fun _ h => h.reserved) (fun _ _ h => ⟨h.1, h.2, h.3⟩)
    fun _ (h : ServesV6 net _) => allocate_v6_only h.ipv4Net h.ipv6Net
  refine hhands.successes_iff (leastFirst_v6 h) ?_ ?_ ?_ ⟨rfl, h6, hreserved⟩
  · intro a ha
    exact ((mem_clientsV6 h).mp ha).1
  · intro a ha b hb hle
    have hcontains := ((mem_clientsV6 h).mp ha).2
    rw [contains, Bool.and_eq_true, decide_eq_true_eq, decide_eq_true_eq] at hcontains
    have hfirst := ((mem_window h).mp hb).1
    rw [mem_clientsV6 h, contains, Bool.and_eq_true, decide_eq_true_eq, decide_eq_true_eq]
    refine ⟨hb, ?_, BitVec.le_trans hle hcontains.2⟩
    rw [BitVec.le_def]
    omega
  · intro a ha
    rw [mem_clientsV6 h, and_iff_right ha]
    constructor
    · rintro ⟨net', hnet', b, ⟨⟩, hb⟩
      obtain rfl : net = net' := Option.some.inj (h6.symm.trans hnet')
      exact hb
    · exact fun hcontains => ⟨net, h6, a, rfl, hcontains⟩

theorem exactV6_iff (h : Valid net) (h6 : pool.ipv6Net = some net) (hreserved : pool.reservedV6 = {net.gateway}) :
    ExactV6 pool ↔ (pool.allocatedV6 \ clientsV6 net).card + (clientsV6 net).card = 65534 ∨
      (clientsV6 net ⊆ pool.allocatedV6 ∧ 65534 ≤ pool.allocatedV6.card) := by
  have havailable : availableV6 pool = 65534 - pool.allocatedV6.card := by
    rw [availableV6, h6]
    rfl
  have hcard := card_clientsV6 h
  have hclients := Finset.card_sdiff_add_card_inter (clientsV6 net) pool.allocatedV6
  have hallocated := Finset.card_sdiff_add_card_inter pool.allocatedV6 (clientsV6 net)
  rw [Finset.inter_comm] at hallocated
  rw [ExactV6, remaining_iff fun k => successes_v6 h h6 hreserved, havailable,
    ← Finset.sdiff_eq_empty_iff_subset, ← Finset.card_eq_zero]
  omega

end Ipv6

section Runs

variable {net : Ipv4Net} {addr : VpnAddress}

structure Confined (net : Ipv4Net) (pool : AddressPool) : Prop where
  ipv4Net : pool.ipv4Net = some net
  reserved : pool.reservedV4 = {net.network, net.broadcast, net.gateway}
  allocated : pool.allocatedV4 ⊆ clientsV4 net

def StaysConfined (net : Ipv4Net) (pool pool' : AddressPool) : Prop := Confined net pool → Confined net pool'

instance (net : Ipv4Net) : IsPreorder AddressPool (StaysConfined net) where
  refl _ := id
  trans _ _ _ h h' := h' ∘ h

theorem Confined.grant (h : Confined net pool) {a : Ipv4Addr} (ha : a ∈ clientsV4 net) :
    Confined net (ipv4.grant a pool) :=
  ⟨h.ipv4Net, h.reserved, Finset.insert_subset ha h.allocated⟩

theorem Confined.grant_v6 (h : Confined net pool) (a : Ipv6Addr) : Confined net (ipv6.grant a pool) :=
  ⟨h.ipv4Net, h.reserved, h.allocated⟩

theorem mem_clientsV4_of_free (hroom : net.prefixLen + 2 ≤ 32) (h : Confined net pool) {a : Ipv4Addr}
    (hfree : ipv4.free net pool = some a) : a ∈ clientsV4 net := by
  have hfound : firstFree pool.reservedV4 pool.allocatedV4 (net.broadcast.toNat - (net.network + 2).toNat)
      (net.network + 2) = some a := hfree
  rw [h.reserved] at hfound
  exact ((leastFirst_v4 hroom).least hfound).1.1

theorem Confined.allocate (hroom : net.prefixLen + 2 ≤ 32) (h : Confined net pool) :
    Confined net (AddressPool.allocate pool).2 := by
  have hfirst : Frames (StaysConfined net) (allocateFrom (some net) allocateV4) :=
    frames_bind (ipv4.frames_allocate fun _ _ hfree h => h.grant (mem_clientsV4_of_free hroom h hfree))
      fun _ => frames_pure _
  have hrun : AddressPool.allocate pool = (do
      let ipv4 ← allocateFrom pool.ipv4Net allocateV4
      let ipv6 ← allocateFrom pool.ipv6Net allocateV6
      if ipv4.isNone && ipv6.isNone then fail (.configError "No address pools configured")
      else return ⟨ipv4, ipv6⟩ : Program AddressPool CoreError VpnAddress) pool := rfl
  rw [hrun, h.ipv4Net]
  refine frames_bind hfirst (fun v4 => ?_) pool h
  refine frames_bind (frames_allocateFrom fun _ _ => ipv6.frames_allocate fun _ a _ h => h.grant_v6 a) fun v6 => ?_
  cases v4.isNone && v6.isNone with
  | true => exact frames_fail _
  | false => exact frames_pure _

theorem mem_clientsV4_of_claimable (hroom : net.prefixLen + 2 ≤ 32) (h : Confined net pool) {a : Ipv4Addr}
    (hclaim : ipv4.Claimable pool a) : a ∈ clientsV4 net := by
  have hcontains := hclaim.contained net h.ipv4Net
  have hreserved := hclaim.not_reserved
  rw [contains, Bool.and_eq_true, decide_eq_true_eq, decide_eq_true_eq, BitVec.le_def, BitVec.le_def] at hcontains
  change a ∉ pool.reservedV4 at hreserved
  simp only [h.reserved, Finset.mem_insert, Finset.mem_singleton, not_or, ← BitVec.toNat_inj,
    toNat_gateway hroom] at hreserved
  rw [mem_clientsV4 hroom, Between, BitVec.lt_def, BitVec.lt_def, toNat_gateway hroom]
  omega

theorem Confined.next {s : Ledger} (hroom : net.prefixLen + 2 ≤ 32) (h : Confined net s.pool) (call : Call) :
    Confined net (step s call).2.pool := by
  cases call with
  | allocate =>
    exact frames_after (R := StaysConfined net) (fun _ => frames_pure _) s.pool (h.allocate hroom)
  | allocateSpecific addr =>
    have hframe : Frames (StaysConfined net) (allocateSpecific addr) :=
      frames_bind (frames_forM fun a => ipv4.frames_claim fun _ hclaim h =>
        h.grant (mem_clientsV4_of_claimable hroom h hclaim)) fun _ =>
        frames_bind (frames_forM fun a => ipv6.frames_claim fun _ _ h => h.grant_v6 a) fun _ => frames_pure addr
    exact frames_bind hframe (fun _ => frames_pure _) s.pool h
  | release addr =>
    have hreleased : (step s (.release addr)).2.pool.allocatedV4 = _ := without_eq addr.ipv4 s.pool.allocatedV4
    exact ⟨h.ipv4Net, h.reserved, hreleased ▸ Finset.sdiff_subset.trans h.allocated⟩

theorem confined_exec {ipv6Net : Option Ipv6Net} (hnew : AddressPool.new (some net) ipv6Net = .ok pool)
    (calls : List Call) : Confined net (exec step { pool } calls).pool := by
  have hroom := (consistent_of_new hnew).v4.room net rfl
  have hstart : Confined net pool := by
    obtain ⟨-, -, rfl⟩ := new_eq_ok hnew
    exact ⟨rfl, rfl, Finset.empty_subset _⟩
  exact exec_of_step (P := fun s : Ledger => Confined net s.pool) (fun _ call h => h.next hroom call) hstart calls

end Runs

theorem exactV4_of_none (h : pool.ipv4Net = none) : ExactV4 pool := by
  rw [ExactV4, availableV4, h]
  exact remaining_zero h rfl

theorem exactV6_of_none (h : pool.ipv6Net = none) : ExactV6 pool := by
  rw [ExactV6, availableV6, h]
  exact remaining_zero rfl h

/-- In every state that an accepted pool can reach, the number of available
IPv4 addresses is right if and only if there are none left, and that of IPv6
addresses if and only if the allocated addresses make up for the size of the network. -/
theorem availability_exact_iff {ipv4Net : Option Ipv4Net} {ipv6Net : Option Ipv6Net}
    (hnew : AddressPool.new ipv4Net ipv6Net = .ok pool) (calls : List Call) :
    (ExactV4 (exec step { pool } calls).pool ↔ UsedUpV4 (exec step { pool } calls).pool) ∧
      (ExactV6 (exec step { pool } calls).pool ↔ BalancedV6 (exec step { pool } calls).pool) := by
  have hs := consistent_exec hnew calls
  have hnet4 : (exec step { pool } calls).pool.ipv4Net = ipv4Net := hs.v4.net_eq
  have hnet6 : (exec step { pool } calls).pool.ipv6Net = ipv6Net := hs.v6.net_eq
  constructor
  · cases ipv4Net with
    | none =>
      refine iff_of_true (exactV4_of_none hnet4) fun net hnet => ?_
      rw [hnet4] at hnet
      cases hnet
    | some net =>
      have hroom := hs.v4.room net rfl
      have hconfined := confined_exec hnew calls
      rw [exactV4_iff hroom hnet4 hconfined.reserved hconfined.allocated, UsedUpV4, hnet4]
      simp only [Option.mem_some_iff, forall_eq', ← mem_clientsV4 hroom]
      rfl
  · cases ipv6Net with
    | none =>
      refine iff_of_true (exactV6_of_none hnet6) fun net hnet => ?_
      rw [hnet6] at hnet
      cases hnet
    | some net =>
      have hvalid := valid_of_validate ((new_eq_ok hnew).2.1 net rfl)
      rw [exactV6_iff hvalid hnet6 (hs.v6.reserved net rfl), BalancedV6, hnet6]
      simp only [Option.mem_some_iff, forall_eq']

/-- A pool that has given out its only address reports that none is left. -/
theorem availability_of_used_up_pool :
    AddressPool.new (some topNet) none = .ok (newUnchecked (some topNet) none) ∧
      ExactV4 (exec step { pool := newUnchecked (some topNet) none } [.allocate]).pool := by
  have hnew : AddressPool.new (some topNet) none = .ok (newUnchecked (some topNet) none) := by decide +kernel
  refine ⟨hnew, (availability_exact_iff hnew [.allocate]).1.mpr ?_⟩
  have hs := consistent_exec hnew [.allocate]
  have hclients : clientsV4 topNet ⊆
      (exec step { pool := newUnchecked (some topNet) none } [.allocate]).pool.allocatedV4 := by
    decide +kernel
  intro net hnet a ha
  obtain rfl : topNet = net := Option.some.inj (hs.v4.net_eq.symm.trans hnet)
  exact hclients ((mem_clientsV4 (by decide)).mpr ha)

/-- A new pool for 10.8.0.0/24 and fd00::/120 reports 251 and 65534 addresses,
and has 253 and 254. -/
theorem new_pool_misreports :
    AddressPool.new (some lanV4) (some lanV6) = .ok lanPool ∧
      (availableV4 lanPool = 251 ∧ Remaining (InNetworkV4 lanPool) (onlyV4 lanPool) 253 ∧ ¬ ExactV4 lanPool) ∧
      availableV6 lanPool = 65534 ∧ Remaining (InNetworkV6 lanPool) (onlyV6 lanPool) 254 ∧ ¬ ExactV6 lanPool := by
  have hnew : AddressPool.new (some lanV4) (some lanV6) = .ok lanPool := by decide +kernel
  have hroom : lanV4.prefixLen + 2 ≤ 32 := by decide
  have hvalid := valid_of_validate ((new_eq_ok hnew).2.1 lanV6 rfl)
  have h4 : availableV4 lanPool = 251 := by
    rw [availableV4_eq hroom rfl rfl, card_clientsV4 hroom]
    decide
  have h6 : availableV6 lanPool = 65534 := by decide
  have hfree4 : (clientsV4 lanV4 \ lanPool.allocatedV4).card = 253 := by
    have hempty : lanPool.allocatedV4 = ∅ := rfl
    rw [hempty, Finset.sdiff_empty, card_clientsV4 hroom]
    decide
  have hfree6 : (clientsV6 lanV6 \ lanPool.allocatedV6).card = 254 := by
    have hempty : lanPool.allocatedV6 = ∅ := rfl
    rw [hempty, Finset.sdiff_empty, card_clientsV6 hvalid]
    decide
  have hcount4 : ∀ n, Remaining (InNetworkV4 lanPool) (onlyV4 lanPool) n ↔ n = 253 :=
    fun n => hfree4 ▸ remaining_iff fun k => successes_v4 hroom rfl rfl
  have hcount6 : ∀ n, Remaining (InNetworkV6 lanPool) (onlyV6 lanPool) n ↔ n = 254 :=
    fun n => hfree6 ▸ remaining_iff fun k => successes_v6 hvalid rfl rfl
  refine ⟨hnew, ⟨h4, (hcount4 253).mpr rfl, ?_⟩, h6, (hcount6 254).mpr rfl, ?_⟩
  · rw [ExactV4, hcount4, h4]
    decide
  · rw [ExactV6, hcount6, h6]
    decide

end CoreVpn.Core.Availability
