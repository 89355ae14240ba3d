import CoreVpn.Core.AddressPools

namespace CoreVpn.Core.AddressPools

open Lib.Computation Networks AddressPool

section Search

variable {w : Nat} {reserved allocated : Finset (BitVec w)} {count : Nat} {start a : BitVec w}

theorem firstFree_spec (h : firstFree reserved allocated count start = some a) : a ∉ reserved ∧ a ∉ allocated := by
  induction count generalizing start with
  | zero => cases h
  | succ count ih =>
    rw [firstFree] at h
    split at h
    · rename_i hfree
      cases h
      exact hfree
    · exact ih h

theorem add_one_add_ofNat (start : BitVec w) (k : Nat) :
    start + 1 + BitVec.ofNat w k = start + BitVec.ofNat w (k + 1) := by
  rw [BitVec.add_assoc, Nat.add_comm k 1, BitVec.ofNat_add]
  rfl

theorem firstFree_eq_some (h : firstFree reserved allocated count start = some a) :
    ∃ k < count, a = start + BitVec.ofNat w k ∧
      ∀ j < k, ¬ (start + BitVec.ofNat w j ∉ reserved ∧ start + BitVec.ofNat w j ∉ allocated) := by
  induction count generalizing start with
  | zero => cases h
  | succ count ih =>
    rw [firstFree] at h
    by_cases hfree : start ∉ reserved ∧ start ∉ allocated
    · rw [if_pos hfree] at h
      cases h
      exact ⟨0, Nat.succ_pos _, (BitVec.add_zero _).symm, fun j hj => absurd hj (Nat.not_lt_zero j)⟩
    · rw [if_neg hfree] at h
      obtain ⟨k, hk, rfl, hearlier⟩ := ih h
      refine ⟨k + 1, Nat.succ_lt_succ hk, add_one_add_ofNat start k, ?_⟩
      intro j hj
      cases j with
      | zero => rwa [BitVec.add_zero]
      | succ j =>
        rw [← add_one_add_ofNat]
        exact hearlier j (Nat.lt_of_succ_lt_succ hj)

def FreeAmong (reserved allocated : Finset (BitVec w)) (count : Nat) (start : BitVec w) : Prop :=
  ∃ k < count, start + BitVec.ofNat w k ∉ reserved ∧ start + BitVec.ofNat w k ∉ allocated

theorem freeAmong_succ : FreeAmong reserved allocated (count + 1) start ↔
    (start ∉ reserved ∧ start ∉ allocated) ∨ FreeAmong reserved allocated count (start + 1) := by
  constructor
  · rintro ⟨k, hk, hfree⟩
    cases k with
    | zero => exact .inl (by rwa [BitVec.add_zero] at hfree)
    | succ k => exact .inr ⟨k, Nat.lt_of_succ_lt_succ hk, by rwa [add_one_add_ofNat]⟩
  · rintro (hfree | ⟨k, hk, hfree⟩)
    · exact ⟨0, Nat.succ_pos _, by rwa [BitVec.add_zero]⟩
    · exact ⟨k + 1, Nat.succ_lt_succ hk, by rwa [← add_one_add_ofNat]⟩

theorem firstFree_isSome_iff :
    (firstFree reserved allocated count start).isSome ↔ FreeAmong reserved allocated count start := by
  induction count generalizing start with
  | zero => exact iff_of_false Bool.false_ne_true fun ⟨k, hk, _⟩ => Nat.not_lt_zero k hk
  | succ count ih =>
    rw [freeAmong_succ, ← ih, firstFree]
    split
    · rename_i hfree
      exact iff_of_true rfl (.inl hfree)
    · rename_i htaken
      exact (or_iff_right htaken).symm

end Search

structure Unclaimed {w : Nat} (net : Option (IpNet w)) (reserved allocated : Finset (BitVec w)) (a : BitVec w) :
    Prop where
  contained : ∀ n ∈ net, n.contains a = true
  not_reserved : a ∉ reserved
  not_allocated : a ∉ allocated

section Optional

variable {α β : Type} {pool pool' : AddressPool} {R : AddressPool → AddressPool → Prop}

theorem allocateFrom_eq_ok {net : Option α} {p : α → Program AddressPool CoreError β} {o : Option β}
    (h : allocateFrom net p pool = (.ok o, pool')) :
    (o = none ∧ pool' = pool) ∨ ∃ n ∈ net, ∃ b, o = some b ∧ p n pool = (.ok b, pool') := by
  cases net with
  | none =>
    cases h
    exact .inl ⟨rfl, rfl⟩
  | some n =>
    obtain ⟨b, p1, hb, h⟩ := bind_eq_ok h
    cases h
    exact .inr ⟨n, rfl, b, rfl, hb⟩

theorem frames_allocateFrom [IsPreorder AddressPool R] {net : Option α} {p : α → Program AddressPool CoreError β}
    (hp : ∀ n ∈ net, Frames R (p n)) : Frames R (allocateFrom net p) := by
  cases net with
  | none => exact frames_pure none
  | some n => exact frames_bind (hp n rfl) fun addr => frames_pure (some addr)

theorem frames_forM [IsPreorder AddressPool R] {a : Option α} {p : α → Program AddressPool CoreError Unit}
    (hp : ∀ a, Frames R (p a)) : Frames R (a.forM p) := by
  cases a with
  | none => exact frames_pure ()
  | some a => exact hp a

theorem guarded_allocateFrom {net : Option α} {p : α → Program AddressPool CoreError β} {C : α → Prop}
    (hp : ∀ n, Guarded (C n) (p n) pool) : Guarded (∀ n ∈ net, C n) (allocateFrom net p) pool := by
  cases net with
  | none => exact guarded_pure (fun n hn => by cases hn) none pool
  | some n =>
    simp only [Option.mem_some_iff, forall_eq']
    exact (hp n).bind fun b t _ => ⟨some b, t, rfl⟩

theorem guarded_forM {o : Option α} {p : α → Program AddressPool CoreError Unit} {C : α → Prop}
    (hp : ∀ a, Guarded (C a) (p a) pool) : Guarded (∀ a ∈ o, C a) (o.forM p) pool := by
  cases o with
  | none => exact guarded_pure (fun a ha => by cases ha) () pool
  | some a =>
    simp only [Option.mem_some_iff, forall_eq']
    exact hp a

end Optional

namespace Family

variable {w : Nat} (f : Family w) {pool pool' : AddressPool} {net : IpNet w} {a : BitVec w}
  {R : AddressPool → AddressPool → Prop}

def Free (pool : AddressPool) (net : IpNet w) : Prop :=
  FreeAmong (f.reserved pool) (f.allocated pool) (f.searched net) (net.network + 2)

def Claimable (pool : AddressPool) : BitVec w → Prop :=
  Unclaimed (f.net pool) (f.reserved pool) (f.allocated pool)

/-- The pool in which an address is added to those allocated. -/
def grant (a : BitVec w) (pool : AddressPool) : AddressPool := f.store (insert a (f.allocated pool)) pool

theorem mem_grant (a : BitVec w) (pool : AddressPool) : a ∈ f.allocated (f.grant a pool) := by
  rw [grant, f.allocated_store]
  exact Finset.mem_insert_self a _

theorem grant_ne (h : a ∉ f.allocated pool) : f.grant a pool ≠ pool := by
  intro hsame
  have hmem := f.mem_grant a pool
  rw [hsame] at hmem
  exact h hmem

theorem allocate_eq (net : IpNet w) (pool : AddressPool) :
    f.allocate net pool = match f.free net pool with
      | some a => (.ok a, f.grant a pool)
      | none => (.error (.error .addressPoolExhausted), pool) := by
  simp only [allocate, bind_apply, get_apply]
  cases f.free net pool <;> rfl

theorem allocate_eq_ok (h : f.allocate net pool = (.ok a, pool')) :
    f.free net pool = some a ∧ pool' = f.grant a pool := by
  rw [allocate_eq] at h
  cases hfree : f.free net pool with
  | none =>
    rw [hfree] at h
    cases h
  | some b =>
    rw [hfree] at h
    cases h
    exact ⟨rfl, rfl⟩

theorem guarded_allocate (net : IpNet w) : Guarded (f.Free pool net) (f.allocate net) pool := by
  have heq := f.allocate_eq net pool
  rw [Free, ← firstFree_isSome_iff, ← free]
  cases hfree : f.free net pool with
  | none =>
    rw [hfree] at heq
    exact ⟨fun h => (Bool.false_ne_true h).elim, fun _ => ⟨_, heq⟩⟩
  | some a =>
    rw [hfree] at heq
    exact ⟨fun _ => ⟨_, _, heq⟩, fun h => absurd rfl h⟩

theorem frames_allocate [IsPreorder AddressPool R]
    (h : ∀ pool a, f.free net pool = some a → R pool (f.grant a pool)) : Frames R (f.allocate net) := by
  intro pool
  rw [allocate_eq]
  cases hfree : f.free net pool with
  | none => exact refl_of R pool
  | some a => exact h pool a hfree

theorem claim_of_claimable (h : f.Claimable pool a) : f.claim a pool = (.ok (), f.grant a pool) := by
  have hfree : ¬ (a ∈ f.reserved pool ∨ a ∈ f.allocated pool) := not_or.mpr ⟨h.not_reserved, h.not_allocated⟩
  simp only [claim, bind_apply, get_apply, if_neg hfree]
  cases hnet : f.net pool with
  | none => rfl
  | some net =>
    simp only [h.contained net hnet]
    rfl

theorem claim_of_not_claimable (h : ¬ f.Claimable pool a) : ∃ fault, f.claim a pool = (.error fault, pool) := by
  simp only [claim, bind_apply, get_apply]
  by_cases htaken : a ∈ f.reserved pool ∨ a ∈ f.allocated pool
  · rw [if_pos htaken]
    cases f.net pool with
    | none => exact ⟨_, rfl⟩
    | some net => cases hin : net.contains a <;> exact ⟨_, by simp only [hin]; rfl⟩
  · obtain ⟨net, hnet, hout⟩ : ∃ net, f.net pool = some net ∧ net.contains a = false := by
      by_contra hin
      refine h ⟨fun net hnet => ?_, ?_, ?_⟩
      · exact Bool.eq_true_of_not_eq_false fun hout => hin ⟨net, hnet, hout⟩
      · exact fun hreserved => htaken (.inl hreserved)
      · exact fun hallocated => htaken (.inr hallocated)
    simp only [hnet, hout]
    exact ⟨_, rfl⟩

theorem guarded_claim (a : BitVec w) : Guarded (f.Claimable pool a) (f.claim a) pool where
  succeeds h := ⟨_, _, f.claim_of_claimable h⟩
  refuses h := f.claim_of_not_claimable h

theorem claim_eq_ok {u : Unit} (h : f.claim a pool = (.ok u, pool')) :
    f.Claimable pool a ∧ pool' = f.grant a pool := by
  have hclaimable := (f.guarded_claim a).succeeds_iff.mp ⟨u, pool', h⟩
  rw [f.claim_of_claimable hclaimable] at h
  exact ⟨hclaimable, (Prod.mk.inj h).2.symm⟩

theorem frames_claim [IsPreorder AddressPool R] (h : ∀ pool, f.Claimable pool a → R pool (f.grant a pool)) :
    Frames R (f.claim a) := by
  intro pool
  by_cases hclaim : f.Claimable pool a
  · rw [f.claim_of_claimable hclaim]
    exact h pool hclaim
  · obtain ⟨fault, hfault⟩ := f.claim_of_not_claimable hclaim
    rw [hfault]
    exact refl_of R pool

/-- The address of the family in a successful allocation, if it has one. -/
def Found (pool pool' : AddressPool) (o : Option (BitVec w)) : Prop :=
  ∀ a ∈ o, a ∈ f.allocated pool' ∧ ∃ net ∈ f.net pool, f.free net pool = some a

def Claimed (pool pool' : AddressPool) (o : Option (BitVec w)) : Prop :=
  ∀ a ∈ o, a ∈ f.allocated pool' ∧ f.Claimable pool a

variable {f} {o : Option (BitVec w)}

theorem Found.fresh (h : f.Found pool pool' o) (ha : a ∈ o) : a ∉ f.allocated pool ∧ a ∈ f.allocated pool' := by
  obtain ⟨hmem, net, -, hfree⟩ := h a ha
  exact ⟨(firstFree_spec hfree).2, hmem⟩

theorem Claimed.fresh (h : f.Claimed pool pool' o) (ha : a ∈ o) : a ∉ f.allocated pool ∧ a ∈ f.allocated pool' :=
  ⟨(h a ha).2.not_allocated, (h a ha).1⟩

variable (f)

theorem allocateFrom_found (pool : AddressPool) (h : allocateFrom (f.net pool) f.allocate pool = (.ok o, pool')) :
    ∃ addrs, pool' = f.store addrs pool ∧ f.Found pool pool' o := by
  obtain ⟨rfl, rfl⟩ | ⟨net, hnet, a, rfl, hrun⟩ := allocateFrom_eq_ok h
  · exact ⟨_, (f.store_allocated _).symm, by rintro a ⟨⟩⟩
  · obtain ⟨hfree, rfl⟩ := f.allocate_eq_ok hrun
    refine ⟨_, rfl, ?_⟩
    rintro a ⟨⟩
    exact ⟨f.mem_grant a pool, net, hnet, hfree⟩

theorem forM_claimed {u : Unit} (h : o.forM f.claim pool = (.ok u, pool')) :
    ∃ addrs, pool' = f.store addrs pool ∧ f.Claimed pool pool' o := by
  cases o with
  | none =>
    cases h
    exact ⟨_, (f.store_allocated _).symm, by rintro a ⟨⟩⟩
  | some a =>
    obtain ⟨hclaimable, rfl⟩ := f.claim_eq_ok h
    refine ⟨_, rfl, ?_⟩
    rintro a ⟨⟩
    exact ⟨f.mem_grant a pool, hclaimable⟩

/-- What a pool answers that serves this family alone. -/
def answer (address : BitVec w → VpnAddress) (net : IpNet w) (pool : AddressPool) :
    Outcome CoreError VpnAddress × AddressPool :=
  match f.free net pool with
  | some a => (.ok (address a), f.grant a pool)
  | none => (.error (.error .addressPoolExhausted), pool)

theorem allocate_alone (address : BitVec w → VpnAddress) (net : IpNet w) (pool : AddressPool) :
    (f.allocate net >>= fun a => pure (address a)) pool = f.answer address net pool := by
  rw [bind_apply, allocate_eq, answer]
  cases f.free net pool <;> rfl

end Family

open Family

theorem allocate_v4_only {pool : AddressPool} {net : Ipv4Net} (h4 : pool.ipv4Net = some net)
    (h6 : pool.ipv6Net = none) : AddressPool.allocate pool = ipv4.answer (fun a => ⟨some a, none⟩) net pool := by
  rw [← allocate_alone]
  simp only [AddressPool.allocate, allocateFrom, allocateV4, bind_apply, get_apply, h4, h6]
  cases ipv4.allocate net pool with
  | mk result pool' => cases result <;> rfl

theorem allocate_v6_only {pool : AddressPool} {net : Ipv6Net} (h4 : pool.ipv4Net = none)
    (h6 : pool.ipv6Net = some net) : AddressPool.allocate pool = ipv6.answer (fun a => ⟨none, some a⟩) net pool := by
  rw [← allocate_alone]
  simp only [AddressPool.allocate, allocateFrom, allocateV6, bind_apply, get_apply, pure_apply, h4, h6]
  cases ipv6.allocate net pool with
  | mk result pool' => cases result <;> rfl

end CoreVpn.Core.AddressPools
