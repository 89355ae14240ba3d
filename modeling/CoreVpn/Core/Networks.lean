import Mathlib.Tactic

namespace CoreVpn.Core.Networks

/-- IPv4 and IPv6 addresses as the numbers they stand for. -/
abbrev Ipv4Addr := BitVec 32
abbrev Ipv6Addr := BitVec 128

def octet (addr : Ipv4Addr) (i : Nat) : Nat := (addr >>> (24 - 8 * i)).toNat % 256

def dotted (addr : Ipv4Addr) : String :=
  s!"{octet addr 0}.{octet addr 1}.{octet addr 2}.{octet addr 3}"

def ofOctets (a b c d : UInt8) : Ipv4Addr :=
  BitVec.ofNat 32 (((a.toNat * 256 + b.toNat) * 256 + c.toNat) * 256 + d.toNat)

inductive IpAddr where
  | v4 (addr : Ipv4Addr)
  | v6 (addr : Ipv6Addr)
  deriving DecidableEq

inductive SocketAddr where
  | v4 (ip : Ipv4Addr) (port : UInt16)
  | v6 (ip : Ipv6Addr) (port : UInt16) (flowinfo scopeId : UInt32)
  deriving DecidableEq

structure IpNet (w : Nat) where
  addr : BitVec w
  prefixLen : Nat
  prefixLen_le : prefixLen ≤ w
  deriving DecidableEq, Repr

abbrev Ipv4Net := IpNet 32
abbrev Ipv6Net := IpNet 128

namespace IpNet

variable {w : Nat}

def block (addr : BitVec w) (prefixLen : Fin (w + 1)) : IpNet w :=
  ⟨addr, prefixLen, Nat.le_of_lt_succ prefixLen.isLt⟩

def hostmask (net : IpNet w) : BitVec w := BitVec.ofNat w (2 ^ (w - net.prefixLen) - 1)

def netmask (net : IpNet w) : BitVec w := ~~~net.hostmask

def network (net : IpNet w) : BitVec w := net.addr &&& net.netmask

def broadcast (net : IpNet w) : BitVec w := net.addr ||| net.hostmask

def gateway (net : IpNet w) : BitVec w := net.network + 1

def contains (net : IpNet w) (addr : BitVec w) : Bool := net.network ≤ addr && addr ≤ net.broadcast

section Bounds

variable {net : IpNet w}

theorem toNat_hostmask (net : IpNet w) : net.hostmask.toNat = 2 ^ (w - net.prefixLen) - 1 := by
  have hle : 2 ^ (w - net.prefixLen) ≤ 2 ^ w := Nat.pow_le_pow_right (by decide) (Nat.sub_le _ _)
  have hpos : 0 < 2 ^ (w - net.prefixLen) := Nat.two_pow_pos _
  rw [hostmask, BitVec.toNat_ofNat]
  exact Nat.mod_eq_of_lt (by omega)

theorem toNat_broadcast (net : IpNet w) :
    net.broadcast.toNat = net.network.toNat + (2 ^ (w - net.prefixLen) - 1) := by
  have hdisjoint : net.network &&& net.hostmask = 0#w := by
    rw [network, netmask, BitVec.and_assoc, BitVec.and_comm (~~~net.hostmask), BitVec.and_not_self]
    exact BitVec.and_zero
  have hbroadcast : net.broadcast = net.network + net.hostmask := by
    rw [BitVec.add_eq_or_of_and_eq_zero _ _ hdisjoint, network, netmask, broadcast]
    ext i hi
    simp only [BitVec.getElem_or, BitVec.getElem_and, BitVec.getElem_not]
    cases net.addr[i] <;> cases net.hostmask[i] <;> rfl
  rw [hbroadcast, BitVec.toNat_add_of_and_eq_zero hdisjoint, toNat_hostmask]

theorem toNat_network (net : IpNet w) :
    net.network.toNat = net.addr.toNat / 2 ^ (w - net.prefixLen) * 2 ^ (w - net.prefixLen) := by
  have hdisjoint : net.network &&& (net.addr &&& net.hostmask) = 0#w := by
    rw [network, netmask, BitVec.and_assoc, ← BitVec.and_assoc (~~~net.hostmask),
      BitVec.and_comm (~~~net.hostmask) net.addr, BitVec.and_assoc net.addr, BitVec.and_comm (~~~net.hostmask),
      BitVec.and_not_self]
    simp
  have haddr : net.addr = net.network ||| (net.addr &&& net.hostmask) := by
    rw [network, netmask]
    ext i hi
    simp only [BitVec.getElem_or, BitVec.getElem_and, BitVec.getElem_not]
    cases net.addr[i] <;> cases net.hostmask[i] <;> rfl
  have hsum := congrArg BitVec.toNat haddr
  rw [← BitVec.add_eq_or_of_and_eq_zero _ _ hdisjoint, BitVec.toNat_add_of_and_eq_zero hdisjoint,
    BitVec.toNat_and, toNat_hostmask, Nat.and_two_pow_sub_one_eq_mod] at hsum
  have hdiv := Nat.div_add_mod' net.addr.toNat (2 ^ (w - net.prefixLen))
  omega

theorem and_netmask_eq_iff (net : IpNet w) (addr : BitVec w) :
    addr &&& net.netmask = net.network ↔
      addr.toNat / 2 ^ (w - net.prefixLen) = net.addr.toNat / 2 ^ (w - net.prefixLen) := by
  have hfront : (addr &&& net.netmask).toNat = _ := toNat_network { net with addr := addr }
  rw [← BitVec.toNat_inj, hfront, toNat_network]
  exact Nat.mul_left_inj (Nat.two_pow_pos _).ne'

theorem contains_iff (net : IpNet w) (addr : BitVec w) :
    net.contains addr = true ↔
      addr.toNat / 2 ^ (w - net.prefixLen) = net.addr.toNat / 2 ^ (w - net.prefixLen) := by
  have hpos : 0 < 2 ^ (w - net.prefixLen) := Nat.two_pow_pos _
  rw [contains, Bool.and_eq_true, decide_eq_true_eq, decide_eq_true_eq, BitVec.le_def, BitVec.le_def,
    toNat_broadcast, toNat_network, ← Nat.le_div_iff_mul_le hpos]
  generalize net.addr.toNat / 2 ^ (w - net.prefixLen) = front
  rw [Nat.div_eq_iff hpos, Nat.le_div_iff_mul_le hpos]
  omega

theorem toNat_network_add {k : Nat} (hk : net.network.toNat + k ≤ net.broadcast.toNat) :
    (net.network + BitVec.ofNat w k).toNat = net.network.toNat + k := by
  have hlt := net.broadcast.isLt
  rw [BitVec.toNat_add, BitVec.toNat_ofNat, Nat.add_mod_mod]
  exact Nat.mod_eq_of_lt (by omega)

theorem four_le_size (h : net.prefixLen + 2 ≤ w) : net.network.toNat + 3 ≤ net.broadcast.toNat := by
  have hpow : 2 ^ 2 ≤ 2 ^ (w - net.prefixLen) := Nat.pow_le_pow_right (by decide) (by omega)
  rw [toNat_broadcast]
  omega

end Bounds

end IpNet

end CoreVpn.Core.Networks
