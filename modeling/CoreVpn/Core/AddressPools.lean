import CoreVpn.Core.Networks
import CoreVpn.Lib.Computation

namespace CoreVpn.Core.AddressPools

open Lib.Computation Networks

inductive InvalidAddress where
  | notInPoolV4 (addr : Ipv4Addr) (net : Ipv4Net)
  | notInPoolV6 (addr : Ipv6Addr) (net : Ipv6Net)
  | unavailableV4 (addr : Ipv4Addr)
  | unavailableV6 (addr : Ipv6Addr)
  deriving DecidableEq, Repr

inductive CoreError where
  | addressPoolExhausted
  | configError (reason : String)
  | invalidAddress (reason : InvalidAddress)
  | sessionNotFound (id : String)
  | internal (reason : String)
  deriving DecidableEq, Repr

structure VpnAddress where
  ipv4 : Option Ipv4Addr
  ipv6 : Option Ipv6Addr
  deriving DecidableEq

structure AddressPool where
  ipv4Net : Option Ipv4Net
  ipv6Net : Option Ipv6Net
  allocatedV4 : Finset Ipv4Addr
  allocatedV6 : Finset Ipv6Addr
  reservedV4 : Finset Ipv4Addr
  reservedV6 : Finset Ipv6Addr
  deriving DecidableEq

def refuse {α : Type} (reason : String) : Outcome CoreError α := .error (.error (.configError reason))

/-- The checks on a network. Both families make the same ones, each with its
own bounds and its own special addresses. -/
def validateNet {w : Nat} (family : String) (minLen maxLen : Nat) (isLoopback isMulticast : BitVec w → Bool)
    (isLinkLocal : BitVec w → Bool) (linkLocalRange : String) (net : IpNet w) : Outcome CoreError Unit :=
  if net.prefixLen < minLen then
    refuse s!"{family} network prefix length {net.prefixLen} is too small (minimum {minLen})"
  else if net.prefixLen > maxLen then
    refuse s!"{family} network prefix length {net.prefixLen} is too large (maximum {maxLen})"
  else if isLoopback net.network || decide (net.network = 0) then
    refuse s!"{family} network cannot be a loopback or unspecified address"
  else if isMulticast net.network then
    refuse s!"{family} network cannot be a multicast address"
  else if isLinkLocal net.network then
    refuse s!"{family} network cannot be in the link-local range ({linkLocalRange})"
  else .ok ()

def validateIpv4Net : Ipv4Net → Outcome CoreError Unit :=
  validateNet "IPv4" 8 30 (fun a => octet a 0 == 127) (fun a => 224 ≤ octet a 0 && octet a 0 ≤ 239)
    (fun a => octet a 0 == 169 && octet a 1 == 254) "169.254.0.0/16"

def validateIpv6Net : Ipv6Net → Outcome CoreError Unit :=
  validateNet "IPv6" 48 120 (fun a => a == 1) (fun a => (a >>> 120).toNat == 0xff)
    (fun a => (a >>> 118).toNat == 0x3fa) "fe80::/10"

namespace AddressPool

/-- IPv4 pools keep back the network, broadcast and gateway addresses, IPv6
pools only the gateway. -/
def newUnchecked (ipv4Net : Option Ipv4Net) (ipv6Net : Option Ipv6Net) : AddressPool where
  ipv4Net := ipv4Net
  ipv6Net := ipv6Net
  allocatedV4 := ∅
  allocatedV6 := ∅
  reservedV4 := match ipv4Net with
    | some net => {net.network, net.broadcast, net.gateway}
    | none => ∅
  reservedV6 := match ipv6Net with
    | some net => {net.gateway}
    | none => ∅

def new (ipv4Net : Option Ipv4Net) (ipv6Net : Option Ipv6Net) : Outcome CoreError AddressPool := do
  match ipv4Net with
  | some net => validateIpv4Net net
  | none => pure ()
  match ipv6Net with
  | some net => validateIpv6Net net
  | none => pure ()
  if ipv4Net.isNone && ipv6Net.isNone then
    refuse "At least one network (IPv4 or IPv6) must be provided"
  else
    return newUnchecked ipv4Net ipv6Net

def gatewayV4 (pool : AddressPool) : Option Ipv4Addr := pool.ipv4Net.map IpNet.gateway

/-- The search of the allocation loops: the first address that is neither
reserved nor allocated, among so many from a given one on. -/
def firstFree {w : Nat} (reserved allocated : Finset (BitVec w)) : Nat → BitVec w → Option (BitVec w)
  | 0, _ => none
  | count + 1, addr =>
    if addr ∉ reserved ∧ addr ∉ allocated then some addr else firstFree reserved allocated count (addr + 1)

end AddressPool

/-- What a pool keeps of one family of addresses, how many addresses of a
network the search goes through, and the errors that name an address. -/
structure Family (w : Nat) where
  net : AddressPool → Option (IpNet w)
  reserved : AddressPool → Finset (BitVec w)
  allocated : AddressPool → Finset (BitVec w)
  store : Finset (BitVec w) → AddressPool → AddressPool
  searched : IpNet w → Nat
  notInPool : BitVec w → IpNet w → InvalidAddress
  unavailable : BitVec w → InvalidAddress
  allocated_store : ∀ addrs pool, allocated (store addrs pool) = addrs
  store_allocated : ∀ pool, store (allocated pool) pool = pool

namespace Family

open AddressPool

def ipv4 : Family 32 where
  net := ipv4Net
  reserved := reservedV4
  allocated := allocatedV4
  store addrs pool := { pool with allocatedV4 := addrs }
  searched net := net.broadcast.toNat - (net.network + 2).toNat
  notInPool := .notInPoolV4
  unavailable := .unavailableV4
  allocated_store _ _ := rfl
  store_allocated _ := rfl

def ipv6 : Family 128 where
  net := ipv6Net
  reserved := reservedV6
  allocated := allocatedV6
  store addrs pool := { pool with allocatedV6 := addrs }
  searched _ := 65534
  notInPool := .notInPoolV6
  unavailable := .unavailableV6
  allocated_store _ _ := rfl
  store_allocated _ := rfl

variable {w : Nat} (f : Family w)

def free (net : IpNet w) (pool : AddressPool) : Option (BitVec w) :=
  firstFree (f.reserved pool) (f.allocated pool) (f.searched net) (net.network + 2)

def allocate (net : IpNet w) : Program AddressPool CoreError (BitVec w) := do
  match f.free net (← get) with
  | some addr =>
    modify fun pool => f.store (insert addr (f.allocated pool)) pool
    return addr
  | none => fail .addressPoolExhausted

/-- A given address is compared with the network only if the pool has one of
the family. -/
def claim (addr : BitVec w) : Program AddressPool CoreError Unit := do
  let pool ← get
  match f.net pool with
  | some net => if net.contains addr then pure () else fail (.invalidAddress (f.notInPool addr net))
  | none => pure ()
  if addr ∈ f.reserved pool ∨ addr ∈ f.allocated pool then fail (.invalidAddress (f.unavailable addr))
  else modify (f.store (insert addr (f.allocated pool)))

end Family

namespace AddressPool

open Family

def freeV4 : Ipv4Net → AddressPool → Option Ipv4Addr := ipv4.free

def allocateV4 : Ipv4Net → Program AddressPool CoreError Ipv4Addr := ipv4.allocate

def allocateV6 : Ipv6Net → Program AddressPool CoreError Ipv6Addr := ipv6.allocate

def allocateFrom {α β : Type} (net : Option α) (p : α → Program AddressPool CoreError β) :
    Program AddressPool CoreError (Option β) := do
  match net with
  | some net =>
    let addr ← p net
    return some addr
  | none => return none

def allocate : Program AddressPool CoreError VpnAddress := do
  let pool ← get
  let ipv4 ← allocateFrom pool.ipv4Net allocateV4
  let ipv6 ← allocateFrom pool.ipv6Net allocateV6
  if ipv4.isNone && ipv6.isNone then fail (.configError "No address pools configured")
  else return ⟨ipv4, ipv6⟩

def allocateSpecific (addr : VpnAddress) : Program AddressPool CoreError VpnAddress := do
  addr.ipv4.forM ipv4.claim
  addr.ipv6.forM ipv6.claim
  return addr

def without {α : Type} [DecidableEq α] (addr : Option α) (allocated : Finset α) : Finset α :=
  match addr with
  | some addr => allocated.erase addr
  | none => allocated

/-- Release is part of the pool, but the server never calls it. -/
def release (addr : VpnAddress) (pool : AddressPool) : AddressPool :=
  { pool with
    allocatedV4 := without addr.ipv4 pool.allocatedV4
    allocatedV6 := without addr.ipv6 pool.allocatedV6 }

/-- The addresses of a network for its hosts. Only the networks of one or two
addresses do without a network and a broadcast address. -/
def hosts (net : Ipv4Net) : List Ipv4Addr :=
  if net.prefixLen ≤ 30 then
    (List.range (2 ^ (32 - net.prefixLen) - 2)).map fun k => net.network + 1 + BitVec.ofNat 32 k
  else
    (List.range (2 ^ (32 - net.prefixLen))).map fun k => net.network + BitVec.ofNat 32 k

def availableV4 (pool : AddressPool) : Nat :=
  match pool.ipv4Net with
  | some net => (hosts net).length - pool.reservedV4.card - pool.allocatedV4.card
  | none => 0

def availableV6 (pool : AddressPool) : Nat :=
  if pool.ipv6Net.isSome then 65534 - pool.allocatedV6.card else 0

end AddressPool

end CoreVpn.Core.AddressPools
