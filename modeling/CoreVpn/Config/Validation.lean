import CoreVpn.Core.Networks
import CoreVpn.Lib.Computation
import CoreVpn.Lib.Text

namespace CoreVpn.Config.Validation

open Lib.Computation Lib.Text Core.Networks

inductive ConfigError where
  | missingField (field : String)
  | validationError (message : String)
  deriving DecidableEq, Repr

inductive Network where
  | v4 (net : Ipv4Net)
  | v6 (net : Ipv6Net)
  deriving DecidableEq

def Network.canonical : Network → Network
  | .v4 net => .v4 { net with addr := net.network }
  | .v6 net => .v6 { net with addr := net.network }

theorem canonical_eq_self_iff (net : Ipv4Net) : (Network.v4 net).canonical = .v4 net ↔ net.addr = net.network := by
  constructor
  · intro h
    exact (congrArg IpNet.addr (Network.v4.inj h)).symm
  · intro h
    rw [Network.canonical, ← h]

structure NetParsers where
  ipv4Net : String → Option Ipv4Net
  ipv6Net : String → Option Ipv6Net

def decimal (s : String) : Option Nat :=
  if s.isEmpty || s.toList.any (fun c => !c.isDigit) then none
  else some (s.toList.foldl (fun n c => n * 10 + (c.toNat - 48)) 0)

def decimalAddr (s : String) : Option Ipv4Addr :=
  match split s '.' with
  | [first, second, third, fourth] => do
    let a ← decimal first
    let b ← decimal second
    let c ← decimal third
    let d ← decimal fourth
    if a < 256 ∧ b < 256 ∧ c < 256 ∧ d < 256 then
      return BitVec.ofNat 32 (((a * 256 + b) * 256 + c) * 256 + d)
    else none
  | _ => none

/-- What is assumed of the parsers: a network is written as an address, a slash
and the length of the prefix. The numbers of an IPv4 address are decimal, and an
IPv6 address has colons. -/
structure NetParsers.Reads (N : NetParsers) : Prop where
  ipv4 : ∀ entry net, N.ipv4Net entry = some net → ∃ address length, entry = address ++ "/" ++ length ∧
    decimalAddr address = some net.addr ∧ decimal length = some net.prefixLen
  ipv6 : ∀ entry net, N.ipv6Net entry = some net → ∃ address length, entry = address ++ "/" ++ length ∧
    ':' ∈ address.toList ∧ (∀ c ∈ address.toList, c.isAlphanum = true ∨ c = ':' ∨ c = '.') ∧
    ∀ c ∈ length.toList, c.isDigit = true

def NetParsers.parse (N : NetParsers) (s : String) : Option Network :=
  (N.ipv4Net s).map .v4 <|> (N.ipv6Net s).map .v6

def validatePushRoutesFrom (N : NetParsers) : Nat → List String → Outcome ConfigError Unit
  | _, [] => .ok ()
  | idx, route :: routes =>
    if !(N.ipv4Net route).isSome && !(N.ipv6Net route).isSome then
      .error (.error (.validationError
        s!"invalid push route #{idx + 1} '{route}': must be valid IPv4 or IPv6 network"))
    else validatePushRoutesFrom N (idx + 1) routes

def validatePushRoutes (N : NetParsers) (routes : List String) : Outcome ConfigError Unit :=
  validatePushRoutesFrom N 0 routes

theorem validatePushRoutesFrom_eq_ok_iff (N : NetParsers) (idx : Nat) (routes : List String) :
    validatePushRoutesFrom N idx routes = .ok () ↔ ∀ route ∈ routes, (N.parse route).isSome := by
  induction routes generalizing idx with
  | nil => exact iff_of_true rfl fun route hroute => nomatch hroute
  | cons route routes ih =>
    rw [validatePushRoutesFrom, List.forall_mem_cons, ← ih (idx + 1), NetParsers.parse]
    cases N.ipv4Net route <;> cases N.ipv6Net route <;> simp

theorem validatePushRoutes_eq_ok_iff (N : NetParsers) (routes : List String) :
    validatePushRoutes N routes = .ok () ↔ ∀ route ∈ routes, (N.parse route).isSome :=
  validatePushRoutesFrom_eq_ok_iff N 0 routes

end CoreVpn.Config.Validation
