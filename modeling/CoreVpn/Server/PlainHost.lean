import CoreVpn.Server.Handlers

namespace CoreVpn.Server.PlainHost

open Lib.Wire Core.Networks Core.AddressPools Crypto.Ciphers Protocol.TlsHandlers Connections Handlers

theorem prefixLen_le : 24 ≤ 32 := by decide

/-- A server without cryptography, with or without OAuth, for 10.8.0.0/24. -/
def plainHost (oauth : Bool) : Host Bytes where
  primitives := .single []
  hashes := ⟨fun _ _ => zeros 16, fun _ _ => zeros 20⟩
  toUppercase := id
  engine := .plain
  config := {
    publicHost := "vpn.example.com"
    subnet := ⟨ofOctets 10 8 0 0, 24, prefixLen_le⟩
    dns := []
    pushRoutes := []
    redirectGateway := false
    cipher := "AES-256-GCM"
    renegSec := 3600
    oauth := some ⟨oauth, 443, none⟩
    connectionEvents := {} }
  tlsConfigured := true
  tlsAuthKey := none

def startOf (C : Type) : System C :=
  ⟨⟨AddressPool.newUnchecked (some ⟨ofOctets 10 8 0 0, 24, prefixLen_le⟩) none,
    fun _ => none, fun _ => none⟩, []⟩

theorem start_config (C : Type) (oauth : Bool) : start (plainHost oauth).config = .ok (startOf C) := by
  have hvalid : validateIpv4Net ⟨ofOctets 10 8 0 0, 24, prefixLen_le⟩ = .ok () := by decide +kernel
  simp only [start, VpnServer.new, AddressPool.new, plainHost, hvalid]
  rfl

def plainStart : System Bytes := startOf Bytes

theorem start_plainHost (oauth : Bool) : start (plainHost oauth).config = .ok plainStart := start_config Bytes oauth

def atSecond (seconds : Nat) (token : BitVec 128) : Env where
  clock := ⟨seconds * 1000000000, 0⟩
  timestamp := 0
  sessionId := zeros 8
  connectionId := 0
  serverRandom1 := zeros 32
  serverRandom2 := zeros 32
  stateToken := token
  sends := fun _ => true

def hardReset : Bytes := [56, 1, 2, 3, 4, 5, 6, 7, 8, 0, 0, 0, 0, 0]

/-- A control packet with the given message id, whose payload is one TLS record
with a key method message. Its strings are empty. -/
def keyMethod (id : UInt8) : Bytes :=
  [32, 1, 2, 3, 4, 5, 6, 7, 8, 0, 0, 0, 0, id] ++ [23, 3, 3, 0, 119] ++ [0, 0, 0, 0, 2] ++
    List.replicate 114 0

def alice : SocketAddr := .v4 (ofOctets 192 0 2 1) 5000

def bob : SocketAddr := .v4 (ofOctets 192 0 2 2) 5000

def connecting : List Event :=
  [.packet (atSecond 0 0) alice hardReset, .packet (atSecond 1 0) alice (keyMethod 1)]

def joining : List Event :=
  [.packet (atSecond 2 0) bob hardReset, .packet (atSecond 3 0) bob (keyMethod 1)]

end CoreVpn.Server.PlainHost
