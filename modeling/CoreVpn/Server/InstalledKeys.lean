import CoreVpn.Server.HandlerFrames

namespace CoreVpn.Server.InstalledKeys

open Lib.Computation Lib.Wire Crypto.Ciphers Crypto.Keys Crypto.Prf Protocol.Errors Protocol.Sessions
open Protocol.DataChannels Protocol.ControlMessages Protocol.TlsHandlers Protocol.SessionFrames
open Connections KeyExchange HandlerFrames

variable {C : Type}

def currentChannel (s : ProtocolSession) : Option DataChannel :=
  if h : s.currentKeyId.val.toNat < 8 then s.dataChannels ⟨s.currentKeyId.val.toNat, h⟩ else none

/-- Each side encrypts with the key named after it. -/
def channelOf (s : ProtocolSession) (material : KeyMaterial) (isServer : Bool) : DataChannel :=
  let serverKey := material.serverDataKey s.cipherSuite
  let clientKey := material.clientDataKey s.cipherSuite
  let keys := if isServer then (serverKey, clientKey) else (clientKey, serverKey)
  DataChannel.new s.currentKeyId keys.1 keys.2 s.peerId.isSome s.peerId

theorem installKeys_eq {s : ProtocolSession} (hkey : s.currentKeyId.val.toNat < 8) (material : KeyMaterial)
    (isServer : Bool) :
    ∃ t, ProtocolSession.installKeys material isServer s = (.ok (), t) ∧ t.cipherSuite = s.cipherSuite ∧
      currentChannel t = some (channelOf s material isServer) := by
  rw [ProtocolSession.installKeys, dif_pos hkey]
  refine ⟨_, rfl, rfl, ?_⟩
  rw [currentChannel, dif_pos hkey]
  exact Function.update_self _ _ _

theorem installKeys_eq_ok {s t : ProtocolSession} {material : KeyMaterial} {isServer : Bool}
    (h : ProtocolSession.installKeys material isServer s = (.ok (), t)) :
    currentChannel t = some (channelOf s material isServer) := by
  by_cases hkey : s.currentKeyId.val.toNat < 8
  · obtain ⟨_, hinstalled, -, hchannel⟩ := installKeys_eq hkey material isServer
    rw [h] at hinstalled
    cases hinstalled
    exact hchannel
  · rw [ProtocolSession.installKeys, dif_neg hkey] at h
    cases h

def KeepsSetup (s t : Ctx C) : Prop := SameSetup s.conn.protocol t.conn.protocol

instance : IsPreorder (Ctx C) KeepsSetup where
  refl s := refl_of SameSetup s.conn.protocol
  trans _ _ _ h h' := trans_of SameSetup h h'

instance {E : TlsEngine C} : ThroughTls E KeepsSetup := ⟨fun s _ _ _ _ => refl_of SameSetup s.conn.protocol⟩

instance : Quiet (KeepsSetup (C := C)) where
  session _ _ h := h
  stats s _ := refl_of SameSetup s.conn.protocol
  packets s _ := refl_of SameSetup s.conn.protocol

/-- A key exchange that succeeds has settled the suite, sent its answer, and
installed what it derived from the session after that. -/
theorem exchangeKeys_eq_ok {H : Host C} {env : Env} {clientKm : KeyMethodV2} {s t : Ctx C} {cipher : String}
    (h : exchangeKeys H env clientKm s = (.ok cipher, t)) :
    cipher = negotiateCipher H clientKm.peerInfo ∧ ∃ session material,
      SameSetup (s.conn.protocol.setCipherSuite (negotiatedSuite cipher)) session ∧
        KeyMaterial.fromOpenvpnKey2Block (deriveKeyBlock H env clientKm session) = .ok material ∧
        ProtocolSession.installKeys material true session = (.ok (), t.conn.protocol) := by
  obtain ⟨_, named, hnamed, h⟩ := bind_eq_ok h
  obtain ⟨_, chosen, hchosen, h⟩ := bind_eq_ok h
  obtain ⟨_, written, hwritten, h⟩ := bind_eq_ok h
  obtain ⟨_, flushed, hflushed, h⟩ := bind_eq_ok h
  obtain ⟨_, _, hget, h⟩ := bind_eq_ok h
  cases hget
  obtain ⟨material, _, hmaterial, h⟩ := bind_eq_ok h
  rw [lift_apply, Prod.mk.injEq] at hmaterial
  obtain ⟨hmaterial, rfl⟩ := hmaterial
  obtain ⟨_, installed, hinstalled, h⟩ := bind_eq_ok h
  obtain ⟨session, hkeys, rfl⟩ := zoom_eq_ok hinstalled
  cases h
  refine ⟨rfl, flushed.conn.protocol, material, ?_, Outcome.mapFault_eq_ok_iff.mp hmaterial, hkeys⟩
  have hstart : chosen.conn.protocol =
      s.conn.protocol.setCipherSuite (negotiatedSuite (negotiateCipher H clientKm.peerInfo)) := by
    cases hnamed
    cases hchosen
    cases clientKm.username <;> rfl
  rw [← hstart]
  exact trans_of KeepsSetup ((frames_tryWrite H _).rel hwritten) ((frames_flushTls H _).rel hflushed)

end CoreVpn.Server.InstalledKeys
