import CoreVpn.Protocol.Traffic

namespace CoreVpn.Protocol.SessionRuns

open Lib.Computation Lib.Wire Lib.Machine Crypto.Ciphers Crypto.Keys
open Opcodes Packets Reliable Sessions ProtocolSession Sending SessionFrames
open Traffic (fresh handOut handOut_snd)

/-- Everything that the owner of a session can do to it. -/
inductive Call where
  | session (call : Traffic.Call)
  | setState (now : Instant) (state : ProtocolState)
  | setRemoteSessionId (id : SessionId)
  | setTlsAuth (key : HmacAuth)
  | setCipherSuite (suite : CipherSuite)
  | installKeys (material : KeyMaterial) (isServer : Bool)
  | encryptData (data : Bytes)
  | rotateKey

def step (P : Primitives) (s : ProtocolSession) : Call → List Bytes × ProtocolSession
  | .session call => Traffic.step P s call
  | .setState now state => ([], s.setState now state)
  | .setRemoteSessionId id => ([], s.setRemoteSessionId id)
  | .setTlsAuth key => ([], s.setTlsAuth key)
  | .setCipherSuite suite => ([], s.setCipherSuite suite)
  | .installKeys material isServer => ([], (installKeys material isServer s).2)
  | .encryptData data => handOut ([·]) (encryptData P data s)
  | .rotateKey => ([], s.rotateKey)

def Reachable (P : Primitives) (s : ProtocolSession) : Prop :=
  ∃ (isServer : Bool) (suite : CipherSuite) (sessionId : SessionId) (now : Instant) (calls : List Call),
    exec (step P) (fresh isServer suite sessionId now none) calls = s

structure Limits (s : ProtocolSession) : Prop where
  windowSize : s.reliable.config.windowSize = 8
  maxSize : s.tlsReassembler.maxSize = 65536
  room : s.reliable.outOfOrder.size ≤ ReliableTransport.maxOutOfOrder
  keyId_lt : s.currentKeyId.val < 8

def KeepsLimits (s t : ProtocolSession) : Prop := Limits s → Limits t

instance : IsPreorder ProtocolSession KeepsLimits where
  refl _ := id
  trans _ _ _ h h' := h' ∘ h

theorem tolerates_keepsLimits : Tolerates KeepsLimits where
  reliable _ _ h l := ⟨h.config ▸ l.windowSize, l.maxSize, h.room l.room, l.keyId_lt⟩
  tlsReassembler _ _ h l := ⟨l.windowSize, h.maxSize.trans l.maxSize, l.room, l.keyId_lt⟩
  remoteSessionId _ _ l := ⟨l.windowSize, l.maxSize, l.room, l.keyId_lt⟩
  state _ _ _ l := ⟨l.windowSize, l.maxSize, l.room, l.keyId_lt⟩

theorem sends_keepsLimits : Sends KeepsLimits where
  reliable _ _ h l := ⟨h.config ▸ l.windowSize, l.maxSize, h.outOfOrder ▸ l.room, l.keyId_lt⟩
  tlsAuthPacketId _ _ l := ⟨l.windowSize, l.maxSize, l.room, l.keyId_lt⟩

theorem keepsLimits_dataChannels (s : ProtocolSession)
    (channels : Fin 8 → Option DataChannels.DataChannel) : KeepsLimits s { s with dataChannels := channels } :=
  fun l => ⟨l.windowSize, l.maxSize, l.room, l.keyId_lt⟩

theorem traffic_keepsLimits (P : Primitives) (s : ProtocolSession) (call : Traffic.Call) :
    KeepsLimits s (Traffic.step P s call).2 := by
  refine Traffic.rel_step sends_keepsLimits P s fun clock data _ => ?_
  apply frames_processPacket_of P clock tolerates_keepsLimits _ _ keepsLimits_dataChannels data s
  · exact fun _ _ l => ⟨l.windowSize, l.maxSize, l.room, l.keyId_lt⟩
  · exact fun _ _ l => ⟨l.windowSize, l.maxSize, l.room, l.keyId_lt⟩

theorem step_limits (P : Primitives) (s : ProtocolSession) (call : Call) (h : Limits s) :
    Limits (step P s call).2 := by
  cases call with
  | session call => exact traffic_keepsLimits P s call h
  | setState now state => exact ⟨h.windowSize, h.maxSize, h.room, h.keyId_lt⟩
  | setRemoteSessionId id => exact ⟨h.windowSize, h.maxSize, h.room, h.keyId_lt⟩
  | setTlsAuth key => exact ⟨h.windowSize, h.maxSize, h.room, h.keyId_lt⟩
  | setCipherSuite suite => exact ⟨h.windowSize, h.maxSize, h.room, h.keyId_lt⟩
  | installKeys material isServer => exact frames_installKeys keepsLimits_dataChannels material isServer s h
  | encryptData data =>
    rw [step, handOut_snd]
    exact frames_encryptData P keepsLimits_dataChannels data s h
  | rotateKey => exact ⟨h.windowSize, h.maxSize, h.room, fromByte_lt _⟩

theorem limits_fresh (isServer : Bool) (suite : CipherSuite) (sessionId : SessionId) (now : Instant) :
    Limits (fresh isServer suite sessionId now none) := by
  cases isServer with
  | true => exact ⟨rfl, rfl, Nat.zero_le _, (by decide : (0 : UInt8) < 8)⟩
  | false => exact ⟨rfl, rfl, Nat.zero_le _, (by decide : (0 : UInt8) < 8)⟩

theorem Reachable.limits {P : Primitives} {s : ProtocolSession} (h : Reachable P s) : Limits s := by
  obtain ⟨isServer, suite, sessionId, now, calls, rfl⟩ := h
  exact exec_of_step (step_limits P) (limits_fresh isServer suite sessionId now) calls

structure Bounded (s : ProtocolSession) : Prop where
  maxSize : s.tlsReassembler.maxSize = 65536
  within : s.tlsReassembler.buffer.length ≤ s.tlsReassembler.maxSize

def KeepsBound (s t : ProtocolSession) : Prop := Reassembled s.tlsReassembler t.tlsReassembler

instance : IsPreorder ProtocolSession KeepsBound where
  refl s := refl_of Reassembled s.tlsReassembler
  trans _ _ _ h h' := trans_of Reassembled h h'

variable {P : Primitives} {s t : ProtocolSession}

theorem Bounded.of_keeps (hs : Bounded s) (h : KeepsBound s t) : Bounded t :=
  ⟨h.maxSize.trans hs.maxSize, h.within hs.within⟩

theorem keepsBound_of_eq (h : t.tlsReassembler = s.tlsReassembler) : KeepsBound s t := by
  rw [KeepsBound, h]
  exact refl_of Reassembled _

theorem tolerates_keepsBound : Tolerates KeepsBound where
  reliable _ _ _ := keepsBound_of_eq rfl
  tlsReassembler _ _ h := h
  remoteSessionId _ _ := keepsBound_of_eq rfl
  state _ _ _ := keepsBound_of_eq rfl

theorem sends_keepsBound : Sends KeepsBound where
  reliable _ _ _ := keepsBound_of_eq rfl
  tlsAuthPacketId _ _ := keepsBound_of_eq rfl

theorem step_keepsBound (P : Primitives) (s : ProtocolSession) (call : Call) :
    KeepsBound s (step P s call).2 := by
  cases call with
  | session call =>
    refine Traffic.rel_step sends_keepsBound P s (fun clock data _ => ?_)
    exact frames_processPacket_of P clock tolerates_keepsBound (fun _ _ => keepsBound_of_eq rfl)
      (fun _ _ => keepsBound_of_eq rfl) (fun _ _ => keepsBound_of_eq rfl) data s
  | setState now state => exact keepsBound_of_eq rfl
  | setRemoteSessionId id => exact keepsBound_of_eq rfl
  | setTlsAuth key => exact keepsBound_of_eq rfl
  | setCipherSuite suite => exact keepsBound_of_eq rfl
  | installKeys material isServer =>
    exact frames_installKeys (fun _ _ => keepsBound_of_eq rfl) material isServer s
  | encryptData data =>
    rw [step, handOut_snd]
    exact frames_encryptData P (fun _ _ => keepsBound_of_eq rfl) data s
  | rotateKey => exact keepsBound_of_eq rfl

theorem Reachable.bounded (h : Reachable P s) : Bounded s := by
  refine ⟨h.limits.maxSize, ?_⟩
  obtain ⟨isServer, suite, sessionId, now, calls, rfl⟩ := h
  have hrun : KeepsBound _ (exec (step P) (fresh isServer suite sessionId now none) calls) :=
    rel_exec (K := fun _ => True) (fun s call _ => step_keepsBound P s call) (fun _ _ => trivial) _
  cases isServer with
  | true => exact hrun.within (Nat.zero_le _)
  | false => exact hrun.within (Nat.zero_le _)

end CoreVpn.Protocol.SessionRuns
