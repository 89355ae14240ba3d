import CoreVpn.Protocol.Datagrams

namespace CoreVpn.Protocol.DataPath

open Lib.Computation Lib.Wire Lib.Machine Crypto.Errors Crypto.Ciphers Crypto.Keys Crypto.Encryption
open Errors Opcodes DataChannels Sessions ProtocolSession Datagrams

/-- The sender encrypts an IP packet, or the network hands the receiver the
datagram with the given number, however often and in whatever order. -/
inductive Event where
  | send (ipPacket : Bytes)
  | deliver (k : Nat) (clock : Clock)

/-- Two sessions, the datagrams sent so far, and the packet ids of those
delivered so far: the datagram with number `k` has packet id `k + 1`. -/
structure Link where
  sender : ProtocolSession
  receiver : ProtocolSession
  wire : List Bytes
  delivered : List Nat

def step (P : Primitives) (l : Link) : Event → Option (Outcome ProtocolError ProcessedPacket) × Link
  | .send ipPacket =>
    match encryptData P ipPacket l.sender with
    | (.ok datagram, s) => (none, { l with sender := s, wire := l.wire ++ [datagram] })
    | (.error _, s) => (none, { l with sender := s })
  | .deliver k clock =>
    match l.wire[k]? with
    | some datagram =>
      let r := processPacket P clock datagram l.receiver
      (some r.1, { l with receiver := r.2, delivered := l.delivered ++ [k + 1] })
    | none => (none, l)

def sent (events : List Event) : List Bytes :=
  events.filterMap fun
    | .send ipPacket => some ipPacket
    | .deliver _ _ => none

section Invariant

variable {P : Primitives} {key : DataChannelKey} {keyId : KeyId} {peerId : Option UInt32}
  {ps : List Bytes} {l : Link}

/-- The AEAD is sound at every packet of a list, encrypted in order. -/
def SealsAll (A : Aead) (key : DataChannelKey) (adPrefix : Bytes) (ps : List Bytes) : Prop :=
  ∀ k p, ps[k]? = some p →
    Seals A key (nonceOf key (UInt32.ofNat (k + 1))) (aadOf adPrefix (UInt32.ofNat (k + 1))) p

/-- What holds of the link once the packets `ps` have been sent. -/
structure Linked (P : Primitives) (key : DataChannelKey) (keyId : KeyId) (peerId : Option UInt32)
    (hkey : keyId.val.toNat < 8) (ps : List Bytes) (l : Link) : Prop where
  keyId_eq : l.sender.currentKeyId = keyId
  sends : ∃ c, l.sender.dataChannels ⟨keyId.val.toNat, hkey⟩ = some c ∧
    Sender key keyId peerId ps.length c
  receives : ∃ c, l.receiver.dataChannels ⟨keyId.val.toNat, hkey⟩ = some c ∧
    Receiver key keyId (exec (Lib.Replay.filter 128) ∅ l.delivered) c
  length_wire : l.wire.length = ps.length
  wire : ∀ k p, ps[k]? = some p → ∃ sealed,
    P.aead.encrypt key.cipherSuite key.key (nonceOf key (UInt32.ofNat (k + 1))) p
        (aadOf (authenticatedHeader keyId peerId) (UInt32.ofNat (k + 1))) = some sealed ∧
      l.wire[k]? = some (datagram keyId peerId (UInt32.ofNat (k + 1)) sealed)
  delivered_ne_zero : ∀ i ∈ l.delivered, i ≠ 0

theorem step_send (hkey : keyId.val.toNat < 8) (h : Linked P key keyId peerId hkey ps l) {p : Bytes}
    (hlt : ps.length + 1 < 2 ^ 32)
    (hseal : Seals P.aead key (nonceOf key (UInt32.ofNat (ps.length + 1)))
      (aadOf (authenticatedHeader keyId peerId) (UInt32.ofNat (ps.length + 1))) p) :
    Linked P key keyId peerId hkey (ps ++ [p]) (step P l (.send p)).2 := by
  obtain ⟨c, hc, hsender⟩ := h.sends
  obtain ⟨sealed, d, henc, hd, heq⟩ :=
    channel_encrypt_eq hsender (UInt32.toNat_ofNat_of_lt' hlt) hseal
  have hsend : encryptData P p l.sender =
      (.ok (datagram keyId peerId (UInt32.ofNat (ps.length + 1)) sealed),
        { l.sender with dataChannels :=
            Function.update l.sender.dataChannels ⟨keyId.val.toNat, hkey⟩ (some d) }) := by
    simp only [encryptData, bind_apply, get_apply, onChannel, h.keyId_eq, hkey, dif_pos, hc, heq]
    rfl
  rw [step, hsend]
  refine ⟨h.keyId_eq, ⟨d, Function.update_self .., ?_⟩, h.receives, ?_, ?_, h.delivered_ne_zero⟩
  · rw [List.length_append]
    exact hd
  · simp [h.length_wire]
  · intro k q hk
    rcases Nat.lt_or_ge k ps.length with hlt | hge
    · rw [List.getElem?_append_left hlt] at hk
      obtain ⟨sealed', henc', hw⟩ := h.wire k q hk
      refine ⟨sealed', henc', ?_⟩
      rw [List.getElem?_append_left (by rw [h.length_wire]; exact hlt)]
      exact hw
    · obtain rfl : k = ps.length := by
        have := (List.getElem?_eq_some_iff.mp hk).1
        rw [List.length_append, List.length_singleton] at this
        omega
      obtain rfl : p = q := by simpa using hk
      refine ⟨sealed, henc, ?_⟩
      rw [List.getElem?_append_right (by rw [h.length_wire]), h.length_wire]
      simp

theorem step_deliver (hkey : keyId.val.toNat < 8) (hpeer : ∀ id ∈ peerId, id.toNat < 2 ^ 24)
    (h : Linked P key keyId peerId hkey ps l) (hlt : ps.length < 2 ^ 32)
    (hseal : SealsAll P.aead key (authenticatedHeader keyId peerId) ps) (k : Nat) (clock : Clock) :
    Linked P key keyId peerId hkey ps (step P l (.deliver k clock)).2 ∧
      ∀ p, ps[k]? = some p → (step P l (.deliver k clock)).1 =
        if Lib.Replay.Admits 128 (exec (Lib.Replay.filter 128) ∅ l.delivered) (k + 1) then
          some (.ok (.data p))
        else some (.error (.error (.cryptoError .replayDetected))) := by
  cases hk : ps[k]? with
  | none =>
    have hw : l.wire[k]? = none := by
      rw [List.getElem?_eq_none_iff] at hk ⊢
      rw [h.length_wire]
      exact hk
    rw [step, hw]
    exact ⟨h, fun p hp => by cases hp⟩
  | some p =>
    have hk' := (List.getElem?_eq_some_iff.mp hk).1
    have hid : (UInt32.ofNat (k + 1)).toNat = k + 1 := UInt32.toNat_ofNat_of_lt' (Nat.lt_of_le_of_lt hk' hlt)
    obtain ⟨sealed, henc, hw⟩ := h.wire k p hk
    obtain ⟨c, hc, hrecv⟩ := h.receives
    obtain ⟨d, hd, heq⟩ := channel_decrypt_eq hrecv (hseal k p hk) henc
    rw [hid] at hd heq
    have hproc := processPacket_serialize P clock l.receiver
      ⟨keyId, peerId, wirePacket (UInt32.ofNat (k + 1)) sealed⟩ (by rw [UInt8.lt_iff_toNat_lt]; exact hkey) hpeer
    have hres : processPacket P clock (datagram keyId peerId (UInt32.ofNat (k + 1)) sealed) l.receiver =
        (if Lib.Replay.Admits 128 (exec (Lib.Replay.filter 128) ∅ l.delivered) (k + 1) then .ok (.data p)
          else .error (.error (.cryptoError .replayDetected)),
          { l.receiver with
            lastActivity := clock.now
            dataChannels := Function.update l.receiver.dataChannels ⟨keyId.val.toNat, hkey⟩ (some d) }) := by
      rw [datagram, hproc, processDataPacket, packetData]
      simp only [bind_apply, onChannel, hkey, dif_pos, hc, heq]
      by_cases ha : Lib.Replay.Admits 128 (exec (Lib.Replay.filter 128) ∅ l.delivered) (k + 1)
      · simp only [ha, if_true]
        rfl
      · simp only [ha, if_false]
    rw [step, hw]
    simp only [hres]
    refine ⟨⟨h.keyId_eq, h.sends, ⟨d, Function.update_self .., ?_⟩, h.length_wire, h.wire, ?_⟩, ?_⟩
    · rw [exec_append]
      exact hd
    · intro i hi
      rcases List.mem_append.mp hi with hi | hi
      · exact h.delivered_ne_zero i hi
      · rw [List.mem_singleton.mp hi]
        exact Nat.succ_ne_zero k
    · intro q hq
      obtain rfl := Option.some.inj hq
      split <;> rfl

theorem exec_linked (hkey : keyId.val.toNat < 8) (hpeer : ∀ id ∈ peerId, id.toNat < 2 ^ 24)
    (events : List Event) (h : Linked P key keyId peerId hkey ps l)
    (hlt : (ps ++ sent events).length < 2 ^ 32)
    (hseal : SealsAll P.aead key (authenticatedHeader keyId peerId) (ps ++ sent events)) :
    Linked P key keyId peerId hkey (ps ++ sent events) (exec (step P) l events) := by
  induction events generalizing ps l with
  | nil =>
    rw [sent, List.filterMap_nil, List.append_nil]
    exact h
  | cons e events ih =>
    cases e with
    | send p =>
      have hs : ps ++ sent (.send p :: events) = (ps ++ [p]) ++ sent events := by simp [sent]
      rw [hs] at hlt hseal ⊢
      have hp : ((ps ++ [p]) ++ sent events)[ps.length]? = some p := by simp
      refine ih (step_send hkey h ?_ (hseal ps.length p hp)) hlt hseal
      rw [List.length_append, List.length_append, List.length_singleton] at hlt
      omega
    | deliver k clock =>
      have hs : sent (.deliver k clock :: events) = sent events := rfl
      rw [hs] at hlt hseal ⊢
      have hps : SealsAll P.aead key (authenticatedHeader keyId peerId) ps := fun j q hj =>
        hseal j q (by rw [List.getElem?_append_left (List.getElem?_eq_some_iff.mp hj).1]; exact hj)
      refine ih (step_deliver hkey hpeer h ?_ hps k clock).1 hlt hseal
      rw [List.length_append] at hlt
      omega

end Invariant

def sendingKey (material : KeyMaterial) (isServer : Bool) (suite : CipherSuite) : DataChannelKey :=
  if isServer then material.serverDataKey suite else material.clientDataKey suite

def connect (material : KeyMaterial) (isServer : Bool) (S R : ProtocolSession) : Link where
  sender := (installKeys material isServer S).2
  receiver := (installKeys material (!isServer) R).2
  wire := []
  delivered := []

theorem linked_connect (P : Primitives) (material : KeyMaterial) (isServer : Bool) {S R : ProtocolSession}
    (hkey : S.currentKeyId.val.toNat < 8) (hid : R.currentKeyId = S.currentKeyId)
    (hsuite : R.cipherSuite = S.cipherSuite) (hpeer : R.peerId = S.peerId) :
    Linked P (sendingKey material isServer S.cipherSuite) S.currentKeyId S.peerId hkey []
      (connect material isServer S R) := by
  refine ⟨?_, ?_, ?_, rfl, fun k p hk => by simp at hk, by simp [connect]⟩
  · simp [connect, installKeys, hkey]
  · simp only [connect, installKeys, hkey, dif_pos, Function.update_self]
    refine ⟨_, rfl, rfl, ?_, ?_, ?_, rfl⟩
    · cases S.peerId <;> rfl
    · cases S.peerId <;> rfl
    · cases isServer <;> exact ⟨rfl, rfl⟩
  · cases R
    simp only at hid hsuite hpeer
    subst hid hsuite hpeer
    simp only [connect, installKeys, hkey, dif_pos, Function.update_self]
    refine ⟨_, rfl, rfl, ?_, Crypto.Replay.tracks_new⟩
    cases isServer <;> exact ⟨rfl, rfl⟩

/-- End to end over the data channel: two sessions with the same key material
installed from opposite sides, the same suite, key id and peer id. However sends
and deliveries are interleaved, with loss, duplication and reordering, a
delivered datagram yields its packet the first time if its id is within 128 of
the highest delivered so far, and any other delivery is an error. -/
theorem data_channel_end_to_end (P : Primitives) (material : KeyMaterial) (isServer : Bool)
    (S R : ProtocolSession) (hkey : S.currentKeyId.val < 8) (hid : R.currentKeyId = S.currentKeyId)
    (hsuite : R.cipherSuite = S.cipherSuite) (hpeer : R.peerId = S.peerId)
    (hpeerLt : ∀ id ∈ S.peerId, id.toNat < 2 ^ 24) (events : List Event)
    (hcount : (sent events).length < 2 ^ 32)
    (hseal : SealsAll P.aead (sendingKey material isServer S.cipherSuite)
      (authenticatedHeader S.currentKeyId S.peerId) (sent events))
    (before rest : List Event) (k : Nat) (clock : Clock)
    (hsplit : events = before ++ .deliver k clock :: rest) (p : Bytes)
    (hp : (sent before)[k]? = some p) :
    let l := exec (step P) (connect material isServer S R) before
    (step P l (.deliver k clock)).1 =
      if k + 1 ∉ l.delivered ∧ l.delivered.foldr max 0 < k + 1 + 128 then some (.ok (.data p))
      else some (.error (.error (.cryptoError .replayDetected))) := by
  have hkey' : S.currentKeyId.val.toNat < 8 := UInt8.lt_iff_toNat_lt.mp hkey
  have hsent : sent events = sent before ++ sent rest := by rw [hsplit]; simp [sent]
  have hlt : (sent before).length < 2 ^ 32 := by
    rw [hsent, List.length_append] at hcount
    omega
  have hbefore : SealsAll P.aead (sendingKey material isServer S.cipherSuite)
      (authenticatedHeader S.currentKeyId S.peerId) (sent before) := fun j q hj =>
    hseal j q (by
      rw [hsent, List.getElem?_append_left (List.getElem?_eq_some_iff.mp hj).1]
      exact hj)
  have hstart := linked_connect P material isServer hkey' hid hsuite hpeer
  have hl := exec_linked hkey' hpeerLt before hstart hlt hbefore
  intro l
  rw [(step_deliver hkey' hpeerLt hl hlt hbefore k clock).2 p hp]
  have hadm := Lib.Replay.admits_offered (W := 128) (by decide) l.delivered hl.delivered_ne_zero (k + 1)
  refine if_congr ?_ rfl rfl
  rw [hadm, Lib.Replay.Admits, Lib.Replay.highest_toFinset, List.mem_toFinset]
  exact ⟨fun h => h.2, fun h => ⟨Nat.succ_ne_zero k, h⟩⟩

theorem sealsAll_single (key : DataChannelKey) (adPrefix message : Bytes) (n : Nat) :
    SealsAll (Aead.single message) key adPrefix (List.replicate n message) := by
  intro k p hk
  obtain rfl : p = message := List.eq_of_mem_replicate (List.mem_of_getElem? hk)
  exact ⟨p ++ (zeros 16).toList, rfl, by simp [CipherSuite.tagSize], fun c => rfl⟩

/-- Three datagrams with a peer id; the third is delivered first, then the
first, then the third again. -/
theorem data_channel_end_to_end_reordered :
    let P := Primitives.single [1, 2, 3]
    let material : KeyMaterial := ⟨zeros 32, zeros 32, zeros 32, zeros 32, zeros 12, zeros 12⟩
    let S : ProtocolSession := { newServer .aes256Gcm (zeros 8) 0 with peerId := some 5 }
    let start := connect material true S S
    let events : List Event :=
      [.send [1, 2, 3], .send [1, 2, 3], .send [1, 2, 3], .deliver 2 ⟨0, 0⟩, .deliver 0 ⟨0, 0⟩,
        .deliver 2 ⟨0, 0⟩]
    (step P (exec (step P) start (events.take 4)) (.deliver 0 ⟨0, 0⟩)).1 = some (.ok (.data [1, 2, 3])) ∧
      (step P (exec (step P) start (events.take 5)) (.deliver 2 ⟨0, 0⟩)).1 =
        some (.error (.error (.cryptoError .replayDetected))) := by
  intro P material S start events
  have hseal := sealsAll_single (sendingKey material true .aes256Gcm)
    (authenticatedHeader S.currentKeyId S.peerId) [1, 2, 3] 3
  have h4 : (exec (step P) start (events.take 4)).delivered = [3] := by decide +kernel +zetaReduce
  have h5 : (exec (step P) start (events.take 5)).delivered = [3, 1] := by decide +kernel +zetaReduce
  have hpeer : ∀ id ∈ S.peerId, id.toNat < 2 ^ 24 := by
    intro id hid
    cases hid
    decide
  have hfirst := data_channel_end_to_end P material true S S (by decide) rfl rfl rfl hpeer events
    (by decide) hseal (events.take 4) [.deliver 2 ⟨0, 0⟩] 0 ⟨0, 0⟩ rfl [1, 2, 3] rfl
  have hagain := data_channel_end_to_end P material true S S (by decide) rfl rfl rfl hpeer events
    (by decide) hseal (events.take 5) [] 2 ⟨0, 0⟩ rfl [1, 2, 3] rfl
  exact ⟨hfirst.trans (if_pos (by rw [h4]; decide)), hagain.trans (if_neg (by rw [h5]; decide))⟩

end CoreVpn.Protocol.DataPath
