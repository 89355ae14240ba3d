import CoreVpn.Crypto.Decryption

namespace CoreVpn.Crypto.Encryption

open Lib.Computation Lib.Wire Errors Replay Ciphers Decryption

/-- What is asked of the AEAD at one call of `encrypt`: the output is the
ciphertext and a 16-byte tag, and under the same nonce and associated data this
output is all that decrypts, to the message it came from. -/
def Seals (A : Aead) (key : DataChannelKey) (nonce : ByteVec 12) (aad message : Bytes) : Prop :=
  ∃ sealed, A.encrypt key.cipherSuite key.key nonce message aad = some sealed ∧
    sealed.length = message.length + CipherSuite.tagSize ∧
    ∀ c, A.decrypt key.cipherSuite key.key nonce c aad = if c = sealed then some message else none

variable {A : Aead} {key : DataChannelKey} {s : PacketCipher} {adPrefix message sealed : Bytes}

def Under (key : DataChannelKey) (s : PacketCipher) : Prop :=
  s.cipher = key.cipher ∧ s.implicitIv = key.implicitIv

def nonceOf (key : DataChannelKey) (id : UInt32) : ByteVec 12 :=
  PacketCipher.buildNonce key.implicitIv (toBe32 id)

def aadOf (adPrefix : Bytes) (id : UInt32) : Bytes := adPrefix ++ (toBe32 id).toList

/-- The wire form of an AEAD output: the id, the tag, the ciphertext. -/
def wirePacket (id : UInt32) (sealed : Bytes) : Bytes :=
  (toBe32 id).toList ++ sealed.drop (sealed.length - 16) ++ sealed.take (sealed.length - 16)

theorem reorder_eq (id : UInt32) (h : 16 ≤ sealed.length) :
    PacketCipher.reorder (toBe32 id) sealed = .ok (wirePacket id sealed) := by
  have hct : (slice sealed 0 (sealed.length - CipherSuite.tagSize) : Outcome CryptoError Bytes) =
      .ok (sealed.take (sealed.length - 16)) := slice_of_le (Nat.zero_le _) (Nat.sub_le _ _)
  have htag : (slice sealed (sealed.length - CipherSuite.tagSize) sealed.length :
      Outcome CryptoError Bytes) = .ok (sealed.drop (sealed.length - 16)) := by
    rw [slice_of_le (Nat.sub_le _ _) le_rfl, List.take_of_length_le (by rw [List.length_drop])]
    rfl
  have hlong : ¬ sealed.length < CipherSuite.tagSize := Nat.not_lt.mpr h
  rw [PacketCipher.reorder, if_neg hlong]
  simp only [hct, htag, Outcome.ok_bind]
  rfl

theorem encrypt_of_some {cipher : Cipher} {nonce : ByteVec 12} {aad : Bytes}
    (h : A.encrypt cipher.suite cipher.key nonce message aad = some sealed) :
    cipher.encrypt A nonce message aad = .ok sealed := by
  simp only [Cipher.encrypt, h]

theorem encrypt_eq (hs : Under key s) (hlt : s.txCounter.toNat + 1 < 2 ^ 32)
    (henc : A.encrypt key.cipherSuite key.key (nonceOf key (s.txCounter + 1)) message
      (aadOf adPrefix (s.txCounter + 1)) = some sealed) (hlen : 16 ≤ sealed.length) :
    PacketCipher.encrypt A message adPrefix s =
      (.ok (wirePacket (s.txCounter + 1) sealed), { s with txCounter := s.txCounter + 1 }) := by
  obtain ⟨hcipher, hiv⟩ := hs
  have hc : s.cipher.encrypt A (PacketCipher.buildNonce s.implicitIv (toBe32 (s.txCounter + 1))) message
      (adPrefix ++ (toBe32 (s.txCounter + 1)).toList) = .ok sealed := by
    rw [hcipher, hiv]
    exact encrypt_of_some henc
  have hne : ¬ s.txCounter.toNat = 4294967295 := by omega
  simp [PacketCipher.encrypt, bind_apply, hne, hc, reorder_eq _ hlen]

theorem Seals.length_eq {nonce : ByteVec 12} {aad : Bytes} (h : Seals A key nonce aad message)
    (henc : A.encrypt key.cipherSuite key.key nonce message aad = some sealed) :
    sealed.length = message.length + CipherSuite.tagSize := by
  obtain ⟨sealed', henc', hlen, -⟩ := h
  obtain rfl : sealed = sealed' := Option.some.inj (henc.symm.trans henc')
  exact hlen

theorem pidBytes_wirePacket (id : UInt32) (sealed : Bytes) :
    pidBytes (wirePacket id sealed) = toBe32 id := rfl

theorem length_wirePacket (id : UInt32) (sealed : Bytes) :
    (wirePacket id sealed).length = 4 + sealed.length := by
  simp only [wirePacket, List.length_append, length_toList, List.length_drop, List.length_take]
  omega

theorem tagBefore_wirePacket (id : UInt32) (h : 16 ≤ sealed.length) :
    tagBefore (wirePacket id sealed) = sealed := by
  have htag : (sealed.drop (sealed.length - 16)).length = 16 := by
    rw [List.length_drop]
    omega
  have h4 : (wirePacket id sealed).drop 4 =
      sealed.drop (sealed.length - 16) ++ sealed.take (sealed.length - 16) := rfl
  have h20 : (wirePacket id sealed).drop 20 = sealed.take (sealed.length - 16) := by
    change (wirePacket id sealed).drop (4 + 16) = _
    rw [← List.drop_drop, h4, List.drop_left' htag]
  rw [tagBefore, h20, h4, List.take_left' htag, List.take_append_drop]

theorem plaintext_wirePacket (hs : Under key s) {id : UInt32}
    (hseal : Seals A key (nonceOf key id) (aadOf adPrefix id) message)
    (henc : A.encrypt key.cipherSuite key.key (nonceOf key id) message (aadOf adPrefix id) = some sealed) :
    plaintext A s (wirePacket id sealed) adPrefix = some message := by
  obtain ⟨sealed', henc', hlen, hdec⟩ := hseal
  obtain rfl : sealed = sealed' := Option.some.inj (henc.symm.trans henc')
  have h16 : 16 ≤ sealed.length := by rw [hlen]; exact Nat.le_add_left _ _
  have hv : ∀ c, verdict A s (wirePacket id sealed) adPrefix c = if c = sealed then some message else none := by
    intro c
    rw [← hdec c, verdict, hs.1, hs.2, pidBytes_wirePacket]
    rfl
  rw [plaintext, hv, hv, tagBefore_wirePacket id h16, if_pos rfl]
  -- Read with the tag at the end, the packet is either the same string or rejected.
  split <;> rfl

theorem toNat_counter_wirePacket (id : UInt32) (sealed : Bytes) :
    (counter (wirePacket id sealed)).toNat = id.toNat := by
  have h := id.toNat_lt
  rw [counter, pidBytes_wirePacket, fromBe32_toBe32, BitVec.toNat_setWidth]
  exact Nat.mod_eq_of_lt (by change id.toNat < _; omega)

/-- A genuine packet gets through exactly when the replay filter admits its id. -/
theorem decrypt_wirePacket (hs : Under key s) {I : Finset Nat} (ht : Tracks s.rxWindow I) {id : UInt32}
    (hseal : Seals A key (nonceOf key id) (aadOf adPrefix id) message)
    (henc : A.encrypt key.cipherSuite key.key (nonceOf key id) message (aadOf adPrefix id) = some sealed) :
    ∃ t, Under key t ∧ Tracks t.rxWindow (Lib.Replay.filter 128 I id.toNat).2 ∧
      PacketCipher.decrypt A (wirePacket id sealed) adPrefix s =
        (if Lib.Replay.Admits 128 I id.toNat then .ok message else .error (.error .replayDetected), t) := by
  obtain ⟨ho, htracks⟩ := checkAndUpdate_spec (ε := CryptoError) (W := 128) rfl (by decide) ht
    (counter (wirePacket id sealed))
  rw [toNat_counter_wirePacket] at ho htracks
  have hlong : PacketCipher.minPacketSize ≤ (wirePacket id sealed).length := by
    rw [length_wirePacket, hseal.length_eq henc]
    change 20 ≤ 4 + (message.length + 16)
    omega
  rcases decrypt_cases A s (wirePacket id sealed) adPrefix with
    ⟨hshort, -⟩ | ⟨-, -, hw, hd⟩ | ⟨-, -, w, -, hw, hd⟩
  · exact absurd hshort (Nat.not_lt.mpr hlong)
  · have hr : (Lib.Replay.filter 128 I id.toNat).1 = false :=
      (Except.ok.inj ((congrArg Prod.fst hw).symm.trans ho)).symm
    refine ⟨s, hs, ?_, ?_⟩
    · have hsnd : (ReplayWindow.checkAndUpdate (ε := CryptoError) 128 (counter (wirePacket id sealed))
        s.rxWindow).2 = s.rxWindow := congrArg Prod.snd hw
      rwa [hsnd] at htracks
    · rw [hd, if_neg fun ha => ?_]
      rw [Lib.Replay.filter_true ha] at hr
      cases hr
  · have hr : (Lib.Replay.filter 128 I id.toNat).1 = true :=
      (Except.ok.inj ((congrArg Prod.fst hw).symm.trans ho)).symm
    refine ⟨{ s with rxWindow := w }, hs, ?_, ?_⟩
    · have hsnd : (ReplayWindow.checkAndUpdate (ε := CryptoError) 128 (counter (wirePacket id sealed))
        s.rxWindow).2 = w := congrArg Prod.snd hw
      rwa [hsnd] at htracks
    · rw [hd, plaintext_wirePacket hs hseal henc, if_pos]
      by_contra ha
      rw [Lib.Replay.filter_false ha] at hr
      cases hr

end CoreVpn.Crypto.Encryption
