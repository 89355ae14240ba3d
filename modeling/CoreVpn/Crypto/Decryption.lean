import CoreVpn.Crypto.Ciphers

namespace CoreVpn.Crypto.Decryption

open Lib.Computation Lib.Wire Errors Replay Ciphers

section Window

variable {ε : Type} {n w : Nat}

/-- The window lets an id through: it is ahead of all ids seen, or inside the
window with its bit still clear. -/
def Admissible (s : ReplayWindow n w) (p : BitVec n) : Prop :=
  p ≠ 0#n ∧ (s.highest < p ∨
    s.highest.toNat - p.toNat < w ∧ s.bitmap.getLsbD (s.highest.toNat - p.toNat) = false)

instance (s : ReplayWindow n w) (p : BitVec n) : Decidable (Admissible s p) :=
  inferInstanceAs (Decidable (_ ∧ _))

theorem or_mask_ne {b : BitVec w} {d : Nat} (hd : d < w) (hb : b.getLsbD d = false) :
    b ||| (1#w <<< d) ≠ b := by
  intro h
  have hbit : (b ||| (1#w <<< d)).getLsbD d = false := by rw [h, hb]
  simp [hd] at hbit

/-- Whatever its state, the window lets exactly the admissible ids through.
Doing so always changes it, refusing an id never does. -/
theorem checkAndUpdate_cases {W : BitVec n} (hW : W.toNat = w) (s : ReplayWindow n w) (p : BitVec n) :
    (Admissible s p ∧ ∃ t, t ≠ s ∧ ReplayWindow.checkAndUpdate (ε := ε) W p s = (.ok true, t)) ∨
      (¬ Admissible s p ∧ ReplayWindow.checkAndUpdate (ε := ε) W p s = (.ok false, s)) := by
  by_cases h0 : p = 0#n
  · subst h0
    refine .inr ⟨fun h => h.1 rfl, ?_⟩
    simp [ReplayWindow.checkAndUpdate, bind_apply]
  by_cases hlt : s.highest < p
  · left
    refine ⟨⟨h0, .inl hlt⟩, ?_⟩
    have hne : ∀ b : BitVec w, (⟨p, b⟩ : ReplayWindow n w) ≠ s := by
      rintro b rfl
      exact BitVec.lt_irrefl p hlt
    rw [checkAndUpdate_ahead hlt, hW]
    by_cases hj : p.toNat - s.highest.toNat ≥ w
    · exact ⟨_, hne _, if_pos hj⟩
    · rw [if_neg hj, if_pos (Nat.lt_of_not_le hj)]
      exact ⟨_, hne _, rfl⟩
  · rw [checkAndUpdate_behind h0 (BitVec.not_lt.mp hlt), hW]
    by_cases hold : s.highest.toNat - p.toNat ≥ w
    · refine .inr ⟨fun h => ?_, if_pos hold⟩
      rcases h.2 with h | h
      · exact hlt h
      · exact Nat.not_lt.mpr hold h.1
    · have hin := Nat.lt_of_not_le hold
      rw [if_neg hold, if_pos hin]
      cases hb : s.bitmap.getLsbD (s.highest.toNat - p.toNat) with
      | true =>
        refine .inr ⟨fun h => ?_, rfl⟩
        rcases h.2 with h | h
        · exact hlt h
        · rw [hb] at h
          cases h.2
      | false =>
        refine .inl ⟨⟨h0, .inr ⟨hin, hb⟩⟩, _, fun he => ?_, rfl⟩
        exact or_mask_ne hin hb (congrArg ReplayWindow.bitmap he)

end Window

def pidBytes : Bytes → ByteVec 4
  | a :: b :: c :: d :: _ => ⟨[a, b, c, d], rfl⟩
  | _ => zeros 4

def counter (packet : Bytes) : BitVec 64 := (fromBe32 (pidBytes packet)).toBitVec.setWidth 64

theorem readFixed_pidBytes {ε : Type} {packet : Bytes} (h : 4 ≤ packet.length) :
    (readFixed 4 packet 0 : Outcome ε (ByteVec 4)) = .ok (pidBytes packet) := by
  match packet, h with
  | a :: b :: c :: d :: rest, _ => exact (readFixed_eq_ok_iff (by decide)).mpr rfl

variable (A : Aead) (s : PacketCipher) (packet adPrefix : Bytes)

/-- What the AEAD answers on a string, under the nonce and associated data of a packet. -/
def verdict (ciphertext : Bytes) : Option Bytes :=
  A.decrypt s.cipher.suite s.cipher.key (PacketCipher.buildNonce s.implicitIv (pidBytes packet))
    ciphertext (adPrefix ++ (pidBytes packet).toList)

/-- The AEAD string of a packet in the layout with the tag behind the
ciphertext, and in the layout with the tag in front of it. -/
def tagBehind : Bytes := packet.drop 4

def tagBefore : Bytes := packet.drop 20 ++ (packet.drop 4).take 16

def Authentic : Prop :=
  (verdict A s packet adPrefix (tagBehind packet)).isSome = true ∨
    (verdict A s packet adPrefix (tagBefore packet)).isSome = true

instance : Decidable (Authentic A s packet adPrefix) := inferInstanceAs (Decidable (_ ∨ _))

def plaintext : Option Bytes :=
  verdict A s packet adPrefix (tagBehind packet) <|> verdict A s packet adPrefix (tagBefore packet)

variable {A s packet adPrefix}

theorem decryptEither_eq (h : PacketCipher.minPacketSize ≤ packet.length) :
    PacketCipher.decryptEither A s (pidBytes packet) packet adPrefix =
      match plaintext A s packet adPrefix with
      | some p => .ok p
      | none => .error (.error .decryptionFailed) := by
  have hlen : 20 ≤ packet.length := h
  have htag : (slice packet PacketCipher.packetIdSize PacketCipher.minPacketSize : Outcome CryptoError Bytes) =
      .ok ((packet.drop 4).take 16) := slice_of_le (by decide) h
  have hct : (slice packet PacketCipher.minPacketSize packet.length : Outcome CryptoError Bytes) =
      .ok (packet.drop 20) := slice_to_end h
  have hend : (slice packet PacketCipher.packetIdSize packet.length : Outcome CryptoError Bytes) =
      .ok (packet.drop 4) := slice_to_end (by change 4 ≤ _; omega)
  rw [PacketCipher.decryptEither, htag, Outcome.ok_bind, hct, Outcome.ok_bind, hend, Outcome.ok_bind]
  simp only [Cipher.decrypt, plaintext, verdict, tagBehind, tagBefore]
  cases A.decrypt s.cipher.suite s.cipher.key (PacketCipher.buildNonce s.implicitIv (pidBytes packet))
    (packet.drop 4) (adPrefix ++ (pidBytes packet).toList) with
  | some p => rfl
  | none => rfl

/-- All that a call of `decrypt` can do: refuse a short packet, refuse its id,
or move the window and then return what the AEAD says. -/
theorem decrypt_cases (A : Aead) (s : PacketCipher) (packet adPrefix : Bytes) :
    (packet.length < PacketCipher.minPacketSize ∧
      PacketCipher.decrypt A packet adPrefix s = (.error (.error .decryptionFailed), s)) ∨
    (PacketCipher.minPacketSize ≤ packet.length ∧ ¬ Admissible s.rxWindow (counter packet) ∧
      DataWindow.checkAndUpdate (ε := CryptoError) (counter packet) s.rxWindow =
        (.ok false, s.rxWindow) ∧
      PacketCipher.decrypt A packet adPrefix s = (.error (.error .replayDetected), s)) ∨
    (PacketCipher.minPacketSize ≤ packet.length ∧ Admissible s.rxWindow (counter packet) ∧
      ∃ t, t ≠ s.rxWindow ∧ DataWindow.checkAndUpdate (ε := CryptoError) (counter packet) s.rxWindow =
          (.ok true, t) ∧
        PacketCipher.decrypt A packet adPrefix s =
          (match plaintext A s packet adPrefix with
            | some p => .ok p
            | none => .error (.error .decryptionFailed), { s with rxWindow := t })) := by
  by_cases hshort : packet.length < PacketCipher.minPacketSize
  · refine .inl ⟨hshort, ?_⟩
    rw [PacketCipher.decrypt, if_pos hshort]
    rfl
  have hlen := Nat.le_of_not_lt hshort
  have h4 : 4 ≤ packet.length := le_trans (by decide) hlen
  have hd : PacketCipher.decrypt A packet adPrefix s =
      match DataWindow.checkAndUpdate (ε := CryptoError) (counter packet) s.rxWindow with
      | (.ok true, t) => (PacketCipher.decryptEither A { s with rxWindow := t } (pidBytes packet) packet
          adPrefix, { s with rxWindow := t })
      | (.ok false, t) => (.error (.error .replayDetected), { s with rxWindow := t })
      | (.error e, t) => (.error (e.map id), { s with rxWindow := t }) := by
    rw [PacketCipher.decrypt, if_neg hshort, readFixed_pidBytes h4]
    simp only [bind_apply, lift_apply, zoom, counter]
    rcases DataWindow.checkAndUpdate (ε := CryptoError)
      ((fromBe32 (pidBytes packet)).toBitVec.setWidth 64) s.rxWindow with ⟨⟨⟩ | ⟨⟨⟩⟩, t⟩ <;>
      simp [Outcome.mapFault, bind_apply]
  rcases checkAndUpdate_cases (ε := CryptoError) (W := 128) rfl s.rxWindow (counter packet) with
    ⟨hadm, t, hne, hw⟩ | ⟨hadm, hw⟩
  · have hw' : DataWindow.checkAndUpdate (ε := CryptoError) (counter packet) s.rxWindow = (.ok true, t) := hw
    refine .inr (.inr ⟨hlen, hadm, t, hne, hw', ?_⟩)
    rw [hd, hw']
    simp only
    rw [decryptEither_eq hlen]
    rfl
  · have hw' : DataWindow.checkAndUpdate (ε := CryptoError) (counter packet) s.rxWindow =
      (.ok false, s.rxWindow) := hw
    refine .inr (.inl ⟨hlen, hadm, hw', ?_⟩)
    rw [hd, hw']

end CoreVpn.Crypto.Decryption
