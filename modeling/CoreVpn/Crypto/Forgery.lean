import CoreVpn.Lib.Machine
import CoreVpn.Crypto.Decryption

namespace CoreVpn.Crypto.Forgery

open Lib.Computation Lib.Wire Lib.Machine Errors Replay Ciphers Decryption

variable {A : Aead} {s : PacketCipher} {packet adPrefix : Bytes}

def step (A : Aead) (s : PacketCipher) (input : Bytes × Bytes) :
    Outcome CryptoError Bytes × PacketCipher := PacketCipher.decrypt A input.1 input.2 s

/-- The packet is too short, or the window refuses its id, or it authenticates
in one of the two layouts. -/
def Harmless (A : Aead) (s : PacketCipher) (input : Bytes × Bytes) : Prop :=
  input.1.length < PacketCipher.minPacketSize ∨ ¬ Admissible s.rxWindow (counter input.1) ∨
    Authentic A s input.1 input.2

instance (A : Aead) (s : PacketCipher) (input : Bytes × Bytes) : Decidable (Harmless A s input) :=
  inferInstanceAs (Decidable (_ ∨ _ ∨ _))

def decrypted (A : Aead) (s : PacketCipher) : List (Bytes × Bytes) → List (Bytes × Bytes)
  | [] => []
  | input :: inputs =>
    match step A s input with
    | (.ok _, t) => input :: decrypted A t inputs
    | (.error _, t) => decrypted A t inputs

theorem authentic_iff : Authentic A s packet adPrefix ↔ (plaintext A s packet adPrefix).isSome = true := by
  rw [Authentic, plaintext]
  cases verdict A s packet adPrefix (tagBehind packet) <;> simp

theorem decrypt_traceless_iff (A : Aead) (s : PacketCipher) (packet adPrefix : Bytes) :
    ((∃ e, (PacketCipher.decrypt A packet adPrefix s).1 = .error e) →
        (PacketCipher.decrypt A packet adPrefix s).2 = s) ↔ Harmless A s (packet, adPrefix) := by
  rcases decrypt_cases A s packet adPrefix with
    ⟨hshort, hd⟩ | ⟨-, hadm, -, hd⟩ | ⟨hlen, hadm, t, hne, -, hd⟩ <;> rw [hd]
  · exact iff_of_true (fun _ => rfl) (.inl hshort)
  · exact iff_of_true (fun _ => rfl) (.inr (.inl hadm))
  · have hnot : ¬ ({ s with rxWindow := t } : PacketCipher) = s :=
      fun h => hne (congrArg PacketCipher.rxWindow h)
    cases hp : plaintext A s packet adPrefix with
    | some p =>
      have ha : Authentic A s packet adPrefix := authentic_iff.mpr (by rw [hp]; rfl)
      exact iff_of_true (fun ⟨_, h⟩ => by cases h) (.inr (.inr ha))
    | none =>
      refine iff_of_false (fun h => hnot (h ⟨_, rfl⟩)) ?_
      rintro (h | h | h)
      · exact Nat.not_lt.mpr hlen h
      · exact h hadm
      · rw [authentic_iff, hp] at h
        cases h

theorem exec_decrypted (s : PacketCipher) (inputs : List (Bytes × Bytes))
    (h : EachStep (step A) (Harmless A) s inputs) :
    exec (step A) s inputs = exec (step A) s (decrypted A s inputs) := by
  induction inputs generalizing s with
  | nil => rfl
  | cons input inputs ih =>
    have hi := ih _ h.2
    have htrace := (decrypt_traceless_iff A s input.1 input.2).mpr h.1
    rw [exec_cons, hi, decrypted]
    cases hs : step A s input with
    | mk result t =>
      cases result with
      | ok p =>
        change _ = exec (step A) s (input :: decrypted A t inputs)
        rw [exec_cons, hs]
      | error e =>
        have ht : (step A s input).2 = s := htrace ⟨e, congrArg Prod.fst hs⟩
        rw [hs] at ht
        exact congrArg (fun u => exec (step A) u (decrypted A t inputs)) ht

/-- A failed decryption leaves the cipher as it was exactly when the packet is
harmless; and in a run of harmless packets every later packet is treated as if
the failed ones had never come. -/
theorem failed_decrypt_traceless (A : Aead) (s : PacketCipher) :
    (∀ packet adPrefix : Bytes,
      ((∃ e, (PacketCipher.decrypt A packet adPrefix s).1 = .error e) →
          (PacketCipher.decrypt A packet adPrefix s).2 = s) ↔
        (packet.length < PacketCipher.minPacketSize ∨ ¬ Admissible s.rxWindow (counter packet) ∨
          Authentic A s packet adPrefix)) ∧
    (∀ inputs : List (Bytes × Bytes), EachStep (step A) (Harmless A) s inputs →
      exec (step A) s inputs = exec (step A) s (decrypted A s inputs) ∧
      ∀ packet adPrefix : Bytes,
        PacketCipher.decrypt A packet adPrefix (exec (step A) s inputs) =
          PacketCipher.decrypt A packet adPrefix (exec (step A) s (decrypted A s inputs))) := by
  refine ⟨decrypt_traceless_iff A s, fun inputs h => ?_⟩
  have he := exec_decrypted s inputs h
  exact ⟨he, fun packet adPrefix => by rw [he]⟩

/-- Packets 1 and 2 of a sender, with a replay of packet 1 and a short packet in between. -/
theorem failed_decrypt_traceless_genuine :
    let A := Aead.single [1, 2, 3]
    let s := PacketCipher.new (.new (zeros 32) .chaCha20Poly1305)
    let packet : UInt8 → Bytes × Bytes := fun i => ([0, 0, 0, i] ++ (zeros 16).toList ++ [1, 2, 3], [])
    let inputs := [packet 1, packet 1, ([7], []), packet 2]
    EachStep (step A) (Harmless A) s inputs ∧
      exec (step A) s inputs = exec (step A) s [packet 1, packet 2] :=
  ⟨by decide, ((failed_decrypt_traceless _ _).2 _ (by decide)).1⟩

/-- A forged packet with id 1000 fails, yet the window moves past packet 1,
which is then refused as a replay although it never came in before. -/
theorem forged_packet_shuts_out_genuine :
    let A := Aead.single [1, 2, 3]
    let s := PacketCipher.new (.new (zeros 32) .chaCha20Poly1305)
    let forged : Bytes := [0, 0, 3, 232] ++ List.replicate 16 255
    let genuine : Bytes := [0, 0, 0, 1] ++ (zeros 16).toList ++ [1, 2, 3]
    (PacketCipher.encrypt A [1, 2, 3] [] s).1 = .ok genuine ∧
      (PacketCipher.decrypt A genuine [] s).1 = .ok [1, 2, 3] ∧
      (PacketCipher.decrypt A forged [] s).1 = .error (.error .decryptionFailed) ∧
      (PacketCipher.decrypt A forged [] s).2 ≠ s ∧
      (PacketCipher.decrypt A genuine [] (PacketCipher.decrypt A forged [] s).2).1 =
        .error (.error .replayDetected) := by
  decide +kernel

end CoreVpn.Crypto.Forgery
