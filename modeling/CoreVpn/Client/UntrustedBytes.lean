import CoreVpn.Client.ServerMessages
import CoreVpn.Protocol.Words

namespace CoreVpn.Client.UntrustedBytes

open Lib.Computation Lib.Wire Lib.Checked ServerMessages
open Crypto.Ciphers Crypto.Keys Protocol.Sessions Protocol.SessionRuns Protocol.Totality Protocol.Words
open Outcome (noPanic_ok noPanic_error)
open ProtocolSession (newServer installKeys setTlsAuth)

variable {data : Bytes} {offset : Nat}

def skipStrings (data : Bytes) : Nat → Nat → Outcome MessageError Nat
  | 0, offset => .ok offset
  | n + 1, offset => do
    let start ← addUsize offset 2
    if start > data.length then
      return offset
    else
      let hi ← index data offset
      let lo ← index data (← addUsize offset 1)
      let strLen := (fromBe16 hi lo).toNat
      if (← addUsize start strLen) > data.length then
        return offset
      else
        skipStrings data n (← addUsize offset (← addUsize 2 strLen))

def calculateKmSize (data : Bytes) : Outcome MessageError Nat :=
  if data.length < 71 then .error (.error .kmTooShort) else skipStrings data 3 69

theorem skipStrings_eq (hdata : data.length < 2 ^ 63) (n : Nat) (h : offset ≤ data.length) :
    skipStrings data n offset = ServerMessages.skipStrings data n offset := by
  induction n generalizing offset with
  | zero => rfl
  | succ n ih =>
    rw [skipStrings, ServerMessages.skipStrings, addUsize_of_lt (by omega), Outcome.ok_bind]
    split
    · rfl
    · refine Outcome.bind_congr_ok fun hi _ => ?_
      rw [addUsize_of_lt (by omega), Outcome.ok_bind]
      refine Outcome.bind_congr_ok fun lo _ => ?_
      have hlength := (fromBe16 hi lo).toNat_lt
      dsimp only
      rw [addUsize_of_lt (by omega), Outcome.ok_bind]
      split
      · rfl
      · rw [addUsize_of_lt (by omega), Outcome.ok_bind, addUsize_of_lt (by omega), Outcome.ok_bind,
          ← Nat.add_assoc]
        exact ih (by omega)

theorem calculateKmSize_eq (hdata : data.length < 2 ^ 63) :
    calculateKmSize data = ServerMessages.calculateKmSize data := by
  unfold calculateKmSize ServerMessages.calculateKmSize
  split
  · rfl
  · exact skipStrings_eq hdata 3 (by omega)

theorem noPanic_skipStrings (data : Bytes) (n offset : Nat) :
    (ServerMessages.skipStrings data n offset).NoPanic := by
  induction n generalizing offset with
  | zero => exact noPanic_ok _
  | succ n ih =>
    unfold ServerMessages.skipStrings
    split
    · exact noPanic_ok _
    · refine (noPanic_index (by omega)).bind fun hi _ => (noPanic_index (by omega)).bind fun lo _ => ?_
      dsimp only
      split
      · exact noPanic_ok _
      · exact ih _

theorem noPanic_calculateKmSize (data : Bytes) : (ServerMessages.calculateKmSize data).NoPanic := by
  unfold ServerMessages.calculateKmSize
  split
  · exact noPanic_error _
  · exact noPanic_skipStrings data 3 69

/-- Whatever bytes come in, the code that reads them returns. This is said of
the reading in machine words, where a sum that does not fit panics like an index
out of range: of the packets of a session in any state that its owner can bring
it to, and of the messages of the key exchange. -/
theorem untrusted_bytes_never_panic (P : Primitives) (clock : Clock) (data : RawBytes) :
    (∀ s, Reachable P s → (processPacket P clock data s).1.NoPanic) ∧ (parseKeyMethod data).NoPanic ∧
      (parseFromServer data).NoPanic ∧ (calculateKmSize data).NoPanic := by
  refine ⟨fun s hs => ?_, ?_, ?_, ?_⟩
  · rw [processPacket_eq clock hs.bounded data.2]
    exact total_processPacket P clock data s
  · rw [parseKeyMethod_eq data.2]
    exact noPanic_parseKeyMethod data
  · rw [parseFromServer_eq data.2]
    exact noPanic_parseFromServer data
  · rw [calculateKmSize_eq data.2]
    exact noPanic_calculateKmSize data

/-- A server with tls-auth and a key for its data channel, and a packet that
claims sixteen acknowledgments without carrying any. -/
theorem untrusted_bytes_with_keys :
    let P := Primitives.single []
    let keys : KeyMaterial := ⟨zeros 32, zeros 32, zeros 32, zeros 32, zeros 12, zeros 12⟩
    let s := ((installKeys keys true (newServer .aes256Gcm (zeros 8) 0)).2).setTlsAuth ⟨zeros 32, zeros 32⟩
    let data : RawBytes := ⟨0x20 :: (zeros 48).toList ++ [16], by decide⟩
    Reachable P s ∧ (processPacket P ⟨0, 0⟩ data s).1.NoPanic ∧ (parseKeyMethod data).NoPanic := by
  intro P keys s data
  have hs : Reachable P s :=
    ⟨true, .aes256Gcm, zeros 8, 0, [.installKeys keys true, .setTlsAuth ⟨zeros 32, zeros 32⟩], rfl⟩
  obtain ⟨hprocess, hparse, -⟩ := untrusted_bytes_never_panic P ⟨0, 0⟩ data
  exact ⟨hs, hprocess s hs, hparse⟩

end CoreVpn.Client.UntrustedBytes
