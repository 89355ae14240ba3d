import CoreVpn.Crypto.Prf
import CoreVpn.Lib.Blocks
import Mathlib.Algebra.Order.Floor.Div
import Mathlib.Data.List.DropRight

namespace CoreVpn.Crypto.TlsPrf

open Lib.Blocks Lib.Wire Prf

section Expansion

variable {n : ℕ} (hmac : Bytes → Bytes → ByteVec n) (secret seed : Bytes)

/-- The sequence A(0) = seed, A(i) = HMAC(secret, A(i-1)). -/
def chained : ℕ → Bytes
  | 0 => seed
  | i + 1 => (hmac secret (chained i)).toList

/-- The digest of A(i) + seed; the first one to be put out is that of A(1). -/
def block (i : ℕ) : ByteVec n := hmac secret (chained hmac secret seed (i + 1) ++ seed)

def expansion [NeZero n] : Stream' UInt8 := stream (block hmac secret seed)

def turn (state : Bytes × Bytes) : Bytes × Bytes :=
  let a := (hmac secret state.1).toList
  (a, state.2 ++ (hmac secret (a ++ seed)).toList)

def afterTurns (k : ℕ) : Bytes × Bytes := (turn hmac secret seed)^[k] (seed, [])

/-- The condition of the loop holds before each of so many turns, and not after them. -/
def EndsAfter (outputLen turns : ℕ) : Prop :=
  ∀ k, (afterTurns hmac secret seed k).2.length < outputLen ↔ k < turns

theorem afterTurns_succ (k : ℕ) :
    afterTurns hmac secret seed (k + 1) = turn hmac secret seed (afterTurns hmac secret seed k) :=
  Function.iterate_succ_apply' _ _ _

theorem afterTurns_eq (k : ℕ) :
    afterTurns hmac secret seed k = (chained hmac secret seed k, concat (block hmac secret seed) k) := by
  induction k with
  | zero => rfl
  | succ k ih =>
    rw [afterTurns_succ, ih, concat_succ]
    rfl

theorem length_afterTurns (k : ℕ) : (afterTurns hmac secret seed k).2.length = k * n := by
  rw [afterTurns_eq, length_concat]

theorem endsAfter_ceilDiv (hn : 0 < n) (outputLen : ℕ) :
    EndsAfter hmac secret seed outputLen (outputLen ⌈/⌉ n) := by
  intro k
  rw [length_afterTurns, ← not_le, ← not_le, ceilDiv_le_iff_le_mul hn, Nat.mul_comm]

variable {hmac secret seed}

theorem pHashLoop_afterTurns {outputLen turns : ℕ} (h : EndsAfter hmac secret seed outputLen turns) {k fuel : ℕ}
    (hk : k ≤ turns) (hfuel : turns ≤ k + fuel) :
    pHashLoop hmac secret seed outputLen fuel (afterTurns hmac secret seed k).1 (afterTurns hmac secret seed k).2 =
      (afterTurns hmac secret seed turns).2 := by
  induction fuel generalizing k with
  | zero =>
    obtain rfl : k = turns := by omega
    rfl
  | succ fuel ih =>
    rw [pHashLoop]
    by_cases hturn : k < turns
    · rw [if_pos ((h k).mpr hturn), ← ih (show k + 1 ≤ turns from hturn) (by omega), afterTurns_succ]
      rfl
    · obtain rfl : k = turns := by omega
      rw [if_neg fun hlength => hturn ((h k).mp hlength)]

/-- The loop comes to an end, and has the same output from then on however many turns it is given. -/
structure Terminates (hmac : Bytes → Bytes → ByteVec n) (secret seed : Bytes) (outputLen turns : ℕ) : Prop where
  ends : EndsAfter hmac secret seed outputLen turns
  output : ∀ spare, pHashLoop hmac secret seed outputLen (turns + spare) seed [] =
    (afterTurns hmac secret seed turns).2

theorem terminates_ceilDiv (hn : 0 < n) (hmac : Bytes → Bytes → ByteVec n) (secret seed : Bytes) (outputLen : ℕ) :
    Terminates hmac secret seed outputLen (outputLen ⌈/⌉ n) := by
  have hends := endsAfter_ceilDiv hmac secret seed hn outputLen
  refine ⟨hends, fun spare => ?_⟩
  exact pHashLoop_afterTurns hends (Nat.zero_le _) (by omega)

/-- As many turns as bytes are enough, so the bound on the turns changes nothing. -/
theorem pHash_eq_take [NeZero n] (hmac : Bytes → Bytes → ByteVec n) (secret seed : Bytes) (outputLen : ℕ) :
    pHash hmac secret seed outputLen = (expansion hmac secret seed).take outputLen := by
  have hn : 0 < n := Nat.pos_of_neZero n
  have hturns : outputLen ⌈/⌉ n ≤ outputLen := by
    rw [ceilDiv_le_iff_le_mul hn]
    exact Nat.le_mul_of_pos_left outputLen hn
  have henough : outputLen ≤ outputLen ⌈/⌉ n * n := by
    rw [Nat.mul_comm]
    exact (ceilDiv_le_iff_le_mul hn).mp le_rfl
  have hloop := (terminates_ceilDiv hn hmac secret seed outputLen).output (outputLen - outputLen ⌈/⌉ n)
  rw [Nat.add_sub_cancel' hturns, afterTurns_eq] at hloop
  rw [pHash, hloop, expansion, take_stream _ henough]

end Expansion

def firstHalf (secret : Bytes) : Bytes := secret.take (secret.length ⌈/⌉ 2)

def secondHalf (secret : Bytes) : Bytes := secret.rtake (secret.length ⌈/⌉ 2)

/-- The PRF of TLS 1.0 without an end. -/
def tlsPrf (hashes : PrfHashes) (secret label seed : Bytes) : Stream' UInt8 :=
  Stream'.zip (· ^^^ ·) (expansion hashes.md5 (firstHalf secret) (label ++ seed))
    (expansion hashes.sha1 (secondHalf secret) (label ++ seed))

theorem length_halves (secret : Bytes) :
    (firstHalf secret).length = secret.length ⌈/⌉ 2 ∧ (secondHalf secret).length = secret.length ⌈/⌉ 2 := by
  rw [firstHalf, secondHalf, List.rtake, List.length_take, List.length_drop, Nat.ceilDiv_eq_add_pred_div]
  omega

theorem slices_eq_halves (secret : Bytes) :
    secret.take ((secret.length + 1) / 2) = firstHalf secret ∧ secret.drop (secret.length / 2) = secondHalf secret := by
  have hrest : secret.length - (secret.length + 2 - 1) / 2 = secret.length / 2 := by omega
  rw [firstHalf, secondHalf, List.rtake, Nat.ceilDiv_eq_add_pred_div, hrest]
  exact ⟨rfl, rfl⟩

theorem openvpnPrf_eq_take (hashes : PrfHashes) (secret label seed : Bytes) (outputLen : ℕ) :
    openvpnPrf hashes secret label seed outputLen = (tlsPrf hashes secret label seed).take outputLen := by
  obtain ⟨hfirst, hsecond⟩ := slices_eq_halves secret
  rw [openvpnPrf, tlsPrf, take_zip, hfirst, hsecond, pHash_eq_take, pHash_eq_take]

theorem length_openvpnPrf (hashes : PrfHashes) (secret label seed : Bytes) (outputLen : ℕ) :
    (openvpnPrf hashes secret label seed outputLen).length = outputLen := by
  rw [openvpnPrf_eq_take, Stream'.length_take]

/-- The code computes the PRF of TLS 1.0 to any length: it gives as many bytes as asked for, a
longer result goes on where a shorter one ends, and both of its loops come to an end. -/
theorem openvpnPrf_computes_tlsPrf (hashes : PrfHashes) (secret label seed : Bytes) :
    ((firstHalf secret).length = secret.length ⌈/⌉ 2 ∧ (secondHalf secret).length = secret.length ⌈/⌉ 2) ∧
    (∀ outputLen, (openvpnPrf hashes secret label seed outputLen).length = outputLen ∧
      openvpnPrf hashes secret label seed outputLen = (tlsPrf hashes secret label seed).take outputLen) ∧
    (∀ outputLen more, openvpnPrf hashes secret label seed outputLen <+:
      openvpnPrf hashes secret label seed (outputLen + more)) ∧
    ∀ outputLen, Terminates hashes.md5 (firstHalf secret) (label ++ seed) outputLen (outputLen ⌈/⌉ 16) ∧
      Terminates hashes.sha1 (secondHalf secret) (label ++ seed) outputLen (outputLen ⌈/⌉ 20) := by
  refine ⟨length_halves secret, fun outputLen => ⟨length_openvpnPrf hashes secret label seed outputLen,
    openvpnPrf_eq_take hashes secret label seed outputLen⟩, fun outputLen more => ?_, fun outputLen => ⟨?_, ?_⟩⟩
  · rw [openvpnPrf_eq_take, openvpnPrf_eq_take]
    exact Stream'.take_prefix_take_left _ _ _ (Nat.le_add_right outputLen more)
  · exact terminates_ceilDiv (by decide) _ _ _ outputLen
  · exact terminates_ceilDiv (by decide) _ _ _ outputLen

end CoreVpn.Crypto.TlsPrf
