import CoreVpn.Crypto.Encryption

namespace CoreVpn.Crypto.Nonces

open Lib.Computation Lib.Machine Lib.Wire Errors Ciphers Encryption PacketCipher

variable {A : Aead} {key : DataChannelKey} {s : PacketCipher}

inductive Call where
  | encrypt (plaintext adPrefix : Bytes)
  | encryptInto (plaintext adPrefix output : Bytes)
  | decrypt (packet adPrefix : Bytes)

def Call.encrypts : Call → Bool
  | .encrypt _ _ => true
  | .encryptInto _ _ _ => true
  | .decrypt _ _ => false

inductive Reply where
  | encrypted (result : Outcome CryptoError Bytes)
  | encryptedInto (result : Outcome CryptoError Nat) (output : Bytes)
  | decrypted (result : Outcome CryptoError Bytes)

def step (A : Aead) (s : PacketCipher) : Call → Reply × PacketCipher
  | .encrypt plaintext adPrefix =>
    let (result, t) := encrypt A plaintext adPrefix s
    (.encrypted result, t)
  | .encryptInto plaintext adPrefix output =>
    let (result, t, output) := encryptInto A plaintext adPrefix (s, output)
    (.encryptedInto result output, t)
  | .decrypt packet adPrefix =>
    let (result, t) := decrypt A packet adPrefix s
    (.decrypted result, t)

def Reply.isPacket : Reply → Bool
  | .encrypted result => result.isOk
  | .encryptedInto result _ => result.isOk
  | .decrypted _ => false

def produced (replies : List Reply) : Nat := replies.countP Reply.isPacket

/-- The AEAD never fails, and its output has room for a tag. -/
def NeverFails (A : Aead) : Prop :=
  ∀ suite key nonce message aad,
    ∃ sealed, A.encrypt suite key nonce message aad = some sealed ∧ CipherSuite.tagSize ≤ sealed.length

section Buffers

theorem length_reorder {pid : ByteVec 4} {ctTag packet : Bytes} (h : reorder pid ctTag = .ok packet) :
    packet.length = packetIdSize + ctTag.length := by
  by_cases hshort : ctTag.length < CipherSuite.tagSize
  · rw [reorder, if_pos hshort] at h
    cases h
  · have heq := reorder_eq (fromBe32 pid) (Nat.not_lt.mp hshort)
    rw [toBe32_fromBe32, h] at heq
    rw [Except.ok.inj heq, length_wirePacket, packetIdSize]

/-- Both ways of encrypting agree in every state, also when they fail: what one
returns, the other puts behind what the buffer holds. -/
theorem encryptInto_eq (A : Aead) (plaintext adPrefix output : Bytes) (s : PacketCipher) :
    encryptInto A plaintext adPrefix (s, output) =
      match encrypt A plaintext adPrefix s with
      | (.ok packet, t) => (.ok packet.length, t, output ++ packet)
      | (.error e, t) => (.error e, t, output) := by
  by_cases hlast : s.txCounter.toNat + 1 = 2 ^ 32
  · simp only [encryptInto, encrypt, bind_apply, get_apply, fail_apply, if_pos hlast]
  · simp only [encryptInto, encrypt, bind_apply, get_apply, modify_apply, lift_apply, if_neg hlast]
    cases hc : s.cipher.encrypt A (buildNonce s.implicitIv (toBe32 (s.txCounter + 1))) plaintext
        (adPrefix ++ (toBe32 (s.txCounter + 1)).toList) with
    | error e => rfl
    | ok ctTag =>
      simp only
      cases hr : reorder (toBe32 (s.txCounter + 1)) ctTag with
      | error e => rfl
      | ok packet => simp only [pure_apply, length_reorder hr]

end Buffers

section Calls

theorem toNat_next (h : s.txCounter.toNat + 1 < 2 ^ 32) : (s.txCounter + 1).toNat = s.txCounter.toNat + 1 := by
  rw [UInt32.toNat_add]
  exact Nat.mod_eq_of_lt h

theorem encrypt_produces (hA : NeverFails A) (hs : Under key s) (hlt : s.txCounter.toNat + 1 < 2 ^ 32)
    (plaintext adPrefix : Bytes) :
    ∃ sealed, A.encrypt key.cipherSuite key.key (nonceOf key (s.txCounter + 1)) plaintext
        (aadOf adPrefix (s.txCounter + 1)) = some sealed ∧
      encrypt A plaintext adPrefix s =
        (.ok (wirePacket (s.txCounter + 1) sealed), { s with txCounter := s.txCounter + 1 }) := by
  obtain ⟨sealed, henc, hlen⟩ := hA key.cipherSuite key.key (nonceOf key (s.txCounter + 1)) plaintext
    (aadOf adPrefix (s.txCounter + 1))
  exact ⟨sealed, henc, encrypt_eq hs hlt henc hlen⟩

theorem encrypt_exhausted (hlast : s.txCounter.toNat + 1 = 2 ^ 32) (plaintext adPrefix : Bytes) :
    encrypt A plaintext adPrefix s =
      (.error (.error (.encryptionFailed "packet counter overflow")), s) := by
  simp only [encrypt, bind_apply, get_apply, fail_apply, if_pos hlast]

theorem decrypt_sending (packet adPrefix : Bytes) (s : PacketCipher) :
    ∃ w, (decrypt A packet adPrefix s).2 = { s with rxWindow := w } := by
  rcases Decryption.decrypt_cases A s packet adPrefix with ⟨-, h⟩ | ⟨-, -, -, h⟩ | ⟨-, -, w, -, -, h⟩
  · exact ⟨s.rxWindow, by rw [h]⟩
  · exact ⟨s.rxWindow, by rw [h]⟩
  · exact ⟨w, by rw [h]⟩

/-- A call that encrypts produces a packet while there are numbers left. The
counter advances by one with each packet and is left alone otherwise. -/
structure Advances (key : DataChannelKey) (encrypts : Bool) (s : PacketCipher) (reply : Reply)
    (t : PacketCipher) : Prop where
  under : Under key t
  packet : reply.isPacket = (encrypts && decide (s.txCounter.toNat + 1 < 2 ^ 32))
  counter : t.txCounter.toNat = s.txCounter.toNat + if reply.isPacket then 1 else 0

theorem encrypt_advances (hA : NeverFails A) (hs : Under key s) (plaintext adPrefix : Bytes) :
    ∃ result t, encrypt A plaintext adPrefix s = (result, t) ∧ Advances key true s (.encrypted result) t := by
  by_cases hlt : s.txCounter.toNat + 1 < 2 ^ 32
  · obtain ⟨sealed, -, h⟩ := encrypt_produces hA hs hlt plaintext adPrefix
    exact ⟨_, _, h, hs, (decide_eq_true hlt).symm, toNat_next hlt⟩
  · have hlast : s.txCounter.toNat + 1 = 2 ^ 32 := by
      have hmax := s.txCounter.toNat_lt
      omega
    exact ⟨_, _, encrypt_exhausted hlast plaintext adPrefix, hs, (decide_eq_false hlt).symm, rfl⟩

theorem step_advances (hA : NeverFails A) (hs : Under key s) (call : Call) :
    Advances key call.encrypts s (step A s call).1 (step A s call).2 := by
  cases call with
  | encrypt plaintext adPrefix =>
    obtain ⟨result, t, h, hadv⟩ := encrypt_advances hA hs plaintext adPrefix
    simp only [step, h]
    exact hadv
  | encryptInto plaintext adPrefix output =>
    obtain ⟨result, t, h, hadv⟩ := encrypt_advances hA hs plaintext adPrefix
    simp only [step, encryptInto_eq, h]
    cases result with
    | ok packet => exact ⟨hadv.under, hadv.packet, hadv.counter⟩
    | error e => exact ⟨hadv.under, hadv.packet, hadv.counter⟩
  | decrypt packet adPrefix =>
    obtain ⟨w, h⟩ := decrypt_sending (A := A) packet adPrefix s
    have hstate : (step A s (.decrypt packet adPrefix)).2 = { s with rxWindow := w } := h
    rw [hstate]
    exact ⟨hs, rfl, rfl⟩

end Calls

section Runs

theorem counts_exec (hA : NeverFails A) (hs : Under key s) (calls : List Call) :
    Under key (exec (step A) s calls) ∧
      (exec (step A) s calls).txCounter.toNat = s.txCounter.toNat + produced (outputs (step A) s calls) ∧
      produced (outputs (step A) s calls) =
        min (calls.countP Call.encrypts) (2 ^ 32 - 1 - s.txCounter.toNat) := by
  induction calls generalizing s with
  | nil => exact ⟨hs, rfl, (Nat.zero_min _).symm⟩
  | cons call calls ih =>
    obtain ⟨ht, hpacket, hcount⟩ := step_advances hA hs call
    obtain ⟨hu, hcounts, hmin⟩ := ih ht
    have hsum : produced (outputs (step A) s (call :: calls)) =
        produced (outputs (step A) (step A s call).2 calls) +
          if (step A s call).1.isPacket then 1 else 0 := List.countP_cons ..
    refine ⟨hu, ?_, ?_⟩
    · rw [exec_cons, hcounts, hcount, hsum]
      omega
    · have hmax := s.txCounter.toNat_lt
      rw [hsum, hmin, hcount, hpacket, List.countP_cons]
      cases call.encrypts with
      | false => simp
      | true =>
        simp only [Bool.true_and, decide_eq_true_eq, if_true]
        split <;> omega

theorem counts_new (hA : NeverFails A) (key : DataChannelKey) (calls : List Call) :
    Under key (exec (step A) (PacketCipher.new key) calls) ∧
      (exec (step A) (PacketCipher.new key) calls).txCounter.toNat =
        produced (outputs (step A) (PacketCipher.new key) calls) ∧
      produced (outputs (step A) (PacketCipher.new key) calls) =
        min (calls.countP Call.encrypts) (2 ^ 32 - 1) := by
  have hnew : Under key (PacketCipher.new key) := ⟨rfl, rfl⟩
  obtain ⟨hunder, hcount, hmin⟩ := counts_exec hA hnew calls
  exact ⟨hunder, hcount.trans (Nat.zero_add _), hmin⟩

end Runs

section Distinct

theorem zipWith_xor_cancel (mask : Bytes) : ∀ {xs ys : Bytes}, xs.length = mask.length →
    ys.length = mask.length → List.zipWith (· ^^^ ·) mask xs = List.zipWith (· ^^^ ·) mask ys → xs = ys := by
  induction mask with
  | nil =>
    intro xs ys hxs hys _
    rw [List.eq_nil_of_length_eq_zero hxs, List.eq_nil_of_length_eq_zero hys]
  | cons m mask ih =>
    intro xs ys hxs hys h
    cases xs with
    | nil => cases hxs
    | cons x xs =>
      cases ys with
      | nil => cases hys
      | cons y ys =>
        obtain ⟨hhead, htail⟩ := List.cons.inj h
        have hxy : x = y := (UInt8.xor_right_inj m).mp hhead
        rw [hxy, ih (Nat.succ.inj hxs) (Nat.succ.inj hys) htail]

theorem nonceOf_injective (key : DataChannelKey) : Function.Injective (nonceOf key) := by
  intro i j h
  have hlists := congrArg List.Vector.toList h
  have hfront := (List.append_inj hlists (by simp)).1
  have hids := zipWith_xor_cancel _ (by simp) (by simp) hfront
  have hbytes : toBe32 i = toBe32 j := List.Vector.eq _ _ hids
  rw [← fromBe32_toBe32 i, hbytes, fromBe32_toBe32]

end Distinct

section Main

/-- The next call on `s` produces packet number `k`, under the nonce of that
number. Both ways of encrypting give the same bytes. -/
def Produces (A : Aead) (key : DataChannelKey) (s : PacketCipher) (k : Nat) : Prop :=
  ∀ plaintext adPrefix, ∃ sealed,
    A.encrypt key.cipherSuite key.key (nonceOf key (.ofNat k)) plaintext (aadOf adPrefix (.ofNat k)) =
      some sealed ∧
    encrypt A plaintext adPrefix s =
      (.ok (wirePacket (.ofNat k) sealed), { s with txCounter := .ofNat k }) ∧
    ∀ output, encryptInto A plaintext adPrefix (s, output) =
      (.ok (wirePacket (.ofNat k) sealed).length, { s with txCounter := .ofNat k },
        output ++ wirePacket (.ofNat k) sealed)

def Refuses (A : Aead) (s : PacketCipher) : Prop :=
  ∀ plaintext adPrefix,
    encrypt A plaintext adPrefix s = (.error (.error (.encryptionFailed "packet counter overflow")), s) ∧
    ∀ output, encryptInto A plaintext adPrefix (s, output) =
      (.error (.error (.encryptionFailed "packet counter overflow")), s, output)

/-- After any calls on a new cipher, the next packet is numbered by how many
there were before it, under a nonce that none of them had, until there are no
numbers left. -/
theorem nonces_never_reused (hA : NeverFails A) (key : DataChannelKey) (before : List Call) :
    let s := exec (step A) (PacketCipher.new key) before
    let n := produced (outputs (step A) (PacketCipher.new key) before)
    s.txCounter.toNat = n ∧ n = min (before.countP Call.encrypts) (2 ^ 32 - 1) ∧
      if n < 2 ^ 32 - 1 then
        Produces A key s (n + 1) ∧
          ∀ i ∈ Finset.Icc 1 n, nonceOf key (.ofNat i) ≠ nonceOf key (.ofNat (n + 1))
      else Refuses A s := by
  intro s n
  obtain ⟨hunder, hcount, hmin⟩ : Under key s ∧ s.txCounter.toNat = n ∧ _ := counts_new hA key before
  have hmax := s.txCounter.toNat_lt
  refine ⟨hcount, hmin, ?_⟩
  split
  · rename_i hlt
    have hnext : s.txCounter.toNat + 1 < 2 ^ 32 := by omega
    have hid : s.txCounter + 1 = .ofNat (n + 1) := by
      rw [← hcount, ← toNat_next hnext, UInt32.ofNat_toNat]
    refine ⟨?_, ?_⟩
    · intro plaintext adPrefix
      obtain ⟨sealed, henc, hpacket⟩ := encrypt_produces hA hunder hnext plaintext adPrefix
      rw [hid] at henc hpacket
      refine ⟨sealed, henc, hpacket, ?_⟩
      intro output
      rw [encryptInto_eq, hpacket]
    · intro i hi hsame
      have hle := (Finset.mem_Icc.mp hi).2
      have hids := congrArg UInt32.toNat (nonceOf_injective key hsame)
      rw [UInt32.toNat_ofNat_of_lt' (by change i < 2 ^ 32; omega),
        UInt32.toNat_ofNat_of_lt' (by change n + 1 < 2 ^ 32; omega)] at hids
      omega
  · rename_i hlast
    intro plaintext adPrefix
    have hrefused := encrypt_exhausted (A := A) (s := s) (by omega) plaintext adPrefix
    refine ⟨hrefused, ?_⟩
    intro output
    rw [encryptInto_eq, hrefused]

theorem nonces_never_reused_two :
    let key := DataChannelKey.new (zeros 32) .aes256Gcm
    let calls : List Call := [.encrypt [1, 2] [], .decrypt [7] [], .encryptInto [3] [9] [5]]
    produced (outputs (step (Aead.single [])) (PacketCipher.new key) calls) = 2 ∧
      Produces (Aead.single []) key (exec (step (Aead.single [])) (PacketCipher.new key) calls) 3 := by
  intro key calls
  have htwo : produced (outputs (step (Aead.single [])) (PacketCipher.new key) calls) = 2 := by
    decide +kernel +zetaReduce
  obtain ⟨-, -, hnext⟩ := nonces_never_reused (A := Aead.single [])
    (fun suite key nonce message aad => ⟨_, rfl, by simp [CipherSuite.tagSize]⟩) key calls
  rw [htwo] at hnext
  exact ⟨htwo, hnext.1⟩

end Main

end CoreVpn.Crypto.Nonces
