import CoreVpn.Lib.Wire
import CoreVpn.Crypto.Errors
import CoreVpn.Crypto.Replay

namespace CoreVpn.Crypto.Ciphers

open Lib.Computation Lib.Wire Errors Replay

inductive CipherSuite where
  | chaCha20Poly1305
  | aes256Gcm
  deriving DecidableEq, Repr

def CipherSuite.tagSize : Nat := 16

/-- The two AEAD algorithms, as functions of the suite, the key, the nonce, the
message and the associated data. Either direction can fail. -/
structure Aead where
  encrypt : CipherSuite → ByteVec 32 → ByteVec 12 → Bytes → Bytes → Option Bytes
  decrypt : CipherSuite → ByteVec 32 → ByteVec 12 → Bytes → Bytes → Option Bytes

/-- A stand-in for concrete runs on one message: the tag is zero, and only that
message is ever accepted. -/
def Aead.single (message : Bytes) : Aead where
  encrypt _ _ _ plaintext _ := some (plaintext ++ (zeros 16).toList)
  decrypt _ _ _ ciphertext _ :=
    if ciphertext = message ++ (zeros 16).toList then some message else none

structure DataChannelKey where
  key : ByteVec 32
  implicitIv : ByteVec 12
  cipherSuite : CipherSuite
  deriving DecidableEq

namespace DataChannelKey

def new (key : ByteVec 32) (cipherSuite : CipherSuite) : DataChannelKey := ⟨key, zeros 12, cipherSuite⟩

def newWithIv (key : ByteVec 32) (implicitIv : ByteVec 12) (cipherSuite : CipherSuite) :
    DataChannelKey := ⟨key, implicitIv, cipherSuite⟩

end DataChannelKey

structure Cipher where
  key : ByteVec 32
  suite : CipherSuite
  deriving DecidableEq

namespace Cipher

def encrypt (A : Aead) (cipher : Cipher) (nonce : ByteVec 12) (plaintext aad : Bytes) :
    Outcome CryptoError Bytes :=
  match A.encrypt cipher.suite cipher.key nonce plaintext aad with
  | some ciphertext => .ok ciphertext
  | none =>
    match cipher.suite with
    | .chaCha20Poly1305 => .error (.error (.encryptionFailed "ChaCha20-Poly1305 encryption failed"))
    | .aes256Gcm => .error (.error (.encryptionFailed "AES-256-GCM encryption failed"))

def decrypt (A : Aead) (cipher : Cipher) (nonce : ByteVec 12) (ciphertext aad : Bytes) :
    Outcome CryptoError Bytes :=
  match A.decrypt cipher.suite cipher.key nonce ciphertext aad with
  | some plaintext => .ok plaintext
  | none => .error (.error .decryptionFailed)

end Cipher

def DataChannelKey.cipher (key : DataChannelKey) : Cipher := ⟨key.key, key.cipherSuite⟩

structure PacketCipher where
  cipher : Cipher
  implicitIv : ByteVec 12
  txCounter : UInt32
  rxWindow : DataWindow
  deriving DecidableEq

namespace PacketCipher

def packetIdSize : Nat := 4

def minPacketSize : Nat := packetIdSize + CipherSuite.tagSize

def new (key : DataChannelKey) : PacketCipher where
  cipher := key.cipher
  implicitIv := key.implicitIv
  txCounter := 0
  rxWindow := ReplayWindow.new

/-- The implicit IV with the packet id xored into its first four bytes. -/
def buildNonce (implicitIv : ByteVec 12) (pidBytes : ByteVec 4) : ByteVec 12 :=
  ⟨List.zipWith (· ^^^ ·) (implicitIv.toList.take 4) pidBytes.toList ++ implicitIv.toList.drop 4, by
    simp⟩

/-- The AEAD puts the tag behind the ciphertext, the wire format in front of it. -/
def reorder (pidBytes : ByteVec 4) (ctTag : Bytes) : Outcome CryptoError Bytes := do
  if ctTag.length < CipherSuite.tagSize then
    .error .panic
  else
    let ctLen := ctTag.length - CipherSuite.tagSize
    let ciphertext ← slice ctTag 0 ctLen
    let tag ← slice ctTag ctLen ctTag.length
    return pidBytes.toList ++ tag ++ ciphertext

def encrypt (A : Aead) (plaintext adPrefix : Bytes) : Program PacketCipher CryptoError Bytes := do
  let self ← get
  if self.txCounter.toNat + 1 = 2 ^ 32 then
    fail (.encryptionFailed "packet counter overflow")
  else
    modify fun s => { s with txCounter := s.txCounter + 1 }
    let pidBytes := toBe32 (self.txCounter + 1)
    let nonce := buildNonce self.implicitIv pidBytes
    let aad := adPrefix ++ pidBytes.toList
    let ctTag ← lift (self.cipher.encrypt A nonce plaintext aad)
    lift (reorder pidBytes ctTag)

/-- The same into a buffer of the caller, and the number of bytes written to it. -/
def encryptInto (A : Aead) (plaintext adPrefix : Bytes) :
    Program (PacketCipher × Bytes) CryptoError Nat := do
  let (self, _) ← get
  if self.txCounter.toNat + 1 = 2 ^ 32 then
    fail (.encryptionFailed "packet counter overflow")
  else
    modify fun (s, output) => ({ s with txCounter := s.txCounter + 1 }, output)
    let pidBytes := toBe32 (self.txCounter + 1)
    let nonce := buildNonce self.implicitIv pidBytes
    let aad := adPrefix ++ pidBytes.toList
    let ctTag ← lift (self.cipher.encrypt A nonce plaintext aad)
    let packet ← lift (reorder pidBytes ctTag)
    modify fun (s, output) => (s, output ++ packet)
    return packetIdSize + ctTag.length

/-- Both wire layouts are tried, the tag behind the ciphertext first. -/
def decryptEither (A : Aead) (self : PacketCipher) (pidBytes : ByteVec 4) (packet adPrefix : Bytes) :
    Outcome CryptoError Bytes := do
  let nonce := buildNonce self.implicitIv pidBytes
  let aad := adPrefix ++ pidBytes.toList
  let tag ← slice packet packetIdSize minPacketSize
  let ct ← slice packet minPacketSize packet.length
  let ctTagEnd ← slice packet packetIdSize packet.length
  match self.cipher.decrypt A nonce ctTagEnd aad with
  | .ok plaintext => .ok plaintext
  | .error _ => self.cipher.decrypt A nonce (ct ++ tag) aad

def decrypt (A : Aead) (packet adPrefix : Bytes) : Program PacketCipher CryptoError Bytes := do
  if packet.length < minPacketSize then
    fail .decryptionFailed
  else
    let pidBytes ← lift (readFixed 4 packet 0)
    let counter := (fromBe32 pidBytes).toBitVec.setWidth 64
    let fresh ← zoom PacketCipher.rxWindow (fun w s => { s with rxWindow := w }) id
      (DataWindow.checkAndUpdate counter)
    if fresh then
      let self ← get
      lift (decryptEither A self pidBytes packet adPrefix)
    else
      fail .replayDetected

end PacketCipher

end CoreVpn.Crypto.Ciphers
