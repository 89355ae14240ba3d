import CoreVpn.Lib.Wire

namespace CoreVpn.Crypto.Prf

open Lib.Wire

/-- HMAC-MD5 and HMAC-SHA1. Both take keys of any length, so that the PRF
never reports an error. -/
structure PrfHashes where
  md5 : Bytes → Bytes → ByteVec 16
  sha1 : Bytes → Bytes → ByteVec 20

/-- The loop of `p_hash`. Each turn appends one digest, so the wanted length
bounds the turns. -/
def pHashLoop {n : Nat} (hmac : Bytes → Bytes → ByteVec n) (secret seed : Bytes) (outputLen : Nat) :
    Nat → (a output : Bytes) → Bytes
  | 0, _, output => output
  | fuel + 1, a, output =>
    if output.length < outputLen then
      let a := (hmac secret a).toList
      pHashLoop hmac secret seed outputLen fuel a (output ++ (hmac secret (a ++ seed)).toList)
    else output

def pHash {n : Nat} (hmac : Bytes → Bytes → ByteVec n) (secret seed : Bytes) (outputLen : Nat) : Bytes :=
  (pHashLoop hmac secret seed outputLen outputLen seed []).take outputLen

/-- The TLS 1.0 PRF: the secret is split into two halves, which share the
middle byte of an odd length. -/
def openvpnPrf (hashes : PrfHashes) (secret label seed : Bytes) (outputLen : Nat) : Bytes :=
  let combinedSeed := label ++ seed
  let s1 := secret.take ((secret.length + 1) / 2)
  let s2 := secret.drop (secret.length / 2)
  List.zipWith (· ^^^ ·) (pHash hashes.md5 s1 combinedSeed outputLen)
    (pHash hashes.sha1 s2 combinedSeed outputLen)

end CoreVpn.Crypto.Prf
