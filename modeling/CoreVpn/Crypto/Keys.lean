import CoreVpn.Crypto.Ciphers

namespace CoreVpn.Crypto.Keys

open Lib.Computation Lib.Wire Errors Ciphers

/-- HMAC-SHA256 as a function of the key and the data. -/
abbrev Hmac := ByteVec 32 → Bytes → ByteVec 32

structure HmacAuth where
  txKey : ByteVec 32
  rxKey : ByteVec 32
  deriving DecidableEq

namespace HmacAuth

def fromSingleKey (key : ByteVec 32) : HmacAuth := ⟨key, key⟩

/-- The HMAC keys of the two directions inside a static key file. -/
def fromTaKey (taKey : ByteVec 256) (isServer : Bool) (keyDirection : Option UInt8) :
    Outcome CryptoError HmacAuth := do
  let first ← readFixed 32 taKey.toList 64
  let second ← readFixed 32 taKey.toList 192
  match isServer, keyDirection with
  | true, some 0 | true, none => return ⟨first, second⟩
  | true, some 1 => return ⟨second, first⟩
  | false, some 1 | false, none => return ⟨second, first⟩
  | false, some 0 => return ⟨first, second⟩
  | _, some direction => .error (.error (.invalidPem
      s!"Invalid key direction: is_server={isServer}, key_direction=Some({direction})"))

def authenticate (H : Hmac) (auth : HmacAuth) (data : Bytes) : ByteVec 32 := H auth.txKey data

def verify (H : Hmac) (auth : HmacAuth) (data : Bytes) (expectedHmac : ByteVec 32) :
    Outcome CryptoError Unit :=
  if H auth.rxKey data = expectedHmac then .ok () else .error (.error .hmacVerificationFailed)

end HmacAuth

structure KeyMaterial where
  clientWriteKey : ByteVec 32
  serverWriteKey : ByteVec 32
  clientHmacKey : ByteVec 32
  serverHmacKey : ByteVec 32
  clientImplicitIv : ByteVec 12
  serverImplicitIv : ByteVec 12
  deriving DecidableEq

namespace KeyMaterial

/-- An implicit IV: four zero bytes, then eight bytes of the HMAC key. -/
def implicitIv (tail : ByteVec 8) : ByteVec 12 := ⟨(zeros 4).toList ++ tail.toList, by simp⟩

def fromOpenvpnKey2Block (block : Bytes) : Outcome CryptoError KeyMaterial := do
  if block.length < 256 then
    .error .panic
  else
    let clientWriteKey ← readFixed 32 block 0
    let clientIv ← readFixed 8 block 64
    let serverWriteKey ← readFixed 32 block 128
    let serverIv ← readFixed 8 block 192
    return { clientWriteKey, serverWriteKey, clientHmacKey := zeros 32, serverHmacKey := zeros 32
             clientImplicitIv := implicitIv clientIv, serverImplicitIv := implicitIv serverIv }

def clientDataKey (material : KeyMaterial) (suite : CipherSuite) : DataChannelKey :=
  .newWithIv material.clientWriteKey material.clientImplicitIv suite

def serverDataKey (material : KeyMaterial) (suite : CipherSuite) : DataChannelKey :=
  .newWithIv material.serverWriteKey material.serverImplicitIv suite

end KeyMaterial

end CoreVpn.Crypto.Keys
