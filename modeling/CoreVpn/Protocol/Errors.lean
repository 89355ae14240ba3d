import CoreVpn.Crypto.Errors

namespace CoreVpn.Protocol.Errors

open Crypto.Errors

inductive ProtocolError where
  | invalidPacket (reason : String)
  | unknownOpcode (opcode : UInt8)
  | packetTooShort (expected got : Nat)
  | invalidSessionId
  | tlsError (reason : String)
  | replayDetected
  | keyNotAvailable (keyId : UInt8)
  | cryptoError (e : CryptoError)
  deriving DecidableEq, Repr

end CoreVpn.Protocol.Errors
