import Mathlib.Tactic

namespace CoreVpn.Crypto.Errors

inductive CryptoError where
  | decryptionFailed
  | encryptionFailed (reason : String)
  | keyDerivationFailed (reason : String)
  | invalidPem (reason : String)
  | hmacVerificationFailed
  | replayDetected
  deriving DecidableEq, Repr

end CoreVpn.Crypto.Errors
