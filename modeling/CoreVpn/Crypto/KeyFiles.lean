import CoreVpn.Cli.Ovpn
import CoreVpn.Crypto.Errors

namespace CoreVpn.Crypto.KeyFiles

open Lib.Computation Lib.Wire Lib.Text Errors
open Cli.Ovpn (fromStrRadix)

def invalidHex : CryptoError := .invalidPem "Invalid hex in static key"

def isKeyLine (line : String) : Bool := !(startsWith line "#" || startsWith line "-" || line.isEmpty)

/-- The bytes of a line, as long as there is room for them. The line is cut every
two bytes: one that is left over is passed by, and a cut inside a character panics. -/
def readLine : Nat → List Char → Outcome CryptoError Bytes
  | 0, _ => .ok []
  | _ + 1, [] => .ok []
  | _ + 1, [c] =>
    if c.utf8Size = 1 then .ok []
    else if c.utf8Size = 2 then .error (.error invalidHex)
    else .error .panic
  | room + 1, first :: second :: rest =>
    if first.utf8Size = 2 then .error (.error invalidHex)
    else if first.utf8Size = 1 ∧ second.utf8Size = 1 then
      match fromStrRadix first second with
      | none => .error (.error invalidHex)
      | some byte => do
        let bytes ← readLine room rest
        return byte :: bytes
    else .error .panic

def addRow (key : Bytes) (line : String) : Outcome CryptoError Bytes :=
  if isKeyLine (trim line) then do
    let bytes ← readLine (256 - key.length) (trim line).toList
    return key ++ bytes
  else return key

def parseStaticKey (pem : String) : Outcome CryptoError (ByteVec 256) := do
  let key ← (lines pem).foldlM addRow []
  if h : key.length = 256 then return ⟨key, h⟩
  else .error (.error (.invalidPem s!"Static key wrong length: expected 256, got {key.length}"))

end CoreVpn.Crypto.KeyFiles
