import CoreVpn.Protocol.Errors
import CoreVpn.Lib.Computation

namespace CoreVpn.Protocol.Opcodes

open Lib.Computation Errors

inductive OpCode where
  | softResetV1
  | controlV1
  | ackV1
  | dataV1
  | hardResetClientV2
  | hardResetServerV2
  | dataV2
  | hardResetClientV3
  | controlWkcV1
  deriving DecidableEq, Repr

structure KeyId where
  val : UInt8
  deriving DecidableEq, Repr

namespace OpCode

def code : OpCode → UInt8
  | .softResetV1 => 3
  | .controlV1 => 4
  | .ackV1 => 5
  | .dataV1 => 6
  | .hardResetClientV2 => 7
  | .hardResetServerV2 => 8
  | .dataV2 => 9
  | .hardResetClientV3 => 10
  | .controlWkcV1 => 11

/-- The opcode is the high five bits of the first byte. -/
def fromByte (byte : UInt8) : Outcome ProtocolError OpCode :=
  match byte >>> 3 with
  | 3 => .ok .softResetV1
  | 4 => .ok .controlV1
  | 5 => .ok .ackV1
  | 6 => .ok .dataV1
  | 7 => .ok .hardResetClientV2
  | 8 => .ok .hardResetServerV2
  | 9 => .ok .dataV2
  | 10 => .ok .hardResetClientV3
  | 11 => .ok .controlWkcV1
  | opcode => .error (.error (.unknownOpcode opcode))

def toByte (opcode : OpCode) (keyId : KeyId) : UInt8 := (opcode.code <<< 3) ||| (keyId.val &&& 0x07)

def isControl : OpCode → Bool
  | .controlV1 | .ackV1 | .hardResetClientV2 | .hardResetServerV2 | .softResetV1
  | .hardResetClientV3 | .controlWkcV1 => true
  | .dataV1 | .dataV2 => false

def isData : OpCode → Bool
  | .dataV1 | .dataV2 => true
  | _ => false

def isHardReset : OpCode → Bool
  | .hardResetClientV2 | .hardResetServerV2 | .hardResetClientV3 => true
  | _ => false

end OpCode

namespace KeyId

def fromByte (byte : UInt8) : KeyId := ⟨byte &&& 0x07⟩

def next (keyId : KeyId) : KeyId := ⟨(keyId.val + 1) &&& 0x07⟩

end KeyId

theorem isControl_eq_not_isData (opcode : OpCode) : opcode.isControl = !opcode.isData := by
  cases opcode <;> rfl

theorem forall_byte {P : UInt8 → Prop} (h : ∀ i : Fin 256, P (UInt8.ofNat i)) (b : UInt8) : P b := by
  have hb := h ⟨b.toNat, b.toNat_lt⟩
  rwa [UInt8.ofNat_toNat] at hb

theorem toByte_fromByte (b : UInt8) {opcode : OpCode} (h : OpCode.fromByte b = .ok opcode) :
    opcode.toByte (KeyId.fromByte b) = b := by
  refine forall_byte (P := fun b => OpCode.fromByte b = .ok opcode →
    opcode.toByte (KeyId.fromByte b) = b) ?_ b h
  cases opcode <;> decide +kernel

theorem fromByte_lt (b : UInt8) : (KeyId.fromByte b).val < 8 := by
  refine forall_byte (P := fun b => (KeyId.fromByte b).val < 8) ?_ b
  decide +kernel

theorem fromByte_toByte (opcode : OpCode) {keyId : KeyId} (h : keyId.val < 8) :
    OpCode.fromByte (opcode.toByte keyId) = .ok opcode ∧
      KeyId.fromByte (opcode.toByte keyId) = keyId := by
  obtain ⟨b⟩ := keyId
  refine forall_byte (P := fun b => b < 8 → OpCode.fromByte (opcode.toByte ⟨b⟩) = .ok opcode ∧
    KeyId.fromByte (opcode.toByte ⟨b⟩) = ⟨b⟩) ?_ b h
  cases opcode <;> decide +kernel

end CoreVpn.Protocol.Opcodes
