import CoreVpn.Lib.Wire
import CoreVpn.Protocol.Errors

namespace CoreVpn.Protocol.TlsRecords

open Lib.Computation Lib.Wire Errors

structure TlsRecordReassembler where
  buffer : Bytes
  maxSize : Nat
  deriving DecidableEq

namespace TlsRecordReassembler

def new (maxSize : Nat) : TlsRecordReassembler := ⟨[], maxSize⟩

def add (data : Bytes) : Program TlsRecordReassembler ProtocolError Unit := do
  let self ← get
  if self.buffer.length + data.length > self.maxSize then
    fail (.invalidPacket "TLS record too large")
  else
    modify fun s => { s with buffer := s.buffer ++ data }

/-- The complete records at the front of a buffer, and what is left behind
them. Each turn takes at least five bytes, so the length bounds the turns. -/
def splitRecords : Nat → Bytes → List Bytes × Bytes
  | 0, buffer => ([], buffer)
  | fuel + 1, buffer =>
    match buffer with
    | _ :: _ :: _ :: hi :: lo :: _ =>
      let length := (fromBe16 hi lo).toNat
      if buffer.length < 5 + length then ([], buffer)
      else
        let (records, rest) := splitRecords fuel (buffer.drop (5 + length))
        (buffer.take (5 + length) :: records, rest)
    | _ => ([], buffer)

def extractRecords (self : TlsRecordReassembler) : List Bytes × TlsRecordReassembler :=
  let (records, rest) := splitRecords self.buffer.length self.buffer
  (records, { self with buffer := rest })

end TlsRecordReassembler

end CoreVpn.Protocol.TlsRecords
