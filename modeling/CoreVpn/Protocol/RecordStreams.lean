import CoreVpn.Lib.Framing
import CoreVpn.Protocol.Sessions

namespace CoreVpn.Protocol.RecordStreams

open Lib.Computation Lib.Wire Lib.Framing Errors Sessions ProtocolSession TlsRecords

/-- A complete TLS record: type, version, length, and a body of that length,
which is at most 16 KiB and the 2048 bytes that protection may add. -/
def IsRecord (record : Bytes) : Prop :=
  ∃ (kind major minor hi lo : UInt8) (body : Bytes), record = kind :: major :: minor :: hi :: lo :: body ∧
    body.length = (fromBe16 hi lo).toNat ∧ body.length ≤ 16384 + 2048

def recordSize : Bytes → Option Nat
  | _ :: _ :: _ :: hi :: lo :: _ => some (5 + (fromBe16 hi lo).toNat)
  | _ => none

def recordSizing : Sizing UInt8 where
  size := recordSize
  pos {p n} h := by
    unfold recordSize at h
    split at h
    · cases h
      omega
    · cases h
  extend {p n} q h := by
    unfold recordSize at h
    split at h
    · cases h
      rfl
    · cases h

theorem IsRecord.isFrame {record : Bytes} (h : IsRecord record) :
    recordSizing.IsFrame record ∧ record.length ≤ 18437 := by
  obtain ⟨kind, major, minor, hi, lo, body, rfl, hlength, hmax⟩ := h
  constructor
  · change some (5 + (fromBe16 hi lo).toNat) = some (body.length + 5)
    rw [hlength, Nat.add_comm]
  · change body.length + 5 ≤ 18437
    omega

theorem splitRecords_eq (fuel : Nat) (buffer : Bytes) :
    TlsRecordReassembler.splitRecords fuel buffer = recordSizing.split fuel buffer := by
  induction fuel generalizing buffer with
  | zero => rfl
  | succ fuel ih =>
    unfold TlsRecordReassembler.splitRecords Sizing.split
    split
    · rename_i kind major minor hi lo rest
      have hsize : recordSizing.size (kind :: major :: minor :: hi :: lo :: rest) =
          some (5 + (fromBe16 hi lo).toNat) := rfl
      rw [hsize]
      simp only [ih]
    · rename_i hshort
      have hnone : recordSizing.size buffer = none := by
        change recordSize buffer = none
        unfold recordSize
        split
        · exact absurd rfl (hshort _ _ _ _ _ _)
        · rfl
      rw [hnone]

def recordsOf : Outcome ProtocolError ProcessedPacket → List Bytes
  | .ok (.tlsData records) => records
  | _ => []

theorem recordsOf_tlsData (records : List Bytes) :
    recordsOf (.ok (if records.isEmpty then .none else .tlsData records)) = records := by
  cases records with
  | nil => rfl
  | cons record records => rfl

variable {s : ProtocolSession} {mid : UInt32} {payload data : Bytes} {t : Reliable.ReliableTransport}

theorem add_eq (data : Bytes) (r : TlsRecordReassembler) :
    TlsRecordReassembler.add data r =
      if r.maxSize < r.buffer.length + data.length then
        (.error (.error (.invalidPacket "TLS record too large")), r)
      else (.ok (), { r with buffer := r.buffer ++ data }) := by
  rw [TlsRecordReassembler.add, bind_apply, get_apply]
  dsimp only
  split <;> rfl

theorem receiveTls_delivered
    (h : Reliable.ReliableTransport.receive mid payload s.reliable = (.ok (some data), t)) :
    recordsOf (receiveTls mid payload s).1 =
        (recordSizing.absorb s.tlsReassembler.maxSize s.tlsReassembler.buffer data).1 ∧
      (receiveTls mid payload s).2 = { s with
        reliable := t
        tlsReassembler := ⟨(recordSizing.absorb s.tlsReassembler.maxSize s.tlsReassembler.buffer data).2,
          s.tlsReassembler.maxSize⟩ } := by
  have hreceive : onReliable (Reliable.ReliableTransport.receive mid payload) s =
      (.ok (some data), { s with reliable := t }) := by
    rw [onReliable, zoom, h]
    rfl
  rw [receiveTls, bind_ok hreceive, Sizing.absorb]
  dsimp only
  by_cases hfull : s.tlsReassembler.maxSize < s.tlsReassembler.buffer.length + data.length
  · have hadd := (add_eq data s.tlsReassembler).trans (if_pos hfull)
    rw [if_pos hfull, bind_apply, zoom, hadd]
    exact ⟨rfl, rfl⟩
  · have hadd := (add_eq data s.tlsReassembler).trans (if_neg hfull)
    rw [if_neg hfull, bind_apply, zoom, hadd]
    dsimp only [Outcome.mapFault]
    rw [← splitRecords_eq]
    exact ⟨recordsOf_tlsData _, rfl⟩

theorem receiveTls_kept (h : Reliable.ReliableTransport.receive mid payload s.reliable = (.ok none, t)) :
    receiveTls mid payload s = (.ok .none, { s with reliable := t }) := by
  have hreceive : onReliable (Reliable.ReliableTransport.receive mid payload) s =
      (.ok none, { s with reliable := t }) := by
    rw [onReliable, zoom, h]
    rfl
  rw [receiveTls, bind_ok hreceive]
  rfl

theorem receiveTls_refused {e : Fault ProtocolError}
    (h : Reliable.ReliableTransport.receive mid payload s.reliable = (.error e, t)) :
    ∃ e', receiveTls mid payload s = (.error e', { s with reliable := t }) := by
  refine ⟨e.map id, bind_error ?_⟩
  rw [onReliable, zoom, h]
  rfl

end CoreVpn.Protocol.RecordStreams
