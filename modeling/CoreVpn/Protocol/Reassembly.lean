import CoreVpn.Protocol.RecordStreams

namespace CoreVpn.Protocol.Reassembly

open Lib.Computation Lib.Wire Lib.Framing Errors TlsRecords RecordStreams

variable {r r' : TlsRecordReassembler} {records : List Bytes}

def HasRecordLength (record : Bytes) : Prop :=
  ∃ (kind major minor hi lo : UInt8) (body : Bytes), record = kind :: major :: minor :: hi :: lo :: body ∧
    body.length = (fromBe16 hi lo).toNat

def takeRecords : Program TlsRecordReassembler ProtocolError (List Bytes) := fun r =>
  (.ok r.extractRecords.1, r.extractRecords.2)

def takeRecordsIf (now : Bool) : Program TlsRecordReassembler ProtocolError (List Bytes) :=
  if now then takeRecords else pure []

/-- Chunks are added one by one. The records that are complete are taken out
after those chunks that say so, and at the end. -/
def reassemble : List (Bytes × Bool) → Program TlsRecordReassembler ProtocolError (List Bytes)
  | [] => takeRecords
  | (chunk, now) :: chunks => do
    TlsRecordReassembler.add chunk
    let records ← takeRecordsIf now
    let more ← reassemble chunks
    pure (records ++ more)

def streamOf (chunks : List (Bytes × Bool)) : Bytes := (chunks.map Prod.fst).flatten

theorem takeRecords_eq (r : TlsRecordReassembler) :
    takeRecords r = (.ok (recordSizing.cut r.buffer).1, ⟨(recordSizing.cut r.buffer).2, r.maxSize⟩) := by
  simp only [takeRecords, TlsRecordReassembler.extractRecords, splitRecords_eq, Sizing.cut]

theorem add_eq_ok {data : Bytes} {u : Unit} (h : TlsRecordReassembler.add data r = (.ok u, r')) :
    r' = { r with buffer := r.buffer ++ data } := by
  rw [add_eq] at h
  split at h
  · cases h
  · exact (Prod.mk.inj h).2.symm

theorem reassemble_eq {chunks : List (Bytes × Bool)} (h : reassemble chunks r = (.ok records, r')) :
    (records, r'.buffer) = recordSizing.cut (r.buffer ++ streamOf chunks) := by
  induction chunks generalizing r records with
  | nil =>
    rw [reassemble, takeRecords_eq] at h
    cases h
    rw [streamOf, List.map_nil, List.flatten_nil, List.append_nil]
  | cons piece chunks ih =>
    obtain ⟨chunk, now⟩ := piece
    obtain ⟨u, s, hadd, h⟩ := bind_eq_ok h
    obtain ⟨early, t, hearly, h⟩ := bind_eq_ok h
    obtain ⟨more, t', hmore, h⟩ := bind_eq_ok h
    obtain ⟨hrecords, rfl⟩ := Prod.mk.inj h
    cases hrecords
    have hs := add_eq_ok hadd
    subst hs
    have hstream : r.buffer ++ streamOf ((chunk, now) :: chunks) = (r.buffer ++ chunk) ++ streamOf chunks := by
      rw [streamOf, List.map_cons, List.flatten_cons, List.append_assoc]
      rfl
    rw [hstream]
    cases now with
    | false =>
      obtain ⟨hearly, rfl⟩ := Prod.mk.inj hearly
      cases hearly
      exact ih hmore
    | true =>
      rw [takeRecordsIf, if_pos rfl, takeRecords_eq] at hearly
      obtain ⟨hearly, rfl⟩ := Prod.mk.inj hearly
      cases hearly
      have hcut := ih hmore
      dsimp only at hcut ⊢
      rw [recordSizing.cut_append (r.buffer ++ chunk), ← hcut]

theorem hasRecordLength_iff (record : Bytes) : HasRecordLength record ↔ recordSizing.IsFrame record := by
  constructor
  · rintro ⟨kind, major, minor, hi, lo, body, rfl, hlength⟩
    change some (5 + (fromBe16 hi lo).toNat) = some (body.length + 5)
    rw [hlength, Nat.add_comm]
  · intro h
    change recordSize record = some record.length at h
    unfold recordSize at h
    split at h
    · rename_i kind major minor hi lo body
      refine ⟨kind, major, minor, hi, lo, body, rfl, ?_⟩
      have hlength := Option.some.inj h
      simp only [List.length_cons] at hlength
      omega
    · cases h

theorem recordSize_take (p : Bytes) (n : Nat) (h : recordSize p = some n) (hle : n ≤ p.length) :
    recordSize (p.take n) = some n := by
  unfold recordSize at h
  split at h
  · cases h
    rw [Nat.add_comm]
    exact congrArg some (Nat.add_comm _ _)
  · cases h

/-- However a stream is cut into chunks, and whenever the complete records are
taken out, the same records come out and the same bytes are left. -/
theorem reassembly_independent_of_chunking (maxSize : Nat) (chunks : List (Bytes × Bool))
    (h : reassemble chunks (.new maxSize) = (.ok records, r)) :
    records.flatten ++ r.buffer = streamOf chunks ∧
      (∀ record ∈ records, HasRecordLength record) ∧
      (∀ record rest, r.buffer = record ++ rest → ¬ HasRecordLength record) ∧
      (∀ maxSize' chunks' records' r', streamOf chunks' = streamOf chunks →
        reassemble chunks' (.new maxSize') = (.ok records', r') → records' = records ∧ r'.buffer = r.buffer) ∧
      ∀ data (s s' : TlsRecordReassembler) e, TlsRecordReassembler.add data s = (.error e, s') → s' = s := by
  have hcut := reassemble_eq h
  change (records, r.buffer) = recordSizing.cut (streamOf chunks) at hcut
  refine ⟨?_, ?_, ?_, ?_, ?_⟩
  · have hflatten := recordSizing.cut_flatten (streamOf chunks)
    rwa [← hcut] at hflatten
  · intro record hrecord
    rw [hasRecordLength_iff]
    have hframes := Sizing.cut_frames (S := recordSizing) (p := streamOf chunks) recordSize_take
    rw [← hcut] at hframes
    exact hframes record hrecord
  · intro record rest hbuffer hrecord
    rw [hasRecordLength_iff] at hrecord
    have hrest := Sizing.cut_rest (S := recordSizing) (p := streamOf chunks) (n := record.length)
    rw [← hcut, hbuffer] at hrest
    have hlt := hrest (recordSizing.extend rest hrecord)
    rw [List.length_append] at hlt
    omega
  · intro maxSize' chunks' records' r' hstream h'
    have hcut' := reassemble_eq h'
    change (records', r'.buffer) = recordSizing.cut (streamOf chunks') at hcut'
    rw [hstream, ← hcut] at hcut'
    exact Prod.mk.inj hcut'
  · intro data s s' e hadd
    rw [add_eq] at hadd
    split at hadd
    · exact (Prod.mk.inj hadd).2.symm
    · cases hadd

theorem reassembly_of_split_length_field :
    let chunks : List (Bytes × Bool) := [([22, 3, 3, 0], true), ([2, 7, 8, 22, 3], false)]
    reassemble chunks (.new 64) = (.ok [[22, 3, 3, 0, 2, 7, 8]], ⟨[22, 3], 64⟩) ∧
      [[22, 3, 3, 0, 2, 7, 8]].flatten ++ [22, 3] = streamOf chunks := by
  have h : reassemble [([22, 3, 3, 0], true), ([2, 7, 8, 22, 3], false)] (.new 64) =
      (.ok [[22, 3, 3, 0, 2, 7, 8]], ⟨[22, 3], 64⟩) := rfl
  exact ⟨h, (reassembly_independent_of_chunking 64 _ h).1⟩

end CoreVpn.Protocol.Reassembly
