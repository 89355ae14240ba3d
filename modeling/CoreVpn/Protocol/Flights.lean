import CoreVpn.Protocol.Fragments

namespace CoreVpn.Protocol.Flights

open Lib.Computation Lib.Wire Lib.Machine Errors Reliable Sessions ProtocolSession Sending Receive Readback Builders
open Fragments (idAt idAt_zero succ_idAt pieces createControlPackets_eq lt_length_chunks lt_length_pieces
  longRecord)

variable {P : Primitives} {clock : Clock} {s t : ProtocolSession}

def inFlight (s : ProtocolSession) (count : Nat) : Finset UInt32 :=
  s.reliable.pending.keys.toFinset ∪
    (Finset.range count).image (idAt s.reliable.nextSendId)

def packetCount (tlsData : Bytes) : Nat := max 1 ((tlsData.length + 1099) / 1100)

/-- The send window is full already, or takes all packets of the flight. -/
def FullOrFits (s : ProtocolSession) (tlsData : Bytes) : Prop :=
  WindowFull s ∨ (inFlight s (packetCount tlsData - 1)).card < s.reliable.config.windowSize.toNat

structure Untouched (s t : ProtocolSession) : Prop where
  nextSendId : t.reliable.nextSendId = s.reliable.nextSendId
  pending : t.reliable.pending = s.reliable.pending
  pendingAcks : t.reliable.pendingAcks = s.reliable.pendingAcks
  tlsAuthPacketId : t.tlsAuthPacketId = s.tlsAuthPacketId

theorem length_pieces (tlsData : Bytes) : (pieces tlsData).length = packetCount tlsData := by
  apply eq_of_forall_lt_iff
  intro j
  cases j with
  | zero =>
    have hpos : 0 < (pieces tlsData).length := by
      unfold pieces
      split
      · exact Nat.zero_lt_one
      · rw [lt_length_chunks _ _ le_rfl]
        omega
    exact iff_of_true hpos (Nat.lt_of_lt_of_le Nat.zero_lt_one (Nat.le_max_left _ _))
  | succ j =>
    rw [lt_length_pieces (Nat.succ_pos j), packetCount]
    change 1100 * (j + 1) < _ ↔ _
    omega

theorem mem_inFlight {count : Nat} {id : UInt32} : id ∈ inFlight s count ↔
    id ∈ s.reliable.pending ∨ ∃ i < count, idAt s.reliable.nextSendId i = id := by
  simp only [inFlight, Finset.mem_union, List.mem_toFinset, Std.ExtTreeMap.mem_keys, Finset.mem_image,
    Finset.mem_range]

theorem card_inFlight_zero (s : ProtocolSession) : (inFlight s 0).card = s.reliable.pending.size := by
  rw [inFlight, Finset.range_zero, Finset.image_empty, Finset.union_empty,
    List.toFinset_card_of_nodup Std.ExtTreeMap.nodup_keys, Std.ExtTreeMap.length_keys]

theorem card_inFlight_mono {m n : Nat} (h : m ≤ n) : (inFlight s m).card ≤ (inFlight s n).card :=
  Finset.card_le_card (Finset.union_subset_union_right (Finset.image_subset_image (Finset.range_mono h)))

theorem create_room (P : Primitives) (clock : Clock) (chunk : Bytes) (h : ¬ WindowFull s) :
    ∃ packet t, createSingleControlPacket P clock chunk s = (.ok packet, t) ∧
      t.reliable.config = s.reliable.config ∧ ∀ count, inFlight t count = inFlight s (count + 1) := by
  have hcreate : createSingleControlPacket P clock chunk s = (.ok _, _) := createReliable_room (fun _ => rfl) h
  have hrel := (maybeWrap_sameEnds P clock (Packets.Packet.serialize
    (.control (reliablePacket .controlV1 s.currentKeyId chunk s))) (sent clock chunk s)).2
  refine ⟨_, _, hcreate, (congrArg ReliableTransport.config hrel).trans rfl, fun count => ?_⟩
  ext id
  rw [mem_inFlight, mem_inFlight, hrel]
  change id ∈ s.reliable.pending.insert s.reliable.nextSendId _ ∨
    (∃ i < count, idAt (s.reliable.nextSendId + 1) i = id) ↔ _
  rw [mem_insert_iff]
  constructor
  · rintro ((rfl | hid) | ⟨i, hi, rfl⟩)
    · exact .inr ⟨0, Nat.succ_pos _, idAt_zero _⟩
    · exact .inl hid
    · exact .inr ⟨i + 1, Nat.succ_lt_succ hi, (succ_idAt _ _).symm⟩
  · rintro (hid | ⟨i, hi, rfl⟩)
    · exact .inl (.inr hid)
    · cases i with
      | zero => exact .inl (.inl (idAt_zero _))
      | succ i => exact .inr ⟨i, Nat.lt_of_succ_lt_succ hi, succ_idAt _ _⟩

theorem createEach_cases (P : Primitives) (clock : Clock) (chunks : List Bytes) (s : ProtocolSession) :
    (Succeeds (createEach P clock chunks) s ∧
        ∀ i < chunks.length, (inFlight s i).card < s.reliable.config.windowSize.toNat) ∨
      (∃ fault t, createEach P clock chunks s = (.error fault, t) ∧ WindowFull t ∧
        t.reliable.config = s.reliable.config ∧ (WindowFull s → t = s)) ∧
        ∃ i < chunks.length, s.reliable.config.windowSize.toNat ≤ (inFlight s i).card := by
  induction chunks generalizing s with
  | nil => exact .inl ⟨⟨_, _, rfl⟩, fun i hi => absurd hi (Nat.not_lt_zero i)⟩
  | cons chunk rest ih =>
    by_cases hfull : WindowFull s
    · refine .inr ⟨⟨_, s, bind_error (createReliable_full hfull), hfull, rfl, fun _ => rfl⟩, 0, Nat.succ_pos _, ?_⟩
      rw [card_inFlight_zero]
      exact hfull
    · obtain ⟨packet, u, hcreate, hconfig, hids⟩ := create_room P clock chunk hfull
      rw [createEach]
      rcases ih u with ⟨⟨packets, t, hrest⟩, hfits⟩ | ⟨⟨fault, t, hrest, hfull', hconfig', -⟩, i, hi, hover⟩
      · refine .inl ⟨⟨packet :: packets, t, ?_⟩, fun i hi => ?_⟩
        · rw [bind_ok hcreate, bind_ok hrest]
          rfl
        · cases i with
          | zero =>
            rw [card_inFlight_zero]
            exact Nat.lt_of_not_le hfull
          | succ i =>
            rw [← hids, ← hconfig]
            exact hfits i (Nat.lt_of_succ_lt_succ hi)
      · refine .inr ⟨⟨fault, t, ?_, hfull', hconfig'.trans hconfig, fun h => absurd h hfull⟩,
          i + 1, Nat.succ_lt_succ hi, ?_⟩
        · rw [bind_ok hcreate, bind_error hrest]
        · rw [← hids, ← hconfig]
          exact hover

/-- A flight that cannot be sent leaves the session as it was if and only if the
window was full before it, or the flight would have fit. -/
theorem flight_all_or_nothing_iff (P : Primitives) (clock : Clock) (tlsData : Bytes) (s : ProtocolSession) :
    (∀ fault t, createControlPackets P clock tlsData s = (.error fault, t) → Untouched s t) ↔
      FullOrFits s tlsData := by
  rw [createControlPackets_eq, FullOrFits]
  have hlength := length_pieces tlsData
  have hpos : 0 < packetCount tlsData := Nat.lt_of_lt_of_le Nat.zero_lt_one (Nat.le_max_left _ _)
  rcases createEach_cases P clock (pieces tlsData) s with
    ⟨⟨packets, u, hrun⟩, hfits⟩ | ⟨⟨fault, u, hrun, hfull, hconfig, hsame⟩, i, hi, hover⟩
  · refine iff_of_true (fun fault t hfault => ?_) (.inr (hfits _ (by omega)))
    cases hrun.symm.trans hfault
  · have hmono := card_inFlight_mono (s := s) (by omega : i ≤ packetCount tlsData - 1)
    constructor
    · intro h
      left
      rw [WindowFull, hconfig, (h fault u hrun).pending] at hfull
      exact hfull
    · rintro (hbefore | hfits) fault' t hfault
      · obtain ⟨-, rfl⟩ := Prod.mk.inj (hrun.symm.trans hfault)
        rw [hsame hbefore]
        exact ⟨rfl, rfl, rfl, rfl⟩
      · omega

def busy : ProtocolSession :=
  exec (SessionRuns.step (.single [])) (Traffic.fresh false .aes256Gcm (zeros 8) 0 none)
    (List.replicate 7 (.session (.createControlPacket ⟨0, 0⟩ [1])) ++
      [.session (.processPacket ⟨0, 0⟩ (32 :: List.replicate 13 0))])

/-- Of a flight of two packets the first takes the acknowledgment and the last
place in the window, and neither is handed out. -/
theorem flight_half_sent :
    let flight := createControlPackets (.single []) ⟨0, 0⟩ longRecord busy
    flight.1 = .error (.error (.invalidPacket "send window full")) ∧
      busy.reliable.pending.size = 7 ∧ flight.2.reliable.pending.size = 8 ∧
      busy.reliable.nextSendId = 7 ∧ flight.2.reliable.nextSendId = 8 ∧
      busy.reliable.pendingAcks = [0] ∧ flight.2.reliable.pendingAcks = [] := by
  decide +kernel

end CoreVpn.Protocol.Flights
