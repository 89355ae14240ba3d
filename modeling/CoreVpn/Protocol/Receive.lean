import CoreVpn.Protocol.Reliable

namespace CoreVpn.Protocol.Receive

open Lib.Computation Lib.Wire Errors Reliable ReliableTransport

variable {x id : UInt32} {t u : ReliableTransport}

theorem receive_expected (t : ReliableTransport) (data : Bytes) :
    receive t.nextRecvId data t = (.ok (some data), drain t.outOfOrder.size
      { t with
        pendingAcks := t.pendingAcks ++ [t.nextRecvId]
        nextRecvId := t.nextRecvId + 1 }) := by
  simp [receive, bind_apply]

theorem receive_full (data : Bytes) (h : t.nextRecvId < id)
    (hfull : maxOutOfOrder ≤ t.outOfOrder.size) :
    receive id data t = (.error (.error (.invalidPacket "too many out-of-order packets")),
      { t with pendingAcks := t.pendingAcks ++ [id] }) := by
  have hne : id ≠ t.nextRecvId := (UInt32.ne_of_lt h).symm
  simp [receive, bind_apply, hne, h, hfull]

theorem receive_ahead (data : Bytes) (h : t.nextRecvId < id)
    (hroom : t.outOfOrder.size < maxOutOfOrder) :
    receive id data t = (.ok none,
      { t with
        pendingAcks := t.pendingAcks ++ [id]
        outOfOrder := t.outOfOrder.insert id data }) := by
  have hne : id ≠ t.nextRecvId := (UInt32.ne_of_lt h).symm
  simp [receive, bind_apply, hne, h, Nat.not_le.mpr hroom]

theorem receive_duplicate (data : Bytes) (h : id < t.nextRecvId) :
    receive id data t = (.ok none, { t with pendingAcks := t.pendingAcks ++ [id] }) := by
  have hne : id ≠ t.nextRecvId := UInt32.ne_of_lt h
  have hnlt : ¬ t.nextRecvId < id := UInt32.not_lt.mpr (UInt32.le_of_lt h)
  simp [receive, bind_apply, hne, hnlt]

/-- All that a call of `receive` can do: deliver, refuse for lack of room,
buffer, or ignore an id below the expected one. It acknowledges in each case. -/
theorem receive_cases (t : ReliableTransport) (id : UInt32) (data : Bytes) :
    (id = t.nextRecvId ∧ receive id data t = (.ok (some data), drain t.outOfOrder.size
      { t with pendingAcks := t.pendingAcks ++ [id], nextRecvId := id + 1 })) ∨
    (t.nextRecvId < id ∧ maxOutOfOrder ≤ t.outOfOrder.size ∧
      receive id data t = (.error (.error (.invalidPacket "too many out-of-order packets")),
        { t with pendingAcks := t.pendingAcks ++ [id] })) ∨
    (t.nextRecvId < id ∧ t.outOfOrder.size < maxOutOfOrder ∧
      receive id data t = (.ok none, { t with
        pendingAcks := t.pendingAcks ++ [id]
        outOfOrder := t.outOfOrder.insert id data })) ∨
    (id < t.nextRecvId ∧
      receive id data t = (.ok none, { t with pendingAcks := t.pendingAcks ++ [id] })) := by
  by_cases heq : id = t.nextRecvId
  · subst heq
    exact .inl ⟨rfl, receive_expected t data⟩
  by_cases hlt : t.nextRecvId < id
  · by_cases hfull : maxOutOfOrder ≤ t.outOfOrder.size
    · exact .inr (.inl ⟨hlt, hfull, receive_full data hlt hfull⟩)
    · have hroom := Nat.lt_of_not_le hfull
      exact .inr (.inr (.inl ⟨hlt, hroom, receive_ahead data hlt hroom⟩))
  · have hgt : id < t.nextRecvId := UInt32.lt_of_le_of_ne (UInt32.not_lt.mp hlt) heq
    exact .inr (.inr (.inr ⟨hgt, receive_duplicate data hgt⟩))

theorem mem_of_getElem? {α : Type} {m : BTreeMap α} {a : α} (h : m[id]? = some a) : id ∈ m := by
  rw [Std.ExtTreeMap.mem_iff_isSome_getElem?, h]
  rfl

theorem mem_insert_iff {α : Type} {m : BTreeMap α} {a : α} : x ∈ m.insert id a ↔ x = id ∨ x ∈ m := by
  rw [Std.ExtTreeMap.mem_insert, Std.LawfulEqCmp.compare_eq_iff_eq, eq_comm]

theorem mem_erase_iff {α : Type} {m : BTreeMap α} : x ∈ m.erase id ↔ x ≠ id ∧ x ∈ m := by
  rw [Std.ExtTreeMap.mem_erase, Ne, Std.LawfulEqCmp.compare_eq_iff_eq, eq_comm]

theorem size_le_of_subset {α β : Type} {m : BTreeMap α} {m' : BTreeMap β} (h : ∀ id ∈ m, id ∈ m') :
    m.size ≤ m'.size := by
  have hkeys : m.keys ⊆ m'.keys := fun id hid =>
    Std.ExtTreeMap.mem_keys.mpr (h id (Std.ExtTreeMap.mem_keys.mp hid))
  rw [← Std.ExtTreeMap.length_keys, ← Std.ExtTreeMap.length_keys]
  exact (Std.ExtTreeMap.nodup_keys.subperm hkeys).length_le

theorem getElem?_insert {α : Type} {m : BTreeMap α} {a : α} :
    (m.insert x a)[id]? = if id = x then some a else m[id]? := by
  simp only [Std.ExtTreeMap.getElem?_insert, Std.LawfulEqCmp.compare_eq_iff_eq, @eq_comm _ x id]

theorem getElem?_erase {α : Type} {m : BTreeMap α} : (m.erase x)[id]? = if id = x then none else m[id]? := by
  simp only [Std.ExtTreeMap.getElem?_erase, Std.LawfulEqCmp.compare_eq_iff_eq, @eq_comm _ x id]

/-- The rule for the drain loop: a property that survives counting one buffered
successor as received survives the loop. -/
theorem drain_induction {P : ReliableTransport → Prop}
    (hstep : ∀ t, t.nextRecvId ∈ t.outOfOrder → P t → P { t with
      nextRecvId := t.nextRecvId + 1
      outOfOrder := t.outOfOrder.erase t.nextRecvId })
    (fuel : Nat) (h : P t) : P (drain fuel t) := by
  induction fuel generalizing t with
  | zero => exact h
  | succ fuel ih =>
    unfold drain
    split
    · exact h
    · rename_i payload hb
      exact ih (hstep t (mem_of_getElem? hb) h)

theorem drain_of_notMem (fuel : Nat) (h : t.nextRecvId ∉ t.outOfOrder) : drain fuel t = t := by
  cases fuel with
  | zero => rfl
  | succ fuel => rw [drain, Std.ExtTreeMap.getElem?_eq_none h]

theorem size_ne_zero {α : Type} {m : BTreeMap α} (h : id ∈ m) : m.size ≠ 0 := by
  intro h0
  rw [Std.ExtTreeMap.eq_empty_iff_size_eq_zero.mpr h0] at h
  exact Std.ExtTreeMap.not_mem_empty h

theorem drain_of_mem (h : t.nextRecvId ∈ t.outOfOrder) :
    ∃ fuel, drain t.outOfOrder.size t = drain fuel { t with
      nextRecvId := t.nextRecvId + 1
      outOfOrder := t.outOfOrder.erase t.nextRecvId } := by
  obtain ⟨fuel, hf⟩ := Nat.exists_eq_succ_of_ne_zero (size_ne_zero h)
  rw [Std.ExtTreeMap.mem_iff_isSome_getElem?, Option.isSome_iff_exists] at h
  obtain ⟨payload, hb⟩ := h
  exact ⟨fuel, by rw [hf, drain, hb]⟩

/-- The id `x` has not arrived: the buffer does not hold it and the expected
id has not moved past it. -/
structure Missing (x : UInt32) (t : ReliableTransport) : Prop where
  notBuffered : x ∉ t.outOfOrder
  expected_le : t.nextRecvId.toNat ≤ x.toNat

/-- As long as some id is missing, counting up to the next expected id cannot
wrap around. -/
theorem Missing.advance (h : Missing x t) (hne : t.nextRecvId ≠ x)
    (hnext : u.nextRecvId = t.nextRecvId + 1) (hsub : ∀ k ∈ u.outOfOrder, k ∈ t.outOfOrder) :
    Missing x u ∧ u.nextRecvId.toNat = t.nextRecvId.toNat + 1 := by
  have hlt : t.nextRecvId.toNat < x.toNat :=
    Nat.lt_of_le_of_ne h.expected_le fun he => hne (UInt32.toNat_inj.mp he)
  have hx := x.toNat_lt
  have hsucc : u.nextRecvId.toNat = t.nextRecvId.toNat + 1 := by
    rw [hnext, UInt32.toNat_add]
    change (t.nextRecvId.toNat + 1) % 2 ^ 32 = _
    omega
  exact ⟨⟨fun hm => h.notBuffered (hsub x hm), by omega⟩, hsucc⟩

theorem Missing.drain (h : Missing x t) (fuel : Nat) :
    Missing x (drain fuel t) ∧ t.nextRecvId.toNat ≤ (drain fuel t).nextRecvId.toNat := by
  refine drain_induction (P := fun v => Missing x v ∧ t.nextRecvId.toNat ≤ v.nextRecvId.toNat) ?_ fuel
    ⟨h, le_rfl⟩
  rintro v hmem ⟨hv, hle⟩
  have hne : v.nextRecvId ≠ x := fun he => hv.notBuffered (he ▸ hmem)
  obtain ⟨hv', hs⟩ := hv.advance (u := { v with
      nextRecvId := v.nextRecvId + 1
      outOfOrder := v.outOfOrder.erase v.nextRecvId }) hne rfl
    fun k hk => Std.ExtTreeMap.mem_of_mem_erase hk
  exact ⟨hv', by omega⟩

theorem Missing.drain_eq_iff (h : Missing x t) :
    (ReliableTransport.drain t.outOfOrder.size t).nextRecvId.toNat = t.nextRecvId.toNat ↔
      t.nextRecvId ∉ t.outOfOrder := by
  constructor
  · intro he hmem
    have hne : t.nextRecvId ≠ x := fun he => h.notBuffered (he ▸ hmem)
    obtain ⟨h', hs⟩ := h.advance (u := { t with
        nextRecvId := t.nextRecvId + 1
        outOfOrder := t.outOfOrder.erase t.nextRecvId }) hne rfl
      fun k hk => Std.ExtTreeMap.mem_of_mem_erase hk
    obtain ⟨fuel, hf⟩ := drain_of_mem hmem
    have hle := (h'.drain fuel).2
    rw [← hf] at hle
    omega
  · intro hmem
    rw [drain_of_notMem _ hmem]

theorem size_erase_add_one {α : Type} {m : BTreeMap α} (h : id ∈ m) : (m.erase id).size + 1 = m.size := by
  have hpos := size_ne_zero h
  rw [Std.ExtTreeMap.size_erase, if_pos (Std.ExtTreeMap.mem_iff_contains.mp h)]
  omega

theorem size_erase_lt {α : Type} {m : BTreeMap α} (h : id ∈ m) : (m.erase id).size < m.size := by
  rw [← size_erase_add_one h]
  exact Nat.lt_succ_self _

theorem drain_stops (fuel : Nat) (h : t.outOfOrder.size ≤ fuel) :
    (drain fuel t).nextRecvId ∉ (drain fuel t).outOfOrder := by
  induction fuel generalizing t with
  | zero =>
    rw [drain, Std.ExtTreeMap.eq_empty_iff_size_eq_zero.mpr (Nat.le_zero.mp h)]
    exact Std.ExtTreeMap.not_mem_empty
  | succ fuel ih =>
    by_cases hmem : t.nextRecvId ∈ t.outOfOrder
    · obtain ⟨payload, hb⟩ := Option.isSome_iff_exists.mp (Std.ExtTreeMap.mem_iff_isSome_getElem?.mp hmem)
      rw [drain, hb]
      exact ih (Nat.le_of_lt_succ (Nat.lt_of_lt_of_le (size_erase_lt hmem) h))
    · rw [drain_of_notMem _ hmem]
      exact hmem

/-- What incoming packets leave of the transport: packets may be acknowledged,
but none is added or changed, and the buffer keeps its bound. -/
structure Received (t u : ReliableTransport) : Prop where
  config : u.config = t.config
  nextSendId : u.nextSendId = t.nextSendId
  pending : ∀ (id : UInt32) (packet : PendingPacket), u.pending[id]? = some packet →
    t.pending[id]? = some packet
  room : t.outOfOrder.size ≤ maxOutOfOrder → u.outOfOrder.size ≤ maxOutOfOrder

instance : IsPreorder ReliableTransport Received where
  refl _ := ⟨rfl, rfl, fun _ _ h => h, fun h => h⟩
  trans _ _ _ h h' := ⟨h'.1.trans h.1, h'.2.trans h.2,
    fun id packet hp => h.3 id packet (h'.3 id packet hp), h'.4 ∘ h.4⟩

theorem received_drain (fuel : Nat) : Received t (drain fuel t) := by
  apply drain_induction (P := fun v => Received t v)
  · intro v hmem hv
    refine ⟨hv.config, hv.nextSendId, hv.pending, fun h => ?_⟩
    exact Nat.le_trans (Nat.le_of_lt (size_erase_lt hmem)) (hv.room h)
  · exact refl_of Received t

theorem frames_receive (id : UInt32) (data : Bytes) : Frames Received (receive id data) := by
  intro t
  rcases receive_cases t id data with ⟨-, h⟩ | ⟨-, -, h⟩ | ⟨-, hroom, h⟩ | ⟨-, h⟩
  · rw [h]
    refine trans_of Received ?_ (received_drain _)
    exact ⟨rfl, rfl, fun _ _ h => h, fun h => h⟩
  · rw [h]
    exact ⟨rfl, rfl, fun _ _ h => h, fun h => h⟩
  · rw [h]
    refine ⟨rfl, rfl, fun _ _ h => h, fun _ => ?_⟩
    exact Nat.le_trans Std.ExtTreeMap.size_insert_le hroom
  · rw [h]
    exact ⟨rfl, rfl, fun _ _ h => h, fun h => h⟩

theorem received_updateRtt (F : FloatTime) (rtt : Duration) (t : ReliableTransport) :
    Received t (t.updateRtt F rtt) := by
  unfold updateRtt
  split <;> exact ⟨rfl, rfl, fun _ _ h => h, fun h => h⟩

theorem pending_processAck (F : FloatTime) (now : Instant) (t : ReliableTransport) (ackId : UInt32) :
    (processAck F now t ackId).pending = t.pending.erase ackId := by
  unfold processAck
  split
  · dsimp only [updateRtt]
    split
    · split <;> rfl
    · rfl
  · rename_i hnone
    apply Std.ExtTreeMap.ext_getElem?
    intro id
    rw [getElem?_erase]
    split
    · rename_i hid
      rw [hid, hnone]
    · rfl

theorem getElem?_processAcks (F : FloatTime) (now : Instant) (acks : List UInt32) (t : ReliableTransport)
    (id : UInt32) : (processAcks F now acks t).pending[id]? = if id ∈ acks then none else t.pending[id]? := by
  induction acks generalizing t with
  | nil => simp [processAcks]
  | cons ack acks ih =>
    rw [processAcks, List.foldl_cons, ← processAcks, ih, pending_processAck, getElem?_erase]
    by_cases hid : id ∈ acks <;> by_cases hack : id = ack <;> simp [hid, hack]

theorem received_processAck (F : FloatTime) (now : Instant) (t : ReliableTransport) (ackId : UInt32) :
    Received t (processAck F now t ackId) := by
  have herase : Received t { t with pending := t.pending.erase ackId } := by
    refine ⟨rfl, rfl, fun id packet h => ?_, fun h => h⟩
    rw [getElem?_erase] at h
    split at h
    · cases h
    · exact h
  unfold processAck
  split
  · dsimp only
    split
    · exact trans_of Received herase (received_updateRtt F _ _)
    · exact herase
  · exact refl_of Received t

theorem received_processAcks (F : FloatTime) (now : Instant) (acks : List UInt32) (t : ReliableTransport) :
    Received t (processAcks F now acks t) := by
  induction acks generalizing t with
  | nil => exact refl_of Received t
  | cons ack acks ih => exact trans_of Received (received_processAck F now t ack) (ih _)

structure SameReceiving (t u : ReliableTransport) : Prop where
  config : u.config = t.config
  nextRecvId : u.nextRecvId = t.nextRecvId
  outOfOrder : u.outOfOrder = t.outOfOrder

theorem SameReceiving.trans {v : ReliableTransport} (h : SameReceiving t u) (h' : SameReceiving u v) :
    SameReceiving t v := ⟨h'.1.trans h.1, h'.2.trans h.2, h'.3.trans h.3⟩

theorem sameReceiving_send (now : Instant) (data : Bytes) : Frames SameReceiving (send now data) := by
  intro t
  rw [send, bind_apply, get_apply]
  dsimp only
  split <;> exact ⟨rfl, rfl, rfl⟩

theorem sameReceiving_processAck (F : FloatTime) (now : Instant) (t : ReliableTransport) (ackId : UInt32) :
    SameReceiving t (processAck F now t ackId) := by
  unfold processAck
  split
  · dsimp only [updateRtt]
    split
    · split <;> exact ⟨rfl, rfl, rfl⟩
    · exact ⟨rfl, rfl, rfl⟩
  · exact ⟨rfl, rfl, rfl⟩

theorem sameReceiving_processAcks (F : FloatTime) (now : Instant) (acks : List UInt32)
    (t : ReliableTransport) : SameReceiving t (processAcks F now acks t) := by
  induction acks generalizing t with
  | nil => exact ⟨rfl, rfl, rfl⟩
  | cons ack acks ih => exact (sameReceiving_processAck F now t ack).trans (ih _)

end CoreVpn.Protocol.Receive
