import Mathlib.Data.Finset.Card
import CoreVpn.Protocol.Processing
import CoreVpn.Protocol.RecordStreams
import CoreVpn.Protocol.SessionRuns

namespace CoreVpn.Protocol.Fragments

open Lib.Computation Lib.Wire Lib.Machine Lib.Framing Errors Opcodes Packets Reliable ReliableTransport
open Sessions ProtocolSession Sending Readback Receive Builders Processing RecordStreams SessionRuns

section Ids

def idAt (n : UInt32) (x : Nat) : UInt32 := n + UInt32.ofNat x

variable {n : UInt32} {x y a b : Nat}

theorem idAt_zero (n : UInt32) : idAt n 0 = n := UInt32.add_zero n

theorem idAt_succ (n : UInt32) (x : Nat) : idAt n x + 1 = idAt n (x + 1) := by
  rw [idAt, idAt, UInt32.add_assoc, UInt32.ofNat_add]
  rfl

theorem succ_idAt (n : UInt32) (x : Nat) : idAt (n + 1) x = idAt n (x + 1) := by
  rw [← idAt_succ, idAt, idAt, UInt32.add_assoc, UInt32.add_assoc, UInt32.add_comm 1]

theorem idAt_inj (hx : x < 2 ^ 32) (hy : y < 2 ^ 32) (h : idAt n x = idAt n y) : x = y := by
  have hof : UInt32.ofNat x = UInt32.ofNat y := UInt32.add_right_inj n |>.mp h
  have hnat := congrArg UInt32.toNat hof
  rwa [UInt32.toNat_ofNat_of_lt' hx, UInt32.toNat_ofNat_of_lt' hy] at hnat

theorem range_le_size {α : Type} {m : BTreeMap α} (hb : b ≤ 2 ^ 32)
    (h : ∀ x, a ≤ x → x < b → idAt n x ∈ m) : b - a ≤ m.size := by
  have hinj : Set.InjOn (idAt n) (Finset.Ico a b) := by
    intro x hx y hy
    rw [Finset.coe_Ico, Set.mem_Ico] at hx hy
    exact idAt_inj (Nat.lt_of_lt_of_le hx.2 hb) (Nat.lt_of_lt_of_le hy.2 hb)
  have hsub : (Finset.Ico a b).image (idAt n) ⊆ m.keys.toFinset := by
    intro id hid
    obtain ⟨x, hx, rfl⟩ := Finset.mem_image.mp hid
    rw [Finset.mem_Ico] at hx
    exact List.mem_toFinset.mpr (Std.ExtTreeMap.mem_keys.mpr (h x hx.1 hx.2))
  calc b - a = ((Finset.Ico a b).image (idAt n)).card := by rw [Finset.card_image_of_injOn hinj, Nat.card_Ico]
    _ ≤ m.keys.toFinset.card := Finset.card_le_card hsub
    _ ≤ m.keys.length := List.toFinset_card_le _
    _ = m.size := Std.ExtTreeMap.length_keys

end Ids

section Receiving

/-- The messages before the offset `i` have come in, one after the other, at a
transport that was in the state `base`, and it now counts up to the offset `o`.
It has skipped only ids that were in its buffer from the start, and what it has
buffered meanwhile lies behind it. -/
structure Passing (base : ReliableTransport) (i o : Nat) (t : ReliableTransport) : Prop where
  next : t.nextRecvId = idAt base.nextRecvId o
  le : i ≤ o
  lt : o < 2 ^ 32
  ahead : ∀ x, o ≤ x → x < 2 ^ 32 →
    (idAt base.nextRecvId x ∈ t.outOfOrder ↔ idAt base.nextRecvId x ∈ base.outOfOrder)
  skipped : ∀ x, i ≤ x → x < o → idAt base.nextRecvId x ∈ base.outOfOrder

structure Receiving (base : ReliableTransport) (i o : Nat) (t : ReliableTransport) : Prop
    extends Passing base i o t where
  first : i = 0 → o = 0
  stopped : o = 0 ∨ idAt base.nextRecvId o ∉ base.outOfOrder

variable {base t u : ReliableTransport} {i o x : Nat}

theorem Receiving.start (base : ReliableTransport) : Receiving base 0 0 base where
  next := (idAt_zero _).symm
  le := le_rfl
  lt := by decide
  ahead _ _ _ := Iff.rfl
  skipped _ _ h := absurd h (Nat.not_lt_zero _)
  first _ := rfl
  stopped := .inl rfl

theorem Receiving.pass (h : Receiving base i o t) (hlt : i < o) : Receiving base (i + 1) o t :=
  ⟨⟨h.next, hlt, h.lt, h.ahead, fun x hx => h.skipped x (Nat.le_of_succ_le hx)⟩,
    fun hi => absurd hi (Nat.succ_ne_zero i), h.stopped⟩

theorem Receiving.expects_iff (h : Receiving base i o t) :
    i = o ↔ i = 0 ∨ idAt base.nextRecvId i ∉ base.outOfOrder := by
  constructor
  · rintro rfl
    exact h.stopped
  · intro hi
    rcases hi with hi | hi
    · rw [hi, h.first hi]
    · exact Nat.le_antisymm h.le (Nat.le_of_not_lt fun hlt => hi (h.skipped i le_rfl hlt))

theorem Receiving.of_behind (h : Receiving base i o t) (hx : x < o) (hnext : u.nextRecvId = t.nextRecvId)
    (hbuffer : ∀ id, id ≠ idAt base.nextRecvId x → (id ∈ u.outOfOrder ↔ id ∈ t.outOfOrder)) :
    Receiving base i o u := by
  refine ⟨⟨hnext.trans h.next, h.le, h.lt, fun y hy hlt => ?_, h.skipped⟩, h.first, h.stopped⟩
  rw [hbuffer _ fun he => ?_]
  · exact h.ahead y hy hlt
  · have hyx := idAt_inj hlt (Nat.lt_trans hx h.lt) he
    omega

/-- One turn of the drain loop. The range of skipped ids fits into the buffer,
so the count cannot wrap around. -/
theorem Passing.turn (h : Passing base i o t) (hbound : i + base.outOfOrder.size < 2 ^ 32)
    (hmem : t.nextRecvId ∈ t.outOfOrder) :
    Passing base i (o + 1) { t with
      nextRecvId := t.nextRecvId + 1
      outOfOrder := t.outOfOrder.erase t.nextRecvId } := by
  rw [h.next] at hmem
  have hskipped : ∀ x, i ≤ x → x < o + 1 → idAt base.nextRecvId x ∈ base.outOfOrder := by
    intro x hx hxo
    rcases Nat.lt_succ_iff_lt_or_eq.mp hxo with hxo | rfl
    · exact h.skipped x hx hxo
    · exact (h.ahead x le_rfl h.lt).mp hmem
  have hsize := range_le_size h.lt hskipped
  have hle := h.le
  refine ⟨?_, Nat.le_succ_of_le hle, by omega, fun x hx hxlt => ?_, hskipped⟩
  · change t.nextRecvId + 1 = _
    rw [h.next, idAt_succ]
  · change idAt base.nextRecvId x ∈ t.outOfOrder.erase t.nextRecvId ↔ _
    rw [mem_erase_iff, ← h.ahead x (Nat.le_of_succ_le hx) hxlt, h.next]
    refine and_iff_right fun he => ?_
    have hox := idAt_inj hxlt h.lt he
    omega

theorem Receiving.deliver (h : Receiving base i i t) (hbound : i + 1 + base.outOfOrder.size < 2 ^ 32)
    (hnext : u.nextRecvId = t.nextRecvId + 1) (hbuffer : u.outOfOrder = t.outOfOrder) :
    ∃ o, Receiving base (i + 1) o (drain u.outOfOrder.size u) := by
  have hloop : ∃ o, Passing base (i + 1) o (drain u.outOfOrder.size u) := by
    apply drain_induction (P := fun v => ∃ o, Passing base (i + 1) o v)
    · rintro v hmem ⟨o, hv⟩
      exact ⟨o + 1, hv.turn hbound hmem⟩
    · refine ⟨i + 1, ?_, le_rfl, by omega, fun x hx hlt => ?_, fun x hx hlt => absurd hlt (Nat.not_lt.mpr hx)⟩
      · rw [hnext, h.next, idAt_succ]
      · rw [hbuffer]
        exact h.ahead x (Nat.le_of_succ_le hx) hlt
  obtain ⟨o, ho⟩ := hloop
  refine ⟨o, ho, fun hi => absurd hi (Nat.succ_ne_zero i), .inr ?_⟩
  rw [← ho.ahead o le_rfl ho.lt, ← ho.next]
  exact drain_stops _ le_rfl

end Receiving

section Hearing

def hear (P : Primitives) (s : ProtocolSession) (arrival : Clock × Bytes) : List Bytes × ProtocolSession :=
  let r := processPacket P arrival.1 arrival.2 s
  (recordsOf r.1, r.2)

def IsFragment (packet : Bytes) (c : Content) : Prop :=
  ∃ ctrl, Packet.parse packet false = .ok (.control ctrl) ∧ ctrl.header.opcode = .controlV1 ∧
    ctrl.messagePacketId = c.messagePacketId ∧ ctrl.payload = c.payload

variable {P : Primitives} {clock : Clock} {s : ProtocolSession} {base : ReliableTransport} {i o x : Nat}
  {packet : Bytes} {c : Content} {id : UInt32}

theorem processPacket_fragment (P : Primitives) (clock : Clock) (hs : s.useTlsAuth = false)
    (hp : IsFragment packet c) (hid : c.messagePacketId = some id) :
    ∃ s', processPacket P clock packet s = receiveTls id c.payload s' ∧ s'.useTlsAuth = false ∧
      s'.tlsReassembler = s.tlsReassembler ∧ SameReceiving s.reliable s'.reliable := by
  obtain ⟨ctrl, hparse, hop, hmid, hpayload⟩ := hp
  rw [processPacket_plain hs hparse]
  simp only [processOpcode, hop, hmid, hid, hpayload]
  refine ⟨_, rfl, ?_⟩
  unfold acked
  split
  · exact ⟨hs, rfl, ⟨rfl, rfl, rfl⟩⟩
  · exact ⟨hs, rfl, sameReceiving_processAcks _ _ _ _⟩

def Heard (base : ReliableTransport) (i : Nat) (s : ProtocolSession) : Prop :=
  s.useTlsAuth = false ∧ ∃ o, Receiving base i o s.reliable

theorem hear_behind (P : Primitives) (clock : Clock) (hs : s.useTlsAuth = false) (h : Receiving base i o s.reliable)
    (hx : x < o) (hp : IsFragment packet c) (hid : c.messagePacketId = some (idAt base.nextRecvId x)) :
    (hear P s (clock, packet)).1 = [] ∧ Heard base i (hear P s (clock, packet)).2 ∧
      (hear P s (clock, packet)).2.tlsReassembler = s.tlsReassembler := by
  obtain ⟨s', hrun, hs', htls, hsame⟩ := processPacket_fragment P clock hs hp hid
  have hnext : s'.reliable.nextRecvId = idAt base.nextRecvId o := hsame.nextRecvId.trans h.next
  have hhear : hear P s (clock, packet) = (recordsOf (receiveTls (idAt base.nextRecvId x) c.payload s').1,
      (receiveTls (idAt base.nextRecvId x) c.payload s').2) := by
    rw [hear, hrun]
  rw [hhear]
  rcases receive_cases s'.reliable (idAt base.nextRecvId x) c.payload with
    ⟨he, -⟩ | ⟨-, -, hreceive⟩ | ⟨-, -, hreceive⟩ | ⟨-, hreceive⟩
  · have hxo := idAt_inj (Nat.lt_trans hx h.lt) h.lt (he.trans hnext)
    omega
  · obtain ⟨e, htls'⟩ := receiveTls_refused hreceive
    rw [htls']
    refine ⟨rfl, ⟨hs', o, h.of_behind hx hsame.nextRecvId fun id _ => ?_⟩, htls⟩
    exact iff_of_eq (congrArg (id ∈ ·) hsame.outOfOrder)
  · rw [receiveTls_kept hreceive]
    refine ⟨rfl, ⟨hs', o, h.of_behind hx hsame.nextRecvId fun id hne => ?_⟩, htls⟩
    change id ∈ s'.reliable.outOfOrder.insert (idAt base.nextRecvId x) c.payload ↔ _
    rw [mem_insert_iff, or_iff_right hne, hsame.outOfOrder]
  · rw [receiveTls_kept hreceive]
    refine ⟨rfl, ⟨hs', o, h.of_behind hx hsame.nextRecvId fun id _ => ?_⟩, htls⟩
    exact iff_of_eq (congrArg (id ∈ ·) hsame.outOfOrder)

theorem hear_expected (P : Primitives) (clock : Clock) (hs : s.useTlsAuth = false)
    (h : Receiving base i i s.reliable) (hbound : i + 1 + base.outOfOrder.size < 2 ^ 32) (hp : IsFragment packet c)
    (hid : c.messagePacketId = some (idAt base.nextRecvId i)) :
    let absorbed := recordSizing.absorb s.tlsReassembler.maxSize s.tlsReassembler.buffer c.payload
    (hear P s (clock, packet)).1 = absorbed.1 ∧ Heard base (i + 1) (hear P s (clock, packet)).2 ∧
      (hear P s (clock, packet)).2.tlsReassembler = ⟨absorbed.2, s.tlsReassembler.maxSize⟩ := by
  obtain ⟨s', hrun, hs', htls, hsame⟩ := processPacket_fragment P clock hs hp hid
  have hnext : s'.reliable.nextRecvId = idAt base.nextRecvId i := hsame.nextRecvId.trans h.next
  have hreceive := receive_expected s'.reliable c.payload
  rw [hnext] at hreceive
  obtain ⟨hrecords, hstate⟩ := receiveTls_delivered hreceive
  rw [htls] at hrecords hstate
  rw [hear, hrun, hstate]
  refine ⟨hrecords, ⟨hs', ?_⟩, rfl⟩
  exact h.deliver (u := { s'.reliable with
      pendingAcks := s'.reliable.pendingAcks ++ [idAt base.nextRecvId i]
      nextRecvId := idAt base.nextRecvId i + 1 }) hbound (congrArg (· + 1) h.next.symm) hsame.outOfOrder

def taken (base : ReliableTransport) (i : Nat) (payload : Bytes) : List Bytes :=
  if i = 0 ∨ idAt base.nextRecvId i ∉ base.outOfOrder then [payload] else []

def delivered (base : ReliableTransport) : Nat → List Bytes → List Bytes
  | _, [] => []
  | i, payload :: rest => taken base i payload ++ delivered base (i + 1) rest

/-- The records of a session and its reassembler are those of a buffer that
some payloads have been put into. -/
def Reassembles (payloads : List Bytes) (s : ProtocolSession) (records : List Bytes)
    (t : ProtocolSession) : Prop :=
  let absorb := recordSizing.absorb s.tlsReassembler.maxSize
  records = (outputs absorb s.tlsReassembler.buffer payloads).flatten ∧
    t.tlsReassembler = ⟨exec absorb s.tlsReassembler.buffer payloads, s.tlsReassembler.maxSize⟩

theorem Reassembles.append {payloads payloads' records records' : List Bytes} {t u : ProtocolSession}
    (h : Reassembles payloads s records t) (h' : Reassembles payloads' t records' u) :
    Reassembles (payloads ++ payloads') s (records ++ records') u := by
  obtain ⟨hrecords, ht⟩ := h
  obtain ⟨hrecords', hu⟩ := h'
  rw [ht] at hrecords' hu
  constructor
  · rw [hrecords, hrecords', outputs_append, List.flatten_append]
  · rw [hu, exec_append]

theorem reassembles_nil {t : ProtocolSession} (h : t.tlsReassembler = s.tlsReassembler) :
    Reassembles [] s [] t := ⟨rfl, h⟩

theorem hear_first (P : Primitives) (clock : Clock) (h : Heard base i s)
    (hbound : i + 1 + base.outOfOrder.size < 2 ^ 32) (hp : IsFragment packet c) (hid : c.messagePacketId = some (idAt base.nextRecvId i)) :
    Heard base (i + 1) (hear P s (clock, packet)).2 ∧ Reassembles (taken base i c.payload) s
      (hear P s (clock, packet)).1 (hear P s (clock, packet)).2 := by
  obtain ⟨hs, o, ho⟩ := h
  by_cases hi : i = 0 ∨ idAt base.nextRecvId i ∉ base.outOfOrder
  · obtain rfl := ho.expects_iff.mpr hi
    obtain ⟨hrecords, hheard, htls⟩ := hear_expected P clock hs ho hbound hp hid
    rw [taken, if_pos hi]
    exact ⟨hheard, hrecords.trans (List.append_nil _).symm, htls⟩
  · have hlt : i < o := Nat.lt_of_le_of_ne ho.le fun he => hi (ho.expects_iff.mp he)
    obtain ⟨hrecords, ⟨hs', o', ho'⟩, htls⟩ := hear_behind P clock hs (ho.pass hlt) hlt hp hid
    rw [taken, if_neg hi, hrecords]
    exact ⟨⟨hs', o', ho'⟩, reassembles_nil htls⟩

theorem hear_copies (h : Heard base (i + 1) s) (hp : IsFragment packet c)
    (hid : c.messagePacketId = some (idAt base.nextRecvId i)) {arrivals : List (Clock × Bytes)}
    (hall : ∀ arrival ∈ arrivals, arrival.2 = packet) :
    Heard base (i + 1) (exec (hear P) s arrivals) ∧
      Reassembles [] s (outputs (hear P) s arrivals).flatten (exec (hear P) s arrivals) := by
  induction arrivals generalizing s with
  | nil => exact ⟨h, reassembles_nil rfl⟩
  | cons arrival arrivals ih =>
    obtain ⟨clock, packet'⟩ := arrival
    obtain rfl : packet' = packet := hall _ List.mem_cons_self
    obtain ⟨hs, o, ho⟩ := h
    obtain ⟨hrecords, hheard, htls⟩ := hear_behind P clock hs ho ho.le hp hid
    obtain ⟨hheard', hrest⟩ := ih hheard fun arrival ha => hall arrival (List.mem_cons_of_mem _ ha)
    rw [exec_cons, outputs_cons, List.flatten_cons, hrecords]
    exact ⟨hheard', (reassembles_nil htls).append hrest⟩

/-- Packets arrive in order, each of them at least once. -/
def InOrder (packets : List Bytes) (arrivals : List (Clock × Bytes)) : Prop :=
  ∃ counts : List Nat, counts.length = packets.length ∧ (∀ count ∈ counts, 0 < count) ∧
    arrivals.map Prod.snd = (List.zipWith List.replicate counts packets).flatten

theorem InOrder.cons {packets : List Bytes} {arrivals : List (Clock × Bytes)}
    (h : InOrder (packet :: packets) arrivals) :
    ∃ clock copies rest, arrivals = (clock, packet) :: (copies ++ rest) ∧
      (∀ arrival ∈ copies, arrival.2 = packet) ∧ InOrder packets rest := by
  obtain ⟨counts, hlength, hpos, harrivals⟩ := h
  cases counts with
  | nil => cases hlength
  | cons count counts =>
    obtain ⟨count, rfl⟩ := Nat.exists_eq_succ_of_ne_zero (Nat.ne_of_gt (hpos count List.mem_cons_self))
    rw [List.zipWith_cons_cons, List.flatten_cons, List.replicate_succ, List.cons_append] at harrivals
    obtain ⟨⟨clock, first⟩, tail, rfl, hfirst, htail⟩ := List.map_eq_cons_iff.mp harrivals
    obtain ⟨copies, rest, rfl, hcopies, hrest⟩ := List.map_eq_append_iff.mp htail
    obtain rfl : first = packet := hfirst
    refine ⟨clock, copies, rest, rfl, fun arrival ha => ?_, counts, Nat.succ.inj hlength,
      fun count hc => hpos count (List.mem_cons_of_mem _ hc), hrest⟩
    have hmem := List.mem_map_of_mem (f := Prod.snd) ha
    rw [hcopies] at hmem
    exact List.eq_of_mem_replicate hmem

/-- Fragments that arrive in order put into the reassembler exactly the
payloads that the transport delivers. -/
theorem hear_fragments {packets payloads : List Bytes} {acks : List UInt32} {arrivals : List (Clock × Bytes)}
    (h : Heard base i s) (hbound : i + payloads.length + base.outOfOrder.size < 2 ^ 32)
    (hp : List.Forall₂ IsFragment packets (splitContents acks (idAt base.nextRecvId i) payloads))
    (harrivals : InOrder packets arrivals) :
    Reassembles (delivered base i payloads) s (outputs (hear P) s arrivals).flatten
      (exec (hear P) s arrivals) := by
  induction payloads generalizing packets acks arrivals s i with
  | nil =>
    cases hp
    obtain ⟨counts, hlength, -, hnone⟩ := harrivals
    rw [List.zipWith_nil_right, List.flatten_nil, List.map_eq_nil_iff] at hnone
    subst hnone
    exact reassembles_nil rfl
  | cons payload payloads ih =>
    cases hp with
    | @cons packet _ packets _ hpacket hpackets =>
      obtain ⟨clock, copies, rest, rfl, hcopies, hrest⟩ := harrivals.cons
      rw [List.length_cons] at hbound
      obtain ⟨hheard, hfirst⟩ := hear_first P clock h (by omega) hpacket rfl
      obtain ⟨hheard', hagain⟩ := hear_copies (P := P) hheard hpacket rfl hcopies
      rw [idAt_succ] at hpackets
      have htail := ih hheard' (by omega) hpackets hrest
      rw [outputs_cons, exec_cons, outputs_append, exec_append, List.flatten_cons, List.flatten_append]
      exact hfirst.append (hagain.append htail)

end Hearing

section Splitting

def pieces (tlsData : Bytes) : List Bytes :=
  if tlsData.length ≤ maxControlPayload then [tlsData] else chunks tlsData.length tlsData

theorem createControlPackets_eq (P : Primitives) (clock : Clock) (tlsData : Bytes) :
    createControlPackets P clock tlsData = createEach P clock (pieces tlsData) := by
  unfold createControlPackets pieces
  split <;> rfl

theorem chunks_nil (fuel : Nat) : chunks fuel [] = [] := by
  cases fuel with
  | zero => rfl
  | succ fuel => rfl

theorem chunks_cons (fuel : Nat) (b : UInt8) (data : Bytes) : chunks (fuel + 1) (b :: data) =
    (b :: data).take maxControlPayload :: chunks fuel ((b :: data).drop maxControlPayload) := rfl

theorem flatten_chunks (fuel : Nat) (data : Bytes) (h : data.length ≤ fuel) :
    (chunks fuel data).flatten = data := by
  induction fuel generalizing data with
  | zero => rw [List.length_eq_zero_iff.mp (Nat.le_zero.mp h), chunks_nil, List.flatten_nil]
  | succ fuel ih =>
    cases data with
    | nil => rfl
    | cons b data =>
      have hpos : 0 < maxControlPayload := by decide
      rw [chunks_cons, List.flatten_cons, ih _ (by rw [List.length_drop]; omega), List.take_append_drop]

theorem of_mem_chunks {fuel : Nat} {data piece : Bytes} (h : piece ∈ chunks fuel data) :
    piece ≠ [] ∧ piece.length ≤ maxControlPayload := by
  induction fuel generalizing data with
  | zero => cases h
  | succ fuel ih =>
    cases data with
    | nil => cases h
    | cons b data =>
      rcases List.mem_cons.mp h with rfl | h
      · exact ⟨List.cons_ne_nil _ _, List.length_take_le _ _⟩
      · exact ih h

theorem lt_length_chunks (fuel : Nat) (data : Bytes) (h : data.length ≤ fuel) (j : Nat) :
    j < (chunks fuel data).length ↔ maxControlPayload * j < data.length := by
  induction fuel generalizing data j with
  | zero => simp [List.length_eq_zero_iff.mp (Nat.le_zero.mp h), chunks_nil]
  | succ fuel ih =>
    cases data with
    | nil => simp [chunks_nil]
    | cons b data =>
      have hpos : 0 < maxControlPayload := by decide
      rw [chunks_cons, List.length_cons]
      cases j with
      | zero => simp
      | succ j =>
        rw [Nat.succ_lt_succ_iff, ih _ (by rw [List.length_drop]; omega), List.length_drop, Nat.mul_succ]
        omega

theorem flatten_pieces (tlsData : Bytes) : (pieces tlsData).flatten = tlsData := by
  unfold pieces
  split
  · exact List.append_nil _
  · exact flatten_chunks _ tlsData le_rfl

theorem length_le_of_mem_pieces {tlsData piece : Bytes} (h : piece ∈ pieces tlsData) :
    piece.length ≤ maxControlPayload := by
  unfold pieces at h
  split at h
  · rename_i hle
    rw [List.mem_singleton.mp h]
    exact hle
  · exact (of_mem_chunks h).2

theorem lt_length_pieces {tlsData : Bytes} {j : Nat} (hj : 0 < j) :
    j < (pieces tlsData).length ↔ maxControlPayload * j < tlsData.length := by
  unfold pieces
  split
  · rename_i hle
    have hmul : maxControlPayload ≤ maxControlPayload * j := Nat.le_mul_of_pos_right _ hj
    rw [List.length_singleton]
    omega
  · exact lt_length_chunks _ tlsData le_rfl j

theorem pieces_ne_nil {tlsData piece : Bytes} {j : Nat} (hj : 0 < j)
    (h : (pieces tlsData)[j]? = some piece) : piece ≠ [] := by
  unfold pieces at h
  split at h
  · rw [List.getElem?_eq_none (by rw [List.length_singleton]; omega)] at h
    cases h
  · exact (of_mem_chunks (List.mem_of_getElem? h)).1

theorem createEach_length_le {P : Primitives} {clock : Clock} {s t : ProtocolSession} {n : UInt32} {i : Nat}
    {payloads packets : List Bytes} (hkey : s.currentKeyId.val < 8)
    (hwindow : s.reliable.config.windowSize = 8) (hi : i ≤ 8) (hnext : s.reliable.nextSendId = idAt n i)
    (hsent : ∀ x, 0 ≤ x → x < i → idAt n x ∈ s.reliable.pending)
    (h : createEach P clock payloads s = (.ok packets, t)) : i + payloads.length ≤ 8 := by
  induction payloads generalizing s i packets t with
  | nil => exact hi
  | cons payload payloads ih =>
    obtain ⟨packet, u, hfirst, h⟩ := bind_eq_ok h
    obtain ⟨packets', v, hrest, h⟩ := bind_eq_ok h
    have hroom : ¬ WindowFull s := by
      intro hfull
      rw [createSingleControlPacket, createReliable_full hfull] at hfirst
      cases hfirst
    have hsize := range_le_size (Nat.le_trans hi (by decide)) hsent
    rw [WindowFull, hwindow] at hroom
    change ¬ 8 ≤ s.reliable.pending.size at hroom
    obtain ⟨-, -, hsame, hrel⟩ := createReliable_ok rfl (by decide) (fun _ => rfl) hkey hfirst
    have hle : i + 1 + payloads.length ≤ 8 := by
      refine ih (hsame.currentKeyId ▸ hkey) ?_ (by omega) ?_ (fun x _ hx => ?_) hrest
      · rw [hrel]
        exact hwindow
      · rw [hrel, ← idAt_succ, ← hnext]
        rfl
      · rw [hrel]
        change idAt n x ∈ s.reliable.pending.insert s.reliable.nextSendId _
        rw [mem_insert_iff, hnext]
        rcases Nat.lt_succ_iff_lt_or_eq.mp hx with hx | rfl
        · exact .inr (hsent x (Nat.zero_le x) hx)
        · exact .inl rfl
    rw [List.length_cons]
    omega

theorem createEach_fragments {P : Primitives} {clock : Clock} {s t : ProtocolSession}
    {payloads packets : List Bytes} (hkey : s.currentKeyId.val < 8)
    (hacks : s.reliable.pendingAcks.length ≤ 16) (hremote : s.remoteSessionId.isSome = true)
    (h : createEach P clock payloads s = (.ok packets, t)) :
    List.Forall₂ (fun packet c => IsFragment (strip s packet) c) packets
      (splitContents s.reliable.pendingAcks s.reliable.nextSendId payloads) := by
  obtain ⟨hlength, hall⟩ := List.forall₂_iff_zip.mp (createEach_strip hkey h)
  refine List.forall₂_iff_zip.mpr ⟨hlength, fun {packet c} hmem => ?_⟩
  have hc := (List.of_mem_zip hmem).2
  have hne : payloads ≠ [] := by
    rintro rfl
    cases hc
  have hfits : Fits s c.acks := (Traffic.fits_splitContents hne).mpr ⟨hacks, .inr hremote⟩ c hc
  have hid := splitContents_messagePacketId hc
  have hparse := @parse_controlPacket s .controlV1 s.currentKeyId s.remoteSessionId c rfl hkey
    (by simp [hid]) (.inl rfl) hfits
  rw [hall hmem]
  exact ⟨_, hparse, rfl, rfl, rfl⟩

theorem splitContents_getElem? {acks : List UInt32} {id : UInt32} {payloads : List Bytes} {j : Nat}
    {c : Content} (h : (splitContents acks id payloads)[j]? = some c) :
    c.messagePacketId = some (idAt id j) ∧ payloads[j]? = some c.payload := by
  induction payloads generalizing acks id j with
  | nil => cases h
  | cons payload payloads ih =>
    cases j with
    | zero =>
      cases h
      exact ⟨congrArg some (idAt_zero id).symm, rfl⟩
    | succ j =>
      obtain ⟨hid, hpayload⟩ := ih h
      exact ⟨hid.trans (congrArg some (succ_idAt id j)), hpayload⟩

end Splitting

section Delivered

variable {base : ReliableTransport} {i : Nat} {payloads : List Bytes}

theorem delivered_eq (h : ∀ j, j < payloads.length → 0 < i + j → idAt base.nextRecvId (i + j) ∉ base.outOfOrder) :
    delivered base i payloads = payloads := by
  induction payloads generalizing i with
  | nil => rfl
  | cons payload payloads ih =>
    have hhead : i = 0 ∨ idAt base.nextRecvId i ∉ base.outOfOrder := by
      rcases Nat.eq_zero_or_pos i with hi | hi
      · exact .inl hi
      · exact .inr (h 0 (Nat.succ_pos _) hi)
    rw [delivered, taken, if_pos hhead, ih fun j hj hpos => ?_]
    · rfl
    · have hnext := h (j + 1) (Nat.succ_lt_succ hj)
      rw [← Nat.add_assoc, Nat.add_right_comm] at hnext
      exact hnext hpos

theorem length_delivered_le (i : Nat) (payloads : List Bytes) :
    (delivered base i payloads).flatten.length ≤ payloads.flatten.length := by
  induction payloads generalizing i with
  | nil => exact le_rfl
  | cons payload payloads ih =>
    have hrest := ih (i + 1)
    rw [delivered, taken]
    split
    · simp only [List.singleton_append, List.flatten_cons, List.length_append]
      omega
    · simp only [List.nil_append, List.flatten_cons, List.length_append]
      omega

theorem length_delivered_lt {j : Nat} {piece : Bytes} (hj : 0 < i + j)
    (hmem : idAt base.nextRecvId (i + j) ∈ base.outOfOrder) (hpiece : payloads[j]? = some piece)
    (hne : piece ≠ []) : (delivered base i payloads).flatten.length < payloads.flatten.length := by
  induction payloads generalizing i j with
  | nil => cases hpiece
  | cons payload payloads ih =>
    have hrest : (delivered base (i + 1) payloads).flatten.length ≤ payloads.flatten.length :=
      length_delivered_le (i + 1) payloads
    rw [delivered, List.flatten_append, List.flatten_cons, List.length_append, List.length_append]
    cases j with
    | zero =>
      cases hpiece
      have hpos := List.length_pos_iff.mpr hne
      have hskip : ¬ (i = 0 ∨ idAt base.nextRecvId i ∉ base.outOfOrder) := by
        rintro (rfl | hno)
        · exact absurd hj (Nat.lt_irrefl 0)
        · exact hno hmem
      rw [taken, if_neg hskip]
      change 0 + _ < _
      omega
    | succ j =>
      have hlt := ih (i := i + 1) (j := j) (by omega) (by rwa [Nat.add_right_comm]) hpiece
      rw [taken]
      split
      · rw [List.flatten_cons, List.flatten_nil, List.append_nil]
        omega
      · change 0 + _ < _
        omega

end Delivered

section Reassembly

theorem getElem?_of_forall₂ {α β : Type} {R : α → β → Prop} {as : List α} {bs : List β}
    (h : List.Forall₂ R as bs) {j : Nat} {a : α} (ha : as[j]? = some a) : ∃ b, bs[j]? = some b ∧ R a b := by
  induction h generalizing j with
  | nil => cases ha
  | cons hab _ ih =>
    cases j with
    | zero =>
      cases ha
      exact ⟨_, rfl, hab⟩
    | succ j => exact ih ha

theorem delivered_records_iff (base : ReliableTransport) {records : List Bytes}
    (hrecords : ∀ record ∈ records, IsRecord record) :
    (outputs (recordSizing.absorb 65536) [] (delivered base 0 (pieces records.flatten))).flatten.flatten =
          records.flatten ∧
        exec (recordSizing.absorb 65536) [] (delivered base 0 (pieces records.flatten)) = [] ↔
      ∀ j, 0 < j → 1100 * j < records.flatten.length → idAt base.nextRecvId j ∉ base.outOfOrder := by
  constructor
  · rintro ⟨hall, hempty⟩ j hj hlt hmem
    have hpiece := List.getElem?_eq_getElem ((lt_length_pieces hj).mpr hlt)
    have hmissing := length_delivered_lt (i := 0) (by omega) (by rwa [Nat.zero_add]) hpiece
      (pieces_ne_nil hj hpiece)
    have hle := Sizing.run_length_le (S := recordSizing) 65536 [] (delivered base 0 (pieces records.flatten))
    rw [hall, hempty] at hle
    rw [flatten_pieces] at hmissing
    change _ + 0 ≤ 0 + _ at hle
    omega
  · intro hfree
    have hall : delivered base 0 (pieces records.flatten) = pieces records.flatten := by
      refine delivered_eq fun j hj hpos => ?_
      rw [Nat.zero_add] at hpos ⊢
      exact hfree j hpos ((lt_length_pieces hpos).mp hj)
    have hstream : [] ++ (pieces records.flatten).flatten = records.flatten := flatten_pieces _
    have hrun := Sizing.run_frames 18437 1100 (by decide : 18437 + 1100 ≤ 65536)
      (fun record hr => (hrecords record hr).isFrame) (fun piece hp => length_le_of_mem_pieces hp) hstream
      fun record hr => recordSizing.pos (hrecords record (List.mem_of_mem_head? hr)).isFrame.1
    rw [hall, hrun.1]
    exact ⟨rfl, hrun.2⟩

/-- A message of complete TLS records is sent in pieces of at most 1100 bytes
with consecutive ids. Without tls-auth a peer that expects the first of them gets
the records back exactly when none of the other ids is in its buffer already. -/
theorem fragments_reassemble (P : Primitives) (clock : Clock) {sender sender' peer : ProtocolSession}
    (hsender : Reachable P sender) (hpeer : Reachable P peer) {records packets : List Bytes}
    (hrecords : ∀ record ∈ records, IsRecord record) (hacks : sender.reliable.pendingAcks.length ≤ 16)
    (hremote : sender.remoteSessionId.isSome = true)
    (hcreate : createControlPackets P clock records.flatten sender = (.ok packets, sender')) :
    (∀ (j : Nat) (packet : Bytes), packets[j]? = some packet →
      ∃ ctrl, Packet.parse (strip sender packet) false = .ok (.control ctrl) ∧
        ctrl.messagePacketId = some (idAt sender.reliable.nextSendId j) ∧ ctrl.payload.length ≤ 1100) ∧
    (sender.useTlsAuth = false → peer.useTlsAuth = false →
      peer.reliable.nextRecvId = sender.reliable.nextSendId → peer.tlsReassembler.buffer = [] →
      ∀ arrivals : List (Clock × Bytes), InOrder packets arrivals →
        ((outputs (hear P) peer arrivals).flatten.flatten = records.flatten ∧
            (exec (hear P) peer arrivals).tlsReassembler.buffer = [] ↔
          ∀ j, 0 < j → 1100 * j < records.flatten.length →
            idAt sender.reliable.nextSendId j ∉ peer.reliable.outOfOrder)) := by
  have hkey := hsender.limits.keyId_lt
  rw [createControlPackets_eq] at hcreate
  have hfragments := createEach_fragments hkey hacks hremote hcreate
  constructor
  · intro j packet hj
    obtain ⟨c, hc, ctrl, hparse, -, hid, hpayload⟩ := getElem?_of_forall₂ hfragments hj
    obtain ⟨hcid, hpiece⟩ := splitContents_getElem? hc
    refine ⟨ctrl, hparse, hid.trans hcid, ?_⟩
    rw [hpayload]
    exact length_le_of_mem_pieces (List.mem_of_getElem? hpiece)
  · intro hsend huse hnext hbuffer arrivals harrivals
    have hcount : 0 + (pieces records.flatten).length ≤ 8 :=
      createEach_length_le hkey hsender.limits.windowSize (Nat.zero_le 8) (idAt_zero _).symm
        (fun x _ hx => absurd hx (Nat.not_lt_zero x)) hcreate
    have hroom : peer.reliable.outOfOrder.size ≤ 100 := hpeer.limits.room
    have hplain : strip sender = id := by
      funext packet
      rw [strip, hsend]
      rfl
    rw [hplain, ← hnext, ← idAt_zero peer.reliable.nextRecvId] at hfragments
    obtain ⟨hout, htls⟩ := hear_fragments (P := P) ⟨huse, 0, Receiving.start peer.reliable⟩ (by omega)
      hfragments harrivals
    rw [hout, htls, hbuffer, hpeer.limits.maxSize, ← hnext]
    exact delivered_records_iff peer.reliable hrecords

section Runs

def longRecord : Bytes := 22 :: 3 :: 3 :: 4 :: 176 :: List.replicate 1200 7

def server : ProtocolSession :=
  exec (step (.single [])) (Traffic.fresh true .aes256Gcm (zeros 8) 0 none) [.setRemoteSessionId (zeros 8)]

def client : ProtocolSession := Traffic.fresh false .aes256Gcm (zeros 8) 0 none

def sentPackets : List Bytes :=
  ((createControlPackets (.single []) ⟨0, 0⟩ longRecord server).1.toOption).getD []

theorem fragments_reassemble_two :
    let arrivals := sentPackets.map (⟨0, 0⟩, ·) ++ sentPackets.tail.map (⟨1, 0⟩, ·)
    sentPackets.length = 2 ∧ arrivals.length = 3 ∧
      (outputs (hear (.single [])) client arrivals).flatten.flatten = longRecord ∧
      (exec (hear (.single [])) client arrivals).tlsReassembler.buffer = [] := by
  intro arrivals
  have hserver : Reachable (.single []) server := ⟨true, .aes256Gcm, zeros 8, 0, _, rfl⟩
  have hclient : Reachable (.single []) client := ⟨false, .aes256Gcm, zeros 8, 0, [], rfl⟩
  have hrecord : ∀ record ∈ [longRecord], IsRecord record := by
    intro record hr
    rw [List.mem_singleton.mp hr]
    exact ⟨22, 3, 3, 4, 176, List.replicate 1200 7, rfl, by decide +kernel, by decide +kernel⟩
  have hcreate : (createControlPackets (.single []) ⟨0, 0⟩ [longRecord].flatten server).1 = .ok sentPackets := by
    decide +kernel
  obtain ⟨server', hcreate⟩ := exists_of_fst_eq hcreate
  have hrun := (fragments_reassemble (.single []) ⟨0, 0⟩ hserver hclient hrecord (by decide +kernel)
    (by decide +kernel) hcreate).2 rfl rfl rfl rfl arrivals
    ⟨[1, 2], by decide +kernel, by decide, by decide +kernel +zetaReduce⟩
  have hflat : [longRecord].flatten = longRecord := by
    rw [List.flatten_cons, List.flatten_nil, List.append_nil]
  rw [hflat] at hrun
  refine ⟨by decide +kernel, by decide +kernel +zetaReduce, hrun.mpr fun j hj hlt => ?_⟩
  exact Std.ExtTreeMap.not_mem_empty

/-- The second packet was there before the first one: its payload is dropped
when the first comes in, and when it is sent again it counts as a duplicate. -/
theorem early_fragment_lost :
    let peer := exec (step (.single [])) client
      (sentPackets.tail.map fun packet => .session (.processPacket ⟨0, 0⟩ packet))
    let arrivals := sentPackets.map (⟨1, 0⟩, ·)
    (createControlPackets (.single []) ⟨0, 0⟩ longRecord server).1 = .ok sentPackets ∧
      sentPackets.length = 2 ∧ peer.reliable.nextRecvId = server.reliable.nextSendId ∧
      peer.tlsReassembler.buffer = [] ∧
      (outputs (hear (.single [])) peer arrivals).flatten = [] ∧
      (exec (hear (.single [])) peer arrivals).tlsReassembler.buffer = longRecord.take 1100 := by
  decide +kernel

end Runs

end Reassembly

end CoreVpn.Protocol.Fragments
