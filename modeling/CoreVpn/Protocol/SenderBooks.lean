import CoreVpn.Lib.Machine
import CoreVpn.Protocol.Builders
import CoreVpn.Protocol.Receive

namespace CoreVpn.Protocol.SenderBooks

open Lib.Computation Lib.Wire Lib.Machine Errors Reliable ReliableTransport Receive
open Builders (enqueue send_eq mem_getRetransmits)

inductive Call where
  | send (now : Instant) (data : Bytes)
  | processAcks (now : Instant) (acks : List UInt32)
  | getRetransmits (now : Instant)

def Call.run (F : FloatTime) : Call → Program ReliableTransport ProtocolError (List (UInt32 × Bytes))
  | .send now data => do
    let packet ← ReliableTransport.send now data
    return [packet]
  | .processAcks now acks => do
    modify (ReliableTransport.processAcks F now acks)
    return []
  | .getRetransmits now => fun t => (.ok (t.getRetransmits F now).1, (t.getRetransmits F now).2)

def Call.isSend : Call → Bool
  | .send _ _ => true
  | _ => false

/-- A transport, with a record of the payloads that were sent, of the sent ids
that have been acknowledged, and of how often each id was sent again. -/
structure Ledger where
  transport : ReliableTransport
  sent : List Bytes := []
  acknowledged : Finset UInt32 := ∅
  resent : UInt32 → Nat := fun _ => 0

def start (config : ReliableConfig) : Ledger where
  transport := .new config

def Ledger.record (l : Ledger) (call : Call) (t : ReliableTransport) :
    Outcome ProtocolError (List (UInt32 × Bytes)) → Ledger
  | .error _ => { l with transport := t }
  | .ok packets =>
    match call with
    | .send _ data => { l with transport := t, sent := l.sent ++ [data] }
    | .processAcks _ acks =>
      -- an acknowledgment of an id that has not been sent yet does not count
      { l with
        transport := t
        acknowledged := l.acknowledged ∪ acks.toFinset.filter fun id => id.toNat < l.sent.length }
    | .getRetransmits _ =>
      { l with
        transport := t
        resent := fun id => l.resent id + (packets.map Prod.fst).count id }

def step (F : FloatTime) (l : Ledger) (call : Call) :
    Outcome ProtocolError (List (UInt32 × Bytes)) × Ledger :=
  let (result, t) := call.run F l.transport
  (result, l.record call t result)

def Ledger.outstanding (l : Ledger) (id : UInt32) : Option Bytes :=
  if id ∈ l.acknowledged then none else l.sent[id.toNat]?

/-- The transport keeps exactly what is outstanding, no more than the window
takes, and has sent nothing again too often. -/
structure Booked (config : ReliableConfig) (l : Ledger) : Prop where
  pending : ∀ id : UInt32, l.transport.pending[id]?.map PendingPacket.data = l.outstanding id
  window : l.transport.pending.size ≤ config.windowSize.toNat
  resent : ∀ id, l.resent id ≤ config.maxRetransmits.toNat

/-- What the result of a call has to be: the ids are given out in order, a send
that fails changes nothing, and only what is outstanding is sent again. -/
def Answers (F : FloatTime) (l : Ledger) : Call → Prop
  | .send now data =>
    match step F l (.send now data) with
    | (.ok packets, _) => ∃ id : UInt32, packets = [(id, data)] ∧ id.toNat = l.sent.length
    | (.error _, l') => l' = l
  | .processAcks _ _ => True
  | .getRetransmits now =>
    ∃ packets, (step F l (.getRetransmits now)).1 = .ok packets ∧ ∀ p ∈ packets, l.outstanding p.1 = some p.2

variable {F : FloatTime} {config : ReliableConfig} {l : Ledger}

/-- The books, with what keeps them right: the transport counts how often each
pending packet was sent again, and the ids to come are unused. -/
structure Kept (config : ReliableConfig) (l : Ledger) : Prop extends Booked config l where
  config : l.transport.config = config
  next : l.transport.nextSendId.toNat = l.sent.length
  counted : ∀ (id : UInt32) (packet : PendingPacket), l.transport.pending[id]? = some packet →
    l.resent id = packet.retransmits.toNat
  unused : ∀ id : UInt32, l.sent.length ≤ id.toNat → id ∉ l.acknowledged ∧ l.resent id = 0

theorem kept_start (config : ReliableConfig) : Kept config (start config) where
  pending id := by simp [start, ReliableTransport.new, Ledger.outstanding]
  window := Nat.zero_le _
  resent _ := Nat.zero_le _
  config := rfl
  next := rfl
  counted id packet h := by simp [start, ReliableTransport.new] at h
  unused _ _ := ⟨Finset.notMem_empty _, rfl⟩

section Send

theorem step_send_full (now : Instant) (data : Bytes)
    (h : l.transport.config.windowSize.toNat ≤ l.transport.pending.size) :
    step F l (.send now data) = (.error (.error (.invalidPacket "send window full")), l) := by
  have hsend := (send_eq now data l.transport).trans (if_pos h)
  rw [step, Call.run, bind_error hsend]
  rfl

theorem step_send_room (now : Instant) (data : Bytes)
    (h : ¬ l.transport.config.windowSize.toNat ≤ l.transport.pending.size) :
    step F l (.send now data) = (.ok [(l.transport.nextSendId, data)],
      { l with transport := enqueue now data l.transport, sent := l.sent ++ [data] }) := by
  have hsend := (send_eq now data l.transport).trans (if_neg h)
  rw [step, Call.run, bind_ok hsend]
  rfl

theorem outstanding_send (h : Kept config l) (t : ReliableTransport) (data : Bytes) (id : UInt32) :
    Ledger.outstanding { l with transport := t, sent := l.sent ++ [data] } id =
      if id = l.transport.nextSendId then some data else l.outstanding id := by
  have hnext := h.next
  by_cases hid : id = l.transport.nextSendId
  · have hunused := (h.unused id (by rw [hid, hnext])).1
    rw [if_pos hid, Ledger.outstanding, if_neg hunused, hid, hnext, List.getElem?_concat_length]
  · have hne : id.toNat ≠ l.sent.length := fun he => hid (UInt32.toNat_inj.mp (he.trans hnext.symm))
    rw [if_neg hid, Ledger.outstanding, Ledger.outstanding]
    dsimp only
    rcases Nat.lt_or_gt_of_ne hne with hlt | hgt
    · rw [List.getElem?_append_left hlt]
    · have hlong : (l.sent ++ [data]).length ≤ id.toNat := by
        rw [List.length_append]
        exact hgt
      rw [List.getElem?_eq_none hlong, List.getElem?_eq_none hgt.le]

theorem Kept.send (h : Kept config l) (now : Instant) (data : Bytes) (hlast : l.sent.length + 1 < 2 ^ 32)
    (hroom : ¬ l.transport.config.windowSize.toNat ≤ l.transport.pending.size) :
    Kept config { l with transport := enqueue now data l.transport, sent := l.sent ++ [data] } where
  pending id := by
    rw [outstanding_send h, ← h.pending, enqueue, getElem?_insert]
    split <;> rfl
  window := by
    have hsize := Std.ExtTreeMap.size_insert_le (t := l.transport.pending) (k := l.transport.nextSendId)
      (v := ⟨data, now, now + l.transport.calculateRto, l.transport.calculateRto, 0⟩)
    rw [h.config] at hroom
    exact hsize.trans (Nat.lt_of_not_le hroom)
  resent := h.resent
  config := h.config
  next := by
    have hnext := h.next
    rw [List.length_append, enqueue, UInt32.toNat_add]
    change (l.transport.nextSendId.toNat + 1) % 2 ^ 32 = l.sent.length + 1
    omega
  counted id packet hpacket := by
    rw [enqueue, getElem?_insert] at hpacket
    split at hpacket
    · rename_i hid
      cases hpacket
      exact (h.unused id (by rw [hid, h.next])).2
    · exact h.counted id packet hpacket
  unused id hid := by
    rw [List.length_append] at hid
    exact h.unused id (Nat.le_of_succ_le hid)

end Send

section Acknowledge

def acknowledge (F : FloatTime) (now : Instant) (acks : List UInt32) (l : Ledger) : Ledger :=
  { l with
    transport := processAcks F now acks l.transport
    acknowledged := l.acknowledged ∪ acks.toFinset.filter fun id => id.toNat < l.sent.length }

theorem outstanding_acknowledge (now : Instant) (acks : List UInt32) (id : UInt32) :
    (acknowledge F now acks l).outstanding id = if id ∈ acks then none else l.outstanding id := by
  simp only [Ledger.outstanding, acknowledge, Finset.mem_union, Finset.mem_filter, List.mem_toFinset]
  by_cases hacks : id ∈ acks
  · by_cases hsent : id.toNat < l.sent.length
    · simp [hacks, hsent]
    · simp [hacks, List.getElem?_eq_none (Nat.le_of_not_lt hsent)]
  · simp [hacks]

theorem Kept.acknowledge (h : Kept config l) (now : Instant) (acks : List UInt32) :
    Kept config (acknowledge F now acks l) where
  pending id := by
    rw [outstanding_acknowledge, ← h.pending, SenderBooks.acknowledge, getElem?_processAcks]
    split <;> rfl
  window := by
    refine le_trans (size_le_of_subset fun id hid => ?_) h.window
    change id ∈ (processAcks F now acks l.transport).pending at hid
    rw [Std.ExtTreeMap.mem_iff_isSome_getElem?, getElem?_processAcks] at hid
    split at hid
    · cases hid
    · exact Std.ExtTreeMap.mem_iff_isSome_getElem?.mpr hid
  resent := h.resent
  config := (received_processAcks F now acks l.transport).config.trans h.config
  next := (congrArg UInt32.toNat (received_processAcks F now acks l.transport).nextSendId).trans h.next
  counted id packet hpacket :=
    h.counted id packet ((received_processAcks F now acks l.transport).pending id packet hpacket)
  unused id hid := by
    obtain ⟨hacknowledged, hresent⟩ := h.unused id hid
    refine ⟨fun hmem => ?_, hresent⟩
    rcases Finset.mem_union.mp hmem with hmem | hmem
    · exact hacknowledged hmem
    · exact absurd (Finset.mem_filter.mp hmem).2 (Nat.not_lt.mpr hid)

end Acknowledge

section Retransmit

def retransmit (F : FloatTime) (now : Instant) (l : Ledger) : Ledger :=
  { l with
    transport := (l.transport.getRetransmits F now).2
    resent := fun id => l.resent id + ((l.transport.getRetransmits F now).1.map Prod.fst).count id }

theorem mem_getRetransmits_iff {now : Instant} {t : ReliableTransport} {p : UInt32 × Bytes} :
    p ∈ (t.getRetransmits F now).1 ↔
      ∃ packet, t.pending[p.1]? = some packet ∧ isDue t.config now packet = true ∧ packet.data = p.2 := by
  simp only [mem_getRetransmits, ← Std.ExtTreeMap.mem_toList_iff_getElem?_eq_some]
  constructor
  · rintro ⟨⟨id, packet⟩, hpacket, hdue, rfl⟩
    exact ⟨packet, hpacket, hdue, rfl⟩
  · rintro ⟨packet, hpacket, hdue, hdata⟩
    exact ⟨(p.1, packet), hpacket, hdue, Prod.ext rfl hdata⟩

theorem count_getRetransmits (now : Instant) (t : ReliableTransport) (id : UInt32) :
    ((t.getRetransmits F now).1.map Prod.fst).count id =
      if (t.pending[id]?).any (isDue t.config now) then 1 else 0 := by
  have hkeys : ((t.getRetransmits F now).1.map Prod.fst).Nodup := by
    have hsub : ((t.getRetransmits F now).1.map Prod.fst).Sublist (t.pending.toList.map Prod.fst) := by
      rw [getRetransmits, List.map_map]
      exact List.filter_sublist.map Prod.fst
    rw [Std.ExtTreeMap.map_fst_toList_eq_keys] at hsub
    exact Std.ExtTreeMap.nodup_keys.sublist hsub
  have hmem : id ∈ (t.getRetransmits F now).1.map Prod.fst ↔ (t.pending[id]?).any (isDue t.config now) = true := by
    rw [List.mem_map, Option.any_eq_true]
    constructor
    · rintro ⟨p, hp, rfl⟩
      obtain ⟨packet, hpacket, hdue, -⟩ := mem_getRetransmits_iff.mp hp
      exact ⟨packet, hpacket, hdue⟩
    · rintro ⟨packet, hpacket, hdue⟩
      exact ⟨(id, packet.data), mem_getRetransmits_iff.mpr ⟨packet, hpacket, hdue, rfl⟩, rfl⟩
  rw [hkeys.count]
  simp only [hmem]

theorem getElem?_getRetransmits (now : Instant) (t : ReliableTransport) (id : UInt32) :
    (t.getRetransmits F now).2.pending[id]? = (t.pending[id]?).map fun packet =>
      if isDue t.config now packet then resend F t.config now packet else packet := by
  rw [getRetransmits, Std.ExtTreeMap.getElem?_map]

theorem data_resent (now : Instant) (packet : PendingPacket) :
    (if isDue config now packet then resend F config now packet else packet).data = packet.data := by
  split <;> rfl

theorem toNat_retransmits_resend {now : Instant} {packet : PendingPacket} (h : isDue config now packet = true) :
    (resend F config now packet).retransmits.toNat = packet.retransmits.toNat + 1 ∧
      packet.retransmits.toNat < config.maxRetransmits.toNat := by
  rw [isDue, Bool.and_eq_true, decide_eq_true_eq, decide_eq_true_eq] at h
  have hlt := UInt32.lt_iff_toNat_lt.mp h.2
  have hmax := config.maxRetransmits.toNat_lt
  refine ⟨?_, hlt⟩
  rw [resend, UInt32.toNat_add]
  change (packet.retransmits.toNat + 1) % 2 ^ 32 = packet.retransmits.toNat + 1
  omega

theorem Kept.retransmit (h : Kept config l) (now : Instant) : Kept config (retransmit F now l) where
  pending id := by
    rw [SenderBooks.retransmit, getElem?_getRetransmits, Option.map_map]
    refine Eq.trans ?_ (h.pending id)
    congr 1
    funext packet
    exact data_resent now packet
  window := by
    rw [SenderBooks.retransmit, getRetransmits, Std.ExtTreeMap.size_map]
    exact h.window
  resent id := by
    have hconfig := h.config
    change l.resent id + _ ≤ _
    rw [count_getRetransmits]
    split
    · rename_i hdue
      obtain ⟨packet, hpacket, hdue⟩ := (Option.any_eq_true _ _).mp hdue
      rw [h.counted id packet hpacket, ← hconfig]
      exact (toNat_retransmits_resend (F := F) hdue).2
    · exact h.resent id
  config := h.config
  next := h.next
  counted id packet hpacket := by
    rw [SenderBooks.retransmit, getElem?_getRetransmits, Option.map_eq_some_iff] at hpacket
    obtain ⟨before, hbefore, rfl⟩ := hpacket
    change l.resent id + _ = _
    rw [count_getRetransmits, hbefore, h.counted id before hbefore, Option.any_some]
    split
    · rename_i hdue
      exact (toNat_retransmits_resend hdue).1.symm
    · rfl
  unused id hid := by
    obtain ⟨hacknowledged, hresent⟩ := h.unused id hid
    have hnone : l.transport.pending[id]? = none := by
      have hpending := h.pending id
      have hnever : l.sent[id.toNat]? = none := List.getElem?_eq_none hid
      rw [Ledger.outstanding, if_neg hacknowledged, hnever] at hpending
      exact Option.map_eq_none_iff.mp hpending
    refine ⟨hacknowledged, ?_⟩
    change l.resent id + _ = 0
    rw [count_getRetransmits, hnone, hresent]
    rfl

theorem outstanding_of_mem_getRetransmits (h : Kept config l) {now : Instant} {p : UInt32 × Bytes}
    (hp : p ∈ (l.transport.getRetransmits F now).1) : l.outstanding p.1 = some p.2 := by
  obtain ⟨packet, hpacket, -, hdata⟩ := mem_getRetransmits_iff.mp hp
  rw [← h.pending, hpacket, ← hdata]
  rfl

end Retransmit

theorem Kept.step (h : Kept config l) (call : Call) (hlast : call.isSend = true → l.sent.length + 1 < 2 ^ 32) :
    Kept config (step F l call).2 ∧ Answers F l call := by
  cases call with
  | send now data =>
    by_cases hfull : l.transport.config.windowSize.toNat ≤ l.transport.pending.size
    · have hstep := step_send_full (F := F) now data hfull
      rw [Answers, hstep]
      exact ⟨h, rfl⟩
    · have hstep := step_send_room (F := F) now data hfull
      rw [Answers, hstep]
      exact ⟨h.send now data (hlast rfl) hfull, _, rfl, h.next⟩
  | processAcks now acks => exact ⟨h.acknowledge now acks, trivial⟩
  | getRetransmits now =>
    exact ⟨h.retransmit now, _, rfl, fun p hp => outstanding_of_mem_getRetransmits h hp⟩

theorem length_sent_step (l : Ledger) (call : Call) :
    (SenderBooks.step F l call).2.sent.length ≤ l.sent.length + [call].countP Call.isSend := by
  cases call with
  | send now data =>
    by_cases hfull : l.transport.config.windowSize.toNat ≤ l.transport.pending.size
    · rw [step_send_full now data hfull]
      exact Nat.le_add_right _ _
    · rw [step_send_room now data hfull]
      exact Nat.le_of_eq List.length_append
  | processAcks now acks | getRetransmits now => exact Nat.le_add_right _ _

theorem Kept.run (h : Kept config l) {calls : List Call}
    (hcount : l.sent.length + calls.countP Call.isSend < 2 ^ 32) :
    Always (SenderBooks.step F) (Booked config) l calls ∧ EachStep (SenderBooks.step F) (Answers F) l calls := by
  induction calls generalizing l with
  | nil => exact ⟨h.toBooked, trivial⟩
  | cons call calls ih =>
    have hsplit : (call :: calls).countP Call.isSend = [call].countP Call.isSend + calls.countP Call.isSend := by
      rw [← List.countP_append, List.singleton_append]
    have hgrow := length_sent_step (F := F) l call
    have hlast : call.isSend = true → l.sent.length + 1 < 2 ^ 32 := by
      intro hsend
      rw [List.countP_cons_of_pos hsend] at hcount
      omega
    obtain ⟨hkept, hanswers⟩ := h.step (F := F) call hlast
    obtain ⟨hbooked, hrest⟩ := ih hkept (by omega)
    exact ⟨⟨h.toBooked, hbooked⟩, hanswers, hrest⟩

/-- On a fresh transport, for fewer than 2^32 calls of `send` between any
acknowledgments and at any times: the ids are given out in order, the pending
packets are those that were sent and not acknowledged, with their payloads, no
more than the window takes, a send that fails changes nothing, and only pending
packets are sent again, none of them too often. -/
theorem sender_bookkeeping (F : FloatTime) (config : ReliableConfig) (calls : List Call)
    (hcount : calls.countP Call.isSend < 2 ^ 32) :
    Always (step F) (Booked config) (start config) calls ∧ EachStep (step F) (Answers F) (start config) calls := by
  apply (kept_start config).run
  rwa [start, List.length_nil, Nat.zero_add]

/-- Two packets, of which the first is acknowledged, after an acknowledgment
that came too early, and the second is sent again. -/
theorem bookkeeping_of_a_lost_packet :
    let F : FloatTime := ⟨fun r _ => r, fun v _ => v, fun r _ => r⟩
    let calls : List Call := [.send 0 [1], .processAcks 1 [1, 0], .send 2 [2], .getRetransmits 3000000000]
    outputs (step F) (start {}) calls = [.ok [(0, [1])], .ok [], .ok [(1, [2])], .ok [(1, [2])]] ∧
      Always (step F) (Booked {}) (start {}) calls ∧ EachStep (step F) (Answers F) (start {}) calls := by
  intro F calls
  exact ⟨by decide +kernel +zetaReduce, sender_bookkeeping F {} calls (by decide)⟩

end CoreVpn.Protocol.SenderBooks
