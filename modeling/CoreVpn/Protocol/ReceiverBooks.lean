import CoreVpn.Lib.Machine
import CoreVpn.Protocol.Receive

namespace CoreVpn.Protocol.ReceiverBooks

open Lib.Computation Lib.Wire Lib.Machine Errors Reliable ReliableTransport Receive

/-- A transport, with a record of the ids it has accepted and of how far the
expected id has moved. -/
structure Ledger where
  transport : ReliableTransport
  accepted : Finset UInt32 := ∅
  advances : Nat := 0

def start (config : ReliableConfig) : Ledger where
  transport := .new config

/-- A packet is accepted if it is delivered, or if it is ahead of the expected
one and the buffer takes it. -/
def accepts (t : ReliableTransport) (id : UInt32) : Outcome ProtocolError (Option Bytes) → Bool
  | .ok (some _) => true
  | .ok none => decide (t.nextRecvId < id)
  | .error _ => false

/-- One arrival. The expected id moves by at most 101 in a call, so the
difference says how far. -/
def step (l : Ledger) (arrival : UInt32 × Bytes) : Outcome ProtocolError (Option Bytes) × Ledger :=
  let (result, t) := receive arrival.1 arrival.2 l.transport
  (result,
    { transport := t
      accepted := if accepts l.transport arrival.1 result then insert arrival.1 l.accepted else l.accepted
      advances := l.advances + (t.nextRecvId - l.transport.nextRecvId).toNat })

/-- The buffer is bounded, all it holds is ahead of the expected id, and that is
the least id which has not been accepted. -/
structure Orderly (l : Ledger) : Prop where
  bounded : l.transport.outOfOrder.size ≤ maxOutOfOrder
  ahead : ∀ id ∈ l.transport.outOfOrder, l.transport.nextRecvId < id
  notAccepted : l.transport.nextRecvId ∉ l.accepted
  least : ∀ id, id ∉ l.accepted → l.transport.nextRecvId ≤ id

section Loop

variable {t v : ReliableTransport} {id : UInt32}

def Settled (t : ReliableTransport) (id : UInt32) : Prop := id < t.nextRecvId ∨ id ∈ t.outOfOrder

/-- The loop has passed ids of the buffer only, and has not come to the end of
the ids. -/
structure Draining (t v : ReliableTransport) : Prop where
  passed : t.nextRecvId ≤ v.nextRecvId
  ahead : ∀ id ∈ v.outOfOrder, v.nextRecvId ≤ id
  settled : ∀ id, Settled v id ↔ Settled t id
  count : v.nextRecvId.toNat + v.outOfOrder.size = t.nextRecvId.toNat + t.outOfOrder.size

structure Wrapped (t v : ReliableTransport) : Prop where
  next : v.nextRecvId = 0
  empty : ∀ id, id ∉ v.outOfOrder
  count : 2 ^ 32 ≤ t.nextRecvId.toNat + t.outOfOrder.size

theorem toNat_succ {a : UInt32} (h : a + 1 ≠ 0) : (a + 1).toNat = a.toNat + 1 := by
  have ha := a.toNat_lt
  have hadd : (a + 1).toNat = (a.toNat + 1) % 2 ^ 32 := UInt32.toNat_add a 1
  have hne : (a + 1).toNat ≠ 0 := fun he => h (UInt32.toNat_inj.mp he)
  omega

theorem toNat_last {a : UInt32} (h : a + 1 = 0) : a.toNat + 1 = 2 ^ 32 := by
  have ha : a = 4294967295 := by grind
  rw [ha]
  rfl

theorem Draining.turn (h : Draining t v) (hmem : v.nextRecvId ∈ v.outOfOrder) (hlast : v.nextRecvId + 1 ≠ 0) :
    Draining t { v with
      nextRecvId := v.nextRecvId + 1
      outOfOrder := v.outOfOrder.erase v.nextRecvId } where
  passed := by
    have hpassed := h.passed
    grind
  ahead id hid := by
    obtain ⟨hne, hid⟩ := mem_erase_iff.mp hid
    have hle := h.ahead id hid
    grind
  settled id := by
    rw [← h.settled id, Settled, Settled, mem_erase_iff]
    have hlt : id < v.nextRecvId + 1 ↔ id < v.nextRecvId ∨ id = v.nextRecvId := by grind
    rw [hlt]
    constructor
    · rintro ((hid | rfl) | ⟨-, hid⟩)
      · exact .inl hid
      · exact .inr hmem
      · exact .inr hid
    · rintro (hid | hid)
      · exact .inl (.inl hid)
      · by_cases heq : id = v.nextRecvId
        · exact .inl (.inr heq)
        · exact .inr ⟨heq, hid⟩
  count := by
    have hcount := h.count
    have hsize := size_erase_add_one hmem
    dsimp only
    rw [toNat_succ hlast]
    omega

theorem Draining.wrap (h : Draining t v) (hmem : v.nextRecvId ∈ v.outOfOrder) (hlast : v.nextRecvId + 1 = 0) :
    Wrapped t { v with
      nextRecvId := v.nextRecvId + 1
      outOfOrder := v.outOfOrder.erase v.nextRecvId } where
  next := hlast
  empty id hid := by
    obtain ⟨hne, hid⟩ := mem_erase_iff.mp hid
    have hle := h.ahead id hid
    grind
  count := by
    have hmax : v.nextRecvId.toNat + 1 = 2 ^ 32 := toNat_last hlast
    have hsize := size_erase_add_one hmem
    have hcount := h.count
    omega

theorem draining_drain (h : ∀ id ∈ t.outOfOrder, t.nextRecvId ≤ id) (fuel : Nat) :
    Draining t (drain fuel t) ∨ Wrapped t (drain fuel t) := by
  apply drain_induction (P := fun v => Draining t v ∨ Wrapped t v)
  · rintro v hmem (hv | hv)
    · by_cases hlast : v.nextRecvId + 1 = 0
      · exact .inr (hv.wrap hmem hlast)
      · exact .inl (hv.turn hmem hlast)
    · exact absurd hmem (hv.empty _)
  · exact .inl ⟨UInt32.le_refl _, h, fun _ => Iff.rfl, rfl⟩

theorem toNat_sub_of_last {a b : UInt32} (ha : a ≠ 0) (hb : b = 0) : a.toNat + (b - a).toNat = 2 ^ 32 := by
  have hlt := a.toNat_lt
  have hne : a.toNat ≠ 0 := fun he => ha (UInt32.toNat_inj.mp he)
  rw [hb, UInt32.toNat_sub]
  change a.toNat + (2 ^ 32 - a.toNat + 0) % 2 ^ 32 = 2 ^ 32
  omega

theorem draining_expected {u : ReliableTransport} (hahead : ∀ id ∈ t.outOfOrder, t.nextRecvId < id)
    (hbounded : t.outOfOrder.size ≤ maxOutOfOrder) (hnext : u.nextRecvId = t.nextRecvId + 1)
    (hbuffer : u.outOfOrder = t.outOfOrder)
    (hlast : t.nextRecvId.toNat + ((drain u.outOfOrder.size u).nextRecvId - t.nextRecvId).toNat < 2 ^ 32) :
    t.nextRecvId + 1 ≠ 0 ∧ Draining u (drain u.outOfOrder.size u) := by
  by_cases hmax : t.nextRecvId + 1 = 0
  · -- nothing is ahead of the last id, so the loop does not run
    exfalso
    have hempty : u.nextRecvId ∉ u.outOfOrder := by
      intro hmem
      have hlt := hahead _ (hbuffer ▸ hmem)
      grind
    rw [drain_of_notMem _ hempty, toNat_sub_of_last (by grind) (hnext.trans hmax)] at hlast
    exact Nat.lt_irrefl _ hlast
  · refine ⟨hmax, ?_⟩
    have hle : ∀ id ∈ u.outOfOrder, u.nextRecvId ≤ id := by
      intro id hid
      have hlt := hahead id (hbuffer ▸ hid)
      grind
    refine (draining_drain hle u.outOfOrder.size).resolve_right fun hwrapped => ?_
    -- the buffer is too small for the loop to come all the way round
    have hcount := hwrapped.count
    have hne : t.nextRecvId ≠ 0 := by
      intro hzero
      rw [hnext, hbuffer, hzero] at hcount
      change 2 ^ 32 ≤ 1 + t.outOfOrder.size at hcount
      change t.outOfOrder.size ≤ 100 at hbounded
      omega
    rw [toNat_sub_of_last hne hwrapped.next] at hlast
    exact Nat.lt_irrefl _ hlast

end Loop

section Books

variable {l : Ledger} {arrival : UInt32 × Bytes}

/-- What is accepted is what the transport is done with, and the expected id
has not gone past the last id. -/
structure Kept (l : Ledger) : Prop where
  bounded : l.transport.outOfOrder.size ≤ maxOutOfOrder
  ahead : ∀ id ∈ l.transport.outOfOrder, l.transport.nextRecvId < id
  accepted : ∀ id, id ∈ l.accepted ↔ Settled l.transport id
  advances : l.transport.nextRecvId.toNat = l.advances

theorem Kept.orderly (h : Kept l) : Orderly l where
  bounded := h.bounded
  ahead := h.ahead
  notAccepted := by
    rw [h.accepted]
    rintro (hlt | hmem)
    · exact UInt32.lt_irrefl _ hlt
    · exact UInt32.lt_irrefl _ (h.ahead _ hmem)
  least id hid := by
    rw [h.accepted, Settled, not_or] at hid
    exact UInt32.not_lt.mp hid.1

theorem kept_start (config : ReliableConfig) : Kept (start config) where
  bounded := Nat.zero_le _
  ahead id hid := absurd hid Std.ExtTreeMap.not_mem_empty
  accepted id := by
    refine iff_of_false (Finset.notMem_empty id) ?_
    rintro (hid | hid)
    · exact UInt32.not_lt_zero hid
    · exact Std.ExtTreeMap.not_mem_empty hid
  advances := rfl

variable {id : UInt32} {data : Bytes} {result : Outcome ProtocolError (Option Bytes)} {t : ReliableTransport}

theorem step_eq (hr : receive id data l.transport = (result, t)) :
    (step l (id, data)).2 = ⟨t, if accepts l.transport id result then insert id l.accepted else l.accepted,
      l.advances + (t.nextRecvId - l.transport.nextRecvId).toNat⟩ := by
  rw [step, hr]

theorem Kept.same (h : Kept l) (hr : receive id data l.transport = (result, t))
    (haccepts : accepts l.transport id result = false) (hnext : t.nextRecvId = l.transport.nextRecvId)
    (hbuffer : t.outOfOrder = l.transport.outOfOrder) : Kept (step l (id, data)).2 := by
  rw [step_eq hr, haccepts]
  refine ⟨?_, ?_, fun x => ?_, ?_⟩
  · rw [hbuffer]
    exact h.bounded
  · rw [hbuffer, hnext]
    exact h.ahead
  · rw [Settled, hbuffer, hnext]
    exact h.accepted x
  · rw [hnext, UInt32.sub_self, h.advances]
    rfl

theorem Kept.buffered (h : Kept l) (hlt : l.transport.nextRecvId < id)
    (hroom : l.transport.outOfOrder.size < maxOutOfOrder) : Kept (step l (id, data)).2 := by
  have haccepts : accepts l.transport id (.ok none) = true := decide_eq_true hlt
  rw [step_eq (receive_ahead data hlt hroom), haccepts]
  refine ⟨?_, fun x hx => ?_, fun x => ?_, ?_⟩
  · exact Std.ExtTreeMap.size_insert_le.trans hroom
  · rcases mem_insert_iff.mp hx with rfl | hx
    · exact hlt
    · exact h.ahead x hx
  · rw [if_pos rfl, Finset.mem_insert, h.accepted, Settled, Settled, mem_insert_iff]
    exact or_left_comm
  · rw [UInt32.sub_self, h.advances]
    rfl

def counted (t : ReliableTransport) : ReliableTransport :=
  { t with pendingAcks := t.pendingAcks ++ [t.nextRecvId], nextRecvId := t.nextRecvId + 1 }

theorem Kept.expected (h : Kept l) (hlast : (step l (l.transport.nextRecvId, data)).2.advances < 2 ^ 32) :
    Kept (step l (l.transport.nextRecvId, data)).2 := by
  have hr : receive l.transport.nextRecvId data l.transport =
      (.ok (some data), drain (counted l.transport).outOfOrder.size (counted l.transport)) :=
    receive_expected l.transport data
  have hbounded := (frames_receive l.transport.nextRecvId data l.transport).room h.bounded
  rw [hr] at hbounded
  rw [step_eq hr, ← h.advances] at hlast ⊢
  obtain ⟨hmax, hdrain⟩ := draining_expected (u := counted l.transport) h.ahead h.bounded rfl rfl hlast
  have hstop := drain_stops (t := counted l.transport) _ le_rfl
  refine ⟨hbounded, fun x hx => ?_, fun x => ?_, ?_⟩
  · have hle := hdrain.ahead x hx
    exact UInt32.lt_of_le_of_ne hle fun he => hstop (he ▸ hx)
  · have hlt : x < l.transport.nextRecvId + 1 ↔ x = l.transport.nextRecvId ∨ x < l.transport.nextRecvId := by grind
    rw [hdrain.settled x, accepts, if_pos rfl, Finset.mem_insert, h.accepted, Settled, Settled, counted, hlt, or_assoc]
  · have hpassed : (l.transport.nextRecvId + 1).toNat ≤ _ := UInt32.le_iff_toNat_le.mp hdrain.passed
    rw [toNat_succ hmax] at hpassed
    have hle := Nat.le_of_succ_le hpassed
    dsimp only
    rw [UInt32.toNat_sub_of_le _ _ (UInt32.le_iff_toNat_le.mpr hle), Nat.add_sub_cancel' hle]

theorem Kept.step (h : Kept l) (hlast : (step l arrival).2.advances < 2 ^ 32) : Kept (step l arrival).2 := by
  obtain ⟨id, data⟩ := arrival
  rcases receive_cases l.transport id data with ⟨rfl, -⟩ | ⟨-, -, hr⟩ | ⟨hlt, hroom, -⟩ | ⟨hlt, hr⟩
  · exact h.expected hlast
  · exact h.same hr rfl rfl rfl
  · exact h.buffered hlt hroom
  · exact h.same hr (decide_eq_false (UInt32.lt_asymm hlt)) rfl rfl

theorem advances_le_exec (l : Ledger) (arrivals : List (UInt32 × Bytes)) :
    l.advances ≤ (exec ReceiverBooks.step l arrivals).advances := by
  induction arrivals generalizing l with
  | nil => exact le_rfl
  | cons arrival arrivals ih => exact Nat.le_trans (Nat.le_add_right _ _) (ih (ReceiverBooks.step l arrival).2)

/-- On a fresh transport, for any packets and as long as the expected id does
not come to the end of the ids: the buffer is bounded, all it holds is ahead of
the expected id, and that is the least id not accepted. -/
theorem receiver_buffer_orderly (config : ReliableConfig) (arrivals : List (UInt32 × Bytes))
    (hlast : (exec ReceiverBooks.step (start config) arrivals).advances < 2 ^ 32) :
    Always ReceiverBooks.step Orderly (start config) arrivals := by
  have hrun : ∀ l, Kept l → (exec ReceiverBooks.step l arrivals).advances < 2 ^ 32 →
      Always ReceiverBooks.step Orderly l arrivals := by
    clear hlast
    induction arrivals with
    | nil => exact fun l h _ => h.orderly
    | cons arrival arrivals ih =>
      intro l h hlast
      have hfirst : (ReceiverBooks.step l arrival).2.advances < 2 ^ 32 :=
        (advances_le_exec _ arrivals).trans_lt hlast
      exact ⟨h.orderly, ih _ (h.step hfirst) hlast⟩
  exact hrun _ (kept_start config) hlast

/-- Three packets ahead, in any order and once more than once, and then the two
that were missing. -/
theorem orderly_after_reordering :
    let arrivals : List (UInt32 × Bytes) :=
      [(4294967295, [9]), (2, [2]), (2, [2]), (3, [3]), (0, [0]), (1, [1]), (0, [0])]
    (exec ReceiverBooks.step (start {}) arrivals).transport.nextRecvId = 4 ∧
      Always ReceiverBooks.step Orderly (start {}) arrivals := by
  intro arrivals
  exact ⟨by decide +kernel +zetaReduce, receiver_buffer_orderly {} arrivals (by decide +kernel +zetaReduce)⟩

end Books

end CoreVpn.Protocol.ReceiverBooks
