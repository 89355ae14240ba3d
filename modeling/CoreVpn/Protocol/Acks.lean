import CoreVpn.Lib.Machine
import CoreVpn.Protocol.Receive

namespace CoreVpn.Protocol.Acks

open Lib.Computation Lib.Wire Lib.Machine Errors Reliable ReliableTransport Receive

inductive Call where
  | receive (packetId : UInt32) (data : Bytes)
  | getAcks

inductive Reply where
  | received (result : Outcome ProtocolError (Option Bytes))
  | acks (ids : List UInt32)
  deriving DecidableEq

/-- The transport as its caller sees it: the ids whose payload the caller has
been handed are remembered. -/
structure Receiver where
  transport : ReliableTransport
  delivered : List UInt32

namespace Receiver

def start (config : ReliableConfig) : Receiver := ⟨new config, []⟩

def step (s : Receiver) : Call → Reply × Receiver
  | .receive id data =>
    match receive id data s.transport with
    | (.ok (some payload), t) => (.received (.ok (some payload)), ⟨t, id :: s.delivered⟩)
    | (result, t) => (.received result, ⟨t, s.delivered⟩)
  | .getAcks => (.acks (getAcks s.transport).1, ⟨(getAcks s.transport).2, s.delivered⟩)

/-- The payload of `id` is not lost: the caller has it, or the buffer holds it. -/
def Keeps (s : Receiver) (id : UInt32) : Prop := id ∈ s.delivered ∨ id ∈ s.transport.outOfOrder

instance (s : Receiver) (id : UInt32) : Decidable (s.Keeps id) := inferInstanceAs (Decidable (_ ∨ _))

/-- Every id that `getAcks` would return now is kept. -/
def AcksKept (s : Receiver) : Prop := ∀ id ∈ (getAcks s.transport).1, s.Keeps id

instance (s : Receiver) : Decidable s.AcksKept := inferInstanceAs (Decidable (∀ _ ∈ _, _))

/-- The call neither meets a full buffer nor fills a gap in front of a buffered packet. -/
def Retains (s : Receiver) : Call → Prop
  | .receive id _ =>
    (s.transport.nextRecvId < id → s.transport.outOfOrder.size < maxOutOfOrder) ∧
      (id = s.transport.nextRecvId → s.transport.nextRecvId + 1 ∉ s.transport.outOfOrder)
  | .getAcks => True

instance (s : Receiver) : (call : Call) → Decidable (s.Retains call)
  | .receive _ _ => inferInstanceAs (Decidable (_ ∧ _))
  | .getAcks => inferInstanceAs (Decidable True)

/-- What holds as long as every call retains: the ids below the expected one
have been delivered, the buffer holds only ids above it. -/
structure Invariant (s : Receiver) : Prop where
  below : ∀ id < s.transport.nextRecvId, id ∈ s.delivered
  above : ∀ id ∈ s.transport.outOfOrder, s.transport.nextRecvId < id
  acked : s.AcksKept

end Receiver

open Receiver

variable {s : Receiver} {id next : UInt32} {data : Bytes}

theorem lt_or_eq_of_lt_succ (h : id < next + 1) : id < next ∨ id = next := by
  rw [UInt32.lt_iff_toNat_lt, UInt32.toNat_add] at h
  change id.toNat < (next.toNat + 1) % 2 ^ 32 at h
  rw [UInt32.lt_iff_toNat_lt, ← UInt32.toNat_inj]
  omega

theorem succ_lt_of_lt_of_ne (h : next < id) (hne : id ≠ next + 1) : next + 1 < id := by
  have hid := id.toNat_lt
  have hsucc : (next + 1).toNat = (next.toNat + 1) % 2 ^ 32 := UInt32.toNat_add next 1
  rw [ne_eq, ← UInt32.toNat_inj] at hne
  rw [UInt32.lt_iff_toNat_lt] at h ⊢
  omega

theorem acksKept_append {t : ReliableTransport} {delivered : List UInt32}
    (hacks : t.pendingAcks = s.transport.pendingAcks ++ [id]) (h : s.AcksKept)
    (hmono : ∀ k, s.Keeps k → Keeps ⟨t, delivered⟩ k) (hid : Keeps ⟨t, delivered⟩ id) :
    AcksKept ⟨t, delivered⟩ := by
  intro k hk
  rw [getAcks, hacks, List.mem_append, List.mem_singleton] at hk
  rcases hk with hk | rfl
  · exact hmono k (h k hk)
  · exact hid

theorem step_receive_invariant (h : Invariant s) (hr : s.Retains (.receive id data)) :
    Invariant (step s (.receive id data)).2 := by
  rcases receive_cases s.transport id data with
    ⟨rfl, hs⟩ | ⟨hlt, hfull, -⟩ | ⟨hlt, -, hs⟩ | ⟨hlt, hs⟩
  · -- the expected packet: nothing is waiting behind it, so the loop ends at once
    rw [drain_of_notMem _ (hr.2 rfl)] at hs
    rw [step, hs]
    refine ⟨fun k hk => ?_, fun k hk => ?_, ?_⟩
    · rcases lt_or_eq_of_lt_succ hk with hk | rfl
      · exact List.mem_cons_of_mem _ (h.below k hk)
      · exact List.mem_cons_self
    · exact succ_lt_of_lt_of_ne (h.above k hk) fun he => hr.2 rfl (he ▸ hk)
    · exact acksKept_append rfl h.acked
        (fun k hk => hk.imp_left (List.mem_cons_of_mem _)) (.inl List.mem_cons_self)
  · exact absurd (hr.1 hlt) (Nat.not_lt.mpr hfull)
  · rw [step, hs]
    refine ⟨h.below, fun k hk => ?_, ?_⟩
    · rcases mem_insert_iff.mp hk with rfl | hk
      · exact hlt
      · exact h.above k hk
    · exact acksKept_append rfl h.acked
        (fun k hk => hk.imp_right fun hk => mem_insert_iff.mpr (.inr hk))
        (.inr (mem_insert_iff.mpr (.inl rfl)))
  · rw [step, hs]
    exact ⟨h.below, h.above, acksKept_append rfl h.acked (fun k hk => hk) (.inl (h.below id hlt))⟩

theorem step_invariant (s : Receiver) (call : Call) (hr : s.Retains call) (h : Invariant s) :
    Invariant (step s call).2 := by
  cases call with
  | receive id data => exact step_receive_invariant h hr
  | getAcks => exact ⟨h.below, h.above, fun id hid => absurd hid List.not_mem_nil⟩

theorem invariant_start (config : ReliableConfig) : Invariant (start config) where
  below _ hid := absurd hid (UInt32.not_lt.mpr UInt32.zero_le)
  above _ hid := absurd hid Std.ExtTreeMap.not_mem_empty
  acked _ hid := absurd hid List.not_mem_nil

theorem receive_error_iff (t : ReliableTransport) (id : UInt32) (data : Bytes) :
    ((∃ e, (receive id data t).1 = .error e) → (receive id data t).2.pendingAcks = t.pendingAcks) ↔
      (t.nextRecvId < id → t.outOfOrder.size < maxOutOfOrder) := by
  rcases receive_cases t id data with ⟨rfl, hs⟩ | ⟨hlt, hfull, hs⟩ | ⟨hlt, hroom, hs⟩ | ⟨hlt, hs⟩ <;>
    rw [hs]
  · simp
  · simp [hlt, hfull]
  · simp [hroom]
  · have hnlt : ¬ t.nextRecvId < id := UInt32.not_lt.mpr (UInt32.le_of_lt hlt)
    simp [hnlt]

/-- In every run of `receive` and `getAcks` calls none of which meets a full
buffer or fills a gap, no acknowledged id is ever lost. A call that returns an
error leaves the acknowledgments alone exactly when the buffer is not full. -/
theorem acked_never_lost (config : ReliableConfig) :
    (∀ calls, EachStep step Retains (start config) calls →
      Always step AcksKept (start config) calls) ∧
    ∀ (t : ReliableTransport) (id : UInt32) (data : Bytes),
      ((∃ e, (receive id data t).1 = .error e) →
          (receive id data t).2.pendingAcks = t.pendingAcks) ↔
        (t.nextRecvId < id → t.outOfOrder.size < maxOutOfOrder) := by
  refine ⟨fun calls hc => ?_, receive_error_iff⟩
  have hinv := always_of_step step_invariant (invariant_start config) hc
  exact Always.imp (fun _ hs => hs.acked) hinv

theorem acked_never_lost_in_order :
    let calls : List Call := [.receive 0 [97], .receive 2 [99], .receive 0 [97], .getAcks]
    EachStep step Retains (start {}) calls ∧ Always step AcksKept (start {}) calls ∧
      (step (exec step (start {}) (calls.take 3)) .getAcks).1 = .acks [0, 2, 0] :=
  ⟨by decide, (acked_never_lost {}).1 _ (by decide), by decide⟩

/-- With 100 packets buffered ahead of a gap, packet 101 is refused and
acknowledged all the same; and once packet 0 fills the gap in front of packet 1,
packet 1 is acknowledged although its payload is gone. -/
theorem lost_packets_acked :
    let ahead : List Call := (List.range 101).map fun i => .receive (UInt32.ofNat (i + 1)) [97]
    let full := exec step (start {}) ahead
    let filled := exec step (start {}) [.receive 1 [98], .receive 0 [97]]
    ((outputs step (start {}) ahead).getLast? =
        some (.received (.error (.error (.invalidPacket "too many out-of-order packets")))) ∧
      101 ∈ (getAcks full.transport).1 ∧ ¬ full.Keeps 101) ∧
    ((step filled .getAcks).1 = .acks [1, 0] ∧ ¬ filled.Keeps 1) := by
  decide +kernel

end CoreVpn.Protocol.Acks
