import CoreVpn.Lib.Machine
import CoreVpn.Protocol.Receive

namespace CoreVpn.Protocol.Delivery

open Lib.Computation Lib.Wire Lib.Machine Errors Reliable ReliableTransport Receive

variable {x : UInt32} {t : ReliableTransport} {a : UInt32 × Bytes}

def step (t : ReliableTransport) (arrival : UInt32 × Bytes) :
    Outcome ProtocolError (Option Bytes) × ReliableTransport := receive arrival.1 arrival.2 t

def delivered (results : List (Outcome ProtocolError (Option Bytes))) : List Bytes :=
  results.filterMap fun
    | .ok (some data) => some data
    | _ => none

/-- The arrival fills no gap: when it is the expected packet, its successor is
not waiting in the buffer. -/
def FillsNoGap (t : ReliableTransport) (arrival : UInt32 × Bytes) : Prop :=
  arrival.1 = t.nextRecvId → t.nextRecvId + 1 ∉ t.outOfOrder

instance (t : ReliableTransport) (arrival : UInt32 × Bytes) : Decidable (FillsNoGap t arrival) :=
  inferInstanceAs (Decidable (_ → _))

theorem delivered_cons (r : Outcome ProtocolError (Option Bytes))
    (rs : List (Outcome ProtocolError (Option Bytes))) :
    delivered (r :: rs) = delivered [r] ++ delivered rs := by
  rw [delivered, delivered, delivered, ← List.filterMap_append]
  rfl

/-- An arrival delivers the expected payload and moves on, by exactly one id
unless it fills a gap, or delivers nothing and stays. -/
theorem step_cases (h : Missing x t) (ha : a.1 ≠ x) : Missing x (step t a).2 ∧
    ((a.1 = t.nextRecvId ∧ delivered [(step t a).1] = [a.2] ∧
        t.nextRecvId.toNat + 1 ≤ (step t a).2.nextRecvId.toNat ∧
        ((step t a).2.nextRecvId.toNat = t.nextRecvId.toNat + 1 ↔ FillsNoGap t a)) ∨
      (FillsNoGap t a ∧ delivered [(step t a).1] = [] ∧
        (step t a).2.nextRecvId = t.nextRecvId)) := by
  obtain ⟨id, data⟩ := a
  rcases receive_cases t id data with
    ⟨rfl, hr⟩ | ⟨hlt, -, hr⟩ | ⟨hlt, -, hr⟩ | ⟨hlt, hr⟩ <;> rw [step, hr]
  · obtain ⟨hm, hs⟩ := h.advance (u := { t with
        pendingAcks := t.pendingAcks ++ [t.nextRecvId]
        nextRecvId := t.nextRecvId + 1 }) ha rfl fun k hk => hk
    obtain ⟨hm', hle⟩ := hm.drain t.outOfOrder.size
    refine ⟨hm', .inl ⟨rfl, rfl, hs.symm.trans_le hle, ?_⟩⟩
    rw [← hs, hm.drain_eq_iff]
    simp only [FillsNoGap, forall_const]
  · exact ⟨⟨h.notBuffered, h.expected_le⟩, .inr ⟨fun he => absurd he.symm (UInt32.ne_of_lt hlt), rfl, rfl⟩⟩
  · refine ⟨⟨fun hx => ?_, h.expected_le⟩,
      .inr ⟨fun he => absurd he.symm (UInt32.ne_of_lt hlt), rfl, rfl⟩⟩
    rcases mem_insert_iff.mp hx with he | hx
    · exact ha he.symm
    · exact h.notBuffered hx
  · exact ⟨⟨h.notBuffered, h.expected_le⟩, .inr ⟨fun he => absurd he (UInt32.ne_of_lt hlt), rfl, rfl⟩⟩

/-- The expected id moves at least as far as payloads are delivered, and
exactly as far if and only if no arrival of the run fills a gap. -/
theorem run_count (h : Missing x t) (arrivals : List (UInt32 × Bytes))
    (hx : ∀ a ∈ arrivals, a.1 ≠ x) :
    t.nextRecvId.toNat + (delivered (outputs step t arrivals)).length ≤
        (exec step t arrivals).nextRecvId.toNat ∧
      ((exec step t arrivals).nextRecvId.toNat =
          t.nextRecvId.toNat + (delivered (outputs step t arrivals)).length ↔
        EachStep step FillsNoGap t arrivals) := by
  induction arrivals generalizing t with
  | nil => simp [delivered, EachStep]
  | cons a arrivals ih =>
    obtain ⟨hm, hcase⟩ := step_cases h (hx a List.mem_cons_self)
    obtain ⟨hle, hiff⟩ := ih hm fun b hb => hx b (List.mem_cons_of_mem a hb)
    rw [exec_cons, outputs_cons, delivered_cons, List.length_append, EachStep, ← hiff]
    rcases hcase with ⟨-, hd, hstep, heq⟩ | ⟨hgap, hd, hstep⟩
    · rw [hd, ← heq, List.length_singleton]
      exact ⟨by omega, by omega⟩
    · rw [hd, hstep, List.length_nil]
      rw [hstep] at hle
      exact ⟨by omega, by simp [hgap]⟩

theorem run_exact (payload : UInt32 → Bytes) (h : Missing x t) (arrivals : List (UInt32 × Bytes))
    (hx : ∀ a ∈ arrivals, a.1 ≠ x) (hsame : ∀ a ∈ arrivals, a.2 = payload a.1)
    (hgap : EachStep step FillsNoGap t arrivals) :
    ∃ n, (exec step t arrivals).nextRecvId.toNat = t.nextRecvId.toNat + n ∧
      delivered (outputs step t arrivals) =
        (List.range' t.nextRecvId.toNat n).map fun i => payload (UInt32.ofNat i) := by
  induction arrivals generalizing t with
  | nil => exact ⟨0, rfl, rfl⟩
  | cons a arrivals ih =>
    obtain ⟨hm, hcase⟩ := step_cases h (hx a List.mem_cons_self)
    obtain ⟨n, hn, hrest⟩ := ih hm (fun b hb => hx b (List.mem_cons_of_mem a hb))
      (fun b hb => hsame b (List.mem_cons_of_mem a hb)) hgap.2
    rw [exec_cons, outputs_cons, delivered_cons, hrest, hn]
    rcases hcase with ⟨hid, hd, -, heq⟩ | ⟨-, hd, hstep⟩
    · refine ⟨n + 1, by rw [heq.mpr hgap.1]; omega, ?_⟩
      rw [hd, heq.mpr hgap.1, List.range'_succ, List.map_cons, UInt32.ofNat_toNat, ← hid,
        ← hsame a List.mem_cons_self]
      rfl
    · exact ⟨n, by rw [hstep], by rw [hd, hstep, List.nil_append]⟩

theorem exists_missing (arrivals : List (UInt32 × Bytes))
    (hids : (arrivals.map Prod.fst).toFinset.card < 2 ^ 32) :
    ∃ x : UInt32, ∀ a ∈ arrivals, a.1 ≠ x := by
  have hcard : ((arrivals.map Prod.fst).toFinset.image UInt32.toNat).card < (Finset.range (2 ^ 32)).card := by
    rw [Finset.card_range]
    exact Finset.card_image_le.trans_lt hids
  obtain ⟨n, hn, hmem⟩ := Finset.exists_mem_notMem_of_card_lt_card hcard
  refine ⟨UInt32.ofNat n, fun a ha he => hmem (Finset.mem_image.mpr ⟨a.1, ?_, ?_⟩)⟩
  · exact List.mem_toFinset.mpr (List.mem_map_of_mem ha)
  · rw [he, UInt32.toNat_ofNat_of_lt' (Finset.mem_range.mp hn)]

/-- Over a run of `receive` calls on a fresh transport, each id carrying one
payload and fewer than 2^32 ids in play, the caller is handed exactly the
payloads of ids 0 up to the expected one, in order and once each, if and only if
no arrival of the run fills a gap. -/
theorem delivered_prefix_iff (config : ReliableConfig) (payload : UInt32 → Bytes)
    (arrivals : List (UInt32 × Bytes)) (hsame : ∀ a ∈ arrivals, a.2 = payload a.1)
    (hids : (arrivals.map Prod.fst).toFinset.card < 2 ^ 32) :
    delivered (outputs step (new config) arrivals) =
        (List.range (exec step (new config) arrivals).nextRecvId.toNat).map
          (fun i => payload (UInt32.ofNat i)) ↔
      EachStep step FillsNoGap (new config) arrivals := by
  obtain ⟨x, hx⟩ := exists_missing arrivals hids
  have hm : Missing x (new config) := ⟨Std.ExtTreeMap.not_mem_empty, Nat.zero_le _⟩
  constructor
  · intro h
    have hlen := congrArg List.length h
    rw [List.length_map, List.length_range] at hlen
    refine ((run_count hm arrivals hx).2).mp ?_
    rw [hlen]
    exact (Nat.zero_add _).symm
  · intro hgap
    obtain ⟨n, hn, hd⟩ := run_exact payload hm arrivals hx hsame hgap
    rw [hd, hn, List.range_eq_range']
    exact congrArg (fun k => (List.range' 0 k).map fun i => payload (UInt32.ofNat i))
      (Nat.zero_add n).symm

theorem delivered_prefix_in_order :
    delivered (outputs step (new {}) [(0, [97]), (0, [97]), (1, [98])]) = [[97], [98]] ∧
      (delivered (outputs step (new {}) [(0, [97]), (0, [97]), (1, [98])]) =
        (List.range (exec step (new {}) [(0, [97]), (0, [97]), (1, [98])]).nextRecvId.toNat).map
          (fun i => if UInt32.ofNat i = 0 then [97] else [98]) ↔
        EachStep step FillsNoGap (new {}) [(0, [97]), (0, [97]), (1, [98])]) :=
  ⟨by decide, delivered_prefix_iff {} (fun id => if id = 0 then [97] else [98])
    [(0, [97]), (0, [97]), (1, [98])] (by decide) (by decide)⟩

/-- Packet 1 arrives before packet 0. Filling the gap moves the expected id to
2, yet only the payload of packet 0 is ever handed out. -/
theorem gap_fill_loses_payload :
    let payload : UInt32 → Bytes := fun id => if id = 0 then [97] else [98]
    let arrivals : List (UInt32 × Bytes) := [(1, [98]), (0, [97])]
    (∀ a ∈ arrivals, a.2 = payload a.1) ∧ (arrivals.map Prod.fst).toFinset.card < 2 ^ 32 ∧
      Always step (fun t => t.outOfOrder.size ≤ 100) (new {}) arrivals ∧
      (exec step (new {}) arrivals).nextRecvId = 2 ∧
      delivered (outputs step (new {}) arrivals) = [[97]] ∧
      delivered (outputs step (new {}) arrivals) ≠
        (List.range (exec step (new {}) arrivals).nextRecvId.toNat).map
          (fun i => payload (UInt32.ofNat i)) := by
  decide

theorem run_sublist {sent : List Bytes} (h : Missing x t) (arrivals : List (UInt32 × Bytes))
    (hx : ∀ a ∈ arrivals, a.1 ≠ x) (hsent : ∀ a ∈ arrivals, sent[a.1.toNat]? = some a.2) :
    (delivered (outputs step t arrivals)).Sublist
      ((sent.take (exec step t arrivals).nextRecvId.toNat).drop t.nextRecvId.toNat) := by
  induction arrivals generalizing t with
  | nil => exact List.nil_sublist _
  | cons a arrivals ih =>
    obtain ⟨hm, hcase⟩ := step_cases h (hx a List.mem_cons_self)
    have hx' : ∀ b ∈ arrivals, b.1 ≠ x := fun b hb => hx b (List.mem_cons_of_mem a hb)
    have hrest := ih hm hx' fun b hb => hsent b (List.mem_cons_of_mem a hb)
    rw [exec_cons, outputs_cons, delivered_cons]
    rcases hcase with ⟨hid, hd, hmove, -⟩ | ⟨-, hd, hstay⟩
    · have hfar := (run_count hm arrivals hx').1
      have hpayload := hsent a List.mem_cons_self
      have hlt : t.nextRecvId.toNat < (exec step (step t a).2 arrivals).nextRecvId.toNat := by omega
      rw [hid, ← List.getElem?_take_of_lt hlt] at hpayload
      obtain ⟨hin, hpayload⟩ := List.getElem?_eq_some_iff.mp hpayload
      rw [hd, List.drop_eq_getElem_cons hin, hpayload]
      exact (hrest.trans (List.drop_sublist_drop_left _ hmove)).cons_cons _
    · rw [hd, ← hstay]
      exact hrest

/-- Whatever is lost, repeated or reordered on the way, even where payloads are
lost in the buffer: the caller is handed a selection of what was sent, in order
and each payload at most once. -/
theorem delivered_in_order (config : ReliableConfig) (sent : List Bytes) (arrivals : List (UInt32 × Bytes))
    (hcount : sent.length < 2 ^ 32) (hsent : ∀ a ∈ arrivals, sent[a.1.toNat]? = some a.2) :
    (delivered (outputs step (new config) arrivals)).Sublist
      (sent.take (exec step (new config) arrivals).nextRecvId.toNat) := by
  have hm : Missing (UInt32.ofNat sent.length) (new config) := ⟨Std.ExtTreeMap.not_mem_empty, Nat.zero_le _⟩
  refine run_sublist hm arrivals (fun a ha he => ?_) hsent
  have hlt := (List.getElem?_eq_some_iff.mp (hsent a ha)).1
  rw [he, UInt32.toNat_ofNat_of_lt' hcount] at hlt
  exact Nat.lt_irrefl _ hlt

/-- The third packet comes first, the first one twice, and the second too late. -/
theorem delivered_in_order_reordered :
    (delivered (outputs step (new {}) [(2, [99]), (0, [97]), (0, [97]), (1, [98])])).Sublist [[97], [98], [99]] :=
  (delivered_in_order {} [[97], [98], [99]] [(2, [99]), (0, [97]), (0, [97]), (1, [98])] (by decide) (by decide)).trans
    (List.take_sublist _ _)

end CoreVpn.Protocol.Delivery
