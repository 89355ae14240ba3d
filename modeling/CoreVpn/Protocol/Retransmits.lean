import CoreVpn.Protocol.Traffic

namespace CoreVpn.Protocol.Retransmits

open Lib.Computation Lib.Wire Lib.Machine Crypto.Ciphers Crypto.Keys
open Errors Opcodes Packets Reliable Sessions ProtocolSession Sending Readback Receive Builders SessionFrames
open Traffic (fresh handOut handOut_snd)

inductive Call where
  | session (call : Traffic.Call)
  | rotateKey

def createdEach (P : Primitives) (clock : Clock) : List Bytes → ProtocolSession → List ControlPacketData
  | [], _ => []
  | chunk :: rest, s =>
    if WindowFull s then []
    else reliablePacket .controlV1 s.currentKeyId chunk s ::
      createdEach P clock rest (createSingleControlPacket P clock chunk s).2

def created (P : Primitives) (s : ProtocolSession) : Traffic.Call → List ControlPacketData
  | .createHardResetClient _ =>
    if WindowFull s then []
    else [controlPacket s .hardResetClientV2 ⟨0⟩ none [] (some s.reliable.nextSendId) []]
  | .createHardResetResponse _ =>
    if WindowFull s then [] else [reliablePacket .hardResetServerV2 ⟨0⟩ [] s]
  | .createControlPacket clock tlsData => createdEach P clock [tlsData] s
  | .createControlPackets clock tlsData =>
    createdEach P clock
      (if tlsData.length ≤ maxControlPayload then [tlsData] else chunks tlsData.length tlsData) s
  | .processPacket _ _ | .createAckPacket _ | .getRetransmits _ => []

/-- A session together with the packets that were created for its message ids. -/
structure Ledger where
  session : ProtocolSession
  originals : UInt32 → Option ControlPacketData

def record (originals : UInt32 → Option ControlPacketData) (ctrl : ControlPacketData) :
    UInt32 → Option ControlPacketData :=
  match ctrl.messagePacketId with
  | some id => Function.update originals id (some ctrl)
  | none => originals

def step (P : Primitives) (l : Ledger) : Call → List Bytes × Ledger
  | .session call =>
    ((Traffic.step P l.session call).1,
      ⟨(Traffic.step P l.session call).2, (created P l.session call).foldl record l.originals⟩)
  | .rotateKey => ([], { l with session := l.session.rotateKey })

def Repeats (ctrl original : ControlPacketData) : Prop :=
  ctrl.header.opcode = original.header.opcode ∧ ctrl.header.keyId = original.header.keyId ∧
    ctrl.header.sessionId = original.header.sessionId ∧
    ctrl.messagePacketId = original.messagePacketId ∧ ctrl.payload = original.payload

instance (ctrl original : ControlPacketData) : Decidable (Repeats ctrl original) :=
  inferInstanceAs (Decidable (_ ∧ _))

/-- The bytes are a packet that repeats the one created for its message id. -/
def RepeatsOriginal (l : Ledger) (packet : Bytes) : Prop :=
  match Packet.parse (strip l.session packet) false with
  | .ok (.control ctrl) => ∃ original ∈ ctrl.messagePacketId.bind l.originals, Repeats ctrl original
  | _ => False

/-- Everything that is due was created as an ordinary control packet, under the
key id that is current now. -/
def DueAsCreated (l : Ledger) (now : Instant) : Prop :=
  ∀ p ∈ l.session.reliable.pending.toList, ReliableTransport.isDue l.session.reliable.config now p.2 = true →
    ∀ original ∈ l.originals p.1,
      original.header.opcode = .controlV1 ∧ original.header.keyId = l.session.currentKeyId

instance (l : Ledger) (now : Instant) : Decidable (DueAsCreated l now) :=
  inferInstanceAs (Decidable (∀ p ∈ l.session.reliable.pending.toList, _ → ∀ original ∈ l.originals p.1, _))

section Invariant

/-- The original of a pending packet, as far as the transport keeps it. -/
def Backs (s : ProtocolSession) (id : UInt32) (data : Bytes) (original : ControlPacketData) : Prop :=
  original.header.sessionId = some s.localSessionId ∧ original.messagePacketId = some id ∧
    original.payload = data

structure Backed (l : Ledger) : Prop where
  keyId_lt : l.session.currentKeyId.val < 8
  pending : ∀ (id : UInt32) (packet : PendingPacket), l.session.reliable.pending[id]? = some packet →
    ∃ original, l.originals id = some original ∧ Backs l.session id packet.data original

structure Kept (s t : ProtocolSession) : Prop where
  localSessionId : t.localSessionId = s.localSessionId
  currentKeyId : t.currentKeyId = s.currentKeyId
  pending : ∀ (id : UInt32) (packet : PendingPacket), t.reliable.pending[id]? = some packet →
    ∃ packet', s.reliable.pending[id]? = some packet' ∧ packet'.data = packet.data

instance : IsPreorder ProtocolSession Kept where
  refl _ := ⟨rfl, rfl, fun _ packet h => ⟨packet, h, rfl⟩⟩
  trans _ _ _ h h' := by
    refine ⟨h'.1.trans h.1, h'.2.trans h.2, fun id packet hp => ?_⟩
    obtain ⟨packet', hp', hd'⟩ := h'.pending id packet hp
    obtain ⟨packet'', hp'', hd''⟩ := h.pending id packet' hp'
    exact ⟨packet'', hp'', hd''.trans hd'⟩

theorem kept_of_pending_eq {s t : ProtocolSession} (hid : t.localSessionId = s.localSessionId)
    (hkey : t.currentKeyId = s.currentKeyId) (hp : t.reliable.pending = s.reliable.pending) : Kept s t :=
  ⟨hid, hkey, fun _ packet h => ⟨packet, hp ▸ h, rfl⟩⟩

theorem tolerates_kept : Tolerates Kept where
  reliable _ _ h := ⟨rfl, rfl, fun id packet hp => ⟨packet, h.pending id packet hp, rfl⟩⟩
  tlsReassembler _ _ _ := kept_of_pending_eq rfl rfl rfl
  remoteSessionId _ _ := kept_of_pending_eq rfl rfl rfl
  state _ _ _ := kept_of_pending_eq rfl rfl rfl

theorem Backed.of_kept {l : Ledger} {t : ProtocolSession} (h : Backed l) (hk : Kept l.session t) :
    Backed ⟨t, l.originals⟩ := by
  refine ⟨hk.currentKeyId ▸ h.keyId_lt, fun id packet hp => ?_⟩
  obtain ⟨packet', hp', hdata⟩ := hk.pending id packet hp
  obtain ⟨original, horig, hsid, hmid, hpay⟩ := h.pending id packet' hp'
  exact ⟨original, horig, hk.localSessionId ▸ hsid, hmid, hpay.trans hdata⟩

theorem Backed.enqueue {l : Ledger} (h : Backed l) (now : Instant) (payload : Bytes)
    {ctrl : ControlPacketData} (hctrl : Backs l.session l.session.reliable.nextSendId payload ctrl)
    {t : ProtocolSession} (hends : SameEnds l.session t)
    (hp : t.reliable.pending = (enqueue now payload l.session.reliable).pending) :
    Backed ⟨t, record l.originals ctrl⟩ := by
  refine ⟨hends.currentKeyId ▸ h.keyId_lt, fun id packet hpacket => ?_⟩
  have hrecord : record l.originals ctrl =
      Function.update l.originals l.session.reliable.nextSendId (some ctrl) := by
    rw [record, hctrl.2.1]
  change t.reliable.pending[id]? = some packet at hpacket
  rw [hp, Builders.enqueue, getElem?_insert] at hpacket
  change ∃ original, record l.originals ctrl id = some original ∧ Backs t id packet.data original
  rw [hrecord]
  by_cases hid : id = l.session.reliable.nextSendId
  · subst hid
    rw [if_pos rfl] at hpacket
    cases hpacket
    refine ⟨ctrl, Function.update_self _ _ _, ?_⟩
    rw [Backs, hends.localSessionId]
    exact hctrl
  · rw [if_neg hid] at hpacket
    obtain ⟨original, horig, hback⟩ := h.pending id packet hpacket
    refine ⟨original, (Function.update_of_ne hid _ _).trans horig, ?_⟩
    rw [Backs, hends.localSessionId]
    exact hback

theorem Backed.emit {l : Ledger} (h : Backed l) (P : Primitives) (clock : Clock) {payload : Bytes}
    {ctrl : ControlPacketData} (hctrl : Backs l.session l.session.reliable.nextSendId payload ctrl)
    {r : ReliableTransport} (hr : r.pending = (Builders.enqueue clock.now payload l.session.reliable).pending) :
    Backed ⟨(emit P clock ctrl { l.session with reliable := r }).2, record l.originals ctrl⟩ := by
  obtain ⟨hsame, hrel⟩ := maybeWrap_sameEnds P clock (Packet.serialize (.control ctrl))
    { l.session with reliable := r }
  refine h.enqueue clock.now payload hctrl ((sameEnds_reliable _ r).trans hsame) ?_
  exact (congrArg ReliableTransport.pending hrel).trans hr

theorem Backed.createReliable {l : Ledger} (h : Backed l) (P : Primitives) (clock : Clock) {opcode : OpCode}
    {keyId : ProtocolSession → KeyId} {payload : Bytes}
    (hkeyId : ∀ s r, keyId { s with reliable := r } = keyId s) (hroom : ¬ WindowFull l.session) :
    Backed ⟨(createReliable P clock opcode keyId payload l.session).2,
      record l.originals (reliablePacket opcode (keyId l.session) payload l.session)⟩ := by
  rw [createReliable_room (hkeyId _) hroom]
  exact h.emit P clock ⟨rfl, rfl, rfl⟩ rfl

theorem createEach_cons_full {P : Primitives} {clock : Clock} {s : ProtocolSession} {chunk : Bytes}
    {rest : List Bytes} (h : WindowFull s) : (createEach P clock (chunk :: rest) s).2 = s := by
  rw [createEach, createSingleControlPacket, bind_error (createReliable_full h)]

theorem createEach_cons_room {P : Primitives} {clock : Clock} {s : ProtocolSession} {chunk : Bytes}
    {rest : List Bytes} (h : ¬ WindowFull s) : (createEach P clock (chunk :: rest) s).2 =
      (createEach P clock rest (createSingleControlPacket P clock chunk s).2).2 := by
  have hfirst : createSingleControlPacket P clock chunk s = (.ok _, _) := createReliable_room (fun _ => rfl) h
  rw [createEach, bind_ok hfirst, hfirst, bind_apply]
  split <;> rename_i hrest <;> rw [hrest]
  rfl

theorem Backed.createEach (P : Primitives) (clock : Clock) (chunks : List Bytes) {l : Ledger}
    (h : Backed l) : Backed ⟨(createEach P clock chunks l.session).2,
      (createdEach P clock chunks l.session).foldl record l.originals⟩ := by
  induction chunks generalizing l with
  | nil => exact h
  | cons chunk rest ih =>
    by_cases hfull : WindowFull l.session
    · rw [createEach_cons_full hfull, createdEach, if_pos hfull]
      exact h
    · rw [createEach_cons_room hfull, createdEach, if_neg hfull]
      exact ih (h.createReliable P clock (fun _ _ => rfl) hfull)

theorem kept_emit (P : Primitives) (clock : Clock) (ctrl : ControlPacketData) : Frames Kept (emit P clock ctrl) := by
  intro s
  obtain ⟨hsame, hrel⟩ := maybeWrap_sameEnds P clock (Packet.serialize (.control ctrl)) s
  exact kept_of_pending_eq hsame.localSessionId hsame.currentKeyId (congrArg ReliableTransport.pending hrel)

theorem kept_createAckPacket (P : Primitives) (clock : Clock) : Frames Kept (createAckPacket P clock) := by
  refine frames_bind (fun _ => kept_of_pending_eq rfl rfl rfl) fun acks => ?_
  split
  · exact frames_pure _
  · refine frames_bind frames_get fun self => ?_
    refine frames_bind (frames_modify fun _ => kept_of_pending_eq rfl rfl rfl) fun _ => ?_
    exact frames_bind (kept_emit P clock _) fun _ => frames_pure _

theorem kept_getRetransmits (P : Primitives) (clock : Clock) {s : ProtocolSession}
    (hkey : s.currentKeyId.val < 8) : Kept s (getRetransmits P clock s).2 := by
  obtain ⟨packets, t, hrun, -, hends, hrel⟩ := getRetransmits_eq P clock hkey
  rw [hrun]
  refine ⟨hends.localSessionId, hends.currentKeyId, fun id packet hp => ?_⟩
  change t.reliable.pending[id]? = some packet at hp
  rw [hrel, ReliableTransport.getRetransmits, Std.ExtTreeMap.getElem?_map, Option.map_eq_some_iff] at hp
  obtain ⟨packet', hp', rfl⟩ := hp
  refine ⟨packet', hp', ?_⟩
  split <;> rfl

theorem next_lt (keyId : KeyId) : keyId.next.val < 8 := fromByte_lt (keyId.val + 1)

theorem step_backed (P : Primitives) (l : Ledger) (call : Call) (h : Backed l) :
    Backed (step P l call).2 := by
  cases call with
  | rotateKey => exact ⟨next_lt _, h.pending⟩
  | session call =>
    change Backed ⟨(Traffic.step P l.session call).2, (created P l.session call).foldl record l.originals⟩
    cases call with
    | processPacket clock data =>
      exact h.of_kept (frames_processPacket_of P clock tolerates_kept
        (fun _ _ => kept_of_pending_eq rfl rfl rfl) (fun _ _ => kept_of_pending_eq rfl rfl rfl)
        (fun _ _ => kept_of_pending_eq rfl rfl rfl) data l.session)
    | createHardResetClient clock =>
      rw [Traffic.step, handOut_snd, created]
      by_cases hfull : WindowFull l.session
      · rw [createHardResetClient_full hfull, if_pos hfull]
        exact h
      · rw [createHardResetClient_room hfull, if_neg hfull]
        exact h.emit P clock ⟨rfl, rfl, rfl⟩ rfl
    | createHardResetResponse clock =>
      rw [Traffic.step, handOut_snd, created]
      by_cases hfull : WindowFull l.session
      · rw [createHardResetResponse, createReliable_full hfull, if_pos hfull]
        exact h
      · rw [if_neg hfull]
        exact h.createReliable P clock (fun _ _ => rfl) hfull
    | createControlPacket clock tlsData =>
      rw [Traffic.step, handOut_snd, created, createdEach]
      by_cases hfull : WindowFull l.session
      · rw [createControlPacket, createSingleControlPacket, createReliable_full hfull, if_pos hfull]
        exact h
      · rw [if_neg hfull]
        exact h.createReliable P clock (fun _ _ => rfl) hfull
    | createControlPackets clock tlsData =>
      rw [Traffic.step, handOut_snd, created, createControlPackets]
      split <;> exact h.createEach P clock _
    | createAckPacket clock =>
      rw [Traffic.step, handOut_snd]
      exact h.of_kept (kept_createAckPacket P clock l.session)
    | getRetransmits clock =>
      rw [Traffic.step, handOut_snd]
      exact h.of_kept (kept_getRetransmits P clock h.keyId_lt)

end Invariant

section Repetition

variable {P : Primitives} {clock : Clock} {l : Ledger}

theorem parse_repeated {s : ProtocolSession} (hkey : s.currentKeyId.val < 8) (p : UInt32 × Bytes) :
    Packet.parse (Packet.serialize (.control (repeated s p))) false =
      .ok (.control { repeated s p with remoteSessionId := none }) := by
  refine PacketCodec.parse_eq_ok_iff.mpr ⟨⟨canonical_header rfl hkey s.localSessionId, rfl, ?_, rfl, ?_, ?_⟩, rfl⟩
  · exact Nat.zero_le _
  · intro h
    cases h
  · intro _ h
    cases h

/-- A pending packet comes back unchanged exactly if it was created as what
every retransmission is, a control packet under the current key id. -/
theorem repeatsOriginal_iff (h : Backed l) {id : UInt32} {pending : PendingPacket}
    (hp : l.session.reliable.pending[id]? = some pending) {packet : Bytes}
    (hstrip : strip l.session packet = Packet.serialize (.control (repeated l.session (id, pending.data)))) :
    RepeatsOriginal l packet ↔ ∀ original ∈ l.originals id,
      original.header.opcode = .controlV1 ∧ original.header.keyId = l.session.currentKeyId := by
  obtain ⟨original, horig, hsid, hmid, hpay⟩ := h.pending id pending hp
  rw [RepeatsOriginal, hstrip, parse_repeated h.keyId_lt, horig]
  have hbind : (some id).bind l.originals = some original := horig
  constructor
  · rintro ⟨original', hmem, hop, hkeyId, -⟩ original'' hmem'
    cases hbind.symm.trans hmem
    cases hmem'
    exact ⟨hop.symm, hkeyId.symm⟩
  · intro hall
    obtain ⟨hop, hkeyId⟩ := hall original rfl
    exact ⟨original, hbind, hop.symm, hkeyId.symm, hsid.symm, hmid.symm, hpay.symm⟩

theorem forall_mem_congr {α β : Type} {R : α → β → Prop} {A : α → Prop} {B : β → Prop} {as : List α}
    {bs : List β} (h : List.Forall₂ R as bs) (hAB : ∀ a, ∀ b ∈ bs, R a b → (A a ↔ B b)) :
    (∀ a ∈ as, A a) ↔ ∀ b ∈ bs, B b := by
  induction h with
  | nil => simp
  | cons hab _ ih =>
    rw [List.forall_mem_cons, List.forall_mem_cons, hAB _ _ List.mem_cons_self hab,
      ih fun a b hb => hAB a b (List.mem_cons_of_mem _ hb)]

theorem all_repeat_iff (h : Backed l) :
    (∀ packet ∈ (step P l (.session (.getRetransmits clock))).1, RepeatsOriginal l packet) ↔
      DueAsCreated l clock.now := by
  obtain ⟨packets, t, hrun, hall, -, -⟩ := getRetransmits_eq P clock h.keyId_lt
  have hout : (step P l (.session (.getRetransmits clock))).1 = packets := by
    change (handOut id (getRetransmits P clock l.session)).1 = packets
    rw [hrun]
    rfl
  rw [hout, forall_mem_congr hall (B := fun p => ∀ original ∈ l.originals p.1,
    original.header.opcode = .controlV1 ∧ original.header.keyId = l.session.currentKeyId)]
  · simp only [mem_getRetransmits]
    constructor
    · intro hall q hq hdue
      exact hall (q.1, q.2.data) ⟨q, hq, hdue, rfl⟩
    · rintro hdue p ⟨q, hq, hisDue, rfl⟩
      exact hdue q hq hisDue
  · intro packet p hp hstrip
    obtain ⟨q, hq, -, rfl⟩ := mem_getRetransmits.mp hp
    exact repeatsOriginal_iff h (Std.ExtTreeMap.mem_toList_iff_getElem?_eq_some.mp hq) hstrip

def start (isServer : Bool) (suite : CipherSuite) (sessionId : SessionId) (now : Instant)
    (tlsAuth : Option HmacAuth) : Ledger := ⟨fresh isServer suite sessionId now tlsAuth, fun _ => none⟩

theorem start_backed (isServer : Bool) (suite : CipherSuite) (sessionId : SessionId) (now : Instant)
    (tlsAuth : Option HmacAuth) : Backed (start isServer suite sessionId now tlsAuth) := by
  have hnew : (fresh isServer suite sessionId now tlsAuth).currentKeyId = ⟨0⟩ ∧
      (fresh isServer suite sessionId now tlsAuth).reliable.pending = ∅ := by
    cases isServer <;> cases tlsAuth <;> exact ⟨rfl, rfl⟩
  refine ⟨?_, fun id packet hp => ?_⟩
  · rw [start, hnew.1]
    decide
  · change (fresh isServer suite sessionId now tlsAuth).reliable.pending[id]? = some packet at hp
    rw [hnew.2, Std.ExtTreeMap.getElem?_empty] at hp
    cases hp

def Repeatable (l : Ledger) : Call → Prop
  | .session (.getRetransmits clock) => DueAsCreated l clock.now
  | _ => True

instance (l : Ledger) : (call : Call) → Decidable (Repeatable l call)
  | .session (.getRetransmits _) => inferInstanceAs (Decidable (DueAsCreated _ _))
  | .session (.processPacket _ _) | .session (.createHardResetClient _) | .session (.createHardResetResponse _)
  | .session (.createControlPacket _ _) | .session (.createControlPackets _ _) | .session (.createAckPacket _)
  | .rotateKey => inferInstanceAs (Decidable True)

/-- In every state that a new session reaches, the packets sent again repeat the
ones created with their message ids if and only if everything due was created as
a control packet under the current key id. So in a run in which that is so at
every retransmission, every retransmission repeats the original. -/
theorem retransmits_repeat_originals (P : Primitives) (isServer : Bool) (suite : CipherSuite)
    (sessionId : SessionId) (now : Instant) (tlsAuth : Option HmacAuth) :
    (∀ (calls : List Call) (clock : Clock),
      let l := exec (step P) (start isServer suite sessionId now tlsAuth) calls
      (∀ packet ∈ (step P l (.session (.getRetransmits clock))).1, RepeatsOriginal l packet) ↔
        DueAsCreated l clock.now) ∧
    (∀ calls : List Call, EachStep (step P) Repeatable (start isServer suite sessionId now tlsAuth) calls →
      ∀ (before : List Call) (clock : Clock) (rest : List Call),
        calls = before ++ .session (.getRetransmits clock) :: rest →
          let l := exec (step P) (start isServer suite sessionId now tlsAuth) before
          ∀ packet ∈ (step P l (.session (.getRetransmits clock))).1, RepeatsOriginal l packet) := by
  have hreach : ∀ calls, Backed (exec (step P) (start isServer suite sessionId now tlsAuth) calls) :=
    exec_of_step (step_backed P) (start_backed isServer suite sessionId now tlsAuth)
  refine ⟨fun calls clock => all_repeat_iff (hreach calls), fun calls hsteps before clock rest hsplit => ?_⟩
  exact (all_repeat_iff (hreach before)).mpr (EachStep.iff.mp hsteps before _ rest hsplit)

theorem control_packet_repeated :
    let P := Primitives.single []
    let first := start false .aes256Gcm (zeros 8) 0 none
    let before : List Call := [.rotateKey, .session (.createControlPacket ⟨0, 0⟩ [22, 3, 3])]
    let again : Call := .session (.getRetransmits ⟨3000000000, 3⟩)
    let l := exec (step P) first before
    (step P l again).1.length = 1 ∧ ∀ packet ∈ (step P l again).1, RepeatsOriginal l packet := by
  intro P first before again l
  refine ⟨by decide +kernel +zetaReduce, ?_⟩
  exact (retransmits_repeat_originals P false .aes256Gcm (zeros 8) 0 none).2 (before ++ [again])
    (by decide +kernel +zetaReduce) before ⟨3000000000, 3⟩ [] rfl

/-- A client's hard reset comes back as a control packet, and a control packet
comes back under the key id of a later rotation. -/
theorem retransmits_differ :
    let P := Primitives.single []
    let first := start false .aes256Gcm (zeros 8) 0 none
    let again : Call := .session (.getRetransmits ⟨3000000000, 3⟩)
    let reset := exec (step P) first [.session (.createHardResetClient ⟨0, 0⟩)]
    let rotated := exec (step P) first [.session (.createControlPacket ⟨0, 0⟩ [22, 3, 3]), .rotateKey]
    let heads := fun l : Ledger => (step P l again).1.map fun packet =>
      (Packet.parse (strip l.session packet) false).toOption.map fun p => (p.opcode, p.keyId)
    (heads reset = [some (.controlV1, ⟨0⟩)] ∧
      (reset.originals 0).map (fun c => (c.header.opcode, c.header.keyId)) = some (.hardResetClientV2, ⟨0⟩) ∧
      ¬ ∀ packet ∈ (step P reset again).1, RepeatsOriginal reset packet) ∧
    (heads rotated = [some (.controlV1, ⟨1⟩)] ∧
      (rotated.originals 0).map (fun c => (c.header.opcode, c.header.keyId)) = some (.controlV1, ⟨0⟩) ∧
      ¬ ∀ packet ∈ (step P rotated again).1, RepeatsOriginal rotated packet) := by
  intro P first again reset rotated heads
  have hreach : ∀ calls, Backed (exec (step P) first calls) :=
    exec_of_step (step_backed P) (start_backed false .aes256Gcm (zeros 8) 0 none)
  refine ⟨⟨by decide +kernel +zetaReduce, by decide +kernel +zetaReduce, ?_⟩,
    by decide +kernel +zetaReduce, by decide +kernel +zetaReduce, ?_⟩
  · rw [all_repeat_iff (hreach _)]
    decide +kernel +zetaReduce
  · rw [all_repeat_iff (hreach _)]
    decide +kernel +zetaReduce

end Repetition

end CoreVpn.Protocol.Retransmits
