import CoreVpn.Protocol.TlsHandlers

namespace CoreVpn.Protocol.TlsConsumption

open Lib.Computation Lib.Wire Errors TlsHandlers

variable {C : Type}

/-- A library that always reads some of what it is offered, and whose state
behind a read is determined by the bytes read so far. -/
structure Stream (E : TlsEngine C) where
  absorb : Bytes → C → C
  absorb_append : ∀ p q c, absorb (p ++ q) c = absorb q (absorb p c)
  reads : ∀ bytes c, ∃ n d, E.readTls bytes c = (.ok n, d) ∧ n ≤ bytes.length ∧ (bytes ≠ [] → 0 < n)
  processed : ∀ {bytes c n d e}, E.readTls bytes c = (.ok n, d) → E.processNewPackets d = (.ok (), e) →
    e = absorb (bytes.take n) c

def TakesAll (E : TlsEngine C) (bytes : Bytes) (c : C) : Prop := (E.readTls bytes c).1 = .ok bytes.length

inductive Input where
  | incoming (data : Bytes)
  | records (batch : List Bytes)

def Input.bytes : Input → Bytes
  | .incoming data => data
  | .records batch => batch.flatten

inductive Side where
  | server
  | client

def Input.process (E : TlsEngine C) : Side → Input → Program (TlsHandler C) ProtocolError Unit
  | .server, .incoming data => TlsHandler.processIncoming E data
  | .server, .records batch => TlsHandler.processTlsRecords E batch
  | .client, .incoming data => TlsClientHandler.processIncoming E data
  | .client, .records batch => TlsClientHandler.processTlsRecords E batch

def processAll (E : TlsEngine C) (side : Side) : List Input → Program (TlsHandler C) ProtocolError Unit
  | [] => return ()
  | input :: inputs => do
    input.process E side
    processAll E side inputs

def EachTakesAll (E : TlsEngine C) (side : Side) : List Input → TlsHandler C → Prop
  | [], _ => True
  | input :: inputs, s =>
    TakesAll E (s.incoming ++ input.bytes) s.conn ∧ EachTakesAll E side inputs (input.process E side s).2

section Calls

variable {E : TlsEngine C} {side : Side} {s t : TlsHandler C}

theorem readIncoming_eq {n : Nat} {d : C} (h : E.readTls s.incoming s.conn = (.ok n, d))
    (hle : n ≤ s.incoming.length) :
    TlsHandler.readIncoming E s = (.ok (), { s with conn := d, incoming := s.incoming.drop n }) := by
  have hconn : TlsHandler.onConn (E.readTls s.incoming) s = (.ok (.ok n), { s with conn := d }) := by
    rw [TlsHandler.onConn, h]
  simp only [TlsHandler.readIncoming, bind_apply, get_apply, hconn, if_pos hle, modify_apply]

theorem processTls_eq_ok {n : Nat} {d : C} (hread : E.readTls s.incoming s.conn = (.ok n, d))
    (hle : n ≤ s.incoming.length) (h : TlsHandler.processTls E s = (.ok (), t)) :
    E.processNewPackets d = (.ok (), t.conn) ∧ t.incoming = s.incoming.drop n := by
  rw [TlsHandler.processTls, bind_ok (readIncoming_eq hread hle)] at h
  cases hprocess : E.processNewPackets d with
  | mk result e =>
    have hconn : TlsHandler.onConn E.processNewPackets { s with conn := d, incoming := s.incoming.drop n } =
        (.ok result, { s with conn := e, incoming := s.incoming.drop n }) := by
      rw [TlsHandler.onConn, hprocess]
    rw [bind_ok hconn] at h
    cases result with
    | error reason => cases h
    | ok u =>
      obtain ⟨-, rfl⟩ := Prod.mk.inj h
      dsimp only
      split <;> exact ⟨rfl, rfl⟩

theorem process_eq (E : TlsEngine C) (side : Side) (input : Input) (s : TlsHandler C) :
    input.process E side s = TlsHandler.processTls E { s with incoming := s.incoming ++ input.bytes } := by
  cases side <;> cases input <;> rfl

theorem process_eq_ok (S : Stream E) {input : Input} (h : input.process E side s = (.ok (), t)) :
    ∃ n, (E.readTls (s.incoming ++ input.bytes) s.conn).1 = .ok n ∧ n ≤ (s.incoming ++ input.bytes).length ∧
      t.incoming = (s.incoming ++ input.bytes).drop n ∧
      t.conn = S.absorb ((s.incoming ++ input.bytes).take n) s.conn := by
  obtain ⟨n, d, hread, hle, -⟩ := S.reads (s.incoming ++ input.bytes) s.conn
  rw [process_eq] at h
  obtain ⟨hprocess, hincoming⟩ :=
    processTls_eq_ok (s := { s with incoming := s.incoming ++ input.bytes }) hread hle h
  exact ⟨n, congrArg Prod.fst hread, hle, hincoming, S.processed hread hprocess⟩

theorem consumed_iff (S : Stream E) {input : Input} (h : input.process E side s = (.ok (), t)) :
    t.incoming = [] ↔ TakesAll E (s.incoming ++ input.bytes) s.conn := by
  obtain ⟨n, hread, hle, hincoming, -⟩ := process_eq_ok S h
  rw [hincoming, List.drop_eq_nil_iff, TakesAll, hread]
  constructor
  · intro hall
    rw [Nat.le_antisymm hle hall]
  · intro hall
    exact Nat.le_of_eq (Except.ok.inj hall).symm

theorem absorbed (S : Stream E) {input : Input} (h : input.process E side s = (.ok (), t))
    (hall : TakesAll E (s.incoming ++ input.bytes) s.conn) :
    t.incoming = [] ∧ t.conn = S.absorb (s.incoming ++ input.bytes) s.conn := by
  obtain ⟨n, hread, hle, hincoming, hconn⟩ := process_eq_ok S h
  have hn : n = (s.incoming ++ input.bytes).length := Except.ok.inj (hread.symm.trans hall)
  rw [hn, List.take_length] at hconn
  exact ⟨(consumed_iff S h).mpr hall, hconn⟩

theorem absorbed_all (S : Stream E) {input : Input} {inputs : List Input}
    (h : processAll E side (input :: inputs) s = (.ok (), t)) (hall : EachTakesAll E side (input :: inputs) s) :
    t.incoming = [] ∧
      t.conn = S.absorb (s.incoming ++ ((input :: inputs).map Input.bytes).flatten) s.conn := by
  induction inputs generalizing input s with
  | nil =>
    obtain ⟨⟨⟩, u, hfirst, h⟩ := bind_eq_ok h
    cases h
    rw [List.map_singleton, List.flatten_singleton]
    exact absorbed S hfirst hall.1
  | cons next inputs ih =>
    obtain ⟨⟨⟩, u, hfirst, h⟩ := bind_eq_ok h
    obtain ⟨htakes, hrest⟩ := hall
    rw [hfirst] at hrest
    obtain ⟨hempty, hconn⟩ := absorbed S hfirst htakes
    obtain ⟨hincoming, hconn'⟩ := ih h hrest
    rw [hempty, List.nil_append, hconn, ← S.absorb_append] at hconn'
    rw [List.map_cons, List.flatten_cons, ← List.append_assoc]
    exact ⟨hincoming, hconn'⟩

end Calls

/-- With any library that reads some of what it is offered, either handler is
left with an empty buffer if and only if one read takes all that was waiting and
has come in. In a run in which that is so in each call, the state of the library
depends on all the bytes together only. -/
theorem handlers_consume_iff {E : TlsEngine C} (S : Stream E) (side : Side) :
    (∀ (input : Input) (s t : TlsHandler C), input.process E side s = (.ok (), t) →
      (t.incoming = [] ↔ TakesAll E (s.incoming ++ input.bytes) s.conn)) ∧
    ∀ (input : Input) (inputs : List Input) (s t : TlsHandler C), EachTakesAll E side (input :: inputs) s →
      processAll E side (input :: inputs) s = (.ok (), t) →
        t.incoming = [] ∧
          t.conn = S.absorb (s.incoming ++ ((input :: inputs).map Input.bytes).flatten) s.conn :=
  ⟨fun _ _ _ h => consumed_iff S h, fun _ _ _ _ hall h => absorbed_all S h hall⟩

def blocks (size : Nat) : TlsEngine Bytes :=
  { TlsEngine.plain with readTls := fun bytes c => (.ok (min size bytes.length), c ++ bytes.take size) }

def blocksStream (size : Nat) (hsize : 0 < size) : Stream (blocks size) where
  absorb p c := c ++ p
  absorb_append p q c := (List.append_assoc c p q).symm
  reads bytes c := by
    refine ⟨_, _, rfl, Nat.min_le_right _ _, fun hne => ?_⟩
    have hpos := List.length_pos_iff.mpr hne
    omega
  processed {bytes c n d e} hread hprocess := by
    cases hread
    cases hprocess
    rw [← List.take_take, List.take_length]

theorem short_inputs_consumed :
    let inputs := [Input.incoming [22, 3, 3], Input.records [[0], [1]]]
    ∃ t, processAll (blocks 4) .client inputs ⟨[], [], false⟩ = (.ok (), t) ∧ t.incoming = [] ∧
      t.conn = [22, 3, 3, 0, 1] := by
  intro inputs
  have hall : EachTakesAll (blocks 4) .client inputs ⟨[], [], false⟩ := ⟨rfl, rfl, trivial⟩
  exact ⟨_, rfl, (handlers_consume_iff (blocksStream 4 (by decide)) .client).2 _ _ _ _ hall rfl⟩

/-- With reads of 4096 bytes, 5000 bytes in one call leave 904 in the buffer. In
two calls they are all read. -/
theorem long_input_left_over :
    let whole := (TlsHandler.processIncoming (blocks 4096) (List.replicate 5000 22) ⟨[], [], false⟩)
    let halves := processAll (blocks 4096) .server
      [.incoming (List.replicate 2500 22), .incoming (List.replicate 2500 22)] ⟨[], [], false⟩
    whole.1 = .ok () ∧ whole.2.incoming.length = 904 ∧ whole.2.conn.length = 4096 ∧
      halves.1 = .ok () ∧ halves.2.incoming = [] ∧ halves.2.conn.length = 5000 := by
  decide +kernel

end CoreVpn.Protocol.TlsConsumption
