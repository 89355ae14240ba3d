import CoreVpn.Client.Handshake
import CoreVpn.Protocol.Repeats

namespace CoreVpn.Client.HandshakeRuns

open Lib.Computation Lib.Machine Lib.Simulation Lib.Text Lib.Wire Protocol.Errors Protocol.Packets Protocol.Sessions
open Protocol.Sending Protocol.TlsHandlers Protocol.Repeats KeyExchange ServerMessages Handshake

variable {C α β : Type} {tlsAuth : Bool}

section Links

/-- Two links whose sessions are paired. What they have sent may differ. -/
structure Linked (tlsAuth : Bool) (a b : Link C) : Prop where
  session : Paired tlsAuth a.session b.session
  tls : b.tls = a.tls
  intake : b.intake = a.intake

structure Resumes (a b : Link C) : Prop where
  session : Resembles a.session b.session
  tls : b.tls = a.tls
  intake : b.intake = a.intake

instance : IsPreorder (Link C) Resumes where
  refl a := ⟨refl_of Resembles a.session, rfl, rfl⟩
  trans _ _ _ h h' := ⟨trans_of Resembles h.session h'.session, h'.tls.trans h.tls, h'.intake.trans h.intake⟩

theorem Linked.resumes {a b b' : Link C} (h : Linked tlsAuth a b) (h' : Resumes b b') : Linked tlsAuth a b' where
  session := ⟨trans_of Resembles h.session.resembles h'.session, h.session.keyless, h.session.useTlsAuth⟩
  tls := h'.tls.trans h.tls
  intake := h'.intake.trans h.intake

def Unmoved (a b : Link C) : Prop := Resumes a b ∧ Resumes b a

instance : IsPreorder (Link C) Unmoved where
  refl a := ⟨refl_of Resumes a, refl_of Resumes a⟩
  trans _ _ _ h h' := ⟨trans_of Resumes h.1 h'.1, trans_of Resumes h'.2 h.2⟩

theorem Linked.moved {a a' b b' : Link C} (h : Linked tlsAuth a b) (ha : Unmoved a a') (hb : Unmoved b b') :
    Linked tlsAuth a' b' where
  session := h.session.moved ⟨ha.1.session, ha.2.session⟩ ⟨hb.1.session, hb.2.session⟩
  tls := hb.1.tls.trans (h.tls.trans ha.2.tls)
  intake := hb.1.intake.trans (h.intake.trans ha.2.intake)

theorem simulates_onSession {Q : α → β → Prop} (context : String) {p : Program ProtocolSession ProtocolError α}
    {q : Program ProtocolSession ProtocolError β} (h : Simulates (Paired tlsAuth) Q p q) :
    Simulates (Linked (C := C) tlsAuth) Q (onSession context p) (onSession context q) :=
  simulates_zoom (fun _ _ h => h.session) (fun _ _ _ _ h hs => { h with session := hs }) h

theorem simulates_onTls (context : String) (p : Program (TlsHandler C) ProtocolError α) :
    Simulates (Linked tlsAuth) Eq (onTls context p) (onTls context p) := by
  refine simulates_zoom (I := Eq) (fun _ _ h => h.tls.symm) ?_ (simulates_refl p)
  rintro a b tls _ h rfl
  exact { h with tls := rfl }

theorem simulates_onIntake (p : Program Intake MessageError α) :
    Simulates (Linked (C := C) tlsAuth) Eq (onIntake p) (onIntake p) := by
  refine simulates_zoom (I := Eq) (fun _ _ h => h.intake.symm) ?_ (simulates_refl p)
  rintro a b intake _ h rfl
  exact { h with intake := rfl }

theorem simulates_sendAll (packets packets' : List Bytes) :
    Simulates (Linked (C := C) tlsAuth) Eq (sendAll packets) (sendAll packets') :=
  simulates_modify fun _ _ h => { h with }

theorem moves_onSession (context : String) {p : Program ProtocolSession ProtocolError α} (h : Moves Alike p) :
    Moves (Unmoved (C := C)) (onSession context p) :=
  moves_zoom (fun _ _ h => ⟨⟨h.1, rfl, rfl⟩, ⟨h.2, rfl, rfl⟩⟩) h

theorem moves_sendAll (packets : List Bytes) : Moves (Unmoved (C := C)) (sendAll packets) :=
  moves_modify fun a => ⟨{ refl_of Resumes a with }, { refl_of Resumes a with }⟩

end Links

section Turns

variable (S : Setup C) (clock clock' : Clock)

theorem moves_sendAck : Moves Unmoved (sendAck S clock) := by
  refine moves_bind moves_get fun s => ?_
  split
  · exact moves_bind (moves_onSession "" (moves_createAckPacket S.primitives clock)) fun _ => moves_sendAll _
  · exact moves_pure ()

theorem moves_sendRetransmits : Moves Unmoved (sendRetransmits S clock) :=
  moves_bind (moves_onSession "" (moves_getRetransmits S.primitives clock)) fun _ => moves_sendAll _

theorem simulates_unmoved {p : Work C α} {q : Work C β} (hp : Moves Unmoved p) (hq : Moves Unmoved q) :
    Simulates (Linked tlsAuth) (fun _ _ => True) p q :=
  simulates_of_moves hp hq fun _ _ _ _ h ha hb => h.moved ha hb

theorem simulates_sendControl (tlsData : Bytes) :
    Simulates (Linked tlsAuth) Eq (sendControl S clock tlsData) (sendControl S clock' tlsData) := by
  refine simulates_bind (simulates_onSession _ (simulates_createControlPackets S.primitives clock clock' tlsData)) ?_
  exact fun _ _ _ => simulates_sendAll _ _

theorem simulates_flushEach (fuel : Nat) :
    Simulates (Linked tlsAuth) Eq (flushEach S clock fuel) (flushEach S clock' fuel) := by
  induction fuel with
  | zero => exact simulates_pure rfl
  | succ fuel ih =>
    refine simulates_bind simulates_get fun a b h => ?_
    rw [h.tls]
    split
    · refine simulates_bind (simulates_onTls _ _) ?_
      rintro out _ rfl
      cases out with
      | none => exact simulates_pure rfl
      | some tlsOut => exact simulates_bind (simulates_sendControl S clock clock' tlsOut) fun _ _ _ => ih
    · exact simulates_pure rfl

theorem simulates_collectOutgoing (fuel : Nat) :
    Simulates (Linked tlsAuth) Eq (collectOutgoing S fuel) (collectOutgoing S fuel) := by
  induction fuel with
  | zero => exact simulates_pure rfl
  | succ fuel ih =>
    refine simulates_bind simulates_get fun a b h => ?_
    rw [h.tls]
    split
    · refine simulates_bind (simulates_onTls _ _) ?_
      rintro out _ rfl
      cases out with
      | none => exact simulates_pure rfl
      | some tlsOut =>
        refine simulates_bind ih ?_
        rintro rest _ rfl
        exact simulates_pure rfl
    · exact simulates_pure rfl

theorem simulates_flushTlsToSocket :
    Simulates (Linked tlsAuth) Eq (flushTlsToSocket S clock) (flushTlsToSocket S clock') := by
  refine simulates_bind simulates_get fun a b h => ?_
  rw [h.tls]
  refine simulates_bind (simulates_collectOutgoing S _) ?_
  rintro tlsData _ rfl
  split
  · exact simulates_pure rfl
  · exact simulates_sendControl S clock clock' tlsData

theorem simulates_beginKeyExchange :
    Simulates (Linked tlsAuth) Eq (beginKeyExchange S clock) (beginKeyExchange S clock') := by
  refine simulates_bind (simulates_modify fun a b h => ?_) fun _ _ _ => ?_
  · exact { h with session := ⟨{ h.session.resembles with }, h.session.keyless, h.session.useTlsAuth⟩ }
  · exact simulates_bind (simulates_onTls _ _) fun _ _ _ => simulates_flushTlsToSocket S clock clock'

theorem simulates_handshakeAnswer (result : ProcessedPacket) :
    Simulates (Linked tlsAuth) Eq (handshakeAnswer S clock result) (handshakeAnswer S clock' result) := by
  cases result with
  | tlsData records =>
    refine simulates_bind (simulates_onTls _ _) fun _ _ _ => ?_
    refine simulates_bind (simulates_unmoved (moves_sendAck S clock) (moves_sendAck S clock')) fun _ _ _ => ?_
    refine simulates_bind simulates_get fun a b h => ?_
    rw [h.tls]
    split
    · exact simulates_bind (simulates_beginKeyExchange S clock clock') fun _ _ _ => simulates_pure rfl
    · exact simulates_bind (simulates_flushEach S clock clock' _) fun _ _ _ => simulates_pure rfl
  | _ => exact simulates_pure rfl

theorem simulates_exchangeAnswer (result : ProcessedPacket) :
    Simulates (Linked tlsAuth) (fun _ _ => True) (exchangeAnswer S clock result) (exchangeAnswer S clock' result) := by
  cases result with
  | tlsData records =>
    refine simulates_bind (simulates_onTls _ _) fun _ _ _ => ?_
    refine simulates_bind (simulates_unmoved (moves_sendAck S clock) (moves_sendAck S clock')) fun _ _ _ => ?_
    exact (simulates_flushTlsToSocket S clock clock').mono fun _ _ _ => trivial
  | none => exact simulates_unmoved (moves_sendAck S clock) (moves_sendAck S clock')
  | _ => exact simulates_pure trivial

theorem simulates_handshakeTurn (data : Bytes) :
    Simulates (Linked tlsAuth) Eq (handshakeTurn S clock data) (handshakeTurn S clock' data) := by
  refine simulates_bind (simulates_onSession _ (simulates_processPacket S.primitives clock clock' data)) ?_
  rintro result _ rfl
  refine simulates_bind (simulates_handshakeAnswer S clock clock' result) ?_
  rintro complete _ rfl
  refine simulates_bind (simulates_unmoved (moves_sendRetransmits S clock) (moves_sendRetransmits S clock')) ?_
  exact fun _ _ _ => simulates_pure rfl

theorem simulates_exchangeTurn (data : Bytes) :
    Simulates (Linked tlsAuth) (fun _ _ => True) (exchangeTurn S clock data) (exchangeTurn S clock' data) := by
  refine simulates_bind (simulates_onSession _ (simulates_processPacket S.primitives clock clock' data)) ?_
  rintro result _ rfl
  refine simulates_bind (simulates_exchangeAnswer S clock clock' result) fun _ _ _ => ?_
  exact simulates_unmoved (moves_sendRetransmits S clock) (moves_sendRetransmits S clock')

theorem simulates_readMessages : Simulates (Linked tlsAuth) Eq (readMessages S) (readMessages S) := by
  refine simulates_bind (simulates_onTls _ _) ?_
  rintro plaintext _ rfl
  split
  · exact simulates_pure rfl
  · refine simulates_bind (simulates_onIntake _) fun _ _ _ => ?_
    refine simulates_bind simulates_get fun a b h => ?_
    rw [h.intake]
    exact simulates_pure rfl

theorem simulates_sendHello :
    Simulates (Linked tlsAuth) Eq (sendHello S clock) (sendHello S clock') := by
  refine simulates_bind (simulates_onTls _ _) ?_
  rintro hello _ rfl
  cases hello with
  | none => exact simulates_fail _ _
  | some clientHello => exact simulates_sendControl S clock clock' clientHello

end Turns

section Repeats

variable {S : Setup C} {clock : Clock} {data : Bytes} {ctrl : ControlPacketData} {a b : Link C}

theorem onSession_again (S : Setup C) (clock : Clock) (context : String) (hplain : a.session.useTlsAuth = false)
    (hparse : Packet.parse data false = .ok (.control ctrl)) (haccepted : Accepted ctrl)
    (hid : ∀ id ∈ messageId data, Taken a.session.reliable id) :
    ∃ result b, onSession context (ProtocolSession.processPacket S.primitives clock data) a = (.ok result, b) ∧
      Resumes a b ∧ ∀ records, result ≠ .tlsData records := by
  obtain ⟨result, t, hrun, hst, hrecords, -⟩ :=
    processPacket_again S.primitives clock hplain hparse haccepted hid
  refine ⟨result, { a with session := t }, ?_, ⟨hst, rfl, rfl⟩, hrecords⟩
  simp only [onSession, zoom, hrun, Outcome.mapFault]

/-- A datagram that comes again costs the handshake a turn, and no more. -/
theorem handshakeTurn_again (S : Setup C) (clock : Clock) (hplain : a.session.useTlsAuth = false)
    (hparse : Packet.parse data false = .ok (.control ctrl)) (haccepted : Accepted ctrl)
    (hid : ∀ id ∈ messageId data, Taken a.session.reliable id) :
    ∃ b, handshakeTurn S clock data a = (.ok false, b) ∧ Resumes a b := by
  obtain ⟨result, b, hrun, hab, hrecords⟩ := onSession_again S clock "Failed to process packet during handshake" hplain hparse haccepted hid
  have hanswer : handshakeAnswer S clock result = pure false := by
    cases result with
    | tlsData records => exact absurd rfl (hrecords records)
    | _ => rfl
  obtain ⟨_, c, hsent, hbc⟩ := moves_sendRetransmits S clock b
  refine ⟨c, ?_, trans_of Resumes hab hbc.1⟩
  rw [handshakeTurn, bind_ok hrun, hanswer, bind_apply, pure_apply]
  exact bind_ok hsent

theorem exchangeTurn_again (S : Setup C) (clock : Clock) (hplain : a.session.useTlsAuth = false)
    (hparse : Packet.parse data false = .ok (.control ctrl)) (haccepted : Accepted ctrl)
    (hid : ∀ id ∈ messageId data, Taken a.session.reliable id) :
    ∃ b, exchangeTurn S clock data a = (.ok (), b) ∧ Resumes a b := by
  obtain ⟨result, b, hrun, hab, hrecords⟩ := onSession_again S clock "Failed to process packet during key exchange" hplain hparse haccepted hid
  have hanswer : Moves Unmoved (exchangeAnswer S clock result) := by
    cases result with
    | tlsData records => exact absurd rfl (hrecords records)
    | none => exact moves_sendAck S clock
    | _ => exact moves_pure ()
  obtain ⟨_, c, hanswered, hbc⟩ := hanswer b
  obtain ⟨_, d, hsent, hcd⟩ := moves_sendRetransmits S clock c
  refine ⟨d, ?_, trans_of Resumes hab (trans_of Resumes hbc.1 hcd.1)⟩
  rw [exchangeTurn, bind_ok hrun, bind_ok hanswered, hsent]

def Dry (S : Setup C) (tls : TlsHandler C) : Prop := TlsHandler.readPlaintext S.engine 8192 tls = (.ok [], tls)

/-- A read that gives nothing leaves the connection as it is. -/
def DryReads (E : TlsEngine C) : Prop :=
  ∀ limit c, ((E.read limit c).1 = .ok [] ∨ (E.read limit c).1 = .error .wouldBlock) → (E.read limit c).2 = c

theorem dry_of_readPlaintext (hdry : DryReads S.engine) {tls tls' : TlsHandler C}
    (h : TlsHandler.readPlaintext S.engine 8192 tls = (.ok [], tls')) : tls' = tls := by
  obtain ⟨result, u, hread, hresult⟩ := bind_eq_ok h
  cases hread
  have hsame := hdry 8192 tls.conn
  cases hr : S.engine.read 8192 tls.conn with
  | mk read conn =>
    rw [hr] at hresult hsame
    cases read with
    | ok bytes =>
      cases hresult
      rw [hsame (.inl rfl)]
    | error e =>
      cases e with
      | wouldBlock =>
        cases hresult
        rw [hsame (.inr rfl)]
      | other reason => cases hresult

theorem readMessages_of_dry (h : Dry S a.tls) : readMessages S a = (.ok .dry, a) := by
  have hread : onTls "TLS read failed" (TlsHandler.readPlaintext S.engine 8192) a = (.ok [], a) := by
    unfold Dry at h
    simp only [onTls, zoom, h, Outcome.mapFault]
  rw [readMessages, bind_ok hread]
  rfl

theorem dry_of_readMessages (hdry : DryReads S.engine) (h : readMessages S a = (.ok .dry, b)) :
    b = a ∧ Dry S a.tls := by
  obtain ⟨plaintext, c, hread, hrest⟩ := bind_eq_ok h
  obtain ⟨tls, hplain, rfl⟩ := zoom_eq_ok hread
  by_cases hempty : plaintext.isEmpty = true
  · rw [if_pos hempty] at hrest
    cases hrest
    rw [List.isEmpty_iff.mp hempty] at hplain
    obtain rfl := dry_of_readPlaintext hdry hplain
    exact ⟨rfl, hplain⟩
  · rw [if_neg hempty] at hrest
    obtain ⟨_, _, -, hrest⟩ := bind_eq_ok hrest
    obtain ⟨s, _, -, hrest⟩ := bind_eq_ok hrest
    by_cases hreply : s.intake.pushReply.isSome = true
    · rw [if_pos hreply] at hrest
      cases hrest
    · rw [if_neg hreply] at hrest
      cases hrest

end Repeats

section Phases

variable {S : Setup C} {clock clock' : Clock} {seen : List Bytes} {data : Bytes}

theorem openSession_paired {toUppercase : String → String} {config : OvpnConfig} {sessionId : SessionId}
    {now : Protocol.Reliable.Instant} {s : ProtocolSession}
    (h : openSession toUppercase config sessionId now = .ok s) (now' : Protocol.Reliable.Instant) :
    ∃ t, openSession toUppercase config sessionId now' = .ok t ∧ Paired config.tlsAuthKey.isSome s t := by
  obtain ⟨suite, hsuite, hrest⟩ := Outcome.bind_eq_ok_iff.mp h
  unfold openSession
  rw [hsuite, Outcome.ok_bind]
  have hmirrors := refl_of Mirrors (Protocol.Reliable.ReliableTransport.new {})
  cases hkey : config.tlsAuthKey with
  | none =>
    rw [hkey] at hrest
    cases hrest
    exact ⟨_, rfl, ⟨rfl, rfl, rfl, rfl, rfl, rfl, hmirrors⟩, fun _ => rfl, rfl⟩
  | some taKeyBytes =>
    rw [hkey] at hrest
    obtain ⟨taKey, htaKey, hrest⟩ := Outcome.bind_eq_ok_iff.mp hrest
    obtain ⟨auth, hauth, hrest⟩ := Outcome.bind_eq_ok_iff.mp hrest
    cases hrest
    refine ⟨(ProtocolSession.newClient suite sessionId now').setTlsAuth auth, ?_,
      ⟨rfl, rfl, rfl, rfl, rfl, rfl, hmirrors⟩, fun _ => rfl, rfl⟩
    dsimp only
    rw [htaKey, Outcome.ok_bind, hauth]
    rfl

theorem openLink_paired {hardReset : Bytes} {s : ProtocolSession} (h : openLink S clock = .ok (hardReset, s))
    (clock' : Clock) : ∃ hardReset' t, openLink S clock' = .ok (hardReset', t) ∧
      Paired S.config.tlsAuthKey.isSome s t := by
  obtain ⟨s₀, hopen, hreset⟩ := Outcome.bind_eq_ok_iff.mp h
  obtain ⟨t₀, hopen', hpaired⟩ := openSession_paired (Outcome.mapFault_eq_ok_iff.mp hopen) clock'.now
  obtain ⟨packet, t, hreset', -, hst⟩ := (simulates_createHardResetClient S.primitives clock clock').evaluate
    hpaired (Outcome.mapFault_eq_ok_iff.mp hreset)
  refine ⟨packet, t, ?_, hst⟩
  rw [openLink, hopen']
  change Outcome.mapFault _ (evaluate _ t₀) = _
  rw [hreset']
  rfl

theorem startTls_linked {s t : ProtocolSession} {a : Link C} (h : Paired tlsAuth s t)
    (hstart : startTls S clock s = .ok a) (clock' : Clock) :
    ∃ b, startTls S clock' t = .ok b ∧ Linked tlsAuth a b := by
  obtain ⟨⟨ack, s₁⟩, hack, hstart⟩ := Outcome.bind_eq_ok_iff.mp hstart
  obtain ⟨tls, htls, hstart⟩ := Outcome.bind_eq_ok_iff.mp hstart
  obtain ⟨⟨_, a'⟩, hhello, hstart⟩ := Outcome.bind_eq_ok_iff.mp hstart
  cases hstart
  have hacks : Simulates (Paired tlsAuth) _ (createAckPacket S.primitives clock) (createAckPacket S.primitives clock') :=
    simulates_alike (moves_createAckPacket S.primitives clock) (moves_createAckPacket S.primitives clock')
  obtain ⟨ack', t₁, hack', -, hst⟩ := hacks.evaluate h (Outcome.mapFault_eq_ok_iff.mp hack)
  have hlink : Linked tlsAuth (⟨s₁, tls, {}, ack.toList⟩ : Link C) ⟨t₁, tls, {}, ack'.toList⟩ := ⟨hst, rfl, rfl⟩
  obtain ⟨_, b, hhello', -, hab⟩ := (simulates_sendHello S clock clock').evaluate hlink hhello
  refine ⟨b, ?_, hab⟩
  rw [startTls, hack']
  change (Outcome.mapFault _ (TlsHandler.new S.engine) >>= _) = _
  rw [htls, Outcome.ok_bind, hhello']
  rfl

def OutOfTurns (ending : Option Ending) : Prop :=
  ending = some (.error (.error .tooManyIterations)) ∨ ending = some (.error (.error .keyExchangeTimeout))

/-- Without tls-auth, what was received are control packets that were accepted.
Until the server has answered, none of them is its answer. -/
def Heard (S : Setup C) (answered : Bool) (seen : List Bytes) : Prop :=
  S.config.tlsAuthKey.isSome = false → ∀ data ∈ seen, ∃ ctrl, Packet.parse data false = .ok (.control ctrl) ∧
    Accepted ctrl ∧ (ctrl.header.opcode = .hardResetServerV2 → answered = true)

theorem Heard.cons {answered answered' : Bool} {s t : ProtocolSession} {result : ProcessedPacket}
    (h : Heard S answered seen) (hkeyless : ∀ i, s.dataChannels i = none)
    (htlsAuth : s.useTlsAuth = S.config.tlsAuthKey.isSome)
    (hrun : ProtocolSession.processPacket S.primitives clock data s = (.ok result, t))
    (hanswered : answered = true → answered' = true) (hresult : result = .hardResetAck → answered' = true) :
    Heard S answered' (data :: seen) := by
  intro hplain other hother
  rcases List.mem_cons.mp hother with rfl | hmem
  · obtain ⟨ctrl, hparse, haccepted, hack⟩ := accepted_of_ok hkeyless (htlsAuth.trans hplain) hrun
    exact ⟨ctrl, hparse, haccepted, fun hop => hresult (hack.mpr hop)⟩
  · obtain ⟨ctrl, hparse, haccepted, hop⟩ := h hplain other hmem
    exact ⟨ctrl, hparse, haccepted, fun hreset => hanswered (hop hreset)⟩

/-- The second client is where the first one is, or has run out of turns. If the
first one has failed, nothing is said of the second. -/
inductive Follows (S : Setup C) (seen : List Bytes) : Phase C → Phase C → Prop
  | resetting {s t : ProtocolSession} (h : Paired S.config.tlsAuthKey.isSome s t) (hseen : Heard S false seen) :
    Follows S seen (.resetting s) (.resetting t)
  | handshaking {n m : Nat} {a b : Link C} (h : Linked S.config.tlsAuthKey.isSome a b) (hturns : m ≤ n)
    (hseen : Heard S true seen) : Follows S seen (.handshaking n a) (.handshaking m b)
  | exchanging {n m : Nat} {a b : Link C} (h : Linked S.config.tlsAuthKey.isSome a b) (hturns : m ≤ n)
    (hseen : Heard S true seen) (hdry : Dry S b.tls) : Follows S seen (.exchanging n a) (.exchanging m b)
  | succeeded (messages : Protocol.ControlMessages.KeyMethodV2 × Protocol.ControlMessages.PushReply) :
    Follows S seen (.finished (.ok messages)) (.finished (.ok messages))
  | failed (e : Fault HandshakeError) (phase : Phase C) : Follows S seen (.finished (.error e)) phase
  | spent (phase : Phase C) {phase' : Phase C} (h : OutOfTurns phase'.ending) : Follows S seen phase phase'

theorem follows_exchange (hreads : DryReads S.engine) (hseen : Heard S true seen) {n m : Nat} {a b : Link C}
    (h : Linked S.config.tlsAuthKey.isSome a b) (hturns : m ≤ n) :
    Follows S seen (exchange S n a) (exchange S m b) := by
  induction m generalizing n a b with
  | zero => exact .spent _ (.inr rfl)
  | succ m ih =>
    obtain ⟨n, rfl⟩ : ∃ n', n = n' + 1 := ⟨n - 1, by omega⟩
    cases hread : readMessages S a with
    | mk result a' =>
      cases result with
      | error e =>
        rw [exchange, hread]
        exact .failed e _
      | ok reading =>
        obtain ⟨_, b', hread', rfl, hlinked⟩ := simulates_readMessages S h hread
        rw [exchange, exchange, hread, hread']
        cases reading with
        | dry =>
          obtain ⟨rfl, hdry⟩ := dry_of_readMessages hreads hread'
          exact .exchanging hlinked (Nat.le_of_succ_le_succ hturns) hseen hdry
        | more => exact ih hlinked (Nat.le_of_succ_le_succ hturns)
        | replied =>
          dsimp only
          rw [hlinked.intake]
          cases Handshake.ending a'.intake with
          | ok messages => exact .succeeded messages
          | error e => exact .failed e _

theorem follows_handshake (hseen : Heard S true seen) {n m : Nat} {a b : Link C}
    (h : Linked S.config.tlsAuthKey.isSome a b) (hturns : m ≤ n) :
    Follows S seen (handshake n a) (handshake m b) := by
  cases m with
  | zero => exact .spent _ (.inl rfl)
  | succ m =>
    cases n with
    | zero => exact absurd hturns (Nat.not_succ_le_zero m)
    | succ n => exact .handshaking h (Nat.le_of_succ_le_succ hturns) hseen

theorem follows_beginHandshake (hseen : Heard S true seen) {s t : ProtocolSession}
    (h : Paired S.config.tlsAuthKey.isSome s t) :
    Follows S seen (beginHandshake S clock s) (beginHandshake S clock' t) := by
  cases hstart : startTls S clock s with
  | error e =>
    rw [beginHandshake, hstart]
    exact .failed e _
  | ok a =>
    obtain ⟨b, hstart', hlinked⟩ := startTls_linked h hstart clock'
    rw [beginHandshake, beginHandshake, hstart, hstart']
    exact follows_handshake hseen hlinked (Nat.le_refl _)

theorem Follows.feed (hreads : DryReads S.engine) {phase phase' : Phase C} (h : Follows S seen phase phase')
    (clock clock' : Clock) (data : Bytes) :
    Follows S (data :: seen) (Handshake.feed S clock data phase) (Handshake.feed S clock' data phase') := by
  cases h with
  | @resetting s t hpaired hseen =>
    cases hrun : ProtocolSession.processPacket S.primitives clock data s with
    | mk outcome s' =>
      cases outcome with
      | error e =>
        rw [Handshake.feed, hrun]
        exact .failed _ _
      | ok result =>
        obtain ⟨_, t', hrun', rfl, hpaired'⟩ :=
          simulates_processPacket S.primitives clock clock' data hpaired hrun
        rw [Handshake.feed, Handshake.feed, hrun, hrun']
        dsimp only
        split
        · apply follows_beginHandshake _ hpaired'
          exact hseen.cons hpaired.keyless hpaired.useTlsAuth hrun (fun _ => rfl) (fun _ => rfl)
        · rename_i hother
          apply Follows.resetting hpaired'
          exact hseen.cons hpaired.keyless hpaired.useTlsAuth hrun id (fun hack => absurd hack hother)
  | @handshaking n m a b hlinked hturns hseen =>
    cases hrun : handshakeTurn S clock data a with
    | mk outcome a' =>
      cases outcome with
      | error e =>
        rw [Handshake.feed, hrun]
        exact .failed _ _
      | ok complete =>
        obtain ⟨result, _, hpacket, -⟩ := bind_eq_ok hrun
        obtain ⟨s', hprocess, -⟩ := zoom_eq_ok hpacket
        have hseen' : Heard S true (data :: seen) :=
          hseen.cons hlinked.session.keyless hlinked.session.useTlsAuth hprocess id (fun _ => rfl)
        obtain ⟨_, b', hrun', rfl, hlinked'⟩ := simulates_handshakeTurn S clock clock' data hlinked hrun
        rw [Handshake.feed, Handshake.feed, hrun, hrun']
        cases complete with
        | true => exact follows_exchange hreads hseen' hlinked' (Nat.le_refl _)
        | false => exact follows_handshake hseen' hlinked' hturns
  | @exchanging n m a b hlinked hturns hseen hdry =>
    cases hrun : exchangeTurn S clock data a with
    | mk outcome a' =>
      cases outcome with
      | error e =>
        rw [Handshake.feed, hrun]
        exact .failed _ _
      | ok _ =>
        obtain ⟨result, _, hpacket, -⟩ := bind_eq_ok hrun
        obtain ⟨s', hprocess, -⟩ := zoom_eq_ok hpacket
        have hseen' : Heard S true (data :: seen) :=
          hseen.cons hlinked.session.keyless hlinked.session.useTlsAuth hprocess id (fun _ => rfl)
        obtain ⟨_, b', hrun', -, hlinked'⟩ := simulates_exchangeTurn S clock clock' data hlinked hrun
        rw [Handshake.feed, Handshake.feed, hrun, hrun']
        exact follows_exchange hreads hseen' hlinked' hturns
  | succeeded messages => exact .succeeded messages
  | failed e phase => exact .failed e _
  | spent phase hspent =>
    cases phase' with
    | finished ending => exact .spent _ hspent
    | _ => rcases hspent with hnone | hnone <;> cases hnone

def session : Phase C → Option ProtocolSession
  | .resetting session => some session
  | .handshaking _ link => some link.session
  | .exchanging _ link => some link.session
  | .finished _ => none

/-- A datagram that makes no difference to a client in this phase: there is no
tls-auth, and the datagram was received before and is taken as such. -/
def MakesNoDifference (S : Setup C) (seen : List Bytes) (phase : Phase C) (data : Bytes) : Prop :=
  ∀ s ∈ session phase, S.config.tlsAuthKey = none ∧ data ∈ seen ∧ ∀ id ∈ messageId data, Taken s.reliable id

theorem MakesNoDifference.accepted {phase : Phase C} {answered : Bool} {s t : ProtocolSession}
    (h : MakesNoDifference S seen phase data) (ht : t ∈ session phase) (hseen : Heard S answered seen)
    (hpaired : Paired S.config.tlsAuthKey.isSome s t) :
    t.useTlsAuth = false ∧ (∀ id ∈ messageId data, Taken t.reliable id) ∧
      ∃ ctrl, Packet.parse data false = .ok (.control ctrl) ∧ Accepted ctrl ∧
        (ctrl.header.opcode = .hardResetServerV2 → answered = true) := by
  obtain ⟨hnone, hmem, hid⟩ := h t ht
  have hplain : S.config.tlsAuthKey.isSome = false := by rw [hnone]; rfl
  exact ⟨hpaired.resembles.useTlsAuth.trans (hpaired.useTlsAuth.trans hplain), hid, hseen hplain data hmem⟩

theorem Follows.again {phase phase' : Phase C} (h : Follows S seen phase phase') (clock : Clock)
    (hdata : MakesNoDifference S seen phase' data) : Follows S seen phase (Handshake.feed S clock data phase') := by
  cases h with
  | @resetting s t hpaired hseen =>
    obtain ⟨ht, hid, ctrl, hparse, haccepted, hop⟩ := hdata.accepted rfl hseen hpaired
    obtain ⟨result, t', hrun, hst, -, hack⟩ :=
      processPacket_again S.primitives clock ht hparse haccepted hid
    have hother : result ≠ .hardResetAck := fun h => Bool.false_ne_true (hop (hack.mp h))
    rw [Handshake.feed, hrun]
    dsimp only
    rw [if_neg hother]
    exact .resetting ⟨trans_of Resembles hpaired.resembles hst, hpaired.keyless, hpaired.useTlsAuth⟩ hseen
  | @handshaking n m a b hlinked hturns hseen =>
    obtain ⟨hb, hid, ctrl, hparse, haccepted, -⟩ := hdata.accepted rfl hseen hlinked.session
    obtain ⟨b', hrun, hresumes⟩ := handshakeTurn_again S clock hb hparse haccepted hid
    rw [Handshake.feed, hrun]
    cases m with
    | zero => exact .spent _ (.inl rfl)
    | succ m => exact .handshaking (hlinked.resumes hresumes) (Nat.le_of_succ_le hturns) hseen
  | @exchanging n m a b hlinked hturns hseen hdry =>
    obtain ⟨hb, hid, ctrl, hparse, haccepted, -⟩ := hdata.accepted rfl hseen hlinked.session
    obtain ⟨b', hrun, hresumes⟩ := exchangeTurn_again S clock hb hparse haccepted hid
    have hdry' : Dry S b'.tls := hresumes.tls ▸ hdry
    rw [Handshake.feed, hrun]
    cases m with
    | zero => exact .spent _ (.inr rfl)
    | succ m =>
      dsimp only
      rw [exchange, readMessages_of_dry hdry']
      exact .exchanging (hlinked.resumes hresumes) (Nat.le_of_succ_le hturns) hseen hdry'
  | succeeded messages => exact .succeeded messages
  | failed e phase => exact .failed e _
  | spent phase hspent =>
    cases phase' with
    | finished ending => exact .spent _ hspent
    | _ => rcases hspent with hnone | hnone <;> cases hnone

theorem follows_start : Follows S [] (start S clock) (start S clock') := by
  cases hopen : openLink S clock with
  | error e =>
    rw [start, hopen]
    exact .failed e _
  | ok opened =>
    obtain ⟨_, t, hopen', hpaired⟩ := openLink_paired hopen clock'
    rw [start, start, hopen, hopen']
    exact .resetting hpaired nofun

end Phases

section Main

structure Arrival where
  clock : Clock
  data : Bytes
  added : Bool

def Arrival.datagram (arrival : Arrival) : Clock × Bytes := (arrival.clock, arrival.data)

structure Watched (C : Type) where
  phase : Phase C
  seen : List Bytes

def watch (S : Setup C) (w : Watched C) (arrival : Arrival) : Unit × Watched C :=
  ((), ⟨feed S arrival.clock arrival.data w.phase, if arrival.added then w.seen else arrival.data :: w.seen⟩)

theorem watch_phase (S : Setup C) (w : Watched C) (arrivals : List Arrival) :
    (exec (watch S) w arrivals).phase =
      exec (feedStep S) w.phase (arrivals.map Arrival.datagram) := by
  induction arrivals generalizing w with
  | nil => rfl
  | cons arrival arrivals ih => exact ih _

def Harmless (S : Setup C) (w : Watched C) (arrival : Arrival) : Prop :=
  arrival.added = true → MakesNoDifference S w.seen w.phase arrival.data

theorem follows_exec {S : Setup C} (hreads : DryReads S.engine) {datagrams : List (Clock × Bytes)}
    {arrivals : List Arrival} {phase : Phase C} {w : Watched C} (h : Follows S w.seen phase w.phase)
    (hkept : (arrivals.filter fun arrival => !arrival.added).map Arrival.data = datagrams.map Prod.snd)
    (hharmless : EachStep (watch S) (Harmless S) w arrivals) :
    ∃ seen, Follows S seen (exec (feedStep S) phase datagrams) (exec (watch S) w arrivals).phase := by
  induction arrivals generalizing datagrams phase w with
  | nil =>
    obtain rfl : datagrams = [] := List.map_eq_nil_iff.mp hkept.symm
    exact ⟨w.seen, h⟩
  | cons arrival arrivals ih =>
    obtain ⟨hhead, htail⟩ := hharmless
    cases hadded : arrival.added with
    | true =>
      rw [List.filter_cons_of_neg (by simp [hadded])] at hkept
      refine ih ?_ hkept htail
      simp only [watch, hadded, if_true]
      exact h.again arrival.clock (hhead hadded)
    | false =>
      rw [List.filter_cons_of_pos (by simp [hadded]), List.map_cons] at hkept
      cases datagrams with
      | nil => cases hkept
      | cons datagram datagrams =>
        obtain ⟨hdata, hkept⟩ := List.cons.inj hkept
        rw [exec_cons]
        refine ih ?_ hkept htail
        simp only [watch, feedStep, hadded, Bool.false_eq_true, if_false, hdata]
        exact h.feed hreads _ _ _

/-- A connection that succeeds also succeeds, with the same messages, if it gets
datagrams again that make no difference, unless that takes it too many turns. -/
theorem handshake_survives_repeats {S : Setup C} (hreads : DryReads S.engine) {clock clock' : Clock}
    {datagrams : List (Clock × Bytes)} {arrivals : List Arrival}
    {messages : Protocol.ControlMessages.KeyMethodV2 × Protocol.ControlMessages.PushReply}
    (hrun : connect S clock datagrams = some (.ok messages))
    (hkept : (arrivals.filter fun arrival => !arrival.added).map Arrival.data = datagrams.map Prod.snd)
    (hharmless : EachStep (watch S) (Harmless S) ⟨start S clock', []⟩ arrivals)
    (hturns : ¬ OutOfTurns (connect S clock' (arrivals.map Arrival.datagram))) :
    connect S clock' (arrivals.map Arrival.datagram) = some (.ok messages) := by
  have hstart : Follows S [] (start S clock) (start S clock') := follows_start
  obtain ⟨seen, hfollows⟩ := follows_exec hreads (w := ⟨start S clock', []⟩) hstart hkept hharmless
  rw [watch_phase] at hfollows
  unfold connect at hrun hturns ⊢
  generalize exec (feedStep S) (start S clock) datagrams = phase at hrun hfollows
  generalize exec (feedStep S) (start S clock') _ = phase' at hturns hfollows ⊢
  cases hfollows with
  | succeeded messages' => exact hrun
  | spent _ hspent => exact absurd hspent hturns
  | _ => cases hrun

/-- A TLS library without cryptography: its first message is one byte, and the
body of a record is its plaintext. It keeps what it has to send and what it has
to hand out. -/
def plainEngine : TlsEngine (Bytes × Bytes) where
  new := .ok ([1], [])
  readTls bytes c := (.ok bytes.length, (c.1, c.2 ++ bytes.drop 5))
  processNewPackets c := (.ok (), c)
  isHandshaking _ := false
  wantsWrite c := !c.1.isEmpty
  writeTls c := (.ok c.1, ([], c.2))
  read limit c := (.ok (c.2.take limit), (c.1, c.2.drop limit))
  write data c := (.ok data.length, (c.1 ++ data, c.2))
  backlog c := c.1.length
  backlog_lt h hne := by
    cases h
    exact List.length_pos_iff.mpr hne

theorem dryReads_plainEngine : DryReads plainEngine := by
  intro limit c hempty
  have htake : c.2.take limit = [] := by
    rcases hempty with hok | hblock
    · exact Except.ok.inj hok
    · cases hblock
  have hdrop : c.2.drop limit = c.2 := by
    have hsplit := List.take_append_drop limit c.2
    rwa [htake, List.nil_append] at hsplit
  exact Prod.ext rfl hdrop

def plainSetup (tlsAuthKey : Option Bytes) : Setup (Bytes × Bytes) where
  primitives := ⟨.single [], fun _ _ => zeros 32, ⟨fun rto _ => rto, fun rttvar _ => rttvar, fun srtt _ => srtt⟩⟩
  engine := plainEngine
  toUppercase := id
  toLowercase := id
  config := ⟨"AES-256-GCM", tlsAuthKey, none⟩
  secrets := ⟨zeros 48, zeros 32, zeros 32⟩
  sessionId := zeros 8

def serverKm : Protocol.ControlMessages.KeyMethodV2 := ⟨zeros 48, zeros 32, zeros 32, "V4", none, none, none⟩

def plainMessages : Bytes :=
  serverKm.encode true ++ asBytes (({} : Protocol.ControlMessages.PushReply).encode ++ "\x00")

def serverPacket (opcode : UInt8) (auth : Bytes) (messageId : UInt8) (payload : Bytes) : Bytes :=
  [opcode] ++ (zeros 8).toList ++ auth ++ [0, 0, 0, 0, messageId] ++ payload

def hardReset (auth : Bytes) : Bytes := serverPacket 64 auth 0 []

def allMessages (auth : Bytes) : Bytes :=
  serverPacket 32 auth 1 ([23, 3, 3, 0, .ofNat plainMessages.length] ++ plainMessages)

def authBytes (id : UInt8) : Bytes := (zeros 32).toList ++ [0, 0, 0, id, 0, 0, 0, 0]

def plainKey : Bytes := List.replicate 256 0

def atNanos (now : Nat) : Clock := ⟨now, 0⟩

def resetTwice : List Arrival :=
  [⟨atNanos 3, hardReset [], false⟩, ⟨atNanos 4, hardReset [], true⟩, ⟨atNanos 5, allMessages [], false⟩]

theorem handshake_survives_repeated_reset :
    connect (plainSetup none) (atNanos 0) (resetTwice.map Arrival.datagram) = some (.ok (serverKm, {})) := by
  have hrun : connect (plainSetup none) (atNanos 0) [(atNanos 1, hardReset []), (atNanos 2, allMessages [])] =
      some (.ok (serverKm, {})) := by decide +kernel
  have hharmless : EachStep (watch (plainSetup none)) (Harmless (plainSetup none))
      ⟨start (plainSetup none) (atNanos 0), []⟩ resetTwice := by
    refine ⟨nofun, ?_, nofun, trivial⟩
    intro _ s hs
    have hnext : (session (watch (plainSetup none) ⟨start (plainSetup none) (atNanos 0), []⟩
        ⟨atNanos 3, hardReset [], false⟩).2.phase).map (fun s => s.reliable.nextRecvId) = some 1 := by
      decide +kernel
    have hid : messageId (hardReset []) = some 0 := by decide +kernel
    rw [Option.mem_def.mp hs] at hnext
    have hone : s.reliable.nextRecvId = 1 := Option.some.inj hnext
    refine ⟨rfl, List.mem_singleton_self _, ?_⟩
    intro id hmem
    rw [hid] at hmem
    cases hmem
    left
    rw [hone]
    decide
  apply handshake_survives_repeats dryReads_plainEngine hrun rfl hharmless
  rintro (hspent | hspent)
  · exact absurd hspent (by decide +kernel)
  · exact absurd hspent (by decide +kernel)

/-- A datagram that cannot be parsed ends the connection, and with tls-auth so
does one that comes twice. -/
theorem handshake_broken_by_junk :
    (connect (plainSetup none) (atNanos 0) [(atNanos 1, hardReset []), (atNanos 2, allMessages [])] =
        some (.ok (serverKm, {})) ∧
      connect (plainSetup none) (atNanos 0) [(atNanos 1, hardReset []), (atNanos 1, [32]),
        (atNanos 2, allMessages [])] =
        some (.error (.error (.failed "Failed to process packet during handshake" (.packetTooShort 9 1))))) ∧
    (connect (plainSetup (some plainKey)) (atNanos 0) [(atNanos 1, hardReset (authBytes 1)),
        (atNanos 2, allMessages (authBytes 2))] = some (.ok (serverKm, {})) ∧
      connect (plainSetup (some plainKey)) (atNanos 0) [(atNanos 1, hardReset (authBytes 1)),
        (atNanos 1, hardReset (authBytes 1)), (atNanos 2, allMessages (authBytes 2))] =
        some (.error (.error (.failed "Failed to process packet during handshake" .replayDetected)))) := by
  decide +kernel

end Main

end CoreVpn.Client.HandshakeRuns
