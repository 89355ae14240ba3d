import CoreVpn.Server.EventLog
import CoreVpn.Server.StoredConnections

namespace CoreVpn.Server.SuccessEntries

open Lib.Computation Lib.Wire Lib.Machine Core.Networks Core.AddressPools
open Protocol.Opcodes Protocol.Sessions Protocol.SessionFrames Protocol.TlsHandlers
open Protocol.PacketCodec (Begins)
open Events Connections KeyExchange ControlPackets Handlers HandlerFrames HandlerEffects AddressLeases
open OAuthGate StoredConnections EventLog PlainHost

variable {C : Type}

section Entries

def successOf : ConnectionEvent → Option (ConnectionId × SocketAddr)
  | .authentication id _ clientAddr _ _ .success _ => some (id, clientAddr)
  | _ => none

def successes (log : List ConnectionEvent) : List (ConnectionId × SocketAddr) := log.filterMap successOf

def Succeeded (entries : List (ConnectionId × SocketAddr)) (log : List ConnectionEvent) : Prop :=
  successes log = entries

variable {H : Host C} {entries : List (ConnectionId × SocketAddr)}

instance : NotesRenegotiation H (KeepsLog (Succeeded entries)) where
  renegotiation env peerAddr := by
    refine frames_bind frames_get fun s => ?_
    split
    · exact frames_modify fun t ht => List.filterMap_append.trans ((List.append_nil _).trans ht)
    · exact frames_pure ()

/-- What is left of a control packet after the note: the connection stays the
same one, in the same state, and no other success is noted. -/
structure Closing (s t : Ctx C) : Prop where
  connectionId : t.conn.connectionId = s.conn.connectionId
  state : t.conn.protocol.state = s.conn.protocol.state
  logEvents : t.logEvents = s.logEvents

instance : IsPreorder (Ctx C) Closing where
  refl _ := ⟨rfl, rfl, rfl⟩
  trans _ _ _ h h' := ⟨h'.1.trans h.1, h'.2.trans h.2, h'.3.trans h.3⟩

instance : Quiet (Closing (C := C)) where
  session _ _ h := by
    obtain ⟨_, _, _, rfl⟩ := h
    exact ⟨rfl, rfl, rfl⟩
  stats _ _ := ⟨rfl, rfl, rfl⟩
  packets _ _ := ⟨rfl, rfl, rfl⟩

instance {E : TlsEngine C} : ThroughTls E Closing := ⟨fun _ _ _ _ _ => ⟨rfl, rfl, rfl⟩⟩

variable (H) (env : Env) (peerAddr : SocketAddr) (data : Bytes)

theorem succeeded_assignFor (cipher : Option String) :
    Frames (KeepsLog (Succeeded entries)) (assignFor H env peerAddr cipher) := by
  cases cipher with
  | none => exact frames_pure ()
  | some cipher =>
    have hanswer : ∀ cipher reply, Frames (KeepsLog (Succeeded entries)) (answer H env peerAddr cipher reply) :=
      frames_answer H env peerAddr fun _ _ _ => id
    exact frames_assignAddress_of H env peerAddr (fun _ _ _ => id) hanswer cipher

/-- A success is noted at the end of a turn of the key exchange, for the
connection as it is then. -/
theorem successes_controlBody {s t : Ctx C} (h : controlBody H env peerAddr data s = (.ok (), t))
    (hs : s.logEvents = []) :
    successes t.logEvents = [] ∨
      (H.config.connectionEvents.authEvents = true ∧ ∃ cipher u v,
        intake H env peerAddr data s = (.ok (.keyExchange cipher), u) ∧
        assignFor H env peerAddr cipher u = (.ok (), v) ∧
        t.conn.protocol.state = v.conn.protocol.state ∧
        successes t.logEvents = [(t.conn.connectionId, peerAddr)]) := by
  obtain ⟨stage, u, hintake, h⟩ := bind_eq_ok h
  obtain ⟨_, w, hsettle, h⟩ := bind_eq_ok h
  have hu : successes u.logEvents = [] :=
    (frames_intake (R := KeepsLog (Succeeded [])) H env peerAddr data).rel hintake (by rw [hs]; rfl)
  have hend : Closing w t := (frames_afterSettle H env).rel h
  cases stage with
  | idle =>
    cases hsettle
    exact .inl (hend.logEvents ▸ hu)
  | records =>
    have hanswer : Closing u w := (frames_answerPushRequest H env).rel hsettle
    rw [hend.logEvents, hanswer.logEvents]
    exact .inl hu
  | keyExchange cipher =>
    obtain ⟨_, v, hassign, hsettle⟩ := bind_eq_ok hsettle
    obtain ⟨_, x, hnote, hsettle⟩ := bind_eq_ok hsettle
    have hassigns : Frames (KeepsLog (Succeeded [])) (assignFor H env peerAddr cipher) :=
      succeeded_assignFor H env peerAddr cipher
    have hv : successes v.logEvents = [] := hassigns.rel hassign hu
    have hclosing : Closing x t := trans_of Closing ((frames_answerPushRequest H env).rel hsettle) hend
    obtain ⟨_, _, hget, hnote⟩ := bind_eq_ok hnote
    cases hget
    split at hnote
    · rename_i hsetting
      cases hnote
      refine .inr ⟨hsetting, cipher, u, v, hintake, hassign, hclosing.state, ?_⟩
      rw [hclosing.logEvents, hclosing.connectionId]
      simpa [successes, ConnectionEventBuilder.authentication, successOf] using hv
    · cases hnote
      exact .inl (hclosing.logEvents ▸ hv)

theorem assignFor_established {u v : Ctx C} {cipher : String} (hoauth : H.config.oauthEnabled = false)
    (hpool : Serves H.config.subnet u.addressPool)
    (hfree : (AddressPool.freeV4 H.config.subnet u.addressPool).isSome = true)
    (h : assignFor H env peerAddr (some cipher) u = (.ok (), v)) : v.conn.protocol.state = .established := by
  obtain ⟨addr, haddr⟩ := Option.isSome_iff_exists.mp hfree
  rw [assignFor, assignAddress, bind_ok (attempt_allocate_some H hpool haddr)] at h
  obtain ⟨_, _, _, h⟩ := bind_eq_ok h
  obtain ⟨_, _, _, h⟩ := bind_eq_ok h
  have hsend : ∀ {reply s t}, sendReply H env reply s = (.ok (), t) → t.conn.protocol.state = .established := by
    intro reply s t hreply
    obtain ⟨_, _, _, hreply⟩ := bind_eq_ok hreply
    obtain ⟨_, _, _, hreply⟩ := bind_eq_ok hreply
    obtain ⟨_, _, _, hreply⟩ := bind_eq_ok hreply
    cases hreply
    rfl
  unfold answer at h
  unfold ServerConfig.oauthEnabled at hoauth
  split at h
  · rename_i oauth ho
    rw [ho] at hoauth
    rw [if_neg (Bool.eq_false_iff.mp hoauth)] at h
    exact hsend h
  · exact hsend h

end Entries

/-- The system, with a record for the connection that is stored for an address
now: the completions handled for it, whether a key method message of its client
was accepted, and the successes logged for it. -/
structure Book (C : Type) where
  watched : Watched C
  accepted : SocketAddr → Bool
  successes : SocketAddr → Nat

def Book.server (b : Book C) : VpnServer C := b.watched.system.server

section Recording

variable (H : Host C)

/-- The turn of the key exchange that a packet makes, with the cipher that it
settles. It settles none if the client's message is missing or cannot be parsed. -/
def turnOf (env : Env) (peerAddr : SocketAddr) (data : Bytes) (s : VpnServer C) : Option (Option String) :=
  match data with
  | [] => none
  | first :: _ =>
    match OpCode.fromByte first, s.connections peerAddr with
    | .ok opcode, some conn =>
      if opcode ∈ [OpCode.controlV1, .ackV1, .softResetV1] then
        match (intake H env peerAddr data ⟨conn, s.addressPool, s.pendingOauths, [], []⟩).1 with
        | .ok (.keyExchange cipher) => some cipher
        | _ => none
      else none
    | _, _ => none

def opensAt (s : VpnServer C) (addr : SocketAddr) : Event → Bool
  | .packet env peerAddr data => peerAddr = addr && storesNew H env peerAddr data s
  | _ => false

def acceptsAt (s : VpnServer C) (addr : SocketAddr) : Event → Bool
  | .packet env peerAddr data => peerAddr = addr && (turnOf H env peerAddr data s).any Option.isSome
  | _ => false

def record (b : Book C) (event : Event) : Response × Book C :=
  let (response, watched) := watch H b.watched event
  (response, {
    watched
    accepted := fun addr =>
      acceptsAt H b.server addr event || (b.accepted addr && !opensAt H b.server addr event)
    successes := fun addr =>
      (if opensAt H b.server addr event then 0 else b.successes addr) +
        (successes response.logged).countP fun entry => entry.2 = addr })

def bookFrom (s : System C) : Book C := ⟨⟨s, fun _ => []⟩, fun _ => false, fun _ => 0⟩

/-- A success is logged only for a connection whose client has sent an accepted
message and, with OAuth, completed the authentication for its token, and only
once for each connection. -/
def Truthful (b : Book C) (event : Event) : Prop :=
  let after := (record H b event).2
  ∀ entry ∈ successes (record H b event).1.logged,
    after.successes entry.2 ≤ 1 ∧ after.accepted entry.2 = true ∧
      ∃ conn ∈ after.server.connections entry.2, conn.connectionId = entry.1 ∧
        (H.config.oauthEnabled = true →
          ∃ auth ∈ after.watched.completions entry.2, conn.oauthState = some auth.state)

/-- Where authentications are logged, a turn of the key exchange is made without
OAuth, with a message that can be parsed, and while the pool has an address left. -/
def Conclusive (s : System C) : Event → Prop
  | .packet env peerAddr data =>
    H.config.connectionEvents.authEvents = true → ∀ cipher ∈ turnOf H env peerAddr data s.server,
      H.config.oauthEnabled = false ∧ cipher.isSome = true ∧
        (AddressPool.freeV4 H.config.subnet s.server.addressPool).isSome = true
  | _ => True

instance (s : System C) : (event : Event) → Decidable (Conclusive H s event)
  | .packet _ _ _ => inferInstanceAs (Decidable (_ → ∀ _ ∈ _, _))
  | .tunPacket _ _ _ | .keepalive _ _ | .authCompleted _ _ | .collectStale _ _ _ | .removeStale =>
    inferInstanceAs (Decidable True)

instance (b : Book C) (event : Event) : Decidable (Truthful H b event) :=
  inferInstanceAs (Decidable (∀ _ ∈ _, _ ≤ 1 ∧ _ = true ∧ ∃ _ ∈ _, _ ∧ (_ → ∃ _ ∈ _, _)))

theorem exec_record (b : Book C) (events : List Event) :
    outputs (record H) b events = outputs (step H) b.watched.system events ∧
      (exec (record H) b events).watched.system = exec (step H) b.watched.system events :=
  outputs_of_simulation (R := fun (b : Book C) s => b.watched.system = s)
    (fun _ _ _ h => h ▸ ⟨rfl, rfl⟩) rfl events

theorem eachStep_record {P : System C → Event → Prop} {b : Book C} {events : List Event}
    (h : EachStep (step H) P b.watched.system events) :
    EachStep (record H) (fun b => P b.watched.system) b events := by
  induction events generalizing b with
  | nil => trivial
  | cons event events ih => exact ⟨h.1, ih h.2⟩

end Recording

section Phases

def past (state : ProtocolState) (_ : Option String) : Prop := state = .established ∨ state = .rekeying

theorem final_past : Final past where
  rekeying _ := .inr rfl
  tlsHandshake _ h := by cases h <;> contradiction
  keyExchange _ h := by cases h <;> contradiction

variable {H : Host C} {env : Env} {peerAddr addr : SocketAddr} {data : Bytes} {s : VpnServer C}

theorem past_completeAuth (auth : AuthCompleted) : Keeps (OnPhase past) (completeAuth H env auth) := by
  refine frames_bind (R := KeepsPhase past) frames_get fun s => ?_
  split
  · refine frames_bind (frames_modify fun _ => id) fun _ => ?_
    split
    · refine frames_bind (frames_tryWrite H _) fun written => ?_
      split
      · exact frames_bind (frames_flushTls H _) fun _ => frames_modify fun _ _ => .inl rfl
      · exact frames_pure ()
    · exact frames_pure ()
  · exact frames_pure ()

theorem past_handleAuthCompleted (auth : AuthCompleted) (s : VpnServer C) :
    KeepsAt (OnPhase past) addr s (handleAuthCompleted H env auth s).2 := by
  intro h
  unfold handleAuthCompleted
  split
  · dsimp only
    split
    · rename_i conn hconn
      exact keepsAt_onConnection (past_completeAuth auth) hconn h
    · exact h
  · exact h

theorem past_step {s : System C} {event : Event} (h : opensAt H s.server addr event = false) :
    KeepsAt (OnPhase past) addr s.server (step H s event).2.server := by
  refine final_past.step (fun env data hevent => ?_) fun env auth => past_handleAuthCompleted auth s.server
  subst hevent
  simpa [opensAt] using h

theorem turnOf_of_begins {opcode : OpCode} (hbegins : Begins data opcode)
    (hop : opcode ∈ [OpCode.controlV1, .ackV1, .softResetV1]) {conn : Connection C}
    (hconn : s.connections peerAddr = some conn) {cipher : Option String} {t : Ctx C}
    (h : intake H env peerAddr data ⟨conn, s.addressPool, s.pendingOauths, [], []⟩ =
      (.ok (.keyExchange cipher), t)) : turnOf H env peerAddr data s = some cipher := by
  obtain ⟨first, rest, rfl, hfirst⟩ := hbegins
  simp only [turnOf, hfirst, hconn, if_pos hop, h]

theorem turnOf_eq_some {cipher : Option String} (h : turnOf H env peerAddr data s = some cipher) :
    ∃ opcode ∈ [OpCode.controlV1, .ackV1, .softResetV1], Begins data opcode ∧
      ∃ conn t, s.connections peerAddr = some conn ∧
        intake H env peerAddr data ⟨conn, s.addressPool, s.pendingOauths, [], []⟩ =
          (.ok (.keyExchange cipher), t) := by
  unfold turnOf at h
  split at h
  · cases h
  · rename_i first rest
    split at h
    · rename_i opcode conn hfirst hconn
      split at h
      · rename_i hop
        split at h
        · rename_i hintake
          cases h
          obtain ⟨t, ht⟩ := exists_of_fst_eq hintake
          exact ⟨opcode, hop, ⟨first, rest, rfl, hfirst⟩, conn, t, hconn, ht⟩
        · cases h
      · cases h
    · cases h

theorem turnOf_of_past (h : HoldsAt (OnPhase past) peerAddr s) : turnOf H env peerAddr data s = none := by
  by_contra hturn
  obtain ⟨cipher, hcipher⟩ := Option.ne_none_iff_exists'.mp hturn
  obtain ⟨opcode, hop, hbegins, conn, t, hconn, hintake⟩ := turnOf_eq_some hcipher
  have hreset : opcode.isHardReset = false := by
    simp only [List.mem_cons, List.not_mem_nil, or_false] at hop
    obtain rfl | rfl | rfl := hop <;> rfl
  have hkeeps : Keeps (OnPhase past) (intake H env peerAddr data) := final_past.intake hbegins hreset
  have hpast := hkeeps ⟨conn, s.addressPool, s.pendingOauths, [], []⟩ (h conn hconn)
  rw [hintake, OnPhase, intake_keyExchange H env peerAddr data hintake] at hpast
  exact final_past.keyExchange _ hpast

theorem storesNew_of_turnOf {cipher : Option String} (h : turnOf H env peerAddr data s = some cipher) :
    storesNew H env peerAddr data s = false := by
  obtain ⟨opcode, hop, ⟨first, rest, rfl, hfirst⟩, -⟩ := turnOf_eq_some h
  simp only [List.mem_cons, List.not_mem_nil, or_false] at hop
  rw [storesNew, hfirst]
  obtain rfl | rfl | rfl := hop <;> rfl

end Phases

section Steps

variable {H : Host C} {s : System C} {event : Event}

theorem serves_intake {s t : Ctx C} {env : Env} {peerAddr : SocketAddr} {data : Bytes}
    {result : Outcome ServerError Stage} (h : intake H env peerAddr data s = (result, t)) :
    t.addressPool = s.addressPool := ((frames_intake (R := SameLease) H env peerAddr data).rel h).addressPool

theorem successes_handleControlPacket (horderly : Orderly H s) {env : Env} {peerAddr : SocketAddr} {data : Bytes}
    {opcode : OpCode} (hbegins : Begins data opcode) (hop : opcode ∈ [OpCode.controlV1, .ackV1, .softResetV1])
    (hc : Conclusive H s (.packet env peerAddr data)) :
    let r := handleControlPacket H env peerAddr data s.server
    successes r.1.logged = [] ∨ (H.config.oauthEnabled = false ∧
      (∃ cipher, turnOf H env peerAddr data s.server = some (some cipher)) ∧
      ∃ conn, r.2.connections peerAddr = some conn ∧ conn.protocol.state = .established ∧
        successes r.1.logged = [(conn.connectionId, peerAddr)]) := by
  intro r
  cases hconn : s.server.connections peerAddr with
  | none =>
    refine .inl ?_
    simp only [r, handleControlPacket, hconn]
    rfl
  | some conn =>
    obtain ⟨result, t, hbody⟩ : ∃ result t, controlBody H env peerAddr data
      ⟨conn, s.server.addressPool, s.server.pendingOauths, [], []⟩ = (result, t) := ⟨_, _, rfl⟩
    have hr : r = (deliver env peerAddr (result, t), { s.server with
        addressPool := t.addressPool
        connections := Function.update s.server.connections peerAddr (some t.conn)
        pendingOauths := t.pendingOauths }) := by
      simp only [r, handleControlPacket, hconn, onConnection, hbody]
    rw [hr]
    cases result with
    | error e => exact .inl rfl
    | ok _ =>
      obtain hnone | ⟨hsetting, cipher, u, v, hintake, hassign, hstate, hsuccess⟩ :=
        successes_controlBody H env peerAddr data hbody rfl
      · exact .inl hnone
      · have hturn := turnOf_of_begins hbegins hop hconn hintake
        obtain ⟨hoauth, hsome, hfree⟩ := hc hsetting cipher hturn
        obtain ⟨cipher, rfl⟩ := Option.isSome_iff_exists.mp hsome
        have hpool := serves_intake hintake
        have hestablished := assignFor_established H env peerAddr hoauth (hpool.symm ▸ horderly.serves)
          (hpool.symm ▸ hfree) hassign
        exact .inr ⟨hoauth, ⟨cipher, hturn⟩, t.conn, Function.update_self .., hstate.trans hestablished,
          hsuccess⟩

theorem successes_eq_nil {log : List ConnectionEvent} (h : ∀ event ∈ log, successOf event = none) :
    successes log = [] := List.filterMap_eq_nil_iff.mpr h

theorem successes_handleHardReset (env : Env) (peerAddr : SocketAddr) (data : Bytes) (s : VpnServer C) :
    successes (handleHardReset H env peerAddr data s).1.logged = [] := by
  refine successes_eq_nil fun event hevent => ?_
  have hattempt := logged_handleHardReset H env peerAddr data s hevent
  unfold noteAttempt at hattempt
  split at hattempt
  · rw [List.mem_singleton.mp hattempt]
    rfl
  · cases hattempt

def LogsSuccess (H : Host C) (s : System C) (event : Event) : Prop :=
  ∃ env peerAddr data, event = .packet env peerAddr data ∧
    (∃ cipher, turnOf H env peerAddr data s.server = some (some cipher)) ∧
    ∃ conn, (step H s event).2.server.connections peerAddr = some conn ∧ conn.protocol.state = .established ∧
      successes (step H s event).1.logged = [(conn.connectionId, peerAddr)]

theorem successes_step (horderly : Orderly H s) (hc : Conclusive H s event) :
    successes (step H s event).1.logged = [] ∨ (H.config.oauthEnabled = false ∧ LogsSuccess H s event) := by
  cases event with
  | packet env peerAddr data =>
    unfold LogsSuccess
    rw [step, System.onServer]
    dsimp only
    obtain ⟨_, _, _, h⟩ | ⟨_, hop, hbegins, h⟩ | ⟨_, _, _, h⟩ | ⟨result, h⟩ :=
      handlePacket_cases H env peerAddr data s.server
    · rw [h]
      exact .inl (successes_handleHardReset env peerAddr data s.server)
    · rw [h]
      obtain hnone | ⟨hoauth, hturn, hconn⟩ := successes_handleControlPacket horderly hbegins hop hc
      · exact .inl hnone
      · exact .inr ⟨hoauth, env, peerAddr, data, rfl, hturn, hconn⟩
    · rw [h, logged_handleDataPacket]
      exact .inl rfl
    · rw [h]
      exact .inl rfl
  | tunPacket env order ipPacket =>
    rw [step, System.onServer, logged_handleTunPacket]
    exact .inl rfl
  | keepalive env order => exact .inl rfl
  | authCompleted env auth =>
    rw [step, System.onServer, logged_handleAuthCompleted]
    exact .inl rfl
  | removeStale => exact .inl rfl
  | collectStale env timeout order =>
    refine .inl ?_
    rw [step]
    split
    · refine successes_eq_nil fun event hevent => ?_
      obtain ⟨_, -, rfl⟩ := List.mem_map.mp hevent
      rfl
    · rfl

structure Kept (H : Host C) (b : Book C) : Prop where
  orderly : Orderly H b.watched.system
  past : ∀ addr, 0 < b.successes addr → HoldsAt (OnPhase past) addr b.server

variable {b : Book C}

theorem Kept.past_step (hb : Kept H b) {addr : SocketAddr}
    (h : 0 < if opensAt H b.server addr event then 0 else b.successes addr) :
    HoldsAt (OnPhase SuccessEntries.past) addr (record H b event).2.server := by
  split at h
  · cases h
  · rename_i hopens
    exact SuccessEntries.past_step (Bool.eq_false_iff.mpr hopens) (hb.past addr h)

theorem Kept.next (hb : Kept H b) (hc : Conclusive H b.watched.system event) : Kept H (record H b event).2 := by
  refine ⟨hb.orderly.step event, fun addr haddr => ?_⟩
  change 0 < (if opensAt H b.server addr event then 0 else b.successes addr) +
    (successes (step H b.watched.system event).1.logged).countP fun entry => entry.2 = addr at haddr
  obtain hnone | ⟨-, env, peerAddr, data, -, -, conn, hconn, hstate, hsuccess⟩ := successes_step hb.orderly hc
  · rw [hnone] at haddr
    exact hb.past_step haddr
  · rw [hsuccess] at haddr
    by_cases hpeer : peerAddr = addr
    · subst hpeer
      intro conn' hconn'
      cases hconn.symm.trans hconn'
      exact .inl hstate
    · have hother : [(conn.connectionId, peerAddr)].countP (fun entry => entry.2 = addr) = 0 := by simp [hpeer]
      rw [hother] at haddr
      exact hb.past_step haddr

theorem Kept.truthful (hb : Kept H b) (hc : Conclusive H b.watched.system event) : Truthful H b event := by
  intro entry hentry
  change entry ∈ successes (step H b.watched.system event).1.logged at hentry
  obtain hnone | ⟨hoauth, env, peerAddr, data, rfl, ⟨cipher, hturn⟩, conn, hconn, hstate, hsuccess⟩ :=
    successes_step hb.orderly hc
  · rw [hnone] at hentry
    cases hentry
  · rw [hsuccess, List.mem_singleton] at hentry
    subst hentry
    have hnew : opensAt H b.server peerAddr (.packet env peerAddr data) = false := by
      simp [opensAt, Book.server, storesNew_of_turnOf hturn]
    -- the turn shows that the connection was not past the key exchange before
    have hfirst : b.successes peerAddr = 0 := by
      by_contra hlogged
      have hpast := hb.past peerAddr (Nat.pos_of_ne_zero hlogged)
      cases (turnOf_of_past hpast).symm.trans hturn
    refine ⟨?_, ?_, conn, hconn, rfl, fun henabled => ?_⟩
    · change (if opensAt H b.server peerAddr (.packet env peerAddr data) then 0 else b.successes peerAddr) +
        (successes (step H b.watched.system (.packet env peerAddr data)).1.logged).countP _ ≤ 1
      rw [hnew, hfirst, hsuccess]
      simp
    · simp [record, acceptsAt, Book.server, hturn]
    · rw [hoauth] at henabled
      cases henabled

end Steps

/-- In a run in which every turn of the key exchange is conclusive, the
successes in the log are those of connections that are authenticated, and each
connection has one at most. -/
theorem success_entries_truthful (H : Host C) {s₀ : System C} (hstart : start H.config = .ok s₀)
    {events : List Event} (h : EachStep (step H) (Conclusive H) s₀ events) :
    EachStep (record H) (Truthful H) (bookFrom s₀) events := by
  have hkept : Kept H (bookFrom s₀) := ⟨Orderly.start hstart, fun _ h => absurd h (Nat.lt_irrefl 0)⟩
  have hconclusive : EachStep (record H) (fun b => Conclusive H b.watched.system) (bookFrom s₀) events :=
    eachStep_record H h
  exact EachStep.of_invariant (fun _ _ hc hb => Kept.next hb hc) (fun _ _ hc hb => Kept.truthful hb hc) hkept
    hconclusive

def authLog (oauth : Bool) : Host Bytes := loggingHost oauth { authEvents := true }

theorem success_entries_one_client :
    start (authLog false).config = .ok plainStart ∧
      EachStep (step (authLog false)) (Conclusive (authLog false)) plainStart connecting ∧
      EachStep (record (authLog false)) (Truthful (authLog false)) (bookFrom plainStart) connecting := by
  have hconclusive : EachStep (step (authLog false)) (Conclusive (authLog false)) plainStart connecting := by
    decide +kernel
  exact ⟨start_loggingHost _ _, hconclusive, success_entries_truthful _ (start_loggingHost _ _) hconclusive⟩

def noMessage (id : UInt8) : Bytes := [32, 1, 2, 3, 4, 5, 6, 7, 8, 0, 0, 0, 0, id] ++ [23, 3, 3, 0, 1] ++ [0]

/-- A success is logged for a client that has sent no key method message, twice
for one that has sent none twice, and with OAuth for one that has sent its message
and has yet to log in. -/
theorem success_logged_early :
    let opening : Event := .packet (atSecond 0 0) alice hardReset
    let silent : List Event := [opening, .packet (atSecond 1 0) alice (noMessage 1)]
    let again : List Event := silent ++ [.packet (atSecond 2 0) alice (noMessage 2)]
    let logged (oauth : Bool) (events : List Event) :=
      (outputs (step (authLog oauth)) plainStart events).map fun r => (successes r.logged).length
    logged false silent = [0, 1] ∧ logged false again = [0, 1, 1] ∧ logged true connecting = [0, 1] ∧
      ¬ EachStep (record (authLog false)) (Truthful (authLog false)) (bookFrom plainStart) silent ∧
      ¬ EachStep (record (authLog true)) (Truthful (authLog true)) (bookFrom plainStart) connecting := by
  intro opening silent again logged
  refine ⟨?_, ?_, ?_, ?_, ?_⟩
  all_goals decide +kernel +zetaReduce

end CoreVpn.Server.SuccessEntries
