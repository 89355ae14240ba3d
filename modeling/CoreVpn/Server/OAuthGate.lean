import CoreVpn.Server.AddressLeases
import CoreVpn.Server.PlainHost

namespace CoreVpn.Server.OAuthGate

open Lib.Computation Lib.Wire Lib.Machine Core.Networks Core.AddressPools
open Protocol.Errors Protocol.Opcodes Protocol.Sessions Protocol.Sending Protocol.Readback
open Protocol.SessionFrames Protocol.TlsHandlers
open Connections KeyExchange ControlPackets Handlers HandlerFrames HandlerEffects AddressLeases PlainHost

variable {C α : Type}

section Programs

def KeepsState (s t : Ctx C) : Prop := t.conn.protocol.state = s.conn.protocol.state

def SameUser (s t : Ctx C) : Prop :=
  t.conn.username = s.conn.username ∧ t.conn.oauthState = s.conn.oauthState

instance : IsPreorder (Ctx C) KeepsState where
  refl _ := rfl
  trans _ _ _ h h' := Eq.trans h' h

instance : IsPreorder (Ctx C) SameUser where
  refl _ := ⟨rfl, rfl⟩
  trans _ _ _ h h' := ⟨h'.1.trans h.1, h'.2.trans h.2⟩

instance : Quiet (KeepsState (C := C)) := quiet_of_routine fun _ _ h => h.state

instance {E : TlsEngine C} : ThroughTls E KeepsState := throughTls_of_routine fun _ _ h => h.state

instance : Quiet (SameUser (C := C)) := quiet_of_routine fun _ _ h => ⟨h.username, h.oauthState⟩

instance {E : TlsEngine C} : ThroughTls E SameUser :=
  throughTls_of_routine fun _ _ h => ⟨h.username, h.oauthState⟩

variable (H : Host C) (env : Env) (peerAddr : SocketAddr) (data : Bytes)

theorem frames_keepsState_assignAddress (hoauth : H.config.oauthEnabled = true) (cipher : String) :
    Frames KeepsState (assignAddress H env peerAddr cipher) := by
  have hanswer : ∀ cipher reply, Frames KeepsState (answer H env peerAddr cipher reply) :=
    frames_answer_oauth H env peerAddr hoauth (fun _ _ h _ _ => congrArg ProtocolSession.state h) fun _ _ => rfl
  exact frames_assignAddress_of H env peerAddr (fun _ _ _ => rfl) hanswer cipher

theorem frames_guarded_controlBody (hoauth : H.config.oauthEnabled = true) :
    Frames Guarded (controlBody H env peerAddr data) := by
  intro s
  cases controlBody_cases (R := Routine) H env peerAddr data s with
  | inl hassigned =>
    obtain ⟨cipher, hstage, hroutine⟩ := hassigned
    have hintake := intake_keyExchange H env peerAddr data (Prod.ext hstage rfl)
    have hassign := frames_keepsState_assignAddress H env peerAddr hoauth cipher
      (intake H env peerAddr data s).2
    apply guarded_of_state
    rw [hroutine.state, hassign, hintake]
    decide
  | inr hrest => exact trans_of Guarded (frames_guarded_intake H env peerAddr data s) hrest.2.guarded

theorem completeAuth_user (auth : AuthCompleted) (s : Ctx C) :
    (s.conn.pendingPushReply = none ∧ (completeAuth H env auth s).2 = s) ∨
      (s.conn.pendingPushReply ≠ none ∧ (completeAuth H env auth s).2.conn.username = some auth.email ∧
        (completeAuth H env auth s).2.conn.oauthState = s.conn.oauthState) := by
  cases hreply : s.conn.pendingPushReply with
  | none =>
    refine .inl ⟨rfl, ?_⟩
    simp only [completeAuth, bind_apply, get_apply, hreply, pure_apply]
  | some reply =>
    refine .inr ⟨Option.some_ne_none reply, ?_⟩
    have hrest : Frames SameUser (if s.conn.tls.isSome then do
        if ← tryWrite H (Lib.Text.asBytes (reply ++ "\x00")) then
          flushTls H env.clock
          onConn fun conn => { conn with protocol := conn.protocol.setState env.clock.now .established }
        else return ()
        else return () : Handler C Unit) := by
      split
      · refine frames_bind (frames_tryWrite H _) fun written => ?_
        split
        · refine frames_bind (frames_flushTls H _) fun _ => ?_
          exact frames_modify fun _ => ⟨rfl, rfl⟩
        · exact frames_pure ()
      · exact frames_pure ()
    have hafter := hrest { s with conn := { s.conn with
      pendingPushReply := none, username := some auth.email, authMethod := .oauth2 } }
    simp only [completeAuth, bind_apply, get_apply, hreply, onConn, modify_apply]
    exact hafter

end Programs

section Openings

variable (H : Host C) (env : Env) (peerAddr : SocketAddr) (data : Bytes)

theorem enableTlsAuth_state (session : ProtocolSession) :
    (enableTlsAuth H session).state = session.state := by
  unfold enableTlsAuth
  split
  · split <;> rfl
  · rfl

theorem openConnection_state {opened : Bytes × Connection C}
    (h : openConnection H env peerAddr data = .ok opened) : opened.2.protocol.state ≠ .established := by
  obtain ⟨⟨_, session⟩, hprocess, h⟩ := Outcome.bind_eq_ok_iff.mp h
  obtain ⟨_, -, h⟩ := Outcome.bind_eq_ok_iff.mp h
  obtain ⟨⟨_, answered⟩, hanswer, h⟩ := Outcome.bind_eq_ok_iff.mp h
  cases h
  intro hstate
  have hanswered : SameEnds session answered := (frames_createReliable _ _ sends_sameEnds _ _ _).evaluate hanswer
  have honward : Onward _ session := (frames_processPacket _ _ _).evaluate hprocess
  have hinitial := honward.established (hanswered.state ▸ hstate)
  rw [enableTlsAuth_state] at hinitial
  cases hinitial

end Openings

/-- The system, and for every address the completions that were handled for
the connection that is stored there now. -/
structure Watched (C : Type) where
  system : System C
  completions : SocketAddr → List AuthCompleted

section Watching

variable (H : Host C)

def storesNew (env : Env) (peerAddr : SocketAddr) (data : Bytes) (s : VpnServer C) : Bool :=
  match data with
  | [] => false
  | first :: _ =>
    match OpCode.fromByte first with
    | .ok .hardResetClientV2 | .ok .hardResetClientV3 => opens H env peerAddr data s
    | _ => false

def noted (w : Watched C) : Event → SocketAddr → List AuthCompleted
  | .packet env peerAddr data =>
    if storesNew H env peerAddr data w.system.server then Function.update w.completions peerAddr []
    else w.completions
  | .authCompleted _ auth =>
    match w.system.server.pendingOauths auth.state with
    | some pending =>
      Function.update w.completions pending.peerAddr (auth :: w.completions pending.peerAddr)
    | none => w.completions
  | _ => w.completions

def watch (w : Watched C) (event : Event) : Response × Watched C :=
  ((step H w.system event).1, ⟨(step H w.system event).2, noted H w event⟩)

/-- Watching changes nothing. -/
theorem exec_watch (w : Watched C) (events : List Event) :
    outputs (watch H) w events = outputs (step H) w.system events ∧
      (exec (watch H) w events).system = exec (step H) w.system events :=
  outputs_of_simulation (R := fun (w : Watched C) s => w.system = s)
    (fun _ _ _ h => h ▸ ⟨rfl, rfl⟩) rfl events

/-- Whoever is established has completed the authentication for the token that
was issued to this very connection, and goes by the email of that completion. -/
def Authenticated (w : Watched C) : Prop :=
  ∀ addr conn, w.system.server.connections addr = some conn → conn.protocol.state = .established →
    ∃ auth ∈ w.completions addr, conn.oauthState = some auth.state ∧ conn.username = some auth.email

/-- A completion that finds a reply waiting comes with the token of that connection. -/
def OwnToken (s : System C) : Event → Prop
  | .authCompleted _ auth =>
    ∀ pending ∈ s.server.pendingOauths auth.state, ∀ conn ∈ s.server.connections pending.peerAddr,
      conn.pendingPushReply ≠ none → conn.oauthState = some auth.state
  | _ => True

instance (s : System C) : (event : Event) → Decidable (OwnToken s event)
  | .authCompleted _ _ => inferInstanceAs (Decidable (∀ _ ∈ _, ∀ _ ∈ _, _ → _))
  | .packet _ _ _ | .tunPacket _ _ _ | .keepalive _ _ | .collectStale _ _ _ | .removeStale =>
    inferInstanceAs (Decidable True)

theorem eachStep_watch {P : System C → Event → Prop} {w : Watched C} {events : List Event}
    (h : EachStep (step H) P w.system events) : EachStep (watch H) (fun w => P w.system) w events := by
  induction events generalizing w with
  | nil => trivial
  | cons event events ih => exact ⟨h.1, ih h.2⟩

end Watching

def Kept (s t : VpnServer C) : Prop :=
  ∀ addr conn', t.connections addr = some conn' → conn'.protocol.state = .established →
    ∃ conn, s.connections addr = some conn ∧ conn.protocol.state = .established ∧
      conn'.username = conn.username ∧ conn'.oauthState = conn.oauthState

theorem Kept.refl (s : VpnServer C) : Kept s s := fun _ conn h hstate => ⟨conn, h, hstate, rfl, rfl⟩

theorem Kept.trans {s t u : VpnServer C} (h : Kept s t) (h' : Kept t u) : Kept s u := by
  intro addr conn'' hconn'' hstate''
  obtain ⟨conn', hconn', hstate', hname', htoken'⟩ := h' addr conn'' hconn'' hstate''
  obtain ⟨conn, hconn, hstate, hname, htoken⟩ := h addr conn' hconn' hstate'
  exact ⟨conn, hconn, hstate, hname'.trans hname, htoken'.trans htoken⟩

instance : IsPreorder (VpnServer C) Kept where
  refl := Kept.refl
  trans _ _ _ h h' := h.trans h'

theorem kept_update {s : VpnServer C} {peerAddr : SocketAddr} {stored : Option (Connection C)}
    {pool : AddressPool} {pendingOauths : String → Option PendingOAuth}
    (h : ∀ conn', stored = some conn' → conn'.protocol.state = .established →
      ∃ conn, s.connections peerAddr = some conn ∧ conn.protocol.state = .established ∧
        conn'.username = conn.username ∧ conn'.oauthState = conn.oauthState) :
    Kept s ⟨pool, Function.update s.connections peerAddr stored, pendingOauths⟩ := by
  intro addr conn' hconn' hstate'
  by_cases haddr : addr = peerAddr
  · subst haddr
    exact h conn' ((Function.update_self addr _ _).symm.trans hconn') hstate'
  · exact ⟨conn', (Function.update_of_ne haddr _ _).symm.trans hconn', hstate', rfl, rfl⟩

theorem kept_of_guarded {s : VpnServer C} {peerAddr : SocketAddr} {conn : Connection C} {p : Handler C α}
    (hp : Frames Guarded p) (hconn : s.connections peerAddr = some conn) :
    Kept s (onConnection s peerAddr conn p).2 := by
  refine kept_update fun conn' hconn' hstate' => ?_
  cases hconn'
  exact ⟨conn, hconn, hp ⟨conn, s.addressPool, s.pendingOauths, [], []⟩ hstate'⟩

section Keeping

variable (H : Host C) (env : Env) (peerAddr : SocketAddr) (data : Bytes)

theorem kept_handleHardReset (s : VpnServer C) : Kept s (handleHardReset H env peerAddr data s).2 := by
  cases handleHardReset_cases H env peerAddr data s with
  | inl hcached =>
    rw [hcached.2]
    exact Kept.refl s
  | inr hopened =>
    obtain ⟨-, opened, hopen, hafter⟩ := hopened
    rw [hafter]
    refine kept_update fun conn' hconn' hstate' => ?_
    cases hconn'
    exact absurd hstate' (openConnection_state H env peerAddr data hopen)

theorem kept_handleControlPacket (hoauth : H.config.oauthEnabled = true) (s : VpnServer C) :
    Kept s (handleControlPacket H env peerAddr data s).2 := by
  unfold handleControlPacket
  cases hconn : s.connections peerAddr with
  | none => exact Kept.refl s
  | some conn => exact kept_of_guarded (frames_guarded_controlBody H env peerAddr data hoauth) hconn

theorem kept_handleDataPacket (s : VpnServer C) : Kept s (handleDataPacket H env peerAddr data s).2 := by
  unfold handleDataPacket
  cases hconn : s.connections peerAddr with
  | none => exact Kept.refl s
  | some conn =>
    have hkept : Kept s (onConnection s peerAddr conn (dataBody H env data)).2 :=
      kept_of_guarded (frames_guarded_dataBody H env data) hconn
    dsimp only
    split <;> exact hkept

theorem kept_handlePacket (hoauth : H.config.oauthEnabled = true) (s : VpnServer C) :
    Kept s (handlePacket H env peerAddr data s).2 := by
  apply rel_handlePacket H env peerAddr data
  · exact fun _ _ _ => kept_handleHardReset H env peerAddr data s
  · exact fun _ _ _ => kept_handleControlPacket H env peerAddr data hoauth s
  · exact kept_handleDataPacket H env peerAddr data s

theorem respectsRoutine_kept : RespectsRoutine (C := C) Kept :=
  fun _ _ _ _ hp hconn => kept_of_guarded (hp.mono fun _ _ h => h.guarded) hconn

theorem kept_removeConnection (s : VpnServer C) (addr : SocketAddr) :
    Kept s { s with connections := Function.update s.connections addr none } :=
  kept_update fun _ h => by cases h

end Keeping

section Steps

variable {H : Host C} {w : Watched C}

theorem Authenticated.of_kept {t : System C} {completions : SocketAddr → List AuthCompleted}
    (h : Authenticated w) (hkept : Kept w.system.server t.server)
    (hcompletions : ∀ addr, w.completions addr ⊆ completions addr) : Authenticated ⟨t, completions⟩ := by
  intro addr conn' hconn' hstate'
  obtain ⟨conn, hconn, hstate, hname, htoken⟩ := hkept addr conn' hconn' hstate'
  obtain ⟨auth, hauth, hown, hemail⟩ := h addr conn hconn hstate
  exact ⟨auth, hcompletions addr hauth, htoken.trans hown, hname.trans hemail⟩

theorem storesNew_state {env : Env} {peerAddr : SocketAddr} {data : Bytes} {s : VpnServer C}
    {conn : Connection C} (h : storesNew H env peerAddr data s = true)
    (hconn : (handlePacket H env peerAddr data s).2.connections peerAddr = some conn) :
    conn.protocol.state ≠ .established := by
  have hreset : opens H env peerAddr data s = true →
      (handleHardReset H env peerAddr data s).2.connections peerAddr = some conn →
      conn.protocol.state ≠ .established := by
    intro hopens hstored
    cases handleHardReset_cases H env peerAddr data s with
    | inl hcached => exact absurd (hcached.1.symm.trans hopens) Bool.false_ne_true
    | inr hopened =>
      obtain ⟨-, opened, hopen, hafter⟩ := hopened
      rw [hafter] at hstored
      cases (Function.update_self peerAddr _ _).symm.trans hstored
      exact openConnection_state H env peerAddr data hopen
  cases data with
  | nil => cases h
  | cons first rest =>
    unfold storesNew at h
    unfold handlePacket at hconn
    dsimp only at h hconn
    cases hopcode : OpCode.fromByte first with
    | error e =>
      rw [hopcode] at h
      cases h
    | ok opcode =>
      rw [hopcode] at h hconn
      cases opcode with
      | hardResetClientV2 => exact hreset h hconn
      | hardResetClientV3 => exact hreset h hconn
      | _ => cases h

theorem Authenticated.packet (h : Authenticated w) (hoauth : H.config.oauthEnabled = true) (env : Env)
    (peerAddr : SocketAddr) (data : Bytes) : Authenticated (watch H w (.packet env peerAddr data)).2 := by
  have hkept : Kept w.system.server (handlePacket H env peerAddr data w.system.server).2 :=
    kept_handlePacket H env peerAddr data hoauth w.system.server
  cases hnew : storesNew H env peerAddr data w.system.server with
  | false =>
    refine h.of_kept hkept fun addr => ?_
    rw [noted, hnew]
    exact List.Subset.refl _
  | true =>
    intro addr conn hconn hstate
    by_cases haddr : addr = peerAddr
    · subst haddr
      exact absurd hstate (storesNew_state hnew hconn)
    · have hothers := h.of_kept (t := ⟨_, w.system.stale⟩) hkept (fun _ => List.Subset.refl _)
      obtain ⟨auth, hauth, hown⟩ := hothers addr conn hconn hstate
      refine ⟨auth, ?_, hown⟩
      simpa only [watch, noted, hnew, if_true, Function.update_of_ne haddr] using hauth

theorem handleAuthCompleted_cases (env : Env) {auth : AuthCompleted} {s : VpnServer C} {addr : SocketAddr}
    {conn' : Connection C} (h : (handleAuthCompleted H env auth s).2.connections addr = some conn') :
    s.connections addr = some conn' ∨
      ∃ pending conn, s.pendingOauths auth.state = some pending ∧ pending.peerAddr = addr ∧
        s.connections addr = some conn ∧ conn.pendingPushReply ≠ none ∧
        conn'.username = some auth.email ∧ conn'.oauthState = conn.oauthState := by
  unfold handleAuthCompleted at h
  split at h
  · rename_i pending hpending
    dsimp only at h
    split at h
    · rename_i conn hconn
      by_cases haddr : addr = pending.peerAddr
      · subst haddr
        have hafter := Option.some.inj ((Function.update_self pending.peerAddr _ _).symm.trans h)
        cases completeAuth_user H env auth ⟨conn, s.addressPool, _, [], []⟩ with
        | inl hnone =>
          have hsame : conn = conn' := (congrArg Ctx.conn hnone.2).symm.trans hafter
          exact .inl (hsame ▸ hconn)
        | inr hsome => exact .inr ⟨pending, conn, hpending, rfl, hconn, hsome.1, hafter ▸ hsome.2⟩
      · exact .inl ((Function.update_of_ne haddr _ _).symm.trans h)
    · exact .inl h
  · exact .inl h

theorem completions_subset_noted (env : Env) (auth : AuthCompleted) (addr : SocketAddr) :
    w.completions addr ⊆ noted H w (.authCompleted env auth) addr := by
  cases hpending : w.system.server.pendingOauths auth.state with
  | none => simp only [noted, hpending, List.Subset.refl]
  | some pending =>
    simp only [noted, hpending]
    by_cases haddr : addr = pending.peerAddr
    · subst haddr
      rw [Function.update_self]
      exact List.subset_cons_self _ _
    · rw [Function.update_of_ne haddr]
      exact List.Subset.refl _

theorem mem_noted (env : Env) {auth : AuthCompleted} {pending : PendingOAuth}
    (h : w.system.server.pendingOauths auth.state = some pending) :
    auth ∈ noted H w (.authCompleted env auth) pending.peerAddr := by
  simp only [noted, h, Function.update_self, List.mem_cons_self]

theorem Authenticated.authCompleted (h : Authenticated w) (env : Env) {auth : AuthCompleted}
    (hown : OwnToken w.system (.authCompleted env auth)) :
    Authenticated (watch H w (.authCompleted env auth)).2 := by
  intro addr conn' hconn' hstate'
  cases handleAuthCompleted_cases env hconn' with
  | inl hsame =>
    obtain ⟨earlier, hearlier, hrest⟩ := h addr conn' hsame hstate'
    exact ⟨earlier, completions_subset_noted (H := H) env auth addr hearlier, hrest⟩
  | inr hchanged =>
    obtain ⟨pending, conn, hpending, rfl, hconn, hreply, hemail, htoken⟩ := hchanged
    have hissued := htoken.trans (hown pending hpending conn hconn hreply)
    exact ⟨auth, mem_noted (H := H) env hpending, hissued, hemail⟩

theorem Authenticated.step (h : Authenticated w) (hoauth : H.config.oauthEnabled = true) {event : Event}
    (hown : OwnToken w.system event) : Authenticated (watch H w event).2 := by
  have hnoted : ∀ addr, w.completions addr ⊆ w.completions addr := fun _ => List.Subset.refl _
  cases event with
  | packet env peerAddr data => exact h.packet hoauth env peerAddr data
  | tunPacket env order ipPacket =>
    exact h.of_kept (rel_handleTunPacket H env ipPacket (rel_encryptTo H respectsRoutine_kept) order _) hnoted
  | keepalive env order => exact h.of_kept (rel_pingEach H (rel_encryptTo H respectsRoutine_kept) order _) hnoted
  | authCompleted env auth => exact h.authCompleted env hown
  | collectStale env timeout order =>
    refine h.of_kept ?_ hnoted
    rw [Handlers.step]
    split <;> exact Kept.refl _
  | removeStale => exact h.of_kept (rel_removeConnections kept_removeConnection _ _) hnoted

end Steps

/-- With OAuth, in every run of a new server in which each completion that
finds a reply waiting comes with the token of that connection, whoever is established
has completed the authentication for the token issued to this very connection. -/
theorem established_only_by_own_token (H : Host C) (hoauth : H.config.oauthEnabled = true) {s₀ : System C}
    (hstart : start H.config = .ok s₀) (events : List Event) (hown : EachStep (step H) OwnToken s₀ events) :
    Always (watch H) Authenticated ⟨s₀, fun _ => []⟩ events := by
  have hempty : Authenticated ⟨s₀, fun _ => []⟩ := by
    intro addr conn hconn
    rw [start_eq hstart] at hconn
    cases hconn
  exact always_of_step (fun _ _ hevent h => h.step hoauth hevent) hempty
    (eachStep_watch H (w := ⟨s₀, fun _ => []⟩) hown)

def standing (s : VpnServer C) (addr : SocketAddr) : Option (ProtocolState × Option String × Option String) :=
  (s.connections addr).map fun conn => (conn.protocol.state, conn.oauthState, conn.username)

theorem not_authenticated {w : Watched C} {addr : SocketAddr} {token : String} {username : Option String}
    (h : standing w.system.server addr = some (.established, some token, username))
    (hunused : ∀ auth ∈ w.completions addr, auth.state ≠ token) : ¬ Authenticated w := by
  intro hall
  obtain ⟨conn, hconn, hfields⟩ := Option.map_eq_some_iff.mp h
  simp only [Prod.mk.injEq] at hfields
  obtain ⟨auth, hauth, hissued, -⟩ := hall addr conn hconn hfields.1
  rw [hfields.2.1] at hissued
  exact hunused auth hauth (Option.some.inj hissued).symm

theorem established_by_own_token_one_client :
    let H := plainHost true
    let token := Lib.Text.hexPadded 32 1
    let events : List Event :=
      [.packet (atSecond 0 0) alice hardReset, .packet (atSecond 1 1) alice (keyMethod 1),
        .authCompleted (atSecond 5 0) ⟨token, "alice@example.com"⟩]
    standing (exec (step H) plainStart events).server alice =
        some (.established, some token, some "alice@example.com") ∧
      Always (watch H) Authenticated ⟨plainStart, fun _ => []⟩ events := by
  intro H token events
  have hstanding : standing (exec (step H) plainStart events).server alice =
      some (.established, some token, some "alice@example.com") := by
    decide +kernel +zetaReduce
  have hown : EachStep (step H) OwnToken plainStart events := by decide +kernel +zetaReduce
  exact ⟨hstanding, established_only_by_own_token H rfl (start_plainHost true) events hown⟩

/-- A client that connects again after 40 s, and only then completes the
authentication for the token of its first connection. That establishes the second
connection, whose own token nobody has used. -/
theorem established_by_stale_token :
    let H := plainHost true
    let token := Lib.Text.hexPadded 32 1
    let events : List Event :=
      [.packet (atSecond 0 0) alice hardReset, .packet (atSecond 1 1) alice (keyMethod 1),
        .packet (atSecond 40 0) alice hardReset, .packet (atSecond 41 2) alice (keyMethod 1),
        .authCompleted (atSecond 45 0) ⟨token, "alice@example.com"⟩]
    let w := exec (watch H) ⟨plainStart, fun _ => []⟩ events
    standing w.system.server alice =
        some (.established, some (Lib.Text.hexPadded 32 2), some "alice@example.com") ∧
      w.completions alice = [⟨token, "alice@example.com"⟩] ∧ ¬ Authenticated w := by
  intro H token events w
  have hstanding : standing w.system.server alice =
      some (.established, some (Lib.Text.hexPadded 32 2), some "alice@example.com") := by
    decide +kernel +zetaReduce
  have hcompleted : w.completions alice = [⟨token, "alice@example.com"⟩] := by
    decide +kernel +zetaReduce
  have htoken : token ≠ Lib.Text.hexPadded 32 2 := by decide +kernel +zetaReduce
  refine ⟨hstanding, hcompleted, not_authenticated hstanding fun auth hauth => ?_⟩
  rw [hcompleted, List.mem_singleton] at hauth
  rw [hauth]
  exact htoken

end CoreVpn.Server.OAuthGate
