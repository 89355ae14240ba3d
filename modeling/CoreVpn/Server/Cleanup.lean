import CoreVpn.Server.AddressLeases
import CoreVpn.Server.PlainHost

namespace CoreVpn.Server.Cleanup

open Lib.Computation Lib.Wire Lib.Machine Core.Networks Protocol.Opcodes Protocol.Reliable Protocol.TlsHandlers
open Events Connections KeyExchange ControlPackets Handlers HandlerFrames HandlerEffects AddressLeases PlainHost

variable {C : Type}

section Renewals

variable (H : Host C)

def packetRenews (env : Env) (peerAddr : SocketAddr) (data : Bytes) (s : VpnServer C) : Bool :=
  match data with
  | [] => false
  | first :: _ =>
    match OpCode.fromByte first with
    | .ok .hardResetClientV2 | .ok .hardResetClientV3 => opens H env peerAddr data s
    | .ok .controlV1 | .ok .ackV1 | .ok .softResetV1 | .ok .dataV1 | .ok .dataV2 => (s.connections peerAddr).isSome
    | _ => false

def renews (s : VpnServer C) (addr : SocketAddr) : Event → Bool
  | .packet env peerAddr data => peerAddr = addr && packetRenews H env peerAddr data s
  | _ => false

end Renewals

/-- The server, with a record of its cleanup: when it last collected, and which
connections were touched or replaced since. -/
structure Watched (C : Type) where
  system : System C
  now : Instant
  timeout : Duration
  renewed : SocketAddr → Bool

def collected (env : Env) (timeout : Duration) (order : List SocketAddr) (s : VpnServer C) : Watched C where
  system := ⟨s, staleConnections env timeout order s⟩
  now := env.clock.now
  timeout := timeout
  renewed _ := false

def watch (H : Host C) (w : Watched C) (event : Event) : Response × Watched C :=
  let (response, system) := step H w.system event
  match event with
  | .collectStale env timeout order =>
    if w.system.stale.isEmpty then (response, collected env timeout order w.system.server)
    else (response, w)
  | _ =>
    (response, { w with system, renewed := fun addr => w.renewed addr || renews H w.system.server addr event })

/-- The record changes nothing in what the server does. -/
theorem watch_system (H : Host C) (w : Watched C) (event : Event) :
    (watch H w event).2.system = (step H w.system event).2 := by
  cases event with
  | collectStale env timeout order =>
    cases hempty : w.system.stale.isEmpty with
    | true => simp [watch, step, hempty, collected]
    | false => simp [watch, step, hempty]
  | _ => rfl

def watchFrom (s : System C) : Watched C := ⟨s, 0, 0, fun _ => false⟩

/-- What the cleanup removes is a connection that it collected as stale, and
that was neither touched nor replaced since. -/
def RemovesStale (w : Watched C) : Event → Prop
  | .removeStale => ∀ c ∈ w.system.stale, ∀ conn, w.system.server.connections c.addr = some conn →
      conn.connectionId = c.connectionId ∧ conn.isStale w.now w.timeout = true ∧ w.renewed c.addr = false
  | _ => True

/-- No packet touches or replaces a connection that waits to be removed. -/
def Undisturbed (H : Host C) (w : Watched C) (event : Event) : Prop :=
  ∀ c ∈ w.system.stale, renews H w.system.server c.addr event = false

instance (H : Host C) (w : Watched C) (event : Event) : Decidable (Undisturbed H w event) :=
  inferInstanceAs (Decidable (∀ c ∈ w.system.stale, renews H w.system.server c.addr event = false))

section Untouched

structure Untouched (conn conn' : Connection C) : Prop where
  connectionId : conn'.connectionId = conn.connectionId
  lastActivity : conn'.lastActivity = conn.lastActivity

def UntouchedCtx (s t : Ctx C) : Prop := Untouched s.conn t.conn

instance : IsPreorder (Ctx C) UntouchedCtx where
  refl _ := ⟨rfl, rfl⟩
  trans _ _ _ h h' := ⟨h'.1.trans h.1, h'.2.trans h.2⟩

instance : Quiet (UntouchedCtx (C := C)) where
  session _ _ _ := ⟨rfl, rfl⟩
  stats _ _ := ⟨rfl, rfl⟩
  packets _ _ := ⟨rfl, rfl⟩

instance {E : TlsEngine C} : ThroughTls E UntouchedCtx := ⟨fun _ _ _ _ _ => ⟨rfl, rfl⟩⟩

theorem untouched_completeAuth (H : Host C) (env : Env) (auth : AuthCompleted) :
    Frames UntouchedCtx (completeAuth H env auth) := by
  refine frames_bind frames_get fun s => ?_
  split
  · refine frames_bind (frames_modify fun _ => ⟨rfl, rfl⟩) fun _ => ?_
    split
    · refine frames_bind (frames_tryWrite H _) fun written => ?_
      split
      · exact frames_bind (frames_flushTls H _) fun _ => frames_modify fun _ => ⟨rfl, rfl⟩
      · exact frames_pure ()
    · exact frames_pure ()
  · exact frames_pure ()

def UntouchedAt (addr : SocketAddr) (s t : VpnServer C) : Prop :=
  ∀ conn', t.connections addr = some conn' → ∃ conn, s.connections addr = some conn ∧ Untouched conn conn'

instance (addr : SocketAddr) : IsPreorder (VpnServer C) (UntouchedAt addr) where
  refl _ conn h := ⟨conn, h, rfl, rfl⟩
  trans _ _ _ h h' conn hconn := by
    obtain ⟨middle, hmiddle, hlater⟩ := h' conn hconn
    obtain ⟨first, hfirst, hearlier⟩ := h middle hmiddle
    exact ⟨first, hfirst, hlater.1.trans hearlier.1, hlater.2.trans hearlier.2⟩

variable {addr : SocketAddr} {s t : VpnServer C}

theorem untouchedAt_of_eq (h : t.connections addr = s.connections addr) : UntouchedAt addr s t :=
  fun conn hconn => ⟨conn, h ▸ hconn, rfl, rfl⟩

theorem untouchedAt_onConnection {α : Type} {other : SocketAddr} {conn : Connection C} {p : Handler C α}
    (hp : Frames UntouchedCtx p) (hconn : s.connections other = some conn) :
    UntouchedAt addr s (onConnection s other conn p).2 := by
  by_cases ha : addr = other
  · subst ha
    intro after hafter
    change Function.update s.connections addr (some _) addr = some after at hafter
    rw [Function.update_self] at hafter
    cases hafter
    exact ⟨conn, hconn, hp ⟨conn, s.addressPool, s.pendingOauths, [], []⟩⟩
  · exact untouchedAt_of_eq (Function.update_of_ne ha _ _)

theorem untouchedAt_encryptTo (H : Host C) (data : Bytes) (other : SocketAddr) (s : VpnServer C) :
    UntouchedAt addr s (encryptTo H data other s).2 := by
  unfold encryptTo
  cases hconn : s.connections other with
  | none => exact refl_of (UntouchedAt addr) s
  | some conn => exact untouchedAt_onConnection (frames_encryptFor H data) hconn

theorem untouchedAt_handleAuthCompleted (H : Host C) (env : Env) (auth : AuthCompleted) (s : VpnServer C) :
    UntouchedAt addr s (handleAuthCompleted H env auth s).2 := by
  unfold handleAuthCompleted
  split
  · dsimp only
    split
    · rename_i conn hconn
      exact untouchedAt_onConnection (s := { s with pendingOauths := _ }) (untouched_completeAuth H env auth) hconn
    · exact untouchedAt_of_eq rfl
  · exact refl_of (UntouchedAt addr) s

theorem handlePacket_of_not_renews (H : Host C) {env : Env} {data : Bytes}
    (h : packetRenews H env addr data s = false) : (handlePacket H env addr data s).2 = s := by
  have hreset : opens H env addr data s = false → (handleHardReset H env addr data s).2 = s := by
    intro hclosed
    obtain ⟨-, hafter⟩ | ⟨hopens, -⟩ := handleHardReset_cases H env addr data s
    · exact hafter
    · rw [hclosed] at hopens
      cases hopens
  have hcontrol : (s.connections addr).isSome = false → (handleControlPacket H env addr data s).2 = s := by
    intro hnone
    rw [Option.isSome_eq_false_iff, Option.isNone_iff_eq_none] at hnone
    rw [handleControlPacket, hnone]
  have hdata : (s.connections addr).isSome = false → (handleDataPacket H env addr data s).2 = s := by
    intro hnone
    rw [Option.isSome_eq_false_iff, Option.isNone_iff_eq_none] at hnone
    rw [handleDataPacket, hnone]
  cases data with
  | nil => rfl
  | cons first rest =>
    simp only [packetRenews] at h
    simp only [handlePacket]
    cases hop : OpCode.fromByte first with
    | error e => rfl
    | ok opcode =>
      rw [hop] at h
      cases opcode with
      | hardResetClientV2 => exact hreset h
      | hardResetClientV3 => exact hreset h
      | controlV1 => exact hcontrol h
      | ackV1 => exact hcontrol h
      | softResetV1 => exact hcontrol h
      | dataV1 => exact hdata h
      | dataV2 => exact hdata h
      | _ => rfl

theorem untouchedAt_step (H : Host C) {s : System C} {event : Event} (h : renews H s.server addr event = false) :
    UntouchedAt addr s.server (step H s event).2.server := by
  refine rel_step H s event (fun env peerAddr data hevent => ?_) (untouchedAt_encryptTo H)
    (fun env auth => untouchedAt_handleAuthCompleted H env auth s.server) fun s other => ?_
  · subst hevent
    by_cases ha : addr = peerAddr
    · subst ha
      rw [handlePacket_of_not_renews H (by simpa [renews] using h)]
      exact refl_of (UntouchedAt addr) s.server
    · exact untouchedAt_of_eq (handlePacket_of_ne H env peerAddr data ha s.server)
  · by_cases ha : addr = other
    · subst ha
      intro conn hconn
      cases (Function.update_self addr none s.connections).symm.trans hconn
    · exact untouchedAt_of_eq (Function.update_of_ne ha _ _)

end Untouched

section Rounds

variable {H : Host C} {w : Watched C} {event : Event}

def Pending (w : Watched C) : Prop :=
  ∀ c ∈ w.system.stale, w.renewed c.addr = false ∧ ∀ conn, w.system.server.connections c.addr = some conn →
    conn.connectionId = c.connectionId ∧ conn.isStale w.now w.timeout = true

theorem pending_collected (env : Env) (timeout : Duration) (order : List SocketAddr) (s : VpnServer C) :
    Pending (collected env timeout order s) := by
  intro c hc
  refine ⟨rfl, fun conn hconn => ?_⟩
  obtain ⟨addr, -, hstale⟩ := List.mem_filterMap.mp hc
  change s.connections c.addr = some conn at hconn
  cases hfound : s.connections addr with
  | none =>
    rw [hfound] at hstale
    cases hstale
  | some found =>
    rw [hfound] at hstale
    by_cases his : found.isStale env.clock.now timeout = true
    · simp only [his, if_true, Option.some.injEq] at hstale
      subst hstale
      cases hfound.symm.trans hconn
      exact ⟨rfl, his⟩
    · simp only [his] at hstale
      cases hstale

theorem Pending.undisturbed (hw : Pending w) (h : Undisturbed H w event)
    (hstale : (step H w.system event).2.stale = w.system.stale) :
    Pending { w with
      system := (step H w.system event).2
      renewed := fun addr => w.renewed addr || renews H w.system.server addr event } := by
  intro c hc
  change c ∈ (step H w.system event).2.stale at hc
  rw [hstale] at hc
  obtain ⟨hrenewed, hconn⟩ := hw c hc
  refine ⟨?_, fun after hafter => ?_⟩
  · change (w.renewed c.addr || renews H w.system.server c.addr event) = false
    rw [hrenewed, h c hc]
    rfl
  · obtain ⟨conn, hbefore, huntouched⟩ := untouchedAt_step H (h c hc) after hafter
    obtain ⟨hid, hisStale⟩ := hconn conn hbefore
    refine ⟨huntouched.connectionId.trans hid, ?_⟩
    rwa [Connection.isStale, huntouched.lastActivity]

theorem Pending.next (hw : Pending w) (h : Undisturbed H w event) : Pending (watch H w event).2 := by
  cases event with
  | collectStale env timeout order =>
    cases hempty : w.system.stale.isEmpty with
    | true =>
      simp only [watch, hempty, if_true]
      exact pending_collected env timeout order w.system.server
    | false =>
      simp only [watch, hempty]
      exact hw
  | removeStale =>
    intro c hc
    cases hc
  | packet env peerAddr data => exact hw.undisturbed h rfl
  | tunPacket env order ipPacket => exact hw.undisturbed h rfl
  | keepalive env order => exact hw.undisturbed h rfl
  | authCompleted env auth => exact hw.undisturbed h rfl

theorem Pending.removesStale (hw : Pending w) (event : Event) : RemovesStale w event := by
  cases event with
  | removeStale =>
    intro c hc conn hconn
    obtain ⟨hrenewed, hcollected⟩ := hw c hc
    exact ⟨(hcollected conn hconn).1, (hcollected conn hconn).2, hrenewed⟩
  | _ => trivial

end Rounds

/-- As long as no packet touches or replaces a connection that waits to be
removed, the cleanup removes nothing but stale connections. -/
theorem cleanup_removes_stale (H : Host C) {s₀ : System C} (hstart : start H.config = .ok s₀)
    {events : List Event} (h : EachStep (watch H) (Undisturbed H) (watchFrom s₀) events) :
    EachStep (watch H) RemovesStale (watchFrom s₀) events := by
  have hpending : Pending (watchFrom s₀) := by
    rw [start_eq hstart]
    intro c hc
    cases hc
  exact EachStep.of_invariant (fun _ _ hundisturbed hw => Pending.next hw hundisturbed)
    (fun _ event _ hw => Pending.removesStale hw event) hpending h

def silentEvents : List Event :=
  connecting ++ [.collectStale (atSecond 400 0) 300000000000 [alice], .removeStale]

theorem cleanup_removes_silent_client :
    start (plainHost false).config = .ok plainStart ∧
      EachStep (watch (plainHost false)) (Undisturbed (plainHost false)) (watchFrom plainStart) silentEvents ∧
      EachStep (watch (plainHost false)) RemovesStale (watchFrom plainStart) silentEvents := by
  have hundisturbed : EachStep (watch (plainHost false)) (Undisturbed (plainHost false)) (watchFrom plainStart)
      silentEvents := by decide +kernel
  exact ⟨start_plainHost false, hundisturbed, cleanup_removes_stale _ (start_plainHost false) hundisturbed⟩

/-- A client that is heard of again while the cleanup logs its disconnection. -/
def returningEvents : List Event :=
  connecting ++ [.collectStale (atSecond 400 0) 300000000000 [alice], .packet (atSecond 400 0) alice (keyMethod 2)]

theorem cleanup_removes_live_client :
    ¬ EachStep (watch (plainHost false)) RemovesStale (watchFrom plainStart) (returningEvents ++ [.removeStale]) := by
  rw [EachStep.append]
  rintro ⟨-, hremoves, -⟩
  have hstale : ((exec (watch (plainHost false)) (watchFrom plainStart) returningEvents).system.stale.map
      StaleConnection.addr) = [alice] := by decide +kernel
  have hlive : ((exec (watch (plainHost false)) (watchFrom plainStart) returningEvents).system.server.connections
      alice).isSome = true := by decide +kernel
  have hrenewed : (exec (watch (plainHost false)) (watchFrom plainStart) returningEvents).renewed alice = true := by
    decide +kernel
  obtain ⟨c, hc, haddr⟩ := List.mem_map.mp (hstale ▸ List.mem_singleton_self alice)
  obtain ⟨conn, hconn⟩ := Option.isSome_iff_exists.mp hlive
  obtain ⟨-, -, hquiet⟩ := hremoves c hc conn (haddr ▸ hconn)
  rw [haddr, hrenewed] at hquiet
  cases hquiet

end CoreVpn.Server.Cleanup
