import CoreVpn.Server.AddressLeases
import CoreVpn.Server.PlainHost

namespace CoreVpn.Server.EventLog

open Lib.Computation Lib.Wire Lib.Machine Core.Networks Protocol.Reliable Protocol.TlsHandlers
open Events Connections KeyExchange ControlPackets Handlers HandlerFrames HandlerEffects AddressLeases PlainHost

variable {C : Type}

section Programs

def KeepsLog (I : List ConnectionEvent → Prop) (s t : Ctx C) : Prop := I s.logEvents → I t.logEvents

variable {I : List ConnectionEvent → Prop}

instance : IsPreorder (Ctx C) (KeepsLog I) where
  refl _ := id
  trans _ _ _ h h' := h' ∘ h

instance {E : TlsEngine C} : ThroughTls E (KeepsLog I) := ⟨fun _ _ _ _ _ => id⟩

instance : Handled (KeepsLog (C := C) I) where
  session _ _ _ := id
  stats _ _ := id
  packets _ _ := id
  username _ _ := id
  setCipherSuite _ _ := id
  conn _ _ _ _ _ := id
  incoming _ _ _ _ := id
  setState _ _ _ := id

theorem logged_deliver {s : Ctx C} {p : Handler C Unit} (hp : Frames (KeepsLog I) p) (env : Env)
    (peerAddr : SocketAddr) (hnil : I []) (hs : I s.logEvents) : I (deliver env peerAddr (p s)).logged := by
  unfold deliver
  split
  · exact hp s hs
  · exact hnil

theorem logged_handleAuthCompleted (H : Host C) (env : Env) (auth : AuthCompleted) (s : VpnServer C) :
    (handleAuthCompleted H env auth s).1.logged = [] := by
  unfold handleAuthCompleted
  split
  · dsimp only
    split
    · exact logged_deliver (I := fun log => log = []) (frames_completeAuth H env auth) env _ rfl rfl
    · rfl
  · rfl

theorem logged_handleDataPacket (H : Host C) (env : Env) (peerAddr : SocketAddr) (data : Bytes)
    (s : VpnServer C) : (handleDataPacket H env peerAddr data s).1.logged = [] := by
  unfold handleDataPacket
  split
  · dsimp only
    split <;> rfl
  · rfl

theorem logged_handleTunPacket (H : Host C) (env : Env) (order : List SocketAddr) (ipPacket : Bytes)
    (s : VpnServer C) : (handleTunPacket H env order ipPacket s).1.logged = [] := by
  unfold handleTunPacket
  split
  · split <;> rfl
  · rfl

theorem logged_handleHardReset (H : Host C) (env : Env) (peerAddr : SocketAddr) (data : Bytes)
    (s : VpnServer C) : (handleHardReset H env peerAddr data s).1.logged ⊆ noteAttempt H env peerAddr := by
  unfold handleHardReset
  split
  · exact List.nil_subset _
  · dsimp only
    split
    · split <;> exact List.Subset.refl _
    · exact List.Subset.refl _

end Programs

section Settings

/-- The settings ask for an event. The statistics in a disconnection have a
setting of their own. -/
def enabled (settings : ConnectionLogEvents) : ConnectionEvent → Bool
  | .connectionAttempt .. => settings.attempts
  | .authentication .. => settings.authEvents
  | .connected .. => settings.connects
  | .disconnected _ _ _ _ _ _ stats => settings.disconnects && (stats.isNone || settings.transferStats)
  | .ipChange .. => settings.ipChanges
  | .renegotiation .. => settings.renegotiations

def AllEnabled (settings : ConnectionLogEvents) (log : List ConnectionEvent) : Prop :=
  ∀ event ∈ log, enabled settings event = true

instance (settings : ConnectionLogEvents) (log : List ConnectionEvent) : Decidable (AllEnabled settings log) :=
  inferInstanceAs (Decidable (∀ event ∈ log, enabled settings event = true))

theorem allEnabled_nil (settings : ConnectionLogEvents) : AllEnabled settings [] := nofun

variable (H : Host C) (env : Env) (peerAddr : SocketAddr) (data : Bytes)

theorem frames_logEvent {event : ConnectionEvent} (h : enabled H.config.connectionEvents event = true) :
    Frames (KeepsLog (AllEnabled H.config.connectionEvents)) (logEvent event : Handler C Unit) := by
  refine frames_modify fun s hs e he => ?_
  obtain hold | hnew := List.mem_append.mp he
  · exact hs e hold
  · rwa [List.mem_singleton.mp hnew]

instance : Notes H (KeepsLog (AllEnabled H.config.connectionEvents)) where
  renegotiation env peerAddr := by
    refine frames_bind frames_get fun s => ?_
    split
    · rename_i hsetting
      exact frames_logEvent H hsetting
    · exact frames_pure ()
  authentication env peerAddr := by
    refine frames_bind frames_get fun s => ?_
    split
    · rename_i hsetting
      exact frames_logEvent H hsetting
    · exact frames_pure ()

theorem allEnabled_handleControlPacket (s : VpnServer C) :
    AllEnabled H.config.connectionEvents (handleControlPacket H env peerAddr data s).1.logged := by
  have hnil := allEnabled_nil H.config.connectionEvents
  unfold handleControlPacket
  split
  · refine logged_deliver (frames_controlBody H env peerAddr data (fun _ _ _ => id) fun _ _ _ => id) env
      peerAddr hnil hnil
  · exact hnil

theorem allEnabled_noteAttempt :
    AllEnabled H.config.connectionEvents (noteAttempt H env peerAddr) := by
  intro event hevent
  unfold noteAttempt at hevent
  split at hevent
  · rename_i hsetting
    rw [List.mem_singleton.mp hevent]
    exact hsetting
  · cases hevent

theorem allEnabled_handlePacket (s : VpnServer C) :
    AllEnabled H.config.connectionEvents (handlePacket H env peerAddr data s).1.logged := by
  obtain ⟨_, _, _, h⟩ | ⟨_, _, _, h⟩ | ⟨_, _, _, h⟩ | ⟨result, h⟩ := handlePacket_cases H env peerAddr data s
  · rw [h]
    exact fun event hevent =>
      allEnabled_noteAttempt H env peerAddr event (logged_handleHardReset H env peerAddr data s hevent)
  · rw [h]
    exact allEnabled_handleControlPacket H env peerAddr data s
  · rw [h, logged_handleDataPacket]
    exact allEnabled_nil _
  · rw [h]
    exact allEnabled_nil _

end Settings

section Cleanup

def findsStale (s : System C) : Event → Bool
  | .collectStale env timeout order =>
    s.stale.isEmpty &&
      order.any fun addr => (s.server.connections addr).any (Connection.isStale env.clock.now timeout)
  | _ => false

theorem staleConnections_eq_nil_iff (env : Env) (timeout : Duration) (order : List SocketAddr)
    (s : VpnServer C) :
    staleConnections env timeout order s = [] ↔
      order.any (fun addr => (s.connections addr).any (Connection.isStale env.clock.now timeout)) = false := by
  rw [staleConnections, List.filterMap_eq_nil_iff, List.any_eq_false]
  refine forall₂_congr fun addr _ => ?_
  cases s.connections addr with
  | none => simp
  | some conn => simp

theorem allEnabled_noteDisconnection_iff (settings : ConnectionLogEvents) (env : Env)
    (stale : List StaleConnection) :
    AllEnabled settings (stale.map (noteDisconnection env)) ↔
      (stale ≠ [] → settings.disconnects = true ∧ settings.transferStats = true) := by
  have hnote : ∀ c, enabled settings (noteDisconnection env c) = true ↔
      settings.disconnects = true ∧ settings.transferStats = true := by
    intro c
    simp [noteDisconnection, ConnectionEventBuilder.disconnected, enabled]
  constructor
  · intro h hne
    obtain ⟨c, hc⟩ := List.exists_mem_of_ne_nil stale hne
    exact (hnote c).mp (h _ (List.mem_map_of_mem hc))
  · intro h event hevent
    obtain ⟨c, hc, rfl⟩ := List.mem_map.mp hevent
    exact (hnote c).mpr (h (List.ne_nil_of_mem hc))

end Cleanup

section Runs

variable (H : Host C)

def LogsEnabled (s : System C) (event : Event) : Prop :=
  AllEnabled H.config.connectionEvents (step H s event).1.logged

/-- A stale connection is found only if disconnections are to be logged with
their statistics. -/
def DisconnectsAsked (s : System C) (event : Event) : Prop :=
  findsStale s event = true →
    H.config.connectionEvents.disconnects = true ∧ H.config.connectionEvents.transferStats = true

instance (s : System C) (event : Event) : Decidable (LogsEnabled H s event) :=
  inferInstanceAs (Decidable (AllEnabled _ _))

theorem logsEnabled_iff (s : System C) (event : Event) :
    LogsEnabled H s event ↔ DisconnectsAsked H s event := by
  have hquiet : ∀ {log : List ConnectionEvent}, log = [] →
      (AllEnabled H.config.connectionEvents log ↔ (false = true →
        H.config.connectionEvents.disconnects = true ∧ H.config.connectionEvents.transferStats = true)) := by
    rintro _ rfl
    exact iff_of_true (allEnabled_nil _) nofun
  cases event with
  | packet env peerAddr data =>
    exact iff_of_true (allEnabled_handlePacket H env peerAddr data s.server) nofun
  | tunPacket env order ipPacket => exact hquiet (logged_handleTunPacket H env order ipPacket s.server)
  | keepalive env order => exact hquiet rfl
  | authCompleted env auth => exact hquiet (logged_handleAuthCompleted H env auth s.server)
  | removeStale => exact hquiet rfl
  | collectStale env timeout order =>
    unfold LogsEnabled DisconnectsAsked
    rw [step, findsStale]
    cases s.stale.isEmpty with
    | false => exact hquiet rfl
    | true =>
      rw [if_pos rfl, allEnabled_noteDisconnection_iff, Bool.true_and, Ne, staleConnections_eq_nil_iff,
        Bool.not_eq_false]

/-- In a run of the server every logged event is enabled if and only if the
cleanup finds a stale connection only where both disconnections and their
statistics are enabled. -/
theorem logged_events_enabled_iff (s : System C) (events : List Event) :
    EachStep (step H) (LogsEnabled H) s events ↔ EachStep (step H) (DisconnectsAsked H) s events := by
  have hsteps : LogsEnabled H = DisconnectsAsked H := by
    funext s event
    exact propext (logsEnabled_iff H s event)
  rw [hsteps]

end Runs

def loggingHost (oauth : Bool) (settings : ConnectionLogEvents) : Host Bytes :=
  { plainHost oauth with config := { (plainHost oauth).config with connectionEvents := settings } }

theorem start_loggingHost (oauth : Bool) (settings : ConnectionLogEvents) :
    start (loggingHost oauth settings).config = .ok plainStart := start_plainHost oauth

/-- A client falls silent. Its disconnection is logged although disconnections
are not enabled, and with statistics although these are not. -/
theorem disabled_disconnection_logged :
    let events := connecting ++ [.collectStale (atSecond 400 0) 300000000000 [alice]]
    ∀ settings ∈ [{ disconnects := false, transferStats := true }, {}],
      start (loggingHost false settings).config = .ok plainStart ∧
        ¬ EachStep (step (loggingHost false settings)) (LogsEnabled (loggingHost false settings)) plainStart
          events := by
  intro events settings hsettings
  refine ⟨start_loggingHost false settings, ?_⟩
  revert settings
  decide +kernel +zetaReduce

end CoreVpn.Server.EventLog
