import CoreVpn.Core.Sessions
import CoreVpn.Lib.Machine

namespace CoreVpn.Core.SessionCopies

open Lib.Computation Lib.Machine Lib.Tables Table Networks AddressPools Sessions

/-- What a holder of a copy does to it. The user of a session is a public
field, which nothing in the manager sets. -/
inductive Change where
  | transition (newState : SessionState)
  | recordRx (now : Int) (bytes : UInt64)
  | recordTx (now : Int) (bytes : UInt64)
  | touch (now : Int)
  | extend (now duration : Int)
  | identify (userId : UserId)

def Change.apply : Change → Program Session CoreError Unit
  | .transition newState => Session.transition newState
  | .recordRx now bytes => modify (Session.recordRx now bytes)
  | .recordTx now bytes => modify (Session.recordTx now bytes)
  | .touch now => modify (Session.touch now)
  | .extend now duration => modify (Session.extend now duration)
  | .identify userId => modify fun session => { session with userId := some userId }

/-- A copy of a session, and the state the session had when the copy was taken. -/
structure Held where
  copy : Session
  taken : SessionState

structure World where
  manager : SessionManager
  held : Nat → Option Held

def start (maxSessions : Nat) (defaultLifetime : Int) : World where
  manager := SessionManager.new maxSessions defaultLifetime
  held _ := none

inductive Event where
  | createSession (client : Nat) (id : SessionId) (now : Int) (clientIp : IpAddr) (clientPort : UInt16)
  | getSession (client : Nat) (id : SessionId)
  | alter (client : Nat) (change : Change)
  | updateSession (client : Nat)
  | removeSession (client : Nat) (id : SessionId)
  | terminateUserSessions (userId : UserId)
  | cleanupExpired (now : Int)

def Event.drawn : Event → Option SessionId
  | .createSession _ id _ _ _ => some id
  | _ => none

def onManager {α : Type} (p : Program SessionManager CoreError α) : Program World CoreError α :=
  zoom World.manager (fun manager w => { w with manager }) id p

def take (client : Nat) (session : Option Session) : Program World CoreError Unit :=
  modify fun w => { w with held := Function.update w.held client (session.map fun copy => ⟨copy, copy.state⟩) }

/-- A copy that has been stored may still be held, since sessions can be cloned. -/
def Event.run : Event → Program World CoreError Unit
  | .createSession client id now clientIp clientPort => do
    let session ← onManager (SessionManager.createSession id now clientIp clientPort)
    take client (some session)
  | .getSession client id => do
    let w ← get
    take client (w.manager.getSession id)
  | .alter client change => do
    let w ← get
    match w.held client with
    | some held =>
      let (result, copy) := change.apply held.copy
      modify fun w => { w with held := Function.update w.held client (some { held with copy }) }
      lift result
    | none => pure ()
  | .updateSession client => do
    let w ← get
    match w.held client with
    | some held => onManager (SessionManager.updateSession held.copy)
    | none => pure ()
  | .removeSession client id => do
    let session ← onManager (SessionManager.removeSession id)
    take client session
  | .terminateUserSessions userId => do
    let _ ← onManager (SessionManager.terminateUserSessions userId)
  | .cleanupExpired now => do
    let _ ← onManager (SessionManager.cleanupExpired now)

def step (w : World) (event : Event) : Outcome CoreError Unit × World := event.run w

def stored (w : World) (id : SessionId) : Option Session := w.manager.getSession id

/-- A session that is stored as terminated at one point of a run is, wherever
it is still stored later on, stored as terminated. -/
def StaysTerminated (w : World) (events : List Event) : Prop :=
  ∀ before between after, events = before ++ (between ++ after) → ∀ id,
    ∀ session ∈ stored (exec step w before) id, session.state = .terminated →
      ∀ later ∈ stored (exec step w (before ++ between)) id, later.state = .terminated

/-- A copy is stored over a terminated session only if the session was already
terminated when the copy was taken, or the copy was terminated since. -/
def Timely (w : World) : Event → Prop
  | .updateSession client => ∀ held ∈ w.held client, ∀ session ∈ stored w held.copy.id,
      session.state = .terminated → held.taken = .terminated ∨ held.copy.state = .terminated
  | _ => True

section Steps

variable {w : World} {event : Event} {id : SessionId}

def Shrinks (manager manager' : SessionManager) : Prop :=
  ∀ id session, manager'.sessions.find id = some session → manager.sessions.find id = some session

instance : IsPreorder SessionManager Shrinks where
  refl _ _ _ h := h
  trans _ _ _ h h' id session hfind := h id session (h' id session hfind)

theorem retainUnexpired_shrinks (now : Int) (manager : SessionManager) :
    Shrinks manager (manager.retainUnexpired now) :=
  fun _ _ h => (find_retain_eq_some.mp h).1

theorem checkCapacity_shrinks (now : Int) : Frames Shrinks (SessionManager.checkCapacity now) := by
  refine frames_bind frames_get fun manager => ?_
  by_cases hfull : manager.sessions.len ≥ manager.maxSessions
  · rw [if_pos hfull]
    refine frames_bind (frames_modify (retainUnexpired_shrinks now)) fun _ => frames_bind frames_get fun manager => ?_
    by_cases hstill : manager.sessions.len ≥ manager.maxSessions
    · rw [if_pos hstill]
      exact frames_fail _
    · rw [if_neg hstill]
      exact frames_pure ()
  · rw [if_neg hfull]
    exact frames_pure ()

theorem createSession_find {manager : SessionManager} {drawn : SessionId} {now : Int} {clientIp : IpAddr}
    {clientPort : UInt16} {session : Session}
    (h : (SessionManager.createSession drawn now clientIp clientPort manager).2.sessions.find id = some session) :
    drawn = id ∨ manager.sessions.find id = some session := by
  have hshrinks := checkCapacity_shrinks now manager
  rw [SessionManager.createSession, bind_apply] at h
  cases hroom : SessionManager.checkCapacity now manager with
  | mk result manager' =>
    rw [hroom] at h hshrinks
    cases result with
    | error e => exact .inr (hshrinks id session h)
    | ok _ =>
      by_cases hid : drawn = id
      · exact .inl hid
      · refine .inr (hshrinks id session ?_)
        rwa [← find_insert_of_ne (v := Session.new drawn now clientIp clientPort manager'.defaultLifetime)
          (Ne.symm hid)]

theorem updateSession_find {manager : SessionManager} {copy session : Session}
    (h : (SessionManager.updateSession copy manager).2.sessions.find id = some session) :
    (copy = session ∧ copy.id = id ∧ ∃ before, manager.sessions.find id = some before) ∨
      manager.sessions.find id = some session := by
  simp only [SessionManager.updateSession, bind_apply, get_apply] at h
  cases hfound : manager.sessions.find copy.id with
  | none =>
    rw [hfound] at h
    exact .inr h
  | some before =>
    rw [hfound] at h
    by_cases hid : copy.id = id
    · subst hid
      left
      exact ⟨Option.some.inj (find_insert_self.symm.trans h), rfl, before, hfound⟩
    · right
      rwa [← find_insert_of_ne (v := copy) (Ne.symm hid)]

theorem manager_of_take {α : Type} {p : Program World CoreError α} {client : Nat} {f : α → Option Session} :
    ((p >>= fun a => take client (f a)) w).2.manager = (p w).2.manager := by
  rw [bind_apply]
  cases p w with
  | mk result w' => cases result <;> rfl

/-- Where a session that is stored after a step comes from. -/
theorem stored_step {session : Session} (h : stored (step w event).2 id = some session) :
    (∃ before, stored w id = some before ∧ (before.state = .terminated → session.state = .terminated)) ∨
      event.drawn = some id ∨
      ∃ client held, event = .updateSession client ∧ w.held client = some held ∧ held.copy = session ∧
        held.copy.id = id ∧ ∃ before, stored w id = some before := by
  cases event with
  | createSession client drawn now clientIp clientPort =>
    have hmanager : (step w (.createSession client drawn now clientIp clientPort)).2.manager =
        (SessionManager.createSession drawn now clientIp clientPort w.manager).2 := manager_of_take
    rw [stored, SessionManager.getSession, hmanager] at h
    obtain hid | hfind := createSession_find h
    · exact .inr (.inl (congrArg some hid))
    · exact .inl ⟨session, hfind, fun hstate => hstate⟩
  | getSession client wanted => exact .inl ⟨session, h, fun hstate => hstate⟩
  | alter client change =>
    left
    refine ⟨session, ?_, fun hstate => hstate⟩
    rw [← h]
    simp only [step, Event.run, stored, bind_apply, get_apply]
    cases w.held client with
    | none => rfl
    | some held => rfl
  | updateSession client =>
    simp only [step, Event.run, bind_apply, get_apply] at h
    cases hheld : w.held client with
    | none =>
      rw [hheld] at h
      exact .inl ⟨session, h, fun hstate => hstate⟩
    | some held =>
      rw [hheld] at h
      obtain ⟨hcopy, hid, hbefore⟩ | hfind := updateSession_find h
      · exact .inr (.inr ⟨client, held, rfl, hheld, hcopy, hid, hbefore⟩)
      · exact .inl ⟨session, hfind, fun hstate => hstate⟩
  | removeSession client removed =>
    have hfind : (w.manager.sessions.erase removed).find id = some session := h
    exact .inl ⟨session, (find_erase_eq_some.mp hfind).2, fun hstate => hstate⟩
  | terminateUserSessions userId =>
    have hfind : (w.manager.sessions.map (SessionManager.terminate userId)).find id = some session := h
    obtain ⟨before, hbefore, rfl⟩ := find_map_eq_some.mp hfind
    refine .inl ⟨before, hbefore, fun hstate => ?_⟩
    by_cases huser : SessionManager.ofUser userId before = true
    · rw [SessionManager.terminate, if_pos huser]
    · rwa [SessionManager.terminate, if_neg huser]
  | cleanupExpired now =>
    exact .inl ⟨session, retainUnexpired_shrinks now w.manager id session h, fun hstate => hstate⟩

theorem Change.apply_terminated {change : Change} {session : Session} (h : session.state = .terminated) :
    (change.apply session).2.state = .terminated := by
  cases change with
  | transition newState =>
    simp only [Change.apply, Session.transition, bind_apply, get_apply, h]
    cases newState with
    | terminated => rfl
    | _ => exact h
  | _ => exact h

def Faithful (w : World) : Prop :=
  ∀ client held, w.held client = some held → held.taken = .terminated → held.copy.state = .terminated

def Keeps (w w' : World) : Prop := Faithful w → Faithful w'

instance : IsPreorder World Keeps where
  refl _ h := h
  trans _ _ _ h h' hw := h' (h hw)

theorem Faithful.update (hw : Faithful w) {client : Nat} {slot : Option Held}
    (h : ∀ held ∈ slot, held.taken = .terminated → held.copy.state = .terminated) :
    Faithful { w with held := Function.update w.held client slot } := by
  intro c held hheld
  by_cases hc : c = client
  · subst hc
    exact h held (by simpa using hheld)
  · exact hw c held (by simpa [hc] using hheld)

theorem onManager_keeps {α : Type} (p : Program SessionManager CoreError α) : Frames Keeps (onManager p) :=
  fun _ hw => hw

theorem take_keeps (client : Nat) (session : Option Session) : Frames Keeps (take client session) := by
  refine frames_modify fun w hw => hw.update ?_
  intro held hheld htaken
  obtain ⟨copy, -, rfl⟩ := Option.map_eq_some_iff.mp hheld
  exact htaken

theorem run_keeps (event : Event) : Frames Keeps event.run := by
  cases event with
  | createSession client id now clientIp clientPort =>
    exact frames_bind (onManager_keeps _) fun session => take_keeps client (some session)
  | getSession client id => exact frames_bind frames_get fun w => take_keeps client _
  | alter client change =>
    apply frames_get_bind
    intro w hw
    cases hheld : w.held client with
    | none => exact hw
    | some held =>
      apply hw.update
      rintro altered ⟨⟩ htaken
      exact Change.apply_terminated (hw client held hheld htaken)
  | updateSession client =>
    refine frames_bind frames_get fun w => ?_
    cases w.held client with
    | none => exact frames_pure ()
    | some held => exact onManager_keeps _
  | removeSession client id => exact frames_bind (onManager_keeps _) fun session => take_keeps client session
  | terminateUserSessions userId => exact frames_bind (onManager_keeps _) fun _ => frames_pure ()
  | cleanupExpired now => exact frames_bind (onManager_keeps _) fun _ => frames_pure ()

def Ended (id : SessionId) (w : World) : Prop := ∀ session ∈ stored w id, session.state = .terminated

theorem Ended.next (h : Ended id w) (hw : Faithful w) (htimely : Timely w event) (hdrawn : event.drawn ≠ some id) :
    Ended id (step w event).2 := by
  intro session hsession
  obtain ⟨before, hbefore, hkept⟩ | hid | ⟨client, held, rfl, hheld, rfl, rfl, before, hbefore⟩ :=
    stored_step hsession
  · exact hkept (h before hbefore)
  · exact absurd hid hdrawn
  · obtain htaken | hcopy := htimely held hheld before hbefore (h before hbefore)
    · exact hw client held hheld htaken
    · exact hcopy

end Steps

section Runs

variable {w : World} {events : List Event} {id : SessionId}

theorem drawn_of_stored {session : Session} (h : stored (exec step w events) id = some session) :
    (∃ before, stored w id = some before) ∨ id ∈ events.filterMap Event.drawn := by
  induction events generalizing w with
  | nil => exact .inl ⟨session, h⟩
  | cons event events ih =>
    obtain ⟨first, hfirst⟩ | hmem := ih h
    · obtain ⟨before, hbefore, -⟩ | hid | ⟨-, -, -, -, -, -, hbefore⟩ := stored_step hfirst
      · exact .inl ⟨before, hbefore⟩
      · exact .inr (List.mem_filterMap.mpr ⟨event, List.mem_cons_self, hid⟩)
      · exact .inl hbefore
    · obtain ⟨other, hother, hid⟩ := List.mem_filterMap.mp hmem
      exact .inr (List.mem_filterMap.mpr ⟨other, List.mem_cons_of_mem event hother, hid⟩)

theorem Ended.exec (h : Ended id w) (hw : Faithful w) (htimely : EachStep step Timely w events)
    (hdrawn : id ∉ events.filterMap Event.drawn) : Ended id (exec step w events) := by
  induction events generalizing w with
  | nil => exact h
  | cons event events ih =>
    have hhead : event.drawn ≠ some id := fun hid => hdrawn (List.mem_filterMap.mpr ⟨event, List.mem_cons_self, hid⟩)
    refine ih (h.next hw htimely.1 hhead) (run_keeps event w hw) htimely.2 fun hid => hdrawn ?_
    obtain ⟨other, hother, hid⟩ := List.mem_filterMap.mp hid
    exact List.mem_filterMap.mpr ⟨other, List.mem_cons_of_mem event hother, hid⟩

theorem faithful_exec (hw : Faithful w) (events : List Event) : Faithful (exec step w events) :=
  exec_of_step (fun w event hw => run_keeps event w hw) hw events

theorem faithful_start (maxSessions : Nat) (defaultLifetime : Int) : Faithful (start maxSessions defaultLifetime) :=
  fun _ _ h => by cases h

theorem stored_update {client : Nat} {held : Held} {session : Session} (hheld : w.held client = some held)
    (hsession : stored w held.copy.id = some session) :
    stored (step w (.updateSession client)).2 held.copy.id = some held.copy := by
  have hfind : w.manager.sessions.find held.copy.id = some session := hsession
  have hrun : step w (.updateSession client) =
      (.ok (), { w with manager := { w.manager with sessions := w.manager.sessions.insert held.copy.id held.copy } }) := by
    simp only [step, Event.run, bind_apply, get_apply, hheld, onManager, zoom, SessionManager.updateSession, hfind]
    rfl
  rw [hrun]
  exact find_insert_self

end Runs

/-- A session stays terminated in a run if and only if no copy of it from before is stored over it. -/
theorem stays_terminated_iff {maxSessions : Nat} {defaultLifetime : Int} {events : List Event}
    (hdrawn : (events.filterMap Event.drawn).Nodup) :
    StaysTerminated (start maxSessions defaultLifetime) events ↔
      EachStep step Timely (start maxSessions defaultLifetime) events := by
  constructor
  · intro hstays
    rw [EachStep.iff]
    intro before event after hevents
    cases event with
    | updateSession client =>
      intro held hheld session hsession hstate
      right
      apply hstays before [.updateSession client] after hevents held.copy.id session hsession hstate
      rw [exec_append]
      exact stored_update hheld hsession
    | _ => trivial
  · rintro htimely before between after rfl id session hsession hstate
    rw [EachStep.append, EachStep.append] at htimely
    rw [List.filterMap_append, List.filterMap_append] at hdrawn
    have hid : id ∈ before.filterMap Event.drawn := by
      obtain ⟨_, ⟨⟩⟩ | hid := drawn_of_stored hsession
      exact hid
    have hbetween : id ∉ between.filterMap Event.drawn := by
      intro hmem
      exact List.disjoint_of_nodup_append hdrawn hid (List.mem_append_left _ hmem)
    have hended : Ended id (exec step (start maxSessions defaultLifetime) before) := by
      intro other hother
      cases hsession.symm.trans hother
      exact hstate
    rw [exec_append]
    exact hended.exec (faithful_exec (faithful_start _ _) before) htimely.2.1 hbetween

def localhost : IpAddr := .v4 (Networks.ofOctets 127 0 0 1)

def orderlyEvents : List Event :=
  [.createSession 0 7 0 localhost 40000, .alter 0 (.transition .terminated), .updateSession 0,
    .getSession 1 7, .alter 1 (.recordRx 1 100), .updateSession 1]

theorem stays_terminated_orderly :
    (orderlyEvents.filterMap Event.drawn).Nodup ∧ EachStep step Timely (start 10 3600) orderlyEvents ∧
      StaysTerminated (start 10 3600) orderlyEvents := by
  have hdrawn : (orderlyEvents.filterMap Event.drawn).Nodup := by decide
  have htimely : EachStep step Timely (start 10 3600) orderlyEvents := by
    refine ⟨trivial, trivial, ?_, trivial, trivial, ?_, trivial⟩
    · rintro held ⟨⟩ session hsession hstate
      exact .inr rfl
    · rintro held ⟨⟩ session hsession hstate
      exact .inl rfl
  exact ⟨hdrawn, htimely, (stays_terminated_iff hdrawn).mpr htimely⟩

/-- One client terminates the sessions of a user while another one counts a packet. -/
def overtakenEvents : List Event :=
  [.createSession 0 7 0 localhost 40000, .alter 0 (.identify "alice"), .updateSession 0,
    .getSession 1 7, .terminateUserSessions "alice", .alter 1 (.recordRx 1 100), .updateSession 1]

theorem overtaken_session_revived :
    (overtakenEvents.filterMap Event.drawn).Nodup ∧ ¬ StaysTerminated (start 10 3600) overtakenEvents := by
  refine ⟨by decide, fun hstays => ?_⟩
  have hended : (stored (exec step (start 10 3600) (overtakenEvents.take 5)) 7).map Session.state =
      some .terminated := by decide +kernel
  have hrevived : (stored (exec step (start 10 3600) (overtakenEvents.take 5 ++ overtakenEvents.drop 5)) 7).map
      Session.state = some .connecting := by decide +kernel
  obtain ⟨session, hsession, hstate⟩ := Option.map_eq_some_iff.mp hended
  obtain ⟨later, hlater, hconnecting⟩ := Option.map_eq_some_iff.mp hrevived
  have hterminated := hstays (overtakenEvents.take 5) (overtakenEvents.drop 5) [] rfl 7 session hsession hstate
    later hlater
  rw [hconnecting] at hterminated
  cases hterminated

end CoreVpn.Core.SessionCopies
