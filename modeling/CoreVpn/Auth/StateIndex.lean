import CoreVpn.Auth.AuthSessions
import CoreVpn.Lib.Machine

namespace CoreVpn.Auth.StateIndex

open Lib.Computation Lib.Machine Lib.Tables Table Errors AuthSessions AuthSessionManager

/-- The calls on a manager. A session that is stored again may be any session,
however it was obtained and changed. -/
inductive Call where
  | createSession (draw : Draw) (provider : String)
  | getSession (id : String) (clientIp : Option String) (now : Int)
  | getSessionByState (token : String) (clientIp : Option String) (now : Int)
  | updateSession (session : AuthSession)
  | removeSession (id : String)
  | removeUserSessions (email : String)
  | cleanupExpired (now : Int)

def Call.run (isRandomUuid : String → Bool) : Call → Program AuthSessionManager AuthError (Option AuthSession)
  | .createSession draw provider => some <$> AuthSessionManager.createSession draw provider
  | .getSession id clientIp now => AuthSessionManager.getSession isRandomUuid id clientIp now
  | .getSessionByState token clientIp now => AuthSessionManager.getSessionByState isRandomUuid token clientIp now
  | .updateSession session => do
    AuthSessionManager.updateSession session
    return none
  | .removeSession id => AuthSessionManager.removeSession id
  | .removeUserSessions email => do
    let _ ← AuthSessionManager.removeUserSessions email
    return none
  | .cleanupExpired now => do
    let _ ← AuthSessionManager.cleanupExpired now
    return none

def step (isRandomUuid : String → Bool) (manager : AuthSessionManager) (call : Call) :
    Outcome AuthError (Option AuthSession) × AuthSessionManager :=
  call.run isRandomUuid manager

/-- The index has an entry for every token of a stored session, and no others. -/
def Exact (manager : AuthSessionManager) : Prop :=
  ∀ token id, manager.sessionsByState.find token = some id ↔
    ∃ session, manager.sessions.find id = some session ∧ session.state = some token

/-- What is drawn for a new session is not in use. -/
def Fresh (manager : AuthSessionManager) : Call → Prop
  | .createSession draw _ => manager.sessions.find draw.id = none ∧ manager.sessionsByState.find draw.state = none
  | _ => True

/-- A session is stored again with the token of the one it replaces. -/
def KeepsToken (manager : AuthSessionManager) : Call → Prop
  | .updateSession session => ∀ before ∈ manager.sessions.find session.id, session.state = before.state
  | _ => True

section Steps

variable {manager manager' : AuthSessionManager}

theorem Exact.of_tables (h : Exact manager) (hsessions : manager'.sessions = manager.sessions)
    (hindex : manager'.sessionsByState = manager.sessionsByState) : Exact manager' := by
  intro token id
  rw [hsessions, hindex]
  exact h token id

theorem Exact.create (session : AuthSession) {token : String} (h : Exact manager)
    (htoken : session.state = some token) (hid : manager.sessions.find session.id = none)
    (hfree : manager.sessionsByState.find token = none)
    (hsessions : manager'.sessions = manager.sessions.insert session.id session)
    (hindex : manager'.sessionsByState = manager.sessionsByState.insert token session.id) : Exact manager' := by
  intro other id
  rw [hsessions, hindex]
  by_cases ho : other = token
  · subst ho
    rw [find_insert_self]
    constructor
    · rintro ⟨⟩
      exact ⟨session, find_insert_self, htoken⟩
    · rintro ⟨found, hfound, hstate⟩
      by_cases hi : id = session.id
      · rw [hi]
      · rw [find_insert_of_ne hi] at hfound
        rw [(h other id).mpr ⟨found, hfound, hstate⟩] at hfree
        cases hfree
  · rw [find_insert_of_ne ho, h other id]
    by_cases hi : id = session.id
    · subst hi
      rw [find_insert_self, hid]
      constructor
      · rintro ⟨_, ⟨⟩, _⟩
      · rintro ⟨found, ⟨⟩, hstate⟩
        exact absurd (Option.some.inj (hstate.symm.trans htoken)) ho
    · rw [find_insert_of_ne hi]

theorem Exact.remove (gone dead : String → Prop) (h : Exact manager)
    (hsessions : ∀ id session, manager'.sessions.find id = some session ↔
      ¬ gone id ∧ manager.sessions.find id = some session)
    (hindex : ∀ token id, manager'.sessionsByState.find token = some id ↔
      ¬ dead token ∧ manager.sessionsByState.find token = some id)
    (hdead : ∀ token, dead token ↔
      ∃ id session, gone id ∧ manager.sessions.find id = some session ∧ session.state = some token) :
    Exact manager' := by
  intro token id
  rw [hindex, h token id]
  constructor
  · rintro ⟨halive, session, hfind, hstate⟩
    refine ⟨session, (hsessions id session).mpr ⟨fun hgone => ?_, hfind⟩, hstate⟩
    exact halive ((hdead token).mpr ⟨id, session, hgone, hfind, hstate⟩)
  · rintro ⟨session, hfind, hstate⟩
    obtain ⟨hkept, hfind⟩ := (hsessions id session).mp hfind
    refine ⟨fun htoken => ?_, session, hfind, hstate⟩
    obtain ⟨other, found, hgone, hother, hsame⟩ := (hdead token).mp htoken
    have heq := ((h token other).mpr ⟨found, hother, hsame⟩).symm.trans ((h token id).mpr ⟨session, hfind, hstate⟩)
    cases heq
    exact hkept hgone

theorem exact_update_iff {session before : AuthSession} (h : Exact manager)
    (hfind : manager.sessions.find session.id = some before)
    (hsessions : manager'.sessions = manager.sessions.insert session.id session)
    (hindex : manager'.sessionsByState = manager.sessionsByState) :
    Exact manager' ↔ session.state = before.state := by
  constructor
  · intro hexact
    apply Option.ext
    intro token
    have hafter := hexact token session.id
    have hbefore := h token session.id
    rw [hsessions, hindex] at hafter
    rw [hfind] at hbefore
    simp only [find_insert_self, Option.some.injEq, exists_eq_left'] at hafter hbefore
    exact hafter.symm.trans hbefore
  · intro hstate token id
    rw [hsessions, hindex, h token id]
    by_cases hid : id = session.id
    · subst hid
      simp only [find_insert_self, hfind, Option.some.injEq, exists_eq_left', hstate]
    · rw [find_insert_of_ne hid]

def SameTables (manager manager' : AuthSessionManager) : Prop :=
  manager'.sessions = manager.sessions ∧ manager'.sessionsByState = manager.sessionsByState

instance : IsPreorder AuthSessionManager SameTables where
  refl _ := ⟨rfl, rfl⟩
  trans _ _ _ h h' := ⟨h'.1.trans h.1, h'.2.trans h.2⟩

theorem withinRate_sameTables (key : String) (now : Int) : Frames SameTables (withinRate key now) :=
  fun _ => ⟨rfl, rfl⟩

variable (isRandomUuid : String → Bool)

theorem getSession_sameTables (id : String) (clientIp : Option String) (now : Int) :
    Frames SameTables (getSession isRandomUuid id clientIp now) := by
  refine frames_bind (withinRate_sameTables _ now) fun allowed => ?_
  exact frames_bind frames_get fun manager => frames_pure _

theorem getSessionByState_sameTables (token : String) (clientIp : Option String) (now : Int) :
    Frames SameTables (getSessionByState isRandomUuid token clientIp now) := by
  refine frames_bind (withinRate_sameTables _ now) fun allowed => frames_bind frames_get fun manager => ?_
  cases allowed with
  | false => exact frames_pure none
  | true =>
    cases manager.sessionsByState.find token with
    | none => exact frames_pure none
    | some id => exact getSession_sameTables isRandomUuid id clientIp now

theorem find_unindexed_eq_some {session : AuthSession} {index : Table String String} {token id : String} :
    (unindexed session index).find token = some id ↔ ¬ session.state = some token ∧ index.find token = some id := by
  rw [unindexed]
  cases session.state with
  | none => simp
  | some own => rw [find_erase_eq_some, Option.some.injEq, ne_comm]

theorem exact_removeSession (h : Exact manager) (id : String) : Exact (removeSession id manager).2 := by
  simp only [removeSession, bind_apply, get_apply]
  cases hfind : manager.sessions.find id with
  | none => exact h
  | some session =>
    apply h.remove (· = id) (session.state = some ·)
    · exact fun other found => find_erase_eq_some
    · exact fun token other => find_unindexed_eq_some
    · intro token
      constructor
      · intro htoken
        exact ⟨id, session, rfl, hfind, htoken⟩
      · rintro ⟨other, found, rfl, hother, htoken⟩
        cases hfind.symm.trans hother
        exact htoken

theorem exact_removeWhere (h : Exact manager) (p : AuthSession → Bool) : Exact (removeWhere p manager).2 := by
  apply h.remove (· ∈ manager.sessions.keysWith p) (· ∈ tokensWith p manager.sessions)
  · exact fun id session => find_eraseAll_eq_some
  · exact fun token id => find_eraseAll_eq_some
  · intro token
    simp only [tokensWith, Finset.mem_biUnion, Option.mem_toFinset, Option.mem_def, Option.bind_eq_some_iff]
    constructor
    · rintro ⟨id, hid, session, hfind, hstate⟩
      exact ⟨id, session, hid, hfind, hstate⟩
    · rintro ⟨id, session, hid, hfind, hstate⟩
      exact ⟨id, hid, session, hfind, hstate⟩

/-- A call keeps the index exact if and only if it keeps the token of a session it stores again. -/
theorem exact_step_iff {call : Call} (hfresh : Fresh manager call) (h : Exact manager) :
    Exact (step isRandomUuid manager call).2 ↔ KeepsToken manager call := by
  cases call with
  | createSession draw provider =>
    refine iff_of_true ?_ trivial
    exact h.create (AuthSession.new draw provider manager.defaultLifetime) rfl hfresh.1 hfresh.2 rfl rfl
  | getSession id clientIp now =>
    obtain ⟨hsessions, hindex⟩ := getSession_sameTables isRandomUuid id clientIp now manager
    exact iff_of_true (h.of_tables hsessions hindex) trivial
  | getSessionByState token clientIp now =>
    obtain ⟨hsessions, hindex⟩ := getSessionByState_sameTables isRandomUuid token clientIp now manager
    exact iff_of_true (h.of_tables hsessions hindex) trivial
  | updateSession session =>
    cases hfind : manager.sessions.find session.id with
    | none =>
      have hafter : (step isRandomUuid manager (.updateSession session)).2 = manager := by
        simp only [step, Call.run, updateSession, bind_apply, get_apply, hfind, fail_apply]
      rw [hafter, KeepsToken, hfind]
      exact iff_of_true h (by rintro before ⟨⟩)
    | some before =>
      have hafter : (step isRandomUuid manager (.updateSession session)).2 =
          { manager with sessions := manager.sessions.insert session.id session } := by
        simp only [step, Call.run, updateSession, bind_apply, get_apply, hfind]
        rfl
      have hiff : Exact { manager with sessions := manager.sessions.insert session.id session } ↔
          session.state = before.state := exact_update_iff h hfind rfl rfl
      rw [hafter, KeepsToken, hfind, hiff]
      simp
  | removeSession id => exact iff_of_true (exact_removeSession h id) trivial
  | removeUserSessions email => exact iff_of_true (exact_removeWhere h _) trivial
  | cleanupExpired now => exact iff_of_true (exact_removeWhere h _) trivial

end Steps

theorem resolved_token {isRandomUuid : String → Bool} {manager manager' : AuthSessionManager} {token : String}
    {clientIp : Option String} {now : Int} {session : AuthSession} (h : Exact manager)
    (hget : getSessionByState isRandomUuid token clientIp now manager = (.ok (some session), manager')) :
    session.state = some token := by
  obtain ⟨allowed, counted, hcounted, hget⟩ := bind_eq_ok hget
  obtain ⟨hsessions, hindex⟩ := (withinRate_sameTables _ now).rel hcounted
  obtain ⟨_, _, ⟨⟩, hget⟩ := bind_eq_ok hget
  cases allowed with
  | false => cases hget
  | true =>
    cases hfind : counted.sessionsByState.find token with
    | none =>
      rw [hfind] at hget
      cases hget
    | some id =>
      rw [hfind] at hget
      obtain ⟨admitted, counted', hcounted', hget⟩ := bind_eq_ok hget
      obtain ⟨hsessions', -⟩ := (withinRate_sameTables _ now).rel hcounted'
      obtain ⟨_, _, ⟨⟩, hget⟩ := bind_eq_ok hget
      rw [hindex] at hfind
      obtain ⟨stored, hstored, hstate⟩ := (h token id).mp hfind
      rw [← hsessions, ← hsessions'] at hstored
      cases hok : admitted && isRandomUuid id with
      | false =>
        rw [hok] at hget
        cases hget
      | true =>
        rw [hok, hstored] at hget
        cases hget
        exact hstate

/-- The index is exact throughout a run if and only if sessions are stored
again with the tokens they had. -/
theorem index_exact_iff {isRandomUuid : String → Bool} {defaultLifetime : Nat} {calls : List Call}
    (hfresh : EachStep (step isRandomUuid) Fresh (AuthSessionManager.new defaultLifetime) calls) :
    Always (step isRandomUuid) Exact (AuthSessionManager.new defaultLifetime) calls ↔
      EachStep (step isRandomUuid) KeepsToken (AuthSessionManager.new defaultLifetime) calls := by
  have hnew : Exact (AuthSessionManager.new defaultLifetime) := by
    intro token id
    simp [AuthSessionManager.new]
  exact always_iff_eachStep (fun manager call hfresh h => exact_step_iff isRandomUuid hfresh h) hnew hfresh

def sampleDraw : Draw := { id := "session", state := "token", nonce := "nonce", codeVerifier := "verifier", now := 0 }

def sampleTokens : TokenSet :=
  { accessToken := "access", refreshToken := none, idToken := none, expiresAt := 1, tokenType := "Bearer", scopes := [] }

def sampleUser : UserInfo :=
  { sub := "1", email := some "alice@example.com", emailVerified := true, name := none, givenName := none,
    familyName := none, picture := none, groups := [], provider := "google" }

def touchedCalls : List Call :=
  [.createSession sampleDraw "google",
    .updateSession { AuthSession.new sampleDraw "google" 3600 with lastActivity := 5 }, .removeSession "session"]

theorem index_exact_touched :
    EachStep (step fun _ => true) Fresh (AuthSessionManager.new 3600) touchedCalls ∧
      Always (step fun _ => true) Exact (AuthSessionManager.new 3600) touchedCalls := by
  have hfresh : EachStep (step fun _ => true) Fresh (AuthSessionManager.new 3600) touchedCalls :=
    ⟨⟨rfl, rfl⟩, trivial, trivial, trivial⟩
  refine ⟨hfresh, (index_exact_iff hfresh).mpr ⟨trivial, ?_, trivial, trivial⟩⟩
  rintro before ⟨⟩
  rfl

def completedCalls : List Call :=
  [.createSession sampleDraw "google",
    .updateSession ((AuthSession.new sampleDraw "google" 3600).completeAuth 5 sampleTokens sampleUser)]

/-- The token of a completed login stays in the index, also once the session is
removed. -/
theorem completed_login_indexed :
    EachStep (step fun _ => true) Fresh (AuthSessionManager.new 3600) completedCalls ∧
      ¬ Always (step fun _ => true) Exact (AuthSessionManager.new 3600) completedCalls := by
  refine ⟨⟨⟨rfl, rfl⟩, trivial, trivial⟩, ?_⟩
  rintro ⟨-, -, hexact⟩
  obtain ⟨session, hfind, hstate⟩ := (hexact "token" "session").mp rfl
  cases hfind
  cases hstate

end CoreVpn.Auth.StateIndex
