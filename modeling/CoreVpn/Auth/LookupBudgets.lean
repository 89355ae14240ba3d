import CoreVpn.Auth.RateLimits
import CoreVpn.Auth.StateIndex

namespace CoreVpn.Auth.LookupBudgets

open Lib.Computation Lib.Machine Lib.Tables Table Errors AuthSessions AuthSessionManager RateLimits

inductive Call where
  | manage (call : StateIndex.Call)
  | getUserSessions (email : String) (clientIp : Option String) (now : Int)

inductive Answer where
  | session (found : Option AuthSession)
  | sessions (found : Finset AuthSession)
  deriving DecidableEq

def Call.run (isRandomUuid : String → Bool) : Call → Program AuthSessionManager AuthError Answer
  | .manage call => do
    let found ← call.run isRandomUuid
    return .session found
  | .getUserSessions email clientIp now => do
    let found ← AuthSessionManager.getUserSessions email clientIp now
    return .sessions found

def step (isRandomUuid : String → Bool) (manager : AuthSessionManager) (call : Call) :
    Outcome AuthError Answer × AuthSessionManager :=
  call.run isRandomUuid manager

def Call.client : Call → Option String
  | .manage (.getSession _ clientIp _) => clientIp
  | .manage (.getSessionByState _ clientIp _) => clientIp
  | .getUserSessions _ clientIp _ => clientIp
  | _ => none

def Call.time : Call → Option Int
  | .manage (.getSession _ _ now) => some now
  | .manage (.getSessionByState _ _ now) => some now
  | .getUserSessions _ _ now => some now
  | _ => none

/-- What a lookup finds if nothing keeps it from looking. -/
def answer (manager : AuthSessionManager) : Call → Answer
  | .manage (.getSession id _ _) => .session (manager.sessions.find id)
  | .manage (.getSessionByState token _ _) =>
    .session ((manager.sessionsByState.find token).bind manager.sessions.find)
  | .getUserSessions email _ _ =>
    .sessions (sessionsWith (fun session => session.email == some email) manager.sessions)
  | _ => .session none

def Served (isRandomUuid : String → Bool) (client : String) (manager : AuthSessionManager) (call : Call) : Prop :=
  call.client = some client → (step isRandomUuid manager call).1 = .ok (answer manager call)

/-- How often a call may count against a key. A lookup by a known token counts
twice, and one without a client address counts against what it looks for. -/
def weight (key : String) (manager : AuthSessionManager) : Call → Nat
  | .manage (.getSession id clientIp _) => if clientIp.getD id = key then 1 else 0
  | .manage (.getSessionByState token clientIp _) =>
    (if clientIp.getD token = key then 1 else 0) +
      (if ∃ id ∈ manager.sessionsByState.find token, clientIp.getD id = key then 1 else 0)
  | .getUserSessions email clientIp _ => if clientIp.getD email = key then 1 else 0
  | _ => 0

def InSpan (start now : Int) : Prop := start ≤ now ∧ now < start + 60 * second

instance (start now : Int) : Decidable (InSpan start now) :=
  inferInstanceAs (Decidable (_ ∧ _))

/-- What the calls of a run that fall into a span count against a key. -/
def load (isRandomUuid : String → Bool) (key : String) (start : Int) (manager : AuthSessionManager) : List Call → Nat
  | [] => 0
  | call :: calls =>
    (if ∃ now ∈ call.time, InSpan start now then weight key manager call else 0) +
      load isRandomUuid key start (step isRandomUuid manager call).2 calls

def lookups (client : String) (start : Int) (calls : List Call) : Nat :=
  calls.countP fun call => call.client = some client && decide (∃ now ∈ call.time, InSpan start now)

section Spans

variable {key : String} {start now : Int} {checks : List RateLimits.Call}

def chargedIn (key : String) (start : Int) : RateLimits.Call → Bool
  | .check k now => k = key && decide (InSpan start now)
  | _ => false

theorem length_currentWindow_le_span {first : Int} (hordered : Ordered checks)
    (hfirst : (currentWindow (60 * second) (visits key checks)).head? = some first) :
    (currentWindow (60 * second) (visits key checks)).length ≤ checks.countP (chargedIn key first) := by
  induction checks using List.reverseRecOn generalizing first with
  | nil => cases hfirst
  | append_singleton checks call ih =>
    rw [List.countP_append]
    obtain ⟨now, rfl, hnext⟩ | hnext | hnext := currentWindow_next (60 * second) key checks call
    · rw [hnext] at hfirst ⊢
      cases hlive : live (60 * second) (currentWindow (60 * second) (visits key checks)) now with
      | nil =>
        rw [hlive] at hfirst
        obtain rfl : now = first := Option.some.inj hfirst
        have hin : chargedIn key now (.check key now) = true := by simp [chargedIn, InSpan, second]
        rw [List.countP_singleton, hin]
        exact Nat.le_add_left _ _
      | cons opening rest =>
        have hsame : currentWindow (60 * second) (visits key checks) = opening :: rest := by
          rw [live] at hlive
          split at hlive
          · cases hlive
          · exact hlive
        rw [hlive] at hfirst
        obtain rfl : opening = first := Option.some.inj hfirst
        have hcount := ih hordered.of_append (congrArg List.head? hsame)
        rw [hsame] at hcount
        have hafter := le_of_ordered hordered rfl opening
          (mem_times_of_mem_currentWindow (hsame ▸ List.mem_cons_self))
        have hin : chargedIn key opening (.check key now) = true := by
          simp [chargedIn, InSpan, hafter, not_over_of_live hlive]
        rw [List.countP_singleton, hin, List.length_append]
        exact Nat.add_le_add hcount (Nat.le_refl 1)
    · rw [hnext] at hfirst
      cases hfirst
    · rw [hnext] at hfirst ⊢
      exact (ih hordered.of_append hfirst).trans (Nat.le_add_right _ _)

/-- How many checks of a key its current window has counted. -/
def spent (key : String) (checks : List RateLimits.Call) : Nat :=
  (currentWindow (60 * second) (visits key checks)).length

theorem spent_le_of_spans (hordered : Ordered checks) (h : ∀ start, checks.countP (chargedIn key start) ≤ 100) :
    spent key checks ≤ 100 := by
  cases hopened : currentWindow (60 * second) (visits key checks) with
  | nil =>
    rw [spent, hopened]
    exact Nat.zero_le 100
  | cons first rest =>
    have hspan := length_currentWindow_le_span hordered (congrArg List.head? hopened)
    exact hspan.trans (h first)

theorem allowed_of_spent (hordered : Ordered (checks ++ [.check key now]))
    (h : spent key (checks ++ [.check key now]) ≤ 100) :
    ((exec RateLimits.step (RateLimiter.new 100 (60 * second.toNat)) checks).check key now).1 = true := by
  rw [check_exec 100 (60 * second.toNat) hordered (h.trans_lt (by decide)), decide_eq_true_eq]
  exact h

end Spans

section Charges

variable (isRandomUuid : String → Bool) {client key : String} {manager : AuthSessionManager} {call : Call}
  {checks : List RateLimits.Call}

def chargesOf (manager : AuthSessionManager) : Call → List RateLimits.Call
  | .manage (.getSession id clientIp now) => [.check (clientIp.getD id) now]
  | .manage (.getSessionByState token clientIp now) =>
    .check (clientIp.getD token) now ::
      match (manager.lookupRateLimiter.check (clientIp.getD token) now).1, manager.sessionsByState.find token with
      | true, some id => [.check (clientIp.getD id) now]
      | _, _ => []
  | .getUserSessions email clientIp now => [.check (clientIp.getD email) now]
  | _ => []

theorem withinRate_eq (key : String) (now : Int) (manager : AuthSessionManager) :
    withinRate key now manager = (.ok (manager.lookupRateLimiter.check key now).1,
      { manager with lookupRateLimiter := (manager.lookupRateLimiter.check key now).2 }) := rfl

theorem getSession_eq (id : String) (clientIp : Option String) (now : Int) (manager : AuthSessionManager) :
    getSession isRandomUuid id clientIp now manager =
      (.ok (if (manager.lookupRateLimiter.check (clientIp.getD id) now).1 && isRandomUuid id
          then manager.sessions.find id else none),
        { manager with lookupRateLimiter := (manager.lookupRateLimiter.check (clientIp.getD id) now).2 }) := rfl

section ByState

variable {token id : String} {clientIp : Option String} {now : Int}

theorem getSessionByState_refused (h : (manager.lookupRateLimiter.check (clientIp.getD token) now).1 = false) :
    getSessionByState isRandomUuid token clientIp now manager = (.ok none,
      { manager with lookupRateLimiter := (manager.lookupRateLimiter.check (clientIp.getD token) now).2 }) := by
  simp only [getSessionByState, bind_apply, withinRate_eq, get_apply, h]
  rfl

theorem getSessionByState_unknown (clientIp : Option String) (now : Int)
    (hfind : manager.sessionsByState.find token = none) :
    getSessionByState isRandomUuid token clientIp now manager = (.ok none,
      { manager with lookupRateLimiter := (manager.lookupRateLimiter.check (clientIp.getD token) now).2 }) := by
  simp only [getSessionByState, bind_apply, withinRate_eq, get_apply, hfind]
  cases (manager.lookupRateLimiter.check (clientIp.getD token) now).1 <;> rfl

theorem getSessionByState_known (h : (manager.lookupRateLimiter.check (clientIp.getD token) now).1 = true)
    (hfind : manager.sessionsByState.find token = some id) :
    getSessionByState isRandomUuid token clientIp now manager = getSession isRandomUuid id clientIp now
      { manager with lookupRateLimiter := (manager.lookupRateLimiter.check (clientIp.getD token) now).2 } := by
  simp only [getSessionByState, bind_apply, withinRate_eq, get_apply, h, hfind]

end ByState

theorem step_manage (manager : AuthSessionManager) (call : StateIndex.Call) :
    (step isRandomUuid manager (.manage call)).2 = (StateIndex.step isRandomUuid manager call).2 := by
  simp only [step, Call.run, bind_apply, StateIndex.step]
  cases call.run isRandomUuid manager with
  | mk result manager' => cases result <;> rfl

theorem step_manage_ok {isRandomUuid : String → Bool} {call : StateIndex.Call} {found : Option AuthSession}
    (h : (call.run isRandomUuid manager).1 = .ok found) :
    (step isRandomUuid manager (.manage call)).1 = .ok (.session found) := by
  simp only [step, Call.run, bind_apply]
  cases hrun : call.run isRandomUuid manager with
  | mk result manager' =>
    rw [hrun] at h
    subst h
    rfl

def SameLimiter (manager manager' : AuthSessionManager) : Prop :=
  manager'.lookupRateLimiter = manager.lookupRateLimiter

instance : IsPreorder AuthSessionManager SameLimiter where
  refl _ := rfl
  trans _ _ _ h h' := h'.trans h

theorem updateSession_sameLimiter (session : AuthSession) : Frames SameLimiter (updateSession session) := by
  apply frames_get_bind
  intro manager
  cases manager.sessions.find session.id with
  | none => exact refl_of SameLimiter manager
  | some before => rfl

theorem removeSession_sameLimiter (id : String) : Frames SameLimiter (removeSession id) := by
  apply frames_get_bind
  intro manager
  cases manager.sessions.find id with
  | none => exact refl_of SameLimiter manager
  | some session => rfl

/-- The limiter sees the checks of a call and nothing else. -/
theorem limiter_step (manager : AuthSessionManager) (call : Call) :
    (step isRandomUuid manager call).2.lookupRateLimiter =
      exec RateLimits.step manager.lookupRateLimiter (chargesOf manager call) := by
  cases call with
  | getUserSessions email clientIp now => rfl
  | manage call =>
    cases call with
    | getSession id clientIp now => rfl
    | getSessionByState token clientIp now =>
      rw [step_manage, chargesOf]
      cases hallowed : (manager.lookupRateLimiter.check (clientIp.getD token) now).1 with
      | false =>
        have hrun := getSessionByState_refused isRandomUuid hallowed
        exact congrArg (fun r => r.2.lookupRateLimiter) hrun
      | true =>
        cases hfind : manager.sessionsByState.find token with
        | none =>
          have hrun := getSessionByState_unknown isRandomUuid clientIp now hfind
          exact congrArg (fun r => r.2.lookupRateLimiter) hrun
        | some id =>
          have hrun := getSessionByState_known isRandomUuid hallowed hfind
          exact congrArg (fun r => r.2.lookupRateLimiter) hrun
    | createSession draw provider => rfl
    | updateSession session =>
      rw [step_manage]
      exact frames_bind (updateSession_sameLimiter session) (fun _ => frames_pure none) manager
    | removeSession id =>
      rw [step_manage]
      exact removeSession_sameLimiter id manager
    | removeUserSessions email => rfl
    | cleanupExpired now => rfl

theorem countP_chargesOf_le (key : String) (start : Int) (manager : AuthSessionManager) (call : Call) :
    (chargesOf manager call).countP (chargedIn key start) ≤
      if ∃ now ∈ call.time, InSpan start now then weight key manager call else 0 := by
  have hone : ∀ k now, [RateLimits.Call.check k now].countP (chargedIn key start) =
      if InSpan start now then (if k = key then 1 else 0) else 0 := by
    intro k now
    rw [List.countP_singleton, chargedIn]
    by_cases hk : k = key <;> by_cases hin : InSpan start now <;> simp [hk, hin]
  cases call with
  | getUserSessions email clientIp now =>
    rw [chargesOf, hone]
    simp [Call.time, weight]
  | manage call =>
    cases call with
    | getSession id clientIp now =>
      rw [chargesOf, hone]
      simp [Call.time, weight]
    | getSessionByState token clientIp now =>
      have hsplit : ∀ rest : List RateLimits.Call, (RateLimits.Call.check (clientIp.getD token) now :: rest).countP
          (chargedIn key start) = (if InSpan start now then (if clientIp.getD token = key then 1 else 0) else 0) +
            rest.countP (chargedIn key start) := by
        intro rest
        rw [← List.singleton_append, List.countP_append, hone]
      have hsecond : (match (manager.lookupRateLimiter.check (clientIp.getD token) now).1,
          manager.sessionsByState.find token with
          | true, some id => [RateLimits.Call.check (clientIp.getD id) now]
          | _, _ => []).countP (chargedIn key start) ≤ if InSpan start now then
            (if ∃ id ∈ manager.sessionsByState.find token, clientIp.getD id = key then 1 else 0) else 0 := by
        split
        · rename_i id _ hfind
          rw [hone, hfind]
          simp
        · exact Nat.zero_le _
      rw [chargesOf, hsplit]
      simp only [Call.time, Option.mem_some_iff, exists_eq_left', weight]
      split_ifs at hsecond ⊢ <;> omega
    | _ => exact Nat.zero_le _

theorem time_of_mem_chargesOf {c : RateLimits.Call} (h : c ∈ chargesOf manager call) : c.time = call.time := by
  cases call with
  | getUserSessions email clientIp now =>
    rw [List.mem_singleton.mp h]
    rfl
  | manage call =>
    cases call with
    | getSession id clientIp now =>
      rw [List.mem_singleton.mp h]
      rfl
    | getSessionByState token clientIp now =>
      obtain rfl | h := List.mem_cons.mp h
      · rfl
      · split at h
        · rw [List.mem_singleton.mp h]
          rfl
        · cases h
    | _ => cases h

end Charges

section Answers

variable {isRandomUuid : String → Bool} {client : String} {manager : AuthSessionManager} {call : Call}
  {checks : List RateLimits.Call}

/-- The stored sessions have identifiers of the form that a lookup accepts. -/
def Random (isRandomUuid : String → Bool) (manager : AuthSessionManager) : Prop :=
  ∀ id session, manager.sessions.find id = some session → isRandomUuid id = true

theorem Random.found (h : Random isRandomUuid manager) (id : String) :
    (if isRandomUuid id then manager.sessions.find id else none) = manager.sessions.find id := by
  split
  · rfl
  · rename_i hform
    cases hfind : manager.sessions.find id with
    | none => rfl
    | some session => exact absurd (h id session hfind) hform

theorem getSession_allowed {id : String} {clientIp : Option String} {now : Int} (hrandom : Random isRandomUuid manager)
    (h : (manager.lookupRateLimiter.check (clientIp.getD id) now).1 = true) :
    (getSession isRandomUuid id clientIp now manager).1 = .ok (manager.sessions.find id) := by
  rw [getSession_eq, h, Bool.true_and, hrandom.found]

theorem allowed_twice {token id : String} {now : Int}
    (hlimiter : manager.lookupRateLimiter =
      exec RateLimits.step (RateLimiter.new 100 (60 * second.toNat)) checks)
    (hfind : manager.sessionsByState.find token = some id)
    (hordered : Ordered (checks ++ chargesOf manager (.manage (.getSessionByState token (some client) now))))
    (hspent : spent client (checks ++ chargesOf manager (.manage (.getSessionByState token (some client) now))) ≤ 100) :
    (manager.lookupRateLimiter.check client now).1 = true ∧
      ((manager.lookupRateLimiter.check client now).2.check client now).1 = true := by
  have hafter : (manager.lookupRateLimiter.check client now).2 =
      exec RateLimits.step (RateLimiter.new 100 (60 * second.toNat)) (checks ++ [.check client now]) := by
    rw [exec_append, ← hlimiter]
    rfl
  cases hfirst : (manager.lookupRateLimiter.check client now).1 with
  | false =>
    -- The only check that is made is counted, so that it cannot have been refused.
    have hcharges : chargesOf manager (.manage (.getSessionByState token (some client) now)) =
        [.check client now] := by
      simp only [chargesOf, Option.getD_some, hfirst]
    rw [hcharges] at hordered hspent
    rw [hlimiter, allowed_of_spent hordered hspent] at hfirst
    cases hfirst
  | true =>
    have hcharges : chargesOf manager (.manage (.getSessionByState token (some client) now)) =
        [.check client now] ++ [.check client now] := by
      simp only [chargesOf, Option.getD_some, hfirst, hfind]
      rfl
    rw [hcharges, ← List.append_assoc] at hordered hspent
    rw [hafter]
    exact ⟨rfl, allowed_of_spent hordered hspent⟩

theorem served_of_spent (hrandom : Random isRandomUuid manager)
    (hlimiter : manager.lookupRateLimiter =
      exec RateLimits.step (RateLimiter.new 100 (60 * second.toNat)) checks)
    (hordered : Ordered (checks ++ chargesOf manager call))
    (hbudget : call.client = some client → spent client (checks ++ chargesOf manager call) ≤ 100) :
    Served isRandomUuid client manager call := by
  intro hclient
  have hspent := hbudget hclient
  have hallowed : ∀ now, chargesOf manager call = [.check client now] →
      (manager.lookupRateLimiter.check client now).1 = true := by
    intro now hcharges
    rw [hcharges] at hordered hspent
    rw [hlimiter]
    exact allowed_of_spent hordered hspent
  cases call with
  | getUserSessions email clientIp now =>
    obtain rfl : clientIp = some client := hclient
    have hrun : (step isRandomUuid manager (.getUserSessions email (some client) now)).1 = .ok (.sessions
        (if (manager.lookupRateLimiter.check client now).1
          then sessionsWith (fun session => session.email == some email) manager.sessions else ∅)) := rfl
    rw [hrun, hallowed now rfl]
    rfl
  | manage call =>
    cases call with
    | getSession id clientIp now =>
      obtain rfl : clientIp = some client := hclient
      apply step_manage_ok
      exact getSession_allowed hrandom (hallowed now rfl)
    | getSessionByState token clientIp now =>
      obtain rfl : clientIp = some client := hclient
      apply step_manage_ok
      rw [StateIndex.Call.run]
      cases hfind : manager.sessionsByState.find token with
      | none =>
        rw [getSessionByState_unknown isRandomUuid (some client) now hfind]
        rfl
      | some id =>
        obtain ⟨hfirst, hsecond⟩ := allowed_twice hlimiter hfind hordered hspent
        have hknown : getSessionByState isRandomUuid token (some client) now manager = _ :=
          getSessionByState_known isRandomUuid hfirst hfind
        rw [hknown]
        exact getSession_allowed hrandom hsecond
    | _ => cases hclient

def DrawsRandom (isRandomUuid : String → Bool) : Call → Prop
  | .manage (.createSession draw _) => isRandomUuid draw.id = true
  | _ => True

def NoNewIds (manager manager' : AuthSessionManager) : Prop := manager'.sessions.keys ⊆ manager.sessions.keys

instance : IsPreorder AuthSessionManager NoNewIds where
  refl _ := Finset.Subset.refl _
  trans _ _ _ h h' := h'.trans h

theorem updateSession_noNewIds (session : AuthSession) : Frames NoNewIds (updateSession session) := by
  apply frames_get_bind
  intro manager
  cases hfind : manager.sessions.find session.id with
  | none => exact refl_of NoNewIds manager
  | some before =>
    have hmem : session.id ∈ manager.sessions.keys := (manager.sessions.mem_keys _).mpr (Option.isSome_of_mem hfind)
    exact Finset.insert_subset hmem (Finset.Subset.refl _)

theorem removeSession_noNewIds (id : String) : Frames NoNewIds (removeSession id) := by
  apply frames_get_bind
  intro manager
  cases manager.sessions.find id with
  | none => exact refl_of NoNewIds manager
  | some session => exact Finset.erase_subset _ _

theorem Random.of_noNewIds {manager' : AuthSessionManager} (h : Random isRandomUuid manager)
    (hids : NoNewIds manager manager') : Random isRandomUuid manager' := by
  intro id session hstored
  have hmem := hids ((manager'.sessions.mem_keys id).mpr (Option.isSome_of_mem hstored))
  obtain ⟨before, hbefore⟩ := Option.isSome_iff_exists.mp ((manager.sessions.mem_keys id).mp hmem)
  exact h id before hbefore

theorem Random.next (h : Random isRandomUuid manager) (hdraw : DrawsRandom isRandomUuid call) :
    Random isRandomUuid (step isRandomUuid manager call).2 := by
  cases call with
  | getUserSessions email clientIp now => exact h
  | manage call =>
    rw [step_manage]
    cases call with
    | getSession id clientIp now => exact h
    | getSessionByState token clientIp now =>
      have htables := StateIndex.getSessionByState_sameTables isRandomUuid token clientIp now manager
      exact fun id session hstored => h id session (htables.1 ▸ hstored)
    | createSession draw provider =>
      intro id session hstored
      by_cases hid : id = draw.id
      · rw [hid]
        exact hdraw
      · exact h id session ((find_insert_of_ne hid).symm.trans hstored)
    | updateSession session =>
      exact h.of_noNewIds (frames_bind (updateSession_noNewIds session) (fun _ => frames_pure none) manager)
    | removeSession id => exact h.of_noNewIds (removeSession_noNewIds id manager)
    | removeUserSessions email => exact h.of_noNewIds Finset.sdiff_subset
    | cleanupExpired now => exact h.of_noNewIds Finset.sdiff_subset

end Answers

section Runs

variable {isRandomUuid : String → Bool} {client : String} {manager : AuthSessionManager} {calls : List Call}
  {checks : List RateLimits.Call}

def InOrder (checks : List RateLimits.Call) (calls : List Call) : Prop :=
  (checks.filterMap RateLimits.Call.time ++ calls.filterMap Call.time).Pairwise (· ≤ ·)

theorem InOrder.next {call : Call} (h : InOrder checks (call :: calls)) :
    InOrder (checks ++ chargesOf manager call) calls := by
  have htime : ∀ t ∈ (chargesOf manager call).filterMap RateLimits.Call.time, call.time = some t := by
    intro t ht
    obtain ⟨c, hc, hct⟩ := List.mem_filterMap.mp ht
    rw [← time_of_mem_chargesOf hc, hct]
  have hsplit : (call :: calls).filterMap Call.time = call.time.toList ++ calls.filterMap Call.time := by
    cases h : call.time <;> simp [h]
  rw [InOrder, hsplit, List.pairwise_append, List.pairwise_append] at h
  obtain ⟨hchecks, ⟨-, hcalls, hhead⟩, hbetween⟩ := h
  rw [InOrder, List.filterMap_append, List.append_assoc, List.pairwise_append, List.pairwise_append]
  have hmem : ∀ t ∈ (chargesOf manager call).filterMap RateLimits.Call.time, t ∈ call.time.toList := by
    intro t ht
    rw [htime t ht]
    exact List.mem_singleton_self t
  refine ⟨hchecks, ⟨?_, hcalls, fun t ht => hhead t (hmem t ht)⟩, fun t ht u hu => hbetween t ht u ?_⟩
  · refine List.Pairwise.imp_of_mem (R := fun _ _ => True) (fun {t u} ht hu _ => ?_) (List.pairwise_of_forall fun _ _ => trivial)
    have heq := (htime t ht).symm.trans (htime u hu)
    exact (Option.some.inj heq).le
  · rw [List.mem_append] at hu ⊢
    exact hu.imp (hmem u) id

theorem InOrder.ordered (h : InOrder checks calls) : Ordered checks := (List.pairwise_append.mp h).1

/-- The checks that the calls of a run ask of the limiter. -/
def charges (isRandomUuid : String → Bool) (manager : AuthSessionManager) : List Call → List RateLimits.Call
  | [] => []
  | call :: calls => chargesOf manager call ++ charges isRandomUuid (step isRandomUuid manager call).2 calls

/-- Whenever the client looks something up, its current window has counted no
more than a hundred checks, those of this lookup included. -/
def WithinWindows (isRandomUuid : String → Bool) (client : String) (manager : AuthSessionManager)
    (calls : List Call) : Prop :=
  ∀ before call, before ++ [call] <+: calls → call.client = some client →
    spent client (charges isRandomUuid manager (before ++ [call])) ≤ 100

theorem InOrder.ordered_charges (h : InOrder checks calls) : Ordered (checks ++ charges isRandomUuid manager calls) := by
  induction calls generalizing manager checks with
  | nil =>
    rw [charges, List.append_nil]
    exact h.ordered
  | cons call calls ih =>
    rw [charges, ← List.append_assoc]
    exact ih h.next

theorem countP_charges_le (client : String) (start : Int) (manager : AuthSessionManager) (calls : List Call) :
    (charges isRandomUuid manager calls).countP (chargedIn client start) ≤
      load isRandomUuid client start manager calls := by
  induction calls generalizing manager with
  | nil => exact Nat.le_refl 0
  | cons call calls ih =>
    rw [charges, List.countP_append, load]
    exact Nat.add_le_add (countP_chargesOf_le client start manager call) (ih _)

theorem load_le_append (start : Int) (manager : AuthSessionManager) (calls more : List Call) :
    load isRandomUuid client start manager calls ≤ load isRandomUuid client start manager (calls ++ more) := by
  induction calls generalizing manager with
  | nil => exact Nat.zero_le _
  | cons call calls ih => exact Nat.add_le_add_left (ih _) _

theorem withinWindows_of_load (horder : (calls.filterMap Call.time).Pairwise (· ≤ ·))
    (h : ∀ start, load isRandomUuid client start manager calls ≤ 100) :
    WithinWindows isRandomUuid client manager calls := by
  rintro before call ⟨more, rfl⟩ -
  rw [List.filterMap_append, List.pairwise_append] at horder
  have horder : InOrder [] (before ++ [call]) := horder.1
  refine spent_le_of_spans horder.ordered_charges fun start => ?_
  exact (countP_charges_le client start manager _).trans ((load_le_append start manager _ more).trans (h start))

theorem served_run (hrandom : Random isRandomUuid manager)
    (hlimiter : manager.lookupRateLimiter = exec RateLimits.step (RateLimiter.new 100 (60 * second.toNat)) checks)
    (horder : InOrder checks calls) (hdraws : ∀ call ∈ calls, DrawsRandom isRandomUuid call)
    (hbudget : ∀ before call, before ++ [call] <+: calls → call.client = some client →
      spent client (checks ++ charges isRandomUuid manager (before ++ [call])) ≤ 100) :
    EachStep (step isRandomUuid) (Served isRandomUuid client) manager calls := by
  induction calls generalizing manager checks with
  | nil => trivial
  | cons call calls ih =>
    have hnext : InOrder (checks ++ chargesOf manager call) calls := horder.next
    constructor
    · refine served_of_spent hrandom hlimiter hnext.ordered fun hclient => ?_
      have hspent := hbudget [] call (List.prefix_append [call] calls) hclient
      rwa [List.nil_append, charges, charges, List.append_nil] at hspent
    · refine ih (hrandom.next (hdraws call List.mem_cons_self)) ?_ hnext
        (fun c hc => hdraws c (List.mem_cons_of_mem call hc)) fun before later hpre hclient => ?_
      · rw [limiter_step, hlimiter, exec_append]
      · have hspent := hbudget (call :: before) later ((List.prefix_cons_inj call).mpr hpre) hclient
        rwa [List.cons_append, charges, ← List.append_assoc] at hspent

end Runs

/-- The lookups of a client are answered in every run of a manager in which the
clock does not go back and no window of the client counts more than a hundred
checks. That is so if no span of a minute has more than a hundred of its lookups,
each counted by its weight. -/
theorem lookup_budget_honoured {isRandomUuid : String → Bool} {client : String} {defaultLifetime : Nat}
    {calls : List Call} (horder : (calls.filterMap Call.time).Pairwise (· ≤ ·))
    (hdraws : ∀ call ∈ calls, DrawsRandom isRandomUuid call) :
    (WithinWindows isRandomUuid client (AuthSessionManager.new defaultLifetime) calls →
      EachStep (step isRandomUuid) (Served isRandomUuid client) (AuthSessionManager.new defaultLifetime) calls) ∧
    ((∀ start, load isRandomUuid client start (AuthSessionManager.new defaultLifetime) calls ≤ 100) →
      WithinWindows isRandomUuid client (AuthSessionManager.new defaultLifetime) calls) := by
  have hrandom : Random isRandomUuid (AuthSessionManager.new defaultLifetime) := by
    intro id session hstored
    cases hstored
  have hstart : InOrder [] calls := horder
  exact ⟨fun hbudget => served_run hrandom rfl hstart hdraws hbudget, withinWindows_of_load horder⟩

theorem weight_le_two (key : String) (manager : AuthSessionManager) (call : Call) : weight key manager call ≤ 2 := by
  have hone : ∀ (p : Prop) [Decidable p], (if p then 1 else 0) ≤ 1 := by
    intro p _
    split <;> omega
  unfold weight
  split
  · exact (hone _).trans (Nat.le_succ 1)
  · exact Nat.add_le_add (hone _) (hone _)
  · exact (hone _).trans (Nat.le_succ 1)
  · exact Nat.zero_le 2

theorem load_le (isRandomUuid : String → Bool) (key : String) (start : Int) (manager : AuthSessionManager)
    (calls : List Call) : load isRandomUuid key start manager calls ≤ 2 * calls.length := by
  induction calls generalizing manager with
  | nil => exact Nat.le_refl 0
  | cons call calls ih =>
    have hweight := weight_le_two key manager call
    have hrest := ih (step isRandomUuid manager call).2
    rw [load, List.length_cons]
    split_ifs <;> omega

def uuidDraw : Draw where
  id := "2b1f5f6e-0c3d-4e6a-9a57-3f1f0f6f4c11"
  state := "token"
  nonce := "nonce"
  codeVerifier := "verifier"
  now := 0

def tokenLookup : Call := .manage (.getSessionByState "token" (some "192.0.2.7") 0)

def repeatedLookups (n : Nat) : List Call :=
  .manage (.createSession uuidDraw "google") :: List.replicate n tokenLookup

theorem drawsRandom_repeatedLookups (n : Nat) : ∀ call ∈ repeatedLookups n, DrawsRandom (· == uuidDraw.id) call := by
  intro call hcall
  obtain rfl | hcall := List.mem_cons.mp hcall
  · exact beq_self_eq_true _
  · rw [List.eq_of_mem_replicate hcall]
    trivial

theorem ordered_repeatedLookups (n : Nat) : ((repeatedLookups n).filterMap Call.time).Pairwise (· ≤ ·) := by
  have htimes : (repeatedLookups n).filterMap Call.time = List.replicate n 0 := by
    have htime : tokenLookup.time = some 0 := rfl
    rw [repeatedLookups, List.filterMap_cons_none rfl, List.filterMap_replicate_of_some htime]
  rw [htimes]
  exact List.pairwise_replicate.mpr (.inr (Int.le_refl 0))

theorem few_lookups_answered :
    (∀ call ∈ repeatedLookups 49, DrawsRandom (· == uuidDraw.id) call) ∧
      (∀ start, load (· == uuidDraw.id) "192.0.2.7" start (AuthSessionManager.new 3600) (repeatedLookups 49) ≤ 100) ∧
      EachStep (step (· == uuidDraw.id)) (Served (· == uuidDraw.id) "192.0.2.7") (AuthSessionManager.new 3600)
        (repeatedLookups 49) := by
  have hload : ∀ start, load (· == uuidDraw.id) "192.0.2.7" start (AuthSessionManager.new 3600)
      (repeatedLookups 49) ≤ 100 := fun start => load_le _ _ start _ _
  obtain ⟨hserved, hwindows⟩ := lookup_budget_honoured (ordered_repeatedLookups 49) (drawsRandom_repeatedLookups 49)
  exact ⟨drawsRandom_repeatedLookups 49, hload, hserved (hwindows hload)⟩

/-- Of fifty-one lookups by token within a minute the last one is refused. -/
theorem token_lookups_refused :
    (∀ start, lookups "192.0.2.7" start (repeatedLookups 51) ≤ 100) ∧
      ((repeatedLookups 51).filterMap Call.time).Pairwise (· ≤ ·) ∧
      (∀ call ∈ repeatedLookups 51, DrawsRandom (· == uuidDraw.id) call) ∧
      ¬ EachStep (step (· == uuidDraw.id)) (Served (· == uuidDraw.id) "192.0.2.7") (AuthSessionManager.new 3600)
        (repeatedLookups 51) := by
  have hlookups : ∀ start, lookups "192.0.2.7" start (repeatedLookups 51) ≤ 100 := by
    intro start
    exact List.countP_le_length.trans (by decide)
  refine ⟨hlookups, ordered_repeatedLookups 51, drawsRandom_repeatedLookups 51, fun hserved => ?_⟩
  have hlast := EachStep.iff.mp hserved (repeatedLookups 50) tokenLookup [] rfl rfl
  have hrefused : (step (· == uuidDraw.id) (exec (step (· == uuidDraw.id)) (AuthSessionManager.new 3600)
      (repeatedLookups 50)) tokenLookup).1 = .ok (.session none) := by decide +kernel
  have hstored : answer (exec (step (· == uuidDraw.id)) (AuthSessionManager.new 3600) (repeatedLookups 50))
      tokenLookup = .session (some (AuthSession.new uuidDraw "google" 3600)) := by decide +kernel
  rw [hrefused, hstored] at hlast
  cases hlast

end CoreVpn.Auth.LookupBudgets
