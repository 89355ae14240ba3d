import Mathlib.Logic.Function.Basic
import CoreVpn.Lib.Machine
import CoreVpn.Lib.Text

namespace CoreVpn.Web.FormTokens

open Lib.Machine Lib.Text

/-- The tokens of the sessions and when they expire, in nanoseconds. -/
abbrev CsrfStore := String → Option (String × Int)

def cleanupExpired (now : Int) (tokens : CsrfStore) : CsrfStore :=
  fun sessionId => (tokens sessionId).filter fun entry => now < entry.2

def insertToken (issuedAt : Int) (token sessionId : String) (tokens : CsrfStore) : CsrfStore :=
  Function.update tokens sessionId (some (token, issuedAt + 3600000000000))

/-- The token is random. The clock is read for it, and again for the cleanup. -/
def generateToken (issuedAt now : Int) (token sessionId : String) (tokens : CsrfStore) : CsrfStore :=
  cleanupExpired now (insertToken issuedAt token sessionId tokens)

def validateToken (now : Int) (sessionId token : String) (tokens : CsrfStore) : Bool × CsrfStore :=
  let tokens := cleanupExpired now tokens
  ((tokens sessionId).any fun entry => asBytes entry.1 = asBytes token, tokens)

inductive Call where
  | generate (issuedAt now : Int) (token sessionId : String)
  | validate (now : Int) (sessionId token : String)

def Call.time : Call → Int
  | .generate _ now _ _ => now
  | .validate now _ _ => now

def step (tokens : CsrfStore) : Call → Unit × CsrfStore
  | .generate issuedAt now token sessionId => ((), generateToken issuedAt now token sessionId tokens)
  | .validate now sessionId token => ((), (validateToken now sessionId token tokens).2)

/-- What a call hands out, if nothing is ever cleaned up. -/
def issue (tokens : CsrfStore) : Call → CsrfStore
  | .generate issuedAt _ token sessionId => insertToken issuedAt token sessionId tokens
  | .validate _ _ _ => tokens

def handedOut (calls : List Call) : CsrfStore := calls.foldl issue fun _ => none

variable {now : Int} {tokens tokens' : CsrfStore}

theorem cleanupExpired_cleanupExpired {before : Int} (h : before ≤ now) (tokens : CsrfStore) :
    cleanupExpired now (cleanupExpired before tokens) = cleanupExpired now tokens := by
  funext sessionId
  simp only [cleanupExpired, Option.filter_filter]
  refine congrArg (Option.filter · (tokens sessionId)) (funext fun entry => ?_)
  by_cases hentry : now < entry.2
  · simp [hentry, h.trans_lt hentry]
  · simp [hentry]

theorem cleanupExpired_step {call : Call} (hcall : call.time ≤ now)
    (h : cleanupExpired now tokens = cleanupExpired now tokens') :
    cleanupExpired now (step tokens call).2 = cleanupExpired now (issue tokens' call) := by
  have hstep : (step tokens call).2 = cleanupExpired call.time (issue tokens call) := by
    cases call <;> rfl
  rw [hstep, cleanupExpired_cleanupExpired hcall]
  cases call with
  | validate _ _ _ => exact h
  | generate issuedAt _ token sessionId =>
    funext other
    by_cases hother : other = sessionId
    · simp [issue, insertToken, cleanupExpired, hother]
    · simpa [issue, insertToken, cleanupExpired, hother] using congrFun h other

theorem cleanupExpired_exec (calls : List Call) (hcalls : ∀ call ∈ calls, call.time ≤ now)
    (h : cleanupExpired now tokens = cleanupExpired now tokens') :
    cleanupExpired now (exec step tokens calls) = cleanupExpired now (calls.foldl issue tokens') := by
  induction calls generalizing tokens tokens' with
  | nil => exact h
  | cons call calls ih =>
    obtain ⟨hcall, hcalls⟩ := List.forall_mem_cons.mp hcalls
    exact ih hcalls (cleanupExpired_step hcall h)

/-- Whatever tokens were made, checked and cleaned up before, for whatever
sessions: a token is valid if and only if it is the one handed out last for its
session, and its hour is not over. -/
theorem form_token_valid_iff (before : List Call) (hclock : ∀ call ∈ before, call.time ≤ now)
    (sessionId token : String) :
    (validateToken now sessionId token (exec step (fun _ => none) before)).1 = true ↔
      ∃ expiresAt, handedOut before sessionId = some (token, expiresAt) ∧ now < expiresAt := by
  have hbytes : ∀ other, asBytes other = asBytes token ↔ other = token := fun other =>
    ⟨fun h => Option.some.inj (by rw [← fromUtf8_asBytes, h, fromUtf8_asBytes]), congrArg asBytes⟩
  have hstore := congrFun (cleanupExpired_exec before hclock (Eq.refl (cleanupExpired now fun _ => none))) sessionId
  rw [validateToken, hstore, ← handedOut]
  cases hlast : handedOut before sessionId with
  | none => simp [cleanupExpired, hlast]
  | some entry => by_cases hentry : now < entry.2 <;> simp [cleanupExpired, hlast, hentry, hbytes, Prod.ext_iff]

theorem form_token_valid_reloaded :
    let before : List Call := [.generate 0 1 "first" "admin", .generate 2 3 "second" "admin"]
    (validateToken 9 "admin" "second" (exec step (fun _ => none) before)).1 = true := by
  intro before
  exact (form_token_valid_iff before (by decide) "admin" "second").mpr ⟨3600000000002, by decide, by decide⟩

end CoreVpn.Web.FormTokens
