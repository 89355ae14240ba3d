import CoreVpn.Auth.Errors
import CoreVpn.Lib.Computation
import CoreVpn.Lib.Tables

namespace CoreVpn.Auth.AuthSessions

open Lib.Computation Lib.Tables Errors

structure RateLimitEntry where
  count : UInt32
  resetAt : Int
  deriving DecidableEq

structure RateLimiter where
  maxAttempts : UInt32
  window : Int
  entries : Table String RateLimitEntry

def RateLimiter.new (maxAttempts : UInt32) (window : Nat) : RateLimiter where
  maxAttempts := maxAttempts
  window := window
  entries := .empty

/-- Entries whose window is over are dropped at every check. -/
def RateLimiter.check (key : String) (now : Int) (limiter : RateLimiter) : Bool × RateLimiter :=
  let entries := limiter.entries.retain fun entry => entry.resetAt > now
  let entry := (entries.find key).getD ⟨0, now + limiter.window⟩
  let entry := if now ≥ entry.resetAt then ⟨0, now + limiter.window⟩ else entry
  let entry := { entry with count := entry.count + 1 }
  (entry.count ≤ limiter.maxAttempts, { limiter with entries := entries.insert key entry })

def RateLimiter.reset (key : String) (limiter : RateLimiter) : RateLimiter :=
  { limiter with entries := limiter.entries.erase key }

def RateLimiter.cleanup (now : Int) (limiter : RateLimiter) : RateLimiter :=
  { limiter with entries := limiter.entries.retain fun entry => entry.resetAt > now }

structure AuthState where
  state : String
  nonce : String
  codeVerifier : String
  createdAt : Int
  expiresAt : Int
  deriving DecidableEq

structure TokenSet where
  accessToken : String
  refreshToken : Option String
  idToken : Option String
  expiresAt : Int
  tokenType : String
  scopes : List String
  deriving DecidableEq

structure UserInfo where
  sub : String
  email : Option String
  emailVerified : Bool
  name : Option String
  givenName : Option String
  familyName : Option String
  picture : Option String
  groups : List String
  provider : String
  deriving DecidableEq

structure AuthSession where
  id : String
  authState : Option AuthState
  tokens : Option TokenSet
  userInfo : Option UserInfo
  provider : String
  createdAt : Int
  expiresAt : Int
  lastActivity : Int
  vpnSessionId : Option String
  clientIp : Option String
  deriving DecidableEq

/-- What is drawn at random for a new session, and the time. -/
structure Draw where
  id : String
  state : String
  nonce : String
  codeVerifier : String
  now : Int

def second : Int := 1000000000

/-- A duration of the standard library as a signed one, if it is in range. -/
def fromStd (duration : Nat) : Option Int :=
  if duration ≤ (2 ^ 63 - 1) * 1000000 then some duration else none

def AuthState.new (draw : Draw) (lifetime : Nat) : AuthState where
  state := draw.state
  nonce := draw.nonce
  codeVerifier := draw.codeVerifier
  createdAt := draw.now
  expiresAt := draw.now + (fromStd lifetime).getD (600 * second)

namespace AuthSession

def new (draw : Draw) (provider : String) (lifetime : Nat) : AuthSession where
  id := draw.id
  authState := some (AuthState.new draw (600 * second.toNat))
  tokens := none
  userInfo := none
  provider := provider
  createdAt := draw.now
  expiresAt := draw.now + (fromStd lifetime).getD (86400 * second)
  lastActivity := draw.now
  vpnSessionId := none
  clientIp := none

def isExpired (now : Int) (session : AuthSession) : Bool := decide (now > session.expiresAt)

def state (session : AuthSession) : Option String := session.authState.map AuthState.state

def email (session : AuthSession) : Option String := session.userInfo.bind UserInfo.email

def completeAuth (now : Int) (tokens : TokenSet) (userInfo : UserInfo) (session : AuthSession) : AuthSession :=
  { session with tokens := some tokens, userInfo := some userInfo, authState := none, lastActivity := now }

end AuthSession

structure AuthSessionManager where
  sessions : Table String AuthSession
  sessionsByState : Table String String
  defaultLifetime : Nat
  lookupRateLimiter : RateLimiter

namespace AuthSessionManager

def new (defaultLifetime : Nat) : AuthSessionManager where
  sessions := .empty
  sessionsByState := .empty
  defaultLifetime := defaultLifetime
  lookupRateLimiter := RateLimiter.new 100 (60 * second.toNat)

def indexed (session : AuthSession) (index : Table String String) : Table String String :=
  match session.state with
  | some token => index.insert token session.id
  | none => index

def createSession (draw : Draw) (provider : String) : Program AuthSessionManager AuthError AuthSession := do
  let manager ← get
  let session := AuthSession.new draw provider manager.defaultLifetime
  modify fun manager =>
    { manager with
      sessionsByState := indexed session manager.sessionsByState
      sessions := manager.sessions.insert session.id session }
  return session

/-- Lookups are counted per client address, or per key if there is none. -/
def withinRate (key : String) (now : Int) : Program AuthSessionManager AuthError Bool := do
  let manager ← get
  let (allowed, lookupRateLimiter) := manager.lookupRateLimiter.check key now
  modify fun manager => { manager with lookupRateLimiter }
  return allowed

/-- Whether an identifier has the form of a random one is decided by a library. -/
def getSession (isRandomUuid : String → Bool) (id : String) (clientIp : Option String) (now : Int) :
    Program AuthSessionManager AuthError (Option AuthSession) := do
  let allowed ← withinRate (clientIp.getD id) now
  let manager ← get
  return if allowed && isRandomUuid id then manager.sessions.find id else none

/-- A lookup by token is counted twice, since it ends in a lookup by identifier. -/
def getSessionByState (isRandomUuid : String → Bool) (token : String) (clientIp : Option String) (now : Int) :
    Program AuthSessionManager AuthError (Option AuthSession) := do
  let allowed ← withinRate (clientIp.getD token) now
  let manager ← get
  match allowed, manager.sessionsByState.find token with
  | true, some id => getSession isRandomUuid id clientIp now
  | _, _ => return none

def sessionsWith (p : AuthSession → Bool) (sessions : Table String AuthSession) : Finset AuthSession :=
  (sessions.keysWith p).biUnion fun id => (sessions.find id).toFinset

def getUserSessions (email : String) (clientIp : Option String) (now : Int) :
    Program AuthSessionManager AuthError (Finset AuthSession) := do
  let allowed ← withinRate (clientIp.getD email) now
  let manager ← get
  return if allowed then sessionsWith (fun session => session.email == some email) manager.sessions else ∅

def updateSession (session : AuthSession) : Program AuthSessionManager AuthError Unit := do
  let manager ← get
  match manager.sessions.find session.id with
  | some _ => modify fun manager => { manager with sessions := manager.sessions.insert session.id session }
  | none => fail .sessionNotFound

def unindexed (session : AuthSession) (index : Table String String) : Table String String :=
  match session.state with
  | some token => index.erase token
  | none => index

def removeSession (id : String) : Program AuthSessionManager AuthError (Option AuthSession) := do
  let manager ← get
  match manager.sessions.find id with
  | some session =>
    modify fun manager =>
      { manager with
        sessions := manager.sessions.erase id
        sessionsByState := unindexed session manager.sessionsByState }
    return some session
  | none => return none

def tokensWith (p : AuthSession → Bool) (sessions : Table String AuthSession) : Finset String :=
  (sessions.keysWith p).biUnion fun id => ((sessions.find id).bind AuthSession.state).toFinset

/-- The sessions with some property are collected and removed one by one, each
with the entry of its token. -/
def removeWhere (p : AuthSession → Bool) : Program AuthSessionManager AuthError Nat := do
  let manager ← get
  modify fun manager =>
    { manager with
      sessions := manager.sessions.eraseAll (manager.sessions.keysWith p)
      sessionsByState := manager.sessionsByState.eraseAll (tokensWith p manager.sessions) }
  return (manager.sessions.keysWith p).card

def removeUserSessions (email : String) : Program AuthSessionManager AuthError Nat :=
  removeWhere fun session => session.email == some email

def cleanupExpired (now : Int) : Program AuthSessionManager AuthError Nat :=
  removeWhere (AuthSession.isExpired now)

end AuthSessionManager

end CoreVpn.Auth.AuthSessions
