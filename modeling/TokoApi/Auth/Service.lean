import TokoApi.Auth.Store
import TokoApi.Lib.Base64
import TokoApi.Lib.Threads

/-!
# The auth service

Register, Login, Logout, Refresh, Forgot and Reset of auth/service.go. Each call is a
thread, and a step of it is one store call together with the code up to the next one;
that code reads the clock and the random source once. No call opens a transaction.
Hashing, signing and the case mappings are functions of the service.

A finished Login keeps the key of its session and the hash that the password was
checked against, a Refresh the key of the session it has rotated, and a Reset the hash
that it has replaced; the answers do not contain them. `Me` only reads, and the
user identifiers of rows are never null.
-/
namespace TokoApi.Auth

open Lib.Text Lib.Base64 Lib.Threads

structure Service where
  accessTokenTTL : Int
  refreshTokenTTL : Int
  resetTokenTTL : Int
  /-- strings.ToLower, and the comparison of citext. -/
  toLower : String → String
  fold : String → String
  hashRefreshToken : String → String
  /-- argon2id, with the bytes of the salt. -/
  createHash : String → (Nat → UInt8) → Except String String
  comparePasswordAndHash : String → String → Except String Bool
  signAccessToken : Nat → Int → Except String String

def Service.accessTTL (svc : Service) : Int := if svc.accessTokenTTL ≤ 0 then 900 else svc.accessTokenTTL

def Service.refreshTTL (svc : Service) : Int :=
  if svc.refreshTokenTTL ≤ 0 then 86400 else svc.refreshTokenTTL

def Service.resetTTL (svc : Service) : Int := if svc.resetTokenTTL ≤ 0 then 86400 else svc.resetTokenTTL

inductive AuthError where
  | app (code message : String) (status : Nat)
  | plain (text : String)
  deriving DecidableEq

def invalidCredentials : AuthError := .app "INVALID_CREDENTIALS" "invalid email or password" 401
def invalidRefreshToken : AuthError := .app "UNAUTHORIZED" "invalid refresh token" 401
def invalidToken : AuthError := .app "INVALID_TOKEN" "invalid or expired token" 400

/-- The subset of a user's row that clients get. -/
structure UserView where
  id : Nat
  name : String
  email : String
  roles : List String
  createdAt : Int
  updatedAt : Int
  deriving DecidableEq

def convertUser (id : Nat) (u : User) : UserView := ⟨id, u.name, u.email, u.roles, u.createdAt, u.updatedAt⟩

structure RefreshResult where
  accessToken : String
  accessExpiry : Int
  refreshToken : String
  refreshExpiry : Int
  deriving DecidableEq

structure LoginResult extends RefreshResult where
  user : UserView
  deriving DecidableEq

/-- How the store call ends, and what the random source gives to the code after it. -/
structure Input where
  call : Call
  random : Except String (Nat → UInt8)

def generateToken (length : Nat) (random : Except String (Nat → UInt8)) : Except String String :=
  random.map fun bytes => encodeToString ((List.range length).map bytes)

/-- Null where there is nothing but white space. -/
def pgText (value : String) : Option String :=
  if trimSpace value = "" then none else some (trimSpace value)

def Service.tokens (svc : Service) (now : Int) (access refresh : String) : RefreshResult :=
  ⟨access, now + svc.accessTTL, refresh, now + svc.refreshTTL⟩

/-! ## Register -/

structure RegisterRequest where
  name : String
  email : String
  password : String

inductive RegisterPc where
  | createUser (name email hash : String)
  | returned (r : Except AuthError UserView)

def validationError (message : String) : RegisterPc := .returned (.error (.app "VALIDATION_ERROR" message 400))

/-- The salt is drawn before the only store call. -/
def Service.registerStart (svc : Service) (r : RegisterRequest)
    (random : Except String (Nat → UInt8)) : RegisterPc :=
  let email := trimSpace (svc.toLower r.email)
  if trimSpace r.name = "" then validationError "name is required"
  else if email = "" then validationError "email is required"
  else if r.password.utf8ByteSize < 8 then validationError "password must be at least 8 characters"
  else
    match random.bind (svc.createHash r.password) with
    | .error err => .returned (.error (.plain ("hash password: " ++ err)))
    | .ok hash => .createUser (trimSpace r.name) email hash

def Service.registerStep (svc : Service) (s : Store) : RegisterPc → Input → Option (Store × RegisterPc)
  | .createUser _ _ _, ⟨.fail err, _⟩ => some (s, .returned (.error (.plain ("create user: " ++ err))))
  | .createUser name email hash, ⟨.ok, _⟩ =>
    match createUser s svc.fold name email hash with
    -- the type of error that stands for a known address is that of another driver
    | .error err => some (s, .returned (.error (.plain ("create user: " ++ err))))
    | .ok (s', id, user) => some (s', .returned (.ok (convertUser id user)))
  | .returned _, _ => none

/-! ## Login -/

structure LoginRequest where
  email : String
  password : String
  userAgent : String
  ip : String

inductive LoginPc where
  | getUser (email : String)
  | createSession (id : Nat) (user : User) (tokens : RefreshResult)
  | rejected (err : AuthError)
  | loggedIn (session : Nat) (verified : String) (r : LoginResult)

def Service.loginStart (svc : Service) (r : LoginRequest) : LoginPc :=
  let email := trimSpace (svc.toLower r.email)
  if email = "" ∨ r.password = "" then .rejected invalidCredentials else .getUser email

def Service.loginStep (svc : Service) (s : Store) (r : LoginRequest) :
    LoginPc → Input → Option (Store × LoginPc)
  | .getUser _, ⟨.fail _, _⟩ => some (s, .rejected invalidCredentials)
  | .getUser email, ⟨.ok, random⟩ =>
    match getUserByEmail s svc.fold email with
    | none => some (s, .rejected invalidCredentials)
    | some (id, user) =>
      match svc.comparePasswordAndHash r.password user.passwordHash with
      | .error _ | .ok false => some (s, .rejected invalidCredentials)
      | .ok true =>
        match svc.signAccessToken id s.now with
        | .error err => some (s, .rejected (.plain ("sign access token: " ++ err)))
        | .ok access =>
          match generateToken 48 random with
          | .error err => some (s, .rejected (.plain ("generate refresh token: " ++ err)))
          | .ok refresh => some (s, .createSession id user (svc.tokens s.now access refresh))
  | .createSession _ _ _, ⟨.fail err, _⟩ =>
    some (s, .rejected (.plain ("generate refresh token: " ++ err)))
  | .createSession id user tokens, ⟨.ok, _⟩ =>
    match createSession s id (svc.hashRefreshToken tokens.refreshToken) (pgText r.userAgent)
        (pgText r.ip) tokens.refreshExpiry with
    | .error err => some (s, .rejected (.plain ("generate refresh token: " ++ err)))
    | .ok s' => some (s', .loggedIn s.nextID user.passwordHash ⟨tokens, convertUser id user⟩)
  | .rejected _, _ | .loggedIn _ _ _, _ => none

/-! ## Logout -/

inductive LogoutPc where
  | deleteSession (hashed : String)
  | returned (r : Except String Unit)

def Service.logoutStart (svc : Service) (refreshToken : String) : LogoutPc :=
  if trimSpace refreshToken = "" then .returned (.ok ())
  else .deleteSession (svc.hashRefreshToken (trimSpace refreshToken))

def logoutStep (s : Store) : LogoutPc → Input → Option (Store × LogoutPc)
  | .deleteSession _, ⟨.fail err, _⟩ => some (s, .returned (.error err))
  | .deleteSession hashed, ⟨.ok, _⟩ => some (deleteSessionByToken s hashed, .returned (.ok ()))
  | .returned _, _ => none

/-! ## Refresh -/

/-- `token` is the refresh token that was presented, without white space around it. -/
inductive RefreshPc where
  | getSession
  | rotate (session : Nat) (tokens : RefreshResult)
  | deleteExpired
  | deleteUnrotated (err : String)
  | rejected (err : AuthError)
  | refreshed (session : Nat) (r : RefreshResult)

def refreshStart (token : String) : RefreshPc :=
  if token = "" then .rejected invalidRefreshToken else .getSession

def Service.refreshStep (svc : Service) (s : Store) (token : String) :
    RefreshPc → Input → Option (Store × RefreshPc)
  | .getSession, ⟨.fail _, _⟩ => some (s, .rejected invalidRefreshToken)
  | .getSession, ⟨.ok, random⟩ =>
    match getSessionByToken s (svc.hashRefreshToken token) with
    | none => some (s, .rejected invalidRefreshToken)
    | some (id, session) =>
      if session.expiresAt < s.now then some (s, .deleteExpired)
      else
        match svc.signAccessToken session.userID s.now with
        | .error err => some (s, .rejected (.plain ("sign access token: " ++ err)))
        | .ok access =>
          match generateToken 48 random with
          -- the session is also deleted where no token can be drawn
          | .error err => some (s, .deleteUnrotated err)
          | .ok refresh => some (s, .rotate id (svc.tokens s.now access refresh))
  | .rotate _ _, ⟨.fail err, _⟩ => some (s, .deleteUnrotated err)
  | .rotate id tokens, ⟨.ok, _⟩ =>
    -- the row is found by its key; that it still has the token is not tested again
    match rotateSessionToken s id (svc.hashRefreshToken tokens.refreshToken) tokens.refreshExpiry with
    | .error err => some (s, .deleteUnrotated err)
    | .ok s' => some (s', .refreshed id tokens)
  -- errors of the deletions are discarded
  | .deleteExpired, ⟨.fail _, _⟩ => some (s, .rejected invalidRefreshToken)
  | .deleteExpired, ⟨.ok, _⟩ =>
    some (deleteSessionByToken s (svc.hashRefreshToken token), .rejected invalidRefreshToken)
  | .deleteUnrotated err, ⟨.fail _, _⟩ =>
    some (s, .rejected (.plain ("rotate session token: " ++ err)))
  | .deleteUnrotated err, ⟨.ok, _⟩ =>
    some (deleteSessionByToken s (svc.hashRefreshToken token),
      .rejected (.plain ("rotate session token: " ++ err)))
  | .rejected _, _ | .refreshed _ _, _ => none

/-! ## Forgot -/

structure ForgotRequest where
  email : String
  baseURL : String
  hasSender : Bool

inductive ForgotPc where
  | getUser (email : String)
  | createReset (id : Nat) (user : User) (token : String) (expiresAt : Int)
  | send (address subject body : String)
  | returned (r : Except String Unit)

def Service.forgotStart (svc : Service) (r : ForgotRequest) : ForgotPc :=
  let email := trimSpace (svc.toLower r.email)
  if email = "" then .returned (.ok ()) else .getUser email

/-- strings.TrimRight of slashes. -/
def trimSlashes (url : String) : String :=
  String.ofList (url.toList.reverse.dropWhile (· = '/')).reverse

def resetLink (baseURL token : String) : String :=
  let base := trimSlashes baseURL
  if base = "" then "/reset?token=" ++ token else base ++ "/reset?token=" ++ token

def Service.forgotStep (svc : Service) (s : Store) (r : ForgotRequest) :
    ForgotPc → Input → Option (Store × ForgotPc)
  -- whether the address is known is not disclosed
  | .getUser _, ⟨.fail _, _⟩ => some (s, .returned (.ok ()))
  | .getUser email, ⟨.ok, random⟩ =>
    match getUserByEmail s svc.fold email with
    | none => some (s, .returned (.ok ()))
    | some (id, user) =>
      match generateToken 32 random with
      | .error err => some (s, .returned (.error ("generate reset token: " ++ err)))
      | .ok token => some (s, .createReset id user token (s.now + svc.resetTTL))
  | .createReset _ _ _ _, ⟨.fail err, _⟩ =>
    some (s, .returned (.error ("create password reset: " ++ err)))
  | .createReset id user token expiresAt, ⟨.ok, _⟩ =>
    match createPasswordReset s id token expiresAt with
    | .error err => some (s, .returned (.error ("create password reset: " ++ err)))
    | .ok s' =>
      if r.hasSender then
        some (s', .send user.email "Reset Password"
          ("Klik tautan untuk reset: " ++ resetLink r.baseURL token))
      else some (s', .returned (.ok ()))
  | .send _ _ _, ⟨.fail err, _⟩ => some (s, .returned (.error ("send reset email: " ++ err)))
  | .send _ _ _, ⟨.ok, _⟩ => some (s, .returned (.ok ()))
  | .returned _, _ => none

/-! ## Reset -/

/-- From `usePasswordReset` on, `replaced` is the hash that has been replaced. -/
inductive ResetPc where
  | getReset
  | updatePassword (user : Nat) (hash : String)
  | usePasswordReset (user : Nat) (replaced : String)
  | deleteSessions (user : Nat) (replaced : String)
  | deleteResets (user : Nat) (replaced : String)
  | done (user : Nat) (replaced : String)
  | failed (replaced : Option String) (err : AuthError)

/-- `token` is the reset token that was presented, without white space around it. -/
def resetStart (token newPassword : String) : ResetPc :=
  if token = "" then .failed none invalidToken
  else if newPassword.utf8ByteSize < 8 then
    .failed none (.app "WEAK_PASSWORD" "password must be at least 8 characters" 400)
  else .getReset

def Service.resetStep (svc : Service) (s : Store) (token newPassword : String) :
    ResetPc → Input → Option (Store × ResetPc)
  | .getReset, ⟨.fail _, _⟩ => some (s, .failed none invalidToken)
  | .getReset, ⟨.ok, random⟩ =>
    match getPasswordResetByToken s token with
    | none => some (s, .failed none invalidToken)
    | some reset =>
      if reset.usedAt.isSome ∨ reset.expiresAt < s.now then some (s, .failed none invalidToken)
      else
        match random.bind (svc.createHash newPassword) with
        | .error err => some (s, .failed none (.plain ("hash password: " ++ err)))
        | .ok hash => some (s, .updatePassword reset.userID hash)
  | .updatePassword _ _, ⟨.fail err, _⟩ => some (s, .failed none (.plain ("update password: " ++ err)))
  | .updatePassword user hash, ⟨.ok, _⟩ =>
    match updateUserPassword s user hash with
    | none => some (s, .failed none (.plain ("update password: " ++ noRows)))
    | some s' => some (s', .usePasswordReset user (s.users.row user).passwordHash)
  | .usePasswordReset _ replaced, ⟨.fail err, _⟩ =>
    some (s, .failed (some replaced) (.plain ("mark reset used: " ++ err)))
  -- how many rows were marked is not looked at
  | .usePasswordReset user replaced, ⟨.ok, _⟩ =>
    some (usePasswordReset s token, .deleteSessions user replaced)
  | .deleteSessions _ replaced, ⟨.fail err, _⟩ =>
    some (s, .failed (some replaced) (.plain ("delete sessions: " ++ err)))
  | .deleteSessions user replaced, ⟨.ok, _⟩ =>
    some (deleteSessionsByUser s user, .deleteResets user replaced)
  | .deleteResets _ replaced, ⟨.fail err, _⟩ =>
    some (s, .failed (some replaced) (.plain ("delete password resets: " ++ err)))
  | .deleteResets user replaced, ⟨.ok, _⟩ =>
    some (deletePasswordResetsByUser s user, .done user replaced)
  | .done _ _, _ | .failed _ _, _ => none

/-! ## The machine -/

inductive Request where
  | register (r : RegisterRequest) (random : Except String (Nat → UInt8))
  | login (r : LoginRequest)
  | logout (refreshToken : String)
  | refresh (refreshToken : String)
  | forgot (r : ForgotRequest)
  | reset (token newPassword : String)

inductive Thread where
  | register (pc : RegisterPc)
  | login (r : LoginRequest) (pc : LoginPc)
  | logout (pc : LogoutPc)
  | refresh (token : String) (pc : RefreshPc)
  | forgot (r : ForgotRequest) (pc : ForgotPc)
  | reset (token newPassword : String) (pc : ResetPc)

def Service.start (svc : Service) : Request → Thread
  | .register r random => .register (svc.registerStart r random)
  | .login r => .login r (svc.loginStart r)
  | .logout token => .logout (svc.logoutStart token)
  | .refresh token => .refresh (trimSpace token) (refreshStart (trimSpace token))
  | .forgot r => .forgot r (svc.forgotStart r)
  | .reset token newPassword =>
    .reset (trimSpace token) newPassword (resetStart (trimSpace token) newPassword)

def Service.threadStep (svc : Service) (s : Store) : Thread → Input → Option (Store × Thread)
  | .register pc, x => (svc.registerStep s pc x).map fun p => (p.1, .register p.2)
  | .login r pc, x => (svc.loginStep s r pc x).map fun p => (p.1, .login r p.2)
  | .logout pc, x => (logoutStep s pc x).map fun p => (p.1, .logout p.2)
  | .refresh token pc, x => (svc.refreshStep s token pc x).map fun p => (p.1, .refresh token p.2)
  | .forgot r pc, x => (svc.forgotStep s r pc x).map fun p => (p.1, .forgot r p.2)
  | .reset token newPassword pc, x =>
    (svc.resetStep s token newPassword pc x).map fun p => (p.1, .reset token newPassword p.2)

def authMachine (svc : Service) : Machine Store Thread Request Input Nat where
  start := svc.start
  lstep _ s t x := svc.threadStep s t x
  estep s d := some { s with now := s.now + d }

abbrev State := Sys Store Thread

end TokoApi.Auth
