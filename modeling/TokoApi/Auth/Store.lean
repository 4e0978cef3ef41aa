import TokoApi.Lib.Rows

/-!
# Users, sessions and password resets

The tables of the auth service with the columns it uses, and the queries of
users.sql, sessions.sql and password_resets.sql. A session stores the hash of its
refresh token, a password reset the token itself; both columns are unique. Rows of
`users` are never deleted.
-/
namespace TokoApi.Auth

open Lib.Rows

structure User where
  name : String
  email : String
  passwordHash : String
  roles : List String
  createdAt : Int
  updatedAt : Int
  deriving DecidableEq

structure Session where
  userID : Nat
  refreshToken : String
  userAgent : Option String
  ip : Option String
  expiresAt : Int
  createdAt : Int
  deriving DecidableEq

structure PasswordReset where
  userID : Nat
  token : String
  expiresAt : Int
  usedAt : Option Int
  createdAt : Int
  deriving DecidableEq

structure Store where
  now : Int
  nextID : Nat
  users : Table User
  sessions : Table Session
  passwordResets : Table PasswordReset

def emptyStore : Store where
  now := 0
  nextID := 0
  users := ⟨[], fun _ => ⟨"", "", "", [], 0, 0⟩⟩
  sessions := ⟨[], fun _ => ⟨0, "", none, none, 0, 0⟩⟩
  passwordResets := ⟨[], fun _ => ⟨0, "", 0, none, 0⟩⟩

def noRows : String := "no rows in result set"

def uniqueViolation (constraint : String) : String :=
  "ERROR: duplicate key value violates unique constraint \"" ++ constraint ++ "\" (SQLSTATE 23505)"

variable (s : Store)

/-! ## users.sql -/

/-- The column is of type citext, which compares what `fold` makes of two texts. -/
def getUserByEmail (fold : String → String) (email : String) : Option (Nat × User) :=
  (s.users.ids.find? fun id => fold (s.users.row id).email = fold email).map fun id =>
    (id, s.users.row id)

def createUser (fold : String → String) (name email hash : String) :
    Except String (Store × Nat × User) :=
  if (getUserByEmail s fold email).isSome then .error (uniqueViolation "users_email_key")
  else
    let user : User := ⟨name, email, hash, ["customer"], s.now, s.now⟩
    .ok ({ s with nextID := s.nextID + 1, users := s.users.insert s.nextID user }, s.nextID, user)

/-- No row where there is no such user. -/
def updateUserPassword (id : Nat) (hash : String) : Option Store :=
  if id ∈ s.users.ids then
    some { s with
      users := s.users.set id { s.users.row id with passwordHash := hash, updatedAt := s.now } }
  else none

/-! ## sessions.sql -/

def tokenTaken (id : Nat) (refreshToken : String) : Bool :=
  s.sessions.ids.any fun k => k ≠ id && (s.sessions.row k).refreshToken = refreshToken

def getSessionByToken (refreshToken : String) : Option (Nat × Session) :=
  (s.sessions.ids.find? fun id => (s.sessions.row id).refreshToken = refreshToken).map fun id =>
    (id, s.sessions.row id)

def createSession (user : Nat) (refreshToken : String) (userAgent ip : Option String)
    (expiresAt : Int) : Except String Store :=
  if tokenTaken s s.nextID refreshToken then .error (uniqueViolation "idx_sessions_refresh_token")
  else .ok { s with
    nextID := s.nextID + 1
    sessions := s.sessions.insert s.nextID ⟨user, refreshToken, userAgent, ip, expiresAt, s.now⟩ }

def rotateSessionToken (id : Nat) (refreshToken : String) (expiresAt : Int) : Except String Store :=
  if id ∉ s.sessions.ids then .error noRows
  else if tokenTaken s id refreshToken then .error (uniqueViolation "idx_sessions_refresh_token")
  else .ok { s with
    sessions := s.sessions.set id
      { s.sessions.row id with refreshToken := refreshToken, expiresAt := expiresAt } }

def deleteSessionByToken (refreshToken : String) : Store :=
  { s with sessions := s.sessions.delete fun row => row.refreshToken = refreshToken }

def deleteSessionsByUser (user : Nat) : Store :=
  { s with sessions := s.sessions.delete fun row => row.userID = user }

/-! ## password_resets.sql -/

def getPasswordResetByToken (token : String) : Option PasswordReset :=
  (s.passwordResets.ids.find? fun id => (s.passwordResets.row id).token = token).map
    s.passwordResets.row

def createPasswordReset (user : Nat) (token : String) (expiresAt : Int) : Except String Store :=
  if (getPasswordResetByToken s token).isSome then
    .error (uniqueViolation "password_resets_token_key")
  else .ok { s with
    nextID := s.nextID + 1
    passwordResets := s.passwordResets.insert s.nextID ⟨user, token, expiresAt, none, s.now⟩ }

def usePasswordReset (token : String) : Store :=
  { s with
    passwordResets := s.passwordResets.mapRows fun row =>
      if row.token = token ∧ row.usedAt = none then { row with usedAt := some s.now } else row }

def deletePasswordResetsByUser (user : Nat) : Store :=
  { s with passwordResets := s.passwordResets.delete fun row => row.userID = user }

end TokoApi.Auth
