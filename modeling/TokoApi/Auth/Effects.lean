import TokoApi.Auth.Service

/-!
# What a step of the auth service does

`Effect` lists what one step of a call can do, each case with the checks it has
passed. `idle` collects the steps that write nothing and end in a point of the code
that no later statement of the call depends on.
-/
namespace TokoApi.Auth

open Lib.Base64 Lib.Threads

/-- A refresh token or reset token as `generateToken` makes it. -/
def tokenOf (length : Nat) (bytes : Nat → UInt8) : String :=
  encodeToString ((List.range length).map bytes)

/-- The call holds nothing that it will write. -/
def Thread.idle : Thread → Bool
  | .login _ (.rejected _) | .refresh _ (.rejected _) | .logout (.returned _) | .register (.returned _)
  | .reset _ _ (.failed none _) | .forgot _ (.createReset _ _ _ _) | .forgot _ (.returned _) => true
  | _ => false

/-- The refresh token, hashed, whose session the next statement deletes. -/
def Thread.deletes (svc : Service) : Thread → Option String
  | .logout (.deleteSession hashed) => some hashed
  | .refresh token .deleteExpired | .refresh token (.deleteUnrotated _) =>
    some (svc.hashRefreshToken token)
  | _ => none

inductive Effect (svc : Service) (s : Store) : Thread → Input → Store → Thread → Prop where
  | idle {t t' : Thread} {x} (h : t'.idle = true) : Effect svc s t x s t'
  | registered {name email hash x s' id user}
      (h : createUser s svc.fold name email hash = .ok (s', id, user)) :
      Effect svc s (.register (.createUser name email hash)) x s'
        (.register (.returned (.ok (convertUser id user))))
  | verified {r : LoginRequest} {email access x id} {user : User} {bytes}
      (hu : getUserByEmail s svc.fold email = some (id, user))
      (hp : svc.comparePasswordAndHash r.password user.passwordHash = .ok true) :
      Effect svc s (.login r (.getUser email)) x s
        (.login r (.createSession id user (svc.tokens s.now access (tokenOf 48 bytes))))
  | created {r : LoginRequest} {id : Nat} {user : User} {tokens : RefreshResult} {x : Input} {s' : Store}
      (hx : x.call = .ok)
      (h : createSession s id (svc.hashRefreshToken tokens.refreshToken) (pgText r.userAgent)
        (pgText r.ip) tokens.refreshExpiry = .ok s') :
      Effect svc s (.login r (.createSession id user tokens)) x s'
        (.login r (.loggedIn s.nextID user.passwordHash ⟨tokens, convertUser id user⟩))
  | found {token access x id} {session : Session} {bytes}
      (h : getSessionByToken s (svc.hashRefreshToken token) = some (id, session))
      (he : s.now ≤ session.expiresAt) :
      Effect svc s (.refresh token .getSession) x s
        (.refresh token (.rotate id (svc.tokens s.now access (tokenOf 48 bytes))))
  | expired {token x id} {session : Session}
      (h : getSessionByToken s (svc.hashRefreshToken token) = some (id, session))
      (he : session.expiresAt < s.now) :
      Effect svc s (.refresh token .getSession) x s (.refresh token .deleteExpired)
  | undrawn {token err} {x : Input} {id session} (hx : x.call = .ok)
      (h : getSessionByToken s (svc.hashRefreshToken token) = some (id, session))
      (he : x.random = .error err) :
      Effect svc s (.refresh token .getSession) x s (.refresh token (.deleteUnrotated err))
  | rotated {token : String} {id : Nat} {tokens : RefreshResult} {x : Input} {s' : Store}
      (hx : x.call = .ok)
      (h : rotateSessionToken s id (svc.hashRefreshToken tokens.refreshToken) tokens.refreshExpiry =
        .ok s') :
      Effect svc s (.refresh token (.rotate id tokens)) x s' (.refresh token (.refreshed id tokens))
  | unrotated {token err : String} {id : Nat} {tokens : RefreshResult} {x : Input}
      (h : x.call = .ok →
        rotateSessionToken s id (svc.hashRefreshToken tokens.refreshToken) tokens.refreshExpiry =
          .error err) :
      Effect svc s (.refresh token (.rotate id tokens)) x s (.refresh token (.deleteUnrotated err))
  | deleted {t t' : Thread} {x hashed} (h : t.deletes svc = some hashed) (h' : t'.idle = true) :
      Effect svc s t x (deleteSessionByToken s hashed) t'
  | requested {r id user token expiresAt} {x : Input} {s' pc} (hx : x.call = .ok)
      (h : createPasswordReset s id token expiresAt = .ok s') :
      Effect svc s (.forgot r (.createReset id user token expiresAt)) x s' (.forgot r pc)
  | sent {r address subject body x a} :
      Effect svc s (.forgot r (.send address subject body)) x s (.forgot r (.returned a))
  | admitted {token newPassword hash x} {reset : PasswordReset}
      (h : getPasswordResetByToken s token = some reset) (hu : reset.usedAt = none)
      (he : s.now ≤ reset.expiresAt) :
      Effect svc s (.reset token newPassword .getReset) x s
        (.reset token newPassword (.updatePassword reset.userID hash))
  | changed {token newPassword hash user} {x : Input} {s'} (hx : x.call = .ok)
      (h : updateUserPassword s user hash = some s') :
      Effect svc s (.reset token newPassword (.updatePassword user hash)) x s'
        (.reset token newPassword (.usePasswordReset user (s.users.row user).passwordHash))
  | marked {token newPassword replaced user x} :
      Effect svc s (.reset token newPassword (.usePasswordReset user replaced)) x
        (usePasswordReset s token) (.reset token newPassword (.deleteSessions user replaced))
  | cleared {token newPassword replaced user x} :
      Effect svc s (.reset token newPassword (.deleteSessions user replaced)) x
        (deleteSessionsByUser s user) (.reset token newPassword (.deleteResets user replaced))
  | finished {token newPassword replaced user x} :
      Effect svc s (.reset token newPassword (.deleteResets user replaced)) x
        (deletePasswordResetsByUser s user) (.reset token newPassword (.done user replaced))
  | stopped {token newPassword replaced : String} {pc : ResetPc} {x : Input} {err : AuthError}
      (h : ∃ user, pc = .usePasswordReset user replaced ∨ pc = .deleteSessions user replaced ∨
        pc = .deleteResets user replaced) :
      Effect svc s (.reset token newPassword pc) x s
        (.reset token newPassword (.failed (some replaced) err))

variable {svc : Service} {s s' : Store} {x : Input}

/-! ## One call -/

variable {token hashed : String} {user : Nat} {e : Int}

theorem generateToken_inv {length : Nat} {random : Except String (Nat → UInt8)}
    (h : generateToken length random = .ok token) : ∃ bytes, token = tokenOf length bytes := by
  cases random with
  | error err => cases h
  | ok bytes => exact ⟨bytes, (Except.ok.inj h).symm⟩

theorem register_effect {pc pc' : RegisterPc} (h : svc.registerStep s pc x = some (s', pc')) :
    Effect svc s (.register pc) x s' (.register pc') := by
  obtain ⟨call, random⟩ := x
  cases pc with
  | returned r => cases h
  | createUser name email hash =>
    cases call with
    | fail err =>
      cases h
      exact .idle rfl
    | ok =>
      simp only [Service.registerStep] at h
      split at h <;> cases h
      · exact .idle rfl
      · rename_i hc
        exact .registered hc

theorem login_effect {r : LoginRequest} {pc pc' : LoginPc}
    (h : svc.loginStep s r pc x = some (s', pc')) : Effect svc s (.login r pc) x s' (.login r pc') := by
  obtain ⟨call, random⟩ := x
  cases call with
  | fail err => cases pc <;> cases h <;> exact .idle rfl
  | ok =>
    cases pc with
    | getUser email =>
      simp only [Service.loginStep] at h
      split at h
      · cases h
        exact .idle rfl
      · rename_i id user hu
        split at h
        · cases h
          exact .idle rfl
        · cases h
          exact .idle rfl
        · rename_i hp
          split at h
          · cases h
            exact .idle rfl
          · split at h <;> cases h
            · exact .idle rfl
            · rename_i access _ token ht
              obtain ⟨bytes, rfl⟩ := generateToken_inv ht
              exact .verified hu hp
    | createSession id user tokens =>
      simp only [Service.loginStep] at h
      split at h <;> cases h
      · exact .idle rfl
      · rename_i hc
        exact .created rfl hc
    | rejected err | loggedIn session verified r => cases h

theorem logout_effect {pc pc' : LogoutPc} (h : logoutStep s pc x = some (s', pc')) :
    Effect svc s (.logout pc) x s' (.logout pc') := by
  obtain ⟨call, random⟩ := x
  cases pc with
  | returned r => cases h
  | deleteSession hashed =>
    cases call with
    | fail err =>
      cases h
      exact .idle rfl
    | ok =>
      cases h
      exact .deleted rfl rfl

theorem refresh_effect {pc pc' : RefreshPc} (h : svc.refreshStep s token pc x = some (s', pc')) :
    Effect svc s (.refresh token pc) x s' (.refresh token pc') := by
  obtain ⟨call, random⟩ := x
  cases call with
  | fail err => cases pc <;> cases h <;> first | exact .idle rfl | exact .unrotated nofun
  | ok =>
    cases pc with
    | getSession =>
      simp only [Service.refreshStep] at h
      split at h
      · cases h
        exact .idle rfl
      · rename_i id session hs
        split at h
        · rename_i he
          cases h
          exact .expired hs he
        · rename_i he
          split at h
          · cases h
            exact .idle rfl
          · split at h <;> cases h
            · rename_i err ht
              cases random with
              | ok bytes => cases ht
              | error err' =>
                cases ht
                exact .undrawn rfl hs rfl
            · rename_i access _ token ht
              obtain ⟨bytes, rfl⟩ := generateToken_inv ht
              exact .found hs (by omega)
    | rotate id tokens =>
      simp only [Service.refreshStep] at h
      split at h <;> cases h
      · rename_i hr
        exact .unrotated fun _ => hr
      · rename_i hr
        exact .rotated rfl hr
    | deleteExpired | deleteUnrotated err =>
      cases h
      exact .deleted rfl rfl
    | rejected err | refreshed session r => cases h

theorem forgot_effect {r : ForgotRequest} {pc pc' : ForgotPc}
    (h : svc.forgotStep s r pc x = some (s', pc')) :
    Effect svc s (.forgot r pc) x s' (.forgot r pc') := by
  obtain ⟨call, random⟩ := x
  cases call with
  | fail err => cases pc <;> cases h <;> exact .idle rfl
  | ok =>
    cases pc with
    | getUser email =>
      simp only [Service.forgotStep] at h
      split at h
      · cases h
        exact .idle rfl
      · split at h <;> cases h <;> exact .idle rfl
    | createReset id user token expiresAt =>
      simp only [Service.forgotStep] at h
      split at h
      · cases h
        exact .idle rfl
      · rename_i hc
        split at h <;> cases h <;> exact .requested rfl hc
    | send address subject body =>
      cases h
      exact .sent
    | returned a => cases h

theorem reset_effect {newPassword : String} {pc pc' : ResetPc}
    (h : svc.resetStep s token newPassword pc x = some (s', pc')) :
    Effect svc s (.reset token newPassword pc) x s' (.reset token newPassword pc') := by
  obtain ⟨call, random⟩ := x
  cases call with
  | fail err => cases pc <;> cases h <;> first | exact .idle rfl | exact .stopped (by simp)
  | ok =>
    cases pc with
    | getReset =>
      simp only [Service.resetStep] at h
      split at h
      · cases h
        exact .idle rfl
      · rename_i reset hr
        split at h
        · cases h
          exact .idle rfl
        · rename_i hvalid
          rw [not_or, Bool.not_eq_true, Option.isSome_eq_false_iff, Option.isNone_iff_eq_none] at hvalid
          split at h <;> cases h
          · exact .idle rfl
          · exact .admitted hr hvalid.1 (by omega)
    | updatePassword user hash =>
      simp only [Service.resetStep] at h
      split at h <;> cases h
      · exact .idle rfl
      · rename_i hu
        exact .changed rfl hu
    | usePasswordReset user replaced =>
      cases h
      exact .marked
    | deleteSessions user replaced =>
      cases h
      exact .cleared
    | deleteResets user replaced =>
      cases h
      exact .finished
    | done user replaced | failed replaced err => cases h

/-! ## Any call -/

theorem thread_effect {t t' : Thread} (h : svc.threadStep s t x = some (s', t')) :
    Effect svc s t x s' t' := by
  cases t with
  | register pc =>
    obtain ⟨pc', hp, rfl⟩ := lifted_inv h
    exact register_effect hp
  | login r pc =>
    obtain ⟨pc', hp, rfl⟩ := lifted_inv h
    exact login_effect hp
  | logout pc =>
    obtain ⟨pc', hp, rfl⟩ := lifted_inv h
    exact logout_effect hp
  | refresh token pc =>
    obtain ⟨pc', hp, rfl⟩ := lifted_inv h
    exact refresh_effect hp
  | forgot r pc =>
    obtain ⟨pc', hp, rfl⟩ := lifted_inv h
    exact forgot_effect hp
  | reset token newPassword pc =>
    obtain ⟨pc', hp, rfl⟩ := lifted_inv h
    exact reset_effect hp

/-! ## Store calls -/

variable {k : Nat} {token : String}

theorem createSession_inv {agent ip : Option String}
    (h : createSession s user hashed agent ip e = .ok s') :
    s' = { s with
      nextID := s.nextID + 1
      sessions := s.sessions.insert s.nextID ⟨user, hashed, agent, ip, e, s.now⟩ } := by
  unfold createSession at h
  split at h <;> cases h
  rfl

theorem rotateSessionToken_inv (h : rotateSessionToken s k hashed e = .ok s') :
    k ∈ s.sessions.ids ∧ s' = { s with
      sessions := s.sessions.set k { s.sessions.row k with refreshToken := hashed, expiresAt := e } } := by
  unfold rotateSessionToken at h
  split at h
  · cases h
  · rename_i hk
    split at h <;> cases h
    exact ⟨Classical.not_not.mp hk, rfl⟩

theorem getSessionByToken_inv {row : Session} (h : getSessionByToken s hashed = some (k, row)) :
    k ∈ s.sessions.ids ∧ (s.sessions.row k).refreshToken = hashed ∧ row = s.sessions.row k := by
  obtain ⟨l, hl, he⟩ := Option.map_eq_some_iff.mp h
  cases he
  exact ⟨List.mem_of_find?_eq_some hl, by simpa using List.find?_some hl, rfl⟩

theorem getSessionByToken_sole (hk : k ∈ s.sessions.ids)
    (ht : (s.sessions.row k).refreshToken = hashed)
    (hsole : ∀ l ∈ s.sessions.ids, (s.sessions.row l).refreshToken = hashed → l = k) :
    getSessionByToken s hashed = some (k, s.sessions.row k) := by
  unfold getSessionByToken
  cases hf : s.sessions.ids.find? fun id => (s.sessions.row id).refreshToken = hashed with
  | none => exact absurd (decide_eq_true ht) (List.find?_eq_none.mp hf k hk)
  | some l =>
    obtain rfl := hsole l (List.mem_of_find?_eq_some hf) (by simpa using List.find?_some hf)
    rfl

theorem createUser_same {fold : String → String} {name email hash : String} {id : Nat} {user : User}
    (h : createUser s fold name email hash = .ok (s', id, user)) :
    s'.sessions = s.sessions ∧ s.nextID ≤ s'.nextID ∧ s'.now = s.now := by
  unfold createUser at h
  split at h <;> cases h
  exact ⟨rfl, Nat.le_succ _, rfl⟩

theorem createPasswordReset_same (h : createPasswordReset s user token e = .ok s') :
    s'.sessions = s.sessions ∧ s.nextID ≤ s'.nextID ∧ s'.now = s.now := by
  unfold createPasswordReset at h
  split at h <;> cases h
  exact ⟨rfl, Nat.le_succ _, rfl⟩

theorem updateUserPassword_same {hash : String} (h : updateUserPassword s user hash = some s') :
    s'.sessions = s.sessions ∧ s.nextID ≤ s'.nextID ∧ s'.now = s.now := by
  unfold updateUserPassword at h
  split at h <;> cases h
  exact ⟨rfl, Nat.le_refl _, rfl⟩

end TokoApi.Auth
