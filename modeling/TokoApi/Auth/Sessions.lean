import TokoApi.Auth.Rotation

/-!
# Sessions and the tokens that were issued for them

What clients know of the sessions: for each one its user, the refresh token that was
issued last and when that expires, as the answers of Login and Refresh say. `after`
follows the calls, which come one after the other: Login opens a session, Refresh
replaces its token, Logout, Reset and a Refresh that is turned down end sessions. The
table of sessions mirrors this as long as the store answers and no token is drawn
that a session has, so a Refresh is answered as the history of the calls demands.
-/
namespace TokoApi.Auth

open Lib.Rows Lib.Text Lib.Base64 Lib.Runs Lib.Threads

structure Live where
  user : Nat
  token : String
  expiresAt : Int
  deriving DecidableEq

abbrev Sessions := Table Live

def Sessions.endToken (S : Sessions) (token : String) : Sessions := S.delete fun l => l.token = token

/-- The sessions after what a call has done so far. -/
def Sessions.after (S : Sessions) (r : Request) : Thread → Sessions
  | .login _ (.loggedIn k _ res) => S.insert k ⟨res.user.id, res.refreshToken, res.refreshExpiry⟩
  | .refresh _ (.refreshed k res) =>
    S.set k { S.row k with token := res.refreshToken, expiresAt := res.refreshExpiry }
  | .refresh token (.rejected _) => S.endToken token
  | .logout (.returned _) =>
    match r with
    | .logout token => S.endToken (trimSpace token)
    | _ => S
  | .reset _ _ (.deleteResets user _) | .reset _ _ (.done user _) => S.delete fun l => l.user = user
  | _ => S

def Thread.finished : Thread → Bool
  | .register (.returned _) | .login _ (.rejected _) | .login _ (.loggedIn _ _ _)
  | .logout (.returned _) | .refresh _ (.rejected _) | .refresh _ (.refreshed _ _)
  | .forgot _ (.returned _) | .reset _ _ (.done _ _) | .reset _ _ (.failed _ _) => true
  | _ => false

/-- A call with what happens to each of its statements: how much time passes before
it, how it ends and what is drawn after it. -/
abbrev Turn := Request × List (Nat × Input)

def calling (svc : Service) (s : Store) (c : Turn) : Option (Store × Thread) :=
  (authMachine svc).paced.alone 0 (s, svc.start c.1) c.2

def turn (svc : Service) (p : Store × Sessions) (c : Turn) : Option (Store × Sessions) :=
  ((calling svc p.1 c).filter fun q => q.2.finished).map fun q => (q.1, p.2.after c.1 q.2)

abbrev New (S : Sessions) (token : String) : Prop := ∀ k ∈ S.ids, (S.row k).token ≠ token

/-- A token can be drawn, and it is that of no session. -/
def Draws (S : Sessions) (x : Input) : Prop := ∃ bytes, x.random = .ok bytes ∧ New S (tokenOf 48 bytes)

/-- The store answers, and what is drawn is new. -/
abbrev Undisturbed (p : Store × Sessions) (c : Turn) : Prop :=
  ∀ x ∈ c.2, x.2.call = .ok ∧ Draws p.2 x.2

instance (S : Sessions) : ∀ x : Input, Decidable (Draws S x)
  | ⟨_, .ok bytes⟩ => decidable_of_iff (New S (tokenOf 48 bytes))
      ⟨fun h => ⟨bytes, rfl, h⟩, fun ⟨_, hb, h⟩ => Except.ok.inj hb ▸ h⟩
  | ⟨_, .error _⟩ => .isFalse fun ⟨_, hb, _⟩ => by cases hb

def checkedAt (s : Store) (c : Turn) : Int := s.now + (c.2.head?.elim 0 Prod.fst : Nat)

/-! ## The table of sessions -/

/-- The row of a session, which has the hash of the token only. -/
structure Shows (svc : Service) (row : Session) (l : Live) : Prop where
  user : row.userID = l.user
  token : row.refreshToken = svc.hashRefreshToken l.token
  expiresAt : row.expiresAt = l.expiresAt

structure Mirrors (svc : Service) (s : Store) (S : Sessions) : Prop where
  ids : S.ids = s.sessions.ids
  row : ∀ k ∈ S.ids, Shows svc (s.sessions.row k) (S.row k)
  distinct : ∀ j ∈ S.ids, ∀ k ∈ S.ids, (S.row j).token = (S.row k).token → j = k
  nonempty : ∀ k ∈ S.ids, (S.row k).token ≠ ""
  fresh : ∀ k ∈ S.ids, k < s.nextID

variable {svc : Service} {s s' : Store} {S : Sessions} {r : Request} {t t' : Thread} {x : Input}
  {k : Nat} {token : String}

theorem Mirrors.same (h : Mirrors svc s S) (hs : s'.sessions = s.sessions)
    (hn : s.nextID ≤ s'.nextID) : Mirrors svc s' S :=
  ⟨hs ▸ h.ids, hs ▸ h.row, h.distinct, h.nonempty, fun k hk => Nat.lt_of_lt_of_le (h.fresh k hk) hn⟩

theorem Mirrors.delete (h : Mirrors svc s S) {p : Session → Bool} {q : Live → Bool}
    (hpq : ∀ k ∈ S.ids, p (s.sessions.row k) = q (S.row k)) :
    Mirrors svc { s with sessions := s.sessions.delete p } (S.delete q) := by
  have hmem : ∀ k ∈ (S.delete q).ids, k ∈ S.ids := fun k hk => (List.mem_filter.mp hk).1
  refine ⟨?_, fun k hk => h.row k (hmem k hk),
    fun j hj k hk => h.distinct j (hmem j hj) k (hmem k hk),
    fun k hk => h.nonempty k (hmem k hk), fun k hk => h.fresh k (hmem k hk)⟩
  simp only [Table.delete, ← h.ids]
  exact List.filter_congr fun k hk => by rw [hpq k hk]

theorem endToken_new (hnew : New S token) : S.endToken token = S := by
  have hids : (S.ids.filter fun k => !decide ((S.row k).token = token)) = S.ids :=
    List.filter_eq_self.mpr fun k hk => by simpa using hnew k hk
  rw [Sessions.endToken, Table.delete, hids]

/-- A row is written, under a key that is new or not, with a token that is new. -/
theorem Mirrors.put (h : Mirrors svc s S) {ids ids' : List Nat} {row : Session} {l : Live} {n : Nat}
    (hids : ids = ids') (hmem : ∀ j ∈ ids, j = k ∨ j ∈ S.ids) (hrow : Shows svc row l)
    (hnew : New S l.token) (hne : l.token ≠ "") (hk : k < n) (hn : s.nextID ≤ n) :
    Mirrors svc { s with nextID := n, sessions := ⟨ids', Function.update s.sessions.row k row⟩ }
      ⟨ids, Function.update S.row k l⟩ := by
  have hother : ∀ j ∈ ids, j ≠ k → j ∈ S.ids := fun j hj hjk => (hmem j hj).resolve_left hjk
  constructor
  case ids => exact hids
  case row =>
    intro j hj
    by_cases hjk : j = k
    · subst hjk
      simpa using hrow
    · simpa [hjk] using h.row j (hother j hj hjk)
  case distinct =>
    intro i hi j hj he
    by_cases hik : i = k <;> by_cases hjk : j = k
    · rw [hik, hjk]
    · simp only [hik, Function.update_self, Function.update_of_ne hjk] at he
      exact absurd he.symm (hnew j (hother j hj hjk))
    · simp only [hjk, Function.update_self, Function.update_of_ne hik] at he
      exact absurd he (hnew i (hother i hi hik))
    · simp only [Function.update_of_ne hik, Function.update_of_ne hjk] at he
      exact h.distinct i (hother i hi hik) j (hother j hj hjk) he
  case nonempty =>
    intro j hj
    by_cases hjk : j = k
    · simpa [hjk] using hne
    · simpa [hjk] using h.nonempty j (hother j hj hjk)
  case fresh =>
    intro j hj
    rcases hmem j hj with rfl | hj
    · exact hk
    · exact Nat.lt_of_lt_of_le (h.fresh j hj) hn

section

variable (hinj : Function.Injective svc.hashRefreshToken) (h : Mirrors svc s S)
include hinj h

theorem Mirrors.endToken (token : String) :
    Mirrors svc (deleteSessionByToken s (svc.hashRefreshToken token)) (S.endToken token) := by
  refine h.delete fun k hk => decide_eq_decide.mpr ?_
  have htoken := (h.row k hk).token
  exact ⟨fun he => hinj (htoken.symm.trans he), fun he => htoken.trans (congrArg _ he)⟩

theorem Mirrors.getSession (hk : k ∈ S.ids) (ht : (S.row k).token = token) :
    getSessionByToken s (svc.hashRefreshToken token) = some (k, s.sessions.row k) := by
  have htoken : (s.sessions.row k).refreshToken = svc.hashRefreshToken token := ht ▸ (h.row k hk).token
  refine getSessionByToken_sole (h.ids ▸ hk) htoken fun j hj hjt => ?_
  rw [← h.ids] at hj
  rw [(h.row j hj).token] at hjt
  exact h.distinct j hj k hk ((hinj hjt).trans ht.symm)

theorem Mirrors.getSession_none (hnew : New S token) :
    getSessionByToken s (svc.hashRefreshToken token) = none := by
  cases hf : getSessionByToken s (svc.hashRefreshToken token) with
  | none => rfl
  | some p =>
    obtain ⟨k, row⟩ := p
    obtain ⟨hk, ht, _⟩ := getSessionByToken_inv hf
    rw [← h.ids] at hk
    exact absurd (hinj ((h.row k hk).token.symm.trans ht)) (hnew k hk)

end

/-! ## One statement of a call -/

def Thread.Ready (svc : Service) (S : Sessions) (r : Request) : Thread → Prop
  | .login _ (.createSession _ _ tokens) => New S tokens.refreshToken ∧ tokens.refreshToken ≠ ""
  | .logout (.deleteSession hashed) =>
    ∃ token, r = .logout token ∧ hashed = svc.hashRefreshToken (trimSpace token)
  | .refresh token (.rotate k tokens) => k ∈ S.ids ∧ (S.row k).token = token ∧
      New S tokens.refreshToken ∧ tokens.refreshToken ≠ ""
  | .refresh _ (.deleteUnrotated _) => False
  | _ => True

theorem tokenOf_ne_empty (bytes : Nat → UInt8) : tokenOf 48 bytes ≠ "" :=
  encodeToString_ne_empty (by simp)

theorem login_mirrors {q : LoginRequest} {pc pc' : LoginPc}
    (hm : Mirrors svc s (S.after r (.login q pc)))
    (hready : (Thread.login q pc).Ready svc S r) (hx : x.call = .ok) (hdraws : Draws S x)
    (h : svc.loginStep s q pc x = some (s', pc')) :
    Mirrors svc s' (S.after r (.login q pc')) ∧ (Thread.login q pc').Ready svc S r := by
  obtain ⟨call, random⟩ := x
  obtain rfl : call = .ok := hx
  obtain ⟨bytes, rfl, hnew⟩ := hdraws
  cases pc with
  | getUser email =>
    simp only [Service.loginStep] at h
    split at h
    · cases h
      exact ⟨hm, trivial⟩
    · split at h
      · cases h
        exact ⟨hm, trivial⟩
      · cases h
        exact ⟨hm, trivial⟩
      · split at h
        · cases h
          exact ⟨hm, trivial⟩
        · cases h
          exact ⟨hm, hnew, tokenOf_ne_empty bytes⟩
  | createSession id user tokens =>
    have hm : Mirrors svc s S := hm
    simp only [Service.loginStep] at h
    split at h <;> cases h
    · exact ⟨hm, trivial⟩
    · rename_i hc
      rw [createSession_inv hc]
      refine ⟨?_, trivial⟩
      exact hm.put (congrArg (· ++ [s.nextID]) hm.ids)
        (forall_mem_concat (.inl rfl) fun j hj => .inr hj) ⟨rfl, rfl, rfl⟩ hready.1 hready.2
        (Nat.lt_succ_self _) (Nat.le_succ _)
  | rejected err | loggedIn session verified res => cases h

theorem logout_mirrors {pc pc' : LogoutPc} (hinj : Function.Injective svc.hashRefreshToken)
    (hm : Mirrors svc s (S.after r (.logout pc))) (hready : (Thread.logout pc).Ready svc S r)
    (hx : x.call = .ok)
    (h : logoutStep s pc x = some (s', pc')) :
    Mirrors svc s' (S.after r (.logout pc')) ∧ (Thread.logout pc').Ready svc S r := by
  obtain ⟨call, random⟩ := x
  obtain rfl : call = .ok := hx
  cases pc with
  | deleteSession hashed =>
    obtain ⟨token, rfl, rfl⟩ := hready
    cases h
    exact ⟨Mirrors.endToken (S := S) hinj hm (trimSpace token), trivial⟩
  | returned res => cases h

/-- What a Refresh that has looked for its session will answer. `T` is the table of
sessions at the beginning of the call, and `at_` the time of the look. -/
def RefreshPc.Verdict (svc : Service) (S : Sessions) (T : Table Session) (token : String) (at_ : Int)
    (s : Store) : RefreshPc → Prop
  | .getSession => False
  | .rotate k tokens => k ∈ S.ids ∧ (S.row k).token = token ∧ at_ ≤ (S.row k).expiresAt ∧
      svc.signAccessToken (S.row k).user at_ = .ok tokens.accessToken ∧ New S tokens.refreshToken ∧
      s.sessions = T
  | .refreshed k tokens => k ∈ S.ids ∧ (S.row k).token = token ∧ at_ ≤ (S.row k).expiresAt ∧
      svc.signAccessToken (S.row k).user at_ = .ok tokens.accessToken ∧ New S tokens.refreshToken ∧
      ∃ row, s.sessions = T.set k row
  | .deleteExpired | .deleteUnrotated _ | .rejected _ =>
    ∀ k ∈ S.ids, (S.row k).token = token → (S.row k).expiresAt < at_

variable {pc pc' : RefreshPc} {at_ : Int}

theorem verdict_next {T : Table Session}
    (hv : pc.Verdict svc S T token at_ s) (hready : (Thread.refresh token pc').Ready svc S r)
    (hx : x.call = .ok) (h : svc.refreshStep s token pc x = some (s', pc')) :
    pc'.Verdict svc S T token at_ s' := by
  obtain ⟨call, random⟩ := x
  obtain rfl : call = .ok := hx
  cases pc with
  | getSession => exact hv.elim
  | rotate k tokens =>
    obtain ⟨hk, ht, hvalid, hsigned, hnew, rfl⟩ := hv
    simp only [Service.refreshStep] at h
    split at h <;> rename_i hrotate <;> cases h
    · exact hready.elim
    · obtain ⟨_, rfl⟩ := rotateSessionToken_inv hrotate
      exact ⟨hk, ht, hvalid, hsigned, hnew, _, rfl⟩
  | deleteExpired | deleteUnrotated err =>
    cases h
    exact hv
  | rejected err | refreshed session res => cases h

theorem reset_mirrors {newPassword : String} {pc pc' : ResetPc}
    (hm : Mirrors svc s (S.after r (.reset token newPassword pc))) (hx : x.call = .ok)
    (h : svc.resetStep s token newPassword pc x = some (s', pc')) :
    Mirrors svc s' (S.after r (.reset token newPassword pc')) := by
  obtain ⟨call, random⟩ := x
  obtain rfl : call = .ok := hx
  cases pc with
  | getReset =>
    simp only [Service.resetStep] at h
    split at h
    · cases h
      exact hm
    · split at h
      · cases h
        exact hm
      · split at h <;> cases h <;> exact hm
  | updatePassword user hash =>
    simp only [Service.resetStep] at h
    split at h <;> cases h
    · exact hm
    · rename_i hu
      exact hm.same (updateUserPassword_same hu).1 (updateUserPassword_same hu).2.1
  | usePasswordReset user replaced | deleteResets user replaced =>
    cases h
    exact hm.same rfl (Nat.le_refl _)
  | deleteSessions user replaced =>
    cases h
    have hm : Mirrors svc s S := hm
    exact hm.delete (p := fun row => row.userID = user) (q := fun l => l.user = user) fun k hk => by
      rw [(hm.row k hk).user]
  | done user replaced | failed replaced err => cases h

theorem start_mirrors (hm : Mirrors svc s S) (r : Request) :
    Mirrors svc s (S.after r (svc.start r)) ∧ (svc.start r).Ready svc S r := by
  cases r with
  | register q random | forgot q => exact ⟨hm, trivial⟩
  | login q =>
    simp only [Service.start, Service.loginStart]
    split <;> exact ⟨hm, trivial⟩
  | logout token =>
    simp only [Service.start, Service.logoutStart]
    split
    · rename_i hempty
      refine ⟨?_, trivial⟩
      rw [Sessions.after, hempty, endToken_new hm.nonempty]
      exact hm
    · exact ⟨hm, token, rfl, rfl⟩
  | refresh token =>
    simp only [Service.start, refreshStart]
    split
    · rename_i hempty
      refine ⟨?_, trivial⟩
      rw [Sessions.after, hempty, endToken_new hm.nonempty]
      exact hm
    · exact ⟨hm, trivial⟩
  | reset token newPassword =>
    simp only [Service.start, resetStart]
    split
    · exact ⟨hm, trivial⟩
    · split <;> exact ⟨hm, trivial⟩

theorem paced_step {d : Nat} (h : (authMachine svc).paced.lstep 0 s t (d, x) = some (s', t')) :
    svc.threadStep { s with now := s.now + d } t x = some (s', t') := h

section

variable (hinj : Function.Injective svc.hashRefreshToken)
  (hsign : ∀ user now, (svc.signAccessToken user now).isOk = true)
include hinj hsign

theorem refresh_first (hm : Mirrors svc s S) (hx : x.call = .ok) (hdraws : Draws S x)
    (h : svc.refreshStep s token .getSession x = some (s', pc)) :
    (Mirrors svc s' (S.after r (.refresh token pc)) ∧ (Thread.refresh token pc).Ready svc S r) ∧
      pc.Verdict svc S s.sessions token s.now s' := by
  obtain ⟨call, random⟩ := x
  obtain rfl : call = .ok := hx
  obtain ⟨bytes, rfl, hnew⟩ := hdraws
  simp only [Service.refreshStep] at h
  split at h
  · rename_i hnone
    cases h
    have hno : New S token := fun k hk ht => by
      rw [hm.getSession hinj hk ht] at hnone
      cases hnone
    rw [Sessions.after, endToken_new hno]
    exact ⟨⟨hm, trivial⟩, fun k hk ht => absurd ht (hno k hk)⟩
  · rename_i k session hfound
    obtain ⟨hk, htoken, rfl⟩ := getSessionByToken_inv hfound
    rw [← hm.ids] at hk
    have hrow := hm.row k hk
    have ht : (S.row k).token = token := hinj (hrow.token.symm.trans htoken)
    split at h
    · rename_i hexpired
      cases h
      refine ⟨⟨hm, trivial⟩, fun j hj hjt => ?_⟩
      rw [hm.distinct j hj k hk (hjt.trans ht.symm), ← hrow.expiresAt]
      exact hexpired
    · rename_i hvalid
      split at h
      · rename_i herr
        have hok := hsign (s.sessions.row k).userID s.now
        rw [herr] at hok
        cases hok
      · rename_i access hsigned
        cases h
        exact ⟨⟨hm, hk, ht, hnew, tokenOf_ne_empty bytes⟩, hk, ht,
          hrow.expiresAt ▸ Int.not_lt.mp hvalid, hrow.user ▸ hsigned, hnew, rfl⟩

theorem refresh_mirrors (hm : Mirrors svc s (S.after r (.refresh token pc)))
    (hready : (Thread.refresh token pc).Ready svc S r) (hx : x.call = .ok) (hdraws : Draws S x)
    (h : svc.refreshStep s token pc x = some (s', pc')) :
    Mirrors svc s' (S.after r (.refresh token pc')) ∧ (Thread.refresh token pc').Ready svc S r := by
  cases pc with
  | getSession => exact (refresh_first hinj hsign hm hx hdraws h).1
  | rotate k tokens =>
    have hm : Mirrors svc s S := hm
    obtain ⟨call, random⟩ := x
    obtain rfl : call = .ok := hx
    obtain ⟨hk, htoken, hnew, hne⟩ := hready
    have hfree : tokenTaken s k (svc.hashRefreshToken tokens.refreshToken) = false := by
      refine List.any_eq_false.mpr fun j hj => ?_
      rw [← hm.ids] at hj
      rw [(hm.row j hj).token]
      simp only [Bool.and_eq_true, decide_eq_true_eq, not_and]
      exact fun _ he => hnew j hj (hinj he)
    simp only [Service.refreshStep] at h
    split at h <;> rename_i hrotate <;> cases h
    · rw [rotateSessionToken, if_neg (by simpa [← hm.ids] using hk), hfree] at hrotate
      cases hrotate
    · obtain ⟨_, rfl⟩ := rotateSessionToken_inv hrotate
      refine ⟨hm.put hm.ids (fun j hj => .inr hj) ?_ hnew hne (hm.fresh k hk) (Nat.le_refl _), trivial⟩
      exact ⟨(hm.row k hk).user, rfl, rfl⟩
  | deleteExpired =>
    obtain ⟨call, random⟩ := x
    obtain rfl : call = .ok := hx
    cases h
    exact ⟨Mirrors.endToken (S := S) hinj hm token, trivial⟩
  | deleteUnrotated err => exact hready.elim
  | rejected err | refreshed session res => cases h

theorem step_mirrors (hm : Mirrors svc s (S.after r t)) (hready : t.Ready svc S r) (hx : x.call = .ok)
    (hdraws : Draws S x) (h : svc.threadStep s t x = some (s', t')) :
    Mirrors svc s' (S.after r t') ∧ t'.Ready svc S r := by
  cases t <;> obtain ⟨pc', hs, rfl⟩ := lifted_inv h
  case register pc =>
    refine ⟨?_, trivial⟩
    cases register_effect hs with
    | idle _ => exact hm
    | registered hc => exact Mirrors.same hm (createUser_same hc).1 (createUser_same hc).2.1
    | deleted hd _ => cases hd
  case login q pc => exact login_mirrors hm hready hx hdraws hs
  case logout pc => exact logout_mirrors hinj hm hready hx hs
  case refresh token pc => exact refresh_mirrors hinj hsign hm hready hx hdraws hs
  case forgot q pc =>
    refine ⟨?_, trivial⟩
    cases forgot_effect hs with
    | idle _ | sent => exact hm
    | requested _ hc => exact Mirrors.same hm (createPasswordReset_same hc).1 (createPasswordReset_same hc).2.1
    | deleted hd _ => cases hd
  case reset token newPassword pc => exact ⟨reset_mirrors hm hx hs, trivial⟩

/-! ## Whole calls -/

theorem calling_mirrors {c : Turn} (hm : Mirrors svc s S) (hc : Undisturbed (s, S) c)
    (h : calling svc s c = some (s', t)) :
    Mirrors svc s' (S.after c.1 t) ∧ t.Ready svc S c.1 := by
  refine run_inv (I := fun p => Mirrors svc p.1 (S.after c.1 p.2) ∧ p.2.Ready svc S c.1) ?_
    (start_mirrors hm c.1) (meets_of_forall hc) h
  rintro ⟨s, t⟩ ⟨d, x⟩ ⟨s', t'⟩ ⟨hm, hready⟩ ⟨hx, hdraws⟩ hs
  have hlater : Mirrors svc { s with now := s.now + d } (S.after c.1 t) := hm.same rfl (Nat.le_refl _)
  exact step_mirrors hinj hsign hlater hready hx hdraws (paced_step hs)

theorem turns_mirror {calls : List Turn} {s₀ : Store} {S₀ : Sessions} (hm : Mirrors svc s₀ S₀)
    (hc : Meets (turn svc) Undisturbed (s₀, S₀) calls)
    (h : run (turn svc) (s₀, S₀) calls = some (s, S)) : Mirrors svc s S := by
  refine run_inv (I := fun p => Mirrors svc p.1 p.2) ?_ hm hc h
  rintro ⟨s, S⟩ c ⟨s', S'⟩ hm hc hs
  obtain ⟨t, hcall, rfl⟩ := lifted_inv hs
  exact (calling_mirrors hinj hsign hm hc (Option.filter_eq_some_iff.mp hcall).1).1

/-! ## Refresh -/

structure Answering (svc : Service) (S : Sessions) (T : Table Session) (token : String) (at_ : Int)
    (s : Store) (pc : RefreshPc) : Prop where
  mirrors : Mirrors svc s (S.after (.refresh token) (.refresh token pc))
  ready : (Thread.refresh token pc).Ready svc S (.refresh token)
  verdict : pc.Verdict svc S T token at_ s

theorem Answering.step {T : Table Session} {d : Nat} (ha : Answering svc S T token at_ s pc)
    (hx : x.call = .ok) (hdraws : Draws S x)
    (h : svc.refreshStep { s with now := s.now + d } token pc x = some (s', pc')) :
    Answering svc S T token at_ s' pc' := by
  have hlater : Mirrors svc { s with now := s.now + d } (S.after (.refresh token) (.refresh token pc)) :=
    ha.mirrors.same rfl (Nat.le_refl _)
  obtain ⟨hmirrors, hready⟩ := refresh_mirrors hinj hsign hlater ha.ready hx hdraws h
  have hverdict : pc.Verdict svc S T token at_ { s with now := s.now + d } := by
    cases pc <;> exact ha.verdict
  exact ⟨hmirrors, hready, verdict_next hverdict hready hx h⟩

theorem refresh_answering {y : Nat × Input} {ys : List (Nat × Input)} (hm : Mirrors svc s S)
    (hc : ∀ x ∈ y :: ys, x.2.call = .ok ∧ Draws S x.2)
    (h : (authMachine svc).paced.alone 0 (s, .refresh token .getSession) (y :: ys) = some (s', t)) :
    ∃ pc, t = .refresh token pc ∧ Answering svc S s.sessions token (s.now + y.1) s' pc := by
  obtain ⟨⟨s₁, t₁⟩, hfirst, hrest⟩ := run_cons h
  obtain ⟨pc, hs, rfl⟩ := lifted_inv (paced_step hfirst)
  have hlater : Mirrors svc { s with now := s.now + y.1 } S := hm.same rfl (Nat.le_refl _)
  obtain ⟨hx, hdraws⟩ := hc y List.mem_cons_self
  obtain ⟨⟨hmirrors, hready⟩, hverdict⟩ := refresh_first hinj hsign hlater hx hdraws hs
  refine run_inv (I := fun p => ∃ pc, p.2 = .refresh token pc ∧
      Answering svc S s.sessions token (s.now + y.1) p.1 pc) ?_ ⟨pc, rfl, hmirrors, hready, hverdict⟩
    (meets_of_forall fun x hx => hc x (List.mem_cons_of_mem _ hx)) hrest
  rintro ⟨s, _⟩ ⟨d, x⟩ q ⟨pc, rfl, ha⟩ ⟨hx, hdraws⟩ hl
  obtain ⟨⟨s', pc'⟩, hs, rfl⟩ := Option.map_eq_some_iff.mp hl
  exact ⟨pc', rfl, ha.step hinj hsign hx hdraws hs⟩

end

/-- How many statements a Refresh makes at most. -/
def RefreshPc.rank : RefreshPc → Nat
  | .getSession => 3
  | .rotate _ _ => 2
  | .deleteExpired | .deleteUnrotated _ => 1
  | .rejected _ | .refreshed _ _ => 0

theorem refresh_proceeds (h : pc.rank ≠ 0) :
    ∃ s' pc', svc.refreshStep s token pc x = some (s', pc') ∧ pc'.rank < pc.rank := by
  obtain ⟨call, random⟩ := x
  cases pc with
  | getSession =>
    cases call with
    | fail err => exact ⟨_, _, rfl, by simp [RefreshPc.rank]⟩
    | ok =>
      simp only [Service.refreshStep]
      split
      · exact ⟨_, _, rfl, by simp [RefreshPc.rank]⟩
      · split
        · exact ⟨_, _, rfl, by simp [RefreshPc.rank]⟩
        · split
          · exact ⟨_, _, rfl, by simp [RefreshPc.rank]⟩
          · split <;> exact ⟨_, _, rfl, by simp [RefreshPc.rank]⟩
  | rotate k tokens =>
    cases call with
    | fail err => exact ⟨_, _, rfl, by simp [RefreshPc.rank]⟩
    | ok =>
      simp only [Service.refreshStep]
      split <;> exact ⟨_, _, rfl, by simp [RefreshPc.rank]⟩
  | deleteExpired | deleteUnrotated err => cases call <;> exact ⟨_, _, rfl, by simp [RefreshPc.rank]⟩
  | rejected err | refreshed session res => exact absurd rfl h

theorem refresh_returns {xs : List (Nat × Input)} (hlen : pc.rank ≤ xs.length) :
    ∃ n q, (authMachine svc).paced.alone 0 (s, .refresh token pc) (xs.take n) = some q ∧
      q.2.finished = true := by
  induction xs generalizing s pc with
  | nil =>
    have hzero : pc.rank = 0 := Nat.le_zero.mp hlen
    refine ⟨0, _, rfl, ?_⟩
    cases pc <;> first | rfl | cases hzero
  | cons y xs ih =>
    by_cases hzero : pc.rank = 0
    · refine ⟨0, _, rfl, ?_⟩
      cases pc <;> first | rfl | cases hzero
    · obtain ⟨s', pc', hs, hlt⟩ : ∃ s' pc', svc.refreshStep { s with now := s.now + y.1 } token pc y.2 =
          some (s', pc') ∧ pc'.rank < pc.rank := refresh_proceeds hzero
      have hrest : pc'.rank ≤ xs.length := by
        rw [List.length_cons] at hlen
        omega
      obtain ⟨n, q, hq, hfin⟩ := @ih s' pc' hrest
      refine ⟨n + 1, q, ?_, hfin⟩
      have hstep : (authMachine svc).paced.lstep 0 s (.refresh token pc) y =
          some (s', .refresh token pc') := congrArg (Option.map _) hs
      simp only [Machine.alone, List.take_succ_cons, run, hstep]
      exact hq

theorem Answering.refreshed {res : RefreshResult}
    (hinj : Function.Injective svc.hashRefreshToken) (hm : Mirrors svc s S)
    (ha : Answering svc S s.sessions token at_ s' (.refreshed k res)) :
    Shows svc (s'.sessions.row k) ⟨(S.row k).user, res.refreshToken, res.refreshExpiry⟩ ∧
      getSessionByToken s' (svc.hashRefreshToken token) = none ∧
      ∀ j, j ≠ k → s'.sessions.get? j = s.sessions.get? j := by
  obtain ⟨hk, ht, _, _, hnew, row, hrow⟩ := ha.verdict
  have hm' : Mirrors svc s'
      (S.set k { S.row k with token := res.refreshToken, expiresAt := res.refreshExpiry }) := ha.mirrors
  refine ⟨by simpa using hm'.row k hk, hm'.getSession_none hinj fun j hj => ?_, fun j hj => ?_⟩
  · by_cases hjk : j = k
    · rw [hjk, Table.set_row_self]
      exact fun he => hnew k hk (ht.trans he.symm)
    · rw [Table.set_row_ne _ _ hjk]
      exact fun he => hjk (hm.distinct j hj k hk (he.trans ht.symm))
  · rw [hrow]
    simp only [Table.get?, Table.set_ids, Table.set_row_ne _ _ hj]

def noSessions : Sessions := ⟨[], fun _ => ⟨0, "", 0⟩⟩

/-- Over calls that come one after the other, Refresh accepts a token exactly if it is
the one issued last for a session that has not ended or expired. It then replaces the
token of this session, for the same user, and touches no other session. -/
theorem refresh_accepts_current_token (svc : Service)
    (hinj : Function.Injective svc.hashRefreshToken)
    (hsign : ∀ user now, (svc.signAccessToken user now).isOk = true) (s₀ s : Store) (S : Sessions)
    (calls : List Turn) (hempty : s₀.sessions.ids = [])
    (hcalls : Meets (turn svc) Undisturbed (s₀, noSessions) calls)
    (hrun : run (turn svc) (s₀, noSessions) calls = some (s, S)) (token : String)
    (xs : List (Nat × Input)) (hxs : Undisturbed (s, S) (.refresh token, xs)) :
    S.ids = s.sessions.ids ∧
    (3 ≤ xs.length → ∃ n q, calling svc s (.refresh token, xs.take n) = some q ∧
      q.2.finished = true) ∧
    ∀ s' t, calling svc s (.refresh token, xs) = some (s', t) → t.finished = true →
      ((∃ k res, t = .refresh (trimSpace token) (.refreshed k res)) ↔
        ∃ k ∈ S.ids, (S.row k).token = trimSpace token ∧
          checkedAt s (.refresh token, xs) ≤ (S.row k).expiresAt) ∧
      ∀ k res, t = .refresh (trimSpace token) (.refreshed k res) →
        (k ∈ S.ids ∧ (S.row k).token = trimSpace token) ∧
        svc.signAccessToken (S.row k).user (checkedAt s (.refresh token, xs)) = .ok res.accessToken ∧
        Shows svc (s'.sessions.row k) ⟨(S.row k).user, res.refreshToken, res.refreshExpiry⟩ ∧
        getSessionByToken s' (svc.hashRefreshToken (trimSpace token)) = none ∧
        ∀ j, j ≠ k → s'.sessions.get? j = s.sessions.get? j := by
  have hm₀ : Mirrors svc s₀ noSessions :=
    ⟨hempty.symm, List.forall_mem_nil _, List.forall_mem_nil _, List.forall_mem_nil _,
      List.forall_mem_nil _⟩
  have hm := turns_mirror hinj hsign hm₀ hcalls hrun
  refine ⟨hm.ids, fun hlen => ?_, fun s' t hcall hfin => ?_⟩
  · refine refresh_returns (Nat.le_trans ?_ hlen)
    unfold refreshStart
    split <;> simp [RefreshPc.rank]
  · by_cases hnone : trimSpace token = ""
    · -- nothing is looked up, and no session has the empty token
      have hstart : svc.start (.refresh token) =
          .refresh (trimSpace token) (.rejected invalidRefreshToken) := by
        simp only [Service.start, refreshStart, if_pos hnone]
      rw [calling, hstart] at hcall
      cases xs with
      | cons y ys =>
        obtain ⟨q, hstep, _⟩ := run_cons hcall
        cases paced_step hstep
      | nil =>
        cases hcall
        refine ⟨iff_of_false ?_ ?_, fun k res h => by cases h⟩
        · rintro ⟨k, res, h⟩
          cases h
        · rintro ⟨k, hk, ht, _⟩
          exact hm.nonempty k hk (ht.trans hnone)
    · have hstart : svc.start (.refresh token) = .refresh (trimSpace token) .getSession := by
        simp only [Service.start, refreshStart, if_neg hnone]
      rw [calling, hstart] at hcall
      cases xs with
      | nil =>
        cases hcall
        cases hfin
      | cons y ys =>
        obtain ⟨pc, rfl, ha⟩ := refresh_answering hinj hsign hm hxs hcall
        cases pc with
        | rejected err =>
          refine ⟨iff_of_false ?_ ?_, fun k res h => by cases h⟩
          · rintro ⟨k, res, h⟩
            cases h
          · rintro ⟨k, hk, ht, hle⟩
            exact absurd hle (Int.not_le.mpr (ha.verdict k hk ht))
        | refreshed k res =>
          obtain ⟨hk, ht, hvalid, hsigned, _⟩ := ha.verdict
          refine ⟨iff_of_true ⟨k, res, rfl⟩ ⟨k, hk, ht, hvalid⟩, fun k' res' h => ?_⟩
          cases h
          exact ⟨⟨hk, ht⟩, hsigned, ha.refreshed hinj hm⟩
        | getSession | rotate k tokens | deleteExpired | deleteUnrotated err => cases hfin

/-! ### A Login and a Refresh -/

def loggingIn : Turn := (.login ⟨"user", "old", "", ""⟩, [(1, drawing 1), (1, drawing 0)])

def refreshing : List (Nat × Input) := [(5, drawing 2), (1, drawing 3)]

theorem refreshed_after_login :
    ∃ s S s' k res, run (turn plainService) (oneUser, noSessions) [loggingIn] = some (s, S) ∧
      calling plainService s (.refresh (tokenFrom 1), refreshing) =
        some (s', .refresh (trimSpace (tokenFrom 1)) (.refreshed k res)) ∧
      getSessionByToken s' (trimSpace (tokenFrom 1)) = none := by
  obtain ⟨⟨s, S⟩, hrun, hundisturbed, hlive, hend⟩ := reaches
    (o := run (turn plainService) (oneUser, noSessions) [loggingIn])
    (P := fun p => Undisturbed p (.refresh (tokenFrom 1), refreshing) ∧
      (10 ∈ p.2.ids ∧ (p.2.row 10).token = trimSpace (tokenFrom 1) ∧
        checkedAt p.1 (.refresh (tokenFrom 1), refreshing) ≤ (p.2.row 10).expiresAt) ∧
      ((calling plainService p.1 (.refresh (tokenFrom 1), refreshing)).any fun q => q.2.finished) = true)
    (by decide +kernel)
  obtain ⟨⟨s', t⟩, hcall, hfin⟩ := reaches (P := fun q : Store × Thread => q.2.finished = true)
    (by simpa using hend)
  obtain ⟨hiff, hdone⟩ := (refresh_accepts_current_token plainService (fun _ _ h => h) (fun _ _ => rfl)
    oneUser s S [loggingIn] rfl (by decide +kernel) hrun (tokenFrom 1) refreshing hundisturbed).2.2
      s' t hcall hfin
  obtain ⟨k, res, rfl⟩ := hiff.mpr ⟨10, hlive⟩
  exact ⟨s, S, s', k, res, hrun, hcall, (hdone k res rfl).2.2.2.1⟩

end TokoApi.Auth
