import TokoApi.Auth.Effects

/-!
# Rotation of refresh tokens

A refresh token is to be redeemed once, and the token that is handed out in its place
is to be good for the next Refresh. Refresh finds the session by the token and
rotates it by its key, so two calls that overlap can both redeem one token, and the
token of the first is then lost. Here it is shown that this is the only way: in a run
in which every rotation finds the token that its call has presented still in the row,
each token is redeemed at most once, and a token that was handed out is accepted until
it is redeemed or its session is logged out, reset or expired.
-/
namespace TokoApi.Auth

open Lib.Rows Lib.Text Lib.Base64 Lib.Runs Lib.Threads

/-! ## Histories -/

def Thread.redeemed : Thread → Option String
  | .refresh token (.refreshed _ _) => some token
  | _ => none

/-- The session and the refresh token that a finished call has handed out. -/
def Thread.issued : Thread → Option (Nat × String)
  | .login _ (.loggedIn session _ r) => some (session, r.refreshToken)
  | .refresh _ (.refreshed session r) => some (session, r.refreshToken)
  | _ => none

def Redeemed (c : State) (token : String) : Prop := ∃ t ∈ c.threads, t.redeemed = some token

def Issued (c : State) (session : Nat) (token : String) : Prop :=
  ∃ t ∈ c.threads, t.issued = some (session, token)

def RedeemedOnce (c : State) : Prop := Once Thread.redeemed c.threads

def Store.tokenAt (s : Store) (session : Nat) : String := (s.sessions.row session).refreshToken

/-- The token has not been handed out, and was not in the table at first. -/
def FreshToken (svc : Service) (s₀ : Store) (c : State) (token : String) : Prop :=
  (∀ t ∈ c.threads, ∀ p ∈ t.issued, p.2 ≠ token) ∧
    ∀ k ∈ s₀.sessions.ids, s₀.tokenAt k ≠ svc.hashRefreshToken token

def Fresh (svc : Service) (s₀ : Store) (c : State) : Act Request Input Nat → Prop
  | .act i _ =>
    match c.threads[i]? with
    | some (.login _ (.createSession _ _ r)) => FreshToken svc s₀ c r.refreshToken
    | some (.refresh _ (.rotate _ r)) => FreshToken svc s₀ c r.refreshToken
    | _ => True
  | _ => True

/-- A rotation does not fail, and finds in the row the token that the call has
presented; a Refresh can draw its token. -/
def Unrivalled (svc : Service) (c : State) : Act Request Input Nat → Prop
  | .act i x =>
    match c.threads[i]? with
    | some (.refresh token (.rotate k _)) => x.call = .ok ∧
        (k ∈ c.shared.sessions.ids → c.shared.tokenAt k = svc.hashRefreshToken token)
    | some (.refresh _ .getSession) => x.random.isOk = true
    | _ => True
  | _ => True

instance decidableFresh (svc : Service) (s₀ : Store) (c : State) (a : Act Request Input Nat) :
    Decidable (Fresh svc s₀ c a) := by
  unfold Fresh FreshToken
  split
  · split <;> infer_instance
  · infer_instance

instance decidableUnrivalled (svc : Service) (c : State) (a : Act Request Input Nat) :
    Decidable (Unrivalled svc c a) := by
  unfold Unrivalled
  split
  · split <;> infer_instance
  · infer_instance

def RefreshPc.rejects : RefreshPc → Bool
  | .deleteExpired | .deleteUnrotated _ | .rejected _ => true
  | .getSession | .rotate _ _ | .refreshed _ _ => false

/-- No call that presents the token is turned down at its next statement, unless the
statement, the random source or the signature fails. -/
def Honoured (svc : Service) (s₀ : Store) (c : State) (token : String) : Prop :=
  ∀ (i : Nat) (pc pc' : RefreshPc) (x : Input) (s' : Store),
    c.threads[i]? = some (.refresh token pc) → Fresh svc s₀ c (.act i x) → x.call = .ok →
    x.random.isOk = true → (∀ user now, (svc.signAccessToken user now).isOk = true) →
    svc.refreshStep c.shared token pc x = some (s', pc') → pc.rejects = false → pc'.rejects = false

/-- The session is logged out, reset, or found expired by a Refresh with its token. -/
def Ends (svc : Service) (c : State) (session : Nat) : Act Request Input Nat → Prop
  | .act i _ =>
    match c.threads[i]? with
    | some (.logout (.deleteSession hashed)) => c.shared.tokenAt session = hashed
    | some (.reset _ _ (.deleteSessions user _)) => (c.shared.sessions.row session).userID = user
    | some (.refresh token .deleteExpired) => c.shared.tokenAt session = svc.hashRefreshToken token ∧
        (c.shared.sessions.row session).expiresAt < c.shared.now
    | _ => False
  | _ => False

/-! ## The proof outline -/

def Known (svc : Service) (s₀ : Store) (c : State) (hashed : String) : Prop :=
  (∃ k ∈ s₀.sessions.ids, s₀.tokenAt k = hashed) ∨
    ∃ k token, Issued c k token ∧ svc.hashRefreshToken token = hashed

def Generated (token : String) : Prop := ∃ bytes, token = tokenOf 48 bytes

/-- A token that was handed out is the session's, or has been redeemed. -/
def Good (svc : Service) (s : Store) (redeemed : String → Prop) (k : Nat) (token : String) : Prop :=
  Generated token ∧ k < s.nextID ∧
    (k ∈ s.sessions.ids → s.tokenAt k = svc.hashRefreshToken token ∨ redeemed token)

/-- What a call may rely on at the point it has reached. -/
def Thread.Holds (svc : Service) (s : Store) (known redeemed : String → Prop) : Thread → Prop
  | .login _ (.createSession _ _ r) => Generated r.refreshToken
  | .login _ (.loggedIn k _ r) => Good svc s redeemed k r.refreshToken
  | .refresh token (.rotate k r) => Generated r.refreshToken ∧ known (svc.hashRefreshToken token) ∧
      k < s.nextID ∧ (∀ l ∈ s.sessions.ids, s.tokenAt l = svc.hashRefreshToken token → l = k) ∧
      (k ∈ s.sessions.ids → s.tokenAt k = svc.hashRefreshToken token ∨ redeemed token)
  | .refresh token (.refreshed k r) => known (svc.hashRefreshToken token) ∧
      (∀ l ∈ s.sessions.ids, s.tokenAt l ≠ svc.hashRefreshToken token) ∧
      Good svc s redeemed k r.refreshToken
  | .refresh token .deleteExpired => known (svc.hashRefreshToken token) ∧
      ∀ l ∈ s.sessions.ids, s.tokenAt l = svc.hashRefreshToken token →
        (s.sessions.row l).expiresAt < s.now
  | .refresh token (.deleteUnrotated _) => known (svc.hashRefreshToken token) ∧
      ∀ l ∈ s.sessions.ids, s.tokenAt l ≠ svc.hashRefreshToken token
  | _ => True

structure Sound (svc : Service) (s : Store) (known : String → Prop) : Prop where
  distinct : ∀ k ∈ s.sessions.ids, ∀ l ∈ s.sessions.ids, s.tokenAt k = s.tokenAt l → k = l
  below : ∀ k ∈ s.sessions.ids, k < s.nextID
  stored : ∀ k ∈ s.sessions.ids, known (s.tokenAt k)

/-- How the sessions may change: a row is as it was or has a new token, and where a
token is replaced it has been redeemed. -/
structure Evolves (svc : Service) (known redeemed : String → Prop) (s s' : Store) : Prop where
  later : s.now ≤ s'.now
  grows : s.nextID ≤ s'.nextID
  kept : ∀ l ∈ s'.sessions.ids, l ∈ s.sessions.ids ∧ s'.sessions.row l = s.sessions.row l ∨
    ¬ known (s'.tokenAt l)
  old : ∀ l ∈ s'.sessions.ids, l ∈ s.sessions.ids ∨ s.nextID ≤ l
  replaced : ∀ l ∈ s.sessions.ids, l ∈ s'.sessions.ids → s'.tokenAt l = s.tokenAt l ∨
    ∃ token, s.tokenAt l = svc.hashRefreshToken token ∧ redeemed token

variable {svc : Service} {s s' s₀ : Store} {known known' redeemed redeemed' : String → Prop}
  {k : Nat} {token : String} {c : State}

section

variable (he : Evolves svc known redeemed' s s')
include he

theorem Evolves.held {l : Nat} (hk : known (svc.hashRefreshToken token)) (hl : l ∈ s'.sessions.ids)
    (ht : s'.tokenAt l = svc.hashRefreshToken token) :
    l ∈ s.sessions.ids ∧ s'.sessions.row l = s.sessions.row l := by
  rcases he.kept l hl with h | h
  · exact h
  · exact absurd (ht ▸ hk) h

variable (hinj : Function.Injective svc.hashRefreshToken) (hr : ∀ t, redeemed t → redeemed' t)
include hinj hr

theorem Evolves.current (hk : k < s.nextID)
    (h : k ∈ s.sessions.ids → s.tokenAt k = svc.hashRefreshToken token ∨ redeemed token) :
    k ∈ s'.sessions.ids → s'.tokenAt k = svc.hashRefreshToken token ∨ redeemed' token := by
  intro hk'
  have hin : k ∈ s.sessions.ids := (he.old k hk').resolve_right (by omega)
  rcases h hin with htok | hred
  · rcases he.replaced k hin hk' with hsame | ⟨t, ht, hrt⟩
    · exact .inl (hsame.trans htok)
    · obtain rfl : t = token := hinj (ht.symm.trans htok)
      exact .inr hrt
  · exact .inr (hr _ hred)

theorem Good.mono (h : Good svc s redeemed k token) : Good svc s' redeemed' k token :=
  ⟨h.1, Nat.lt_of_lt_of_le h.2.1 he.grows, he.current hinj hr h.2.1 h.2.2⟩

/-- What a call relies on is not disturbed. -/
theorem Thread.Holds.mono (hkn : ∀ h, known h → known' h) {t : Thread}
    (h : t.Holds svc s known redeemed) : t.Holds svc s' known' redeemed' := by
  cases t with
  | login r pc =>
    cases pc with
    | loggedIn k verified res => exact Good.mono he hinj hr h
    | _ => exact h
  | refresh tok pc =>
    cases pc with
    | rotate k r =>
      obtain ⟨hg, hk, hlt, hsole, hcur⟩ := h
      refine ⟨hg, hkn _ hk, Nat.lt_of_lt_of_le hlt he.grows, fun l hl ht => ?_, he.current hinj hr hlt hcur⟩
      obtain ⟨hl', hrow⟩ := he.held hk hl ht
      exact hsole l hl' (by rwa [Store.tokenAt, ← hrow])
    | refreshed k r =>
      obtain ⟨hk, hspent, hgood⟩ := h
      refine ⟨hkn _ hk, fun l hl ht => ?_, hgood.mono he hinj hr⟩
      obtain ⟨hl', hrow⟩ := he.held hk hl ht
      exact hspent l hl' (by rwa [Store.tokenAt, ← hrow])
    | deleteExpired =>
      obtain ⟨hk, hexp⟩ := h
      refine ⟨hkn _ hk, fun l hl ht => ?_⟩
      obtain ⟨hl', hrow⟩ := he.held hk hl ht
      rw [hrow]
      exact Int.lt_of_lt_of_le (hexp l hl' (by rwa [Store.tokenAt, ← hrow])) he.later
    | deleteUnrotated err =>
      obtain ⟨hk, hnone⟩ := h
      refine ⟨hkn _ hk, fun l hl ht => ?_⟩
      obtain ⟨hl', hrow⟩ := he.held hk hl ht
      exact hnone l hl' (by rwa [Store.tokenAt, ← hrow])
    | _ => trivial
  | _ => trivial

end

/-! ## Store calls -/

theorem evolves_same (hs : s'.sessions = s.sessions) (hid : s.nextID ≤ s'.nextID)
    (hnow : s.now ≤ s'.now) : Evolves svc known redeemed s s' := by
  refine ⟨hnow, hid, fun l hl => .inl ⟨hs ▸ hl, by rw [hs]⟩, fun l hl => .inl (hs ▸ hl),
    fun l _ _ => .inl ?_⟩
  rw [Store.tokenAt, hs]
  rfl

theorem sound_same (h : Sound svc s known) (hs : s'.sessions = s.sessions)
    (hid : s.nextID ≤ s'.nextID) (hkn : ∀ t, known t → known' t) : Sound svc s' known' := by
  have htok : ∀ l, s'.tokenAt l = s.tokenAt l := fun l => by rw [Store.tokenAt, hs]; rfl
  constructor
  · intro k hk l hl ht
    rw [htok, htok] at ht
    exact h.distinct k (hs ▸ hk) l (hs ▸ hl) ht
  · exact fun k hk => Nat.lt_of_lt_of_le (h.below k (hs ▸ hk)) hid
  · exact fun k hk => htok k ▸ hkn _ (h.stored k (hs ▸ hk))

theorem evolves_delete (p : Session → Bool) :
    Evolves svc known redeemed s { s with sessions := s.sessions.delete p } :=
  ⟨Int.le_refl _, Nat.le_refl _, fun _ hl => .inl ⟨List.mem_of_mem_filter hl, rfl⟩,
    fun _ hl => .inl (List.mem_of_mem_filter hl), fun _ _ _ => .inl rfl⟩

theorem sound_delete (h : Sound svc s known) (p : Session → Bool) (hkn : ∀ t, known t → known' t) :
    Sound svc { s with sessions := s.sessions.delete p } known' :=
  ⟨fun k hk l hl => h.distinct k (List.mem_of_mem_filter hk) l (List.mem_of_mem_filter hl),
    fun k hk => h.below k (List.mem_of_mem_filter hk),
    fun k hk => hkn _ (h.stored k (List.mem_of_mem_filter hk))⟩

section

variable {row : Session} {ids : List Nat} {n : Nat} (hnew : ¬ known row.refreshToken)
  (hmem : ∀ l ∈ ids, l ≠ k → l ∈ s.sessions.ids) (hn : s.nextID ≤ n)
include hnew hmem hn

theorem evolves_put (hk : k ∈ s.sessions.ids ∨ s.nextID ≤ k)
    (hr : k ∈ s.sessions.ids → ∃ token, s.tokenAt k = svc.hashRefreshToken token ∧ redeemed token) :
    Evolves svc known redeemed s
      { s with nextID := n, sessions := ⟨ids, Function.update s.sessions.row k row⟩ } := by
  refine ⟨Int.le_refl _, hn, fun l hl => ?_, fun l hl => ?_, fun l hl _ => ?_⟩ <;> by_cases hlk : l = k
  · subst hlk
    exact .inr (by simpa [Store.tokenAt] using hnew)
  · exact .inl ⟨hmem l hl hlk, Function.update_of_ne hlk ..⟩
  · exact hlk ▸ hk
  · exact .inl (hmem l hl hlk)
  · subst hlk
    exact .inr (hr hl)
  · exact .inl (congrArg Session.refreshToken (Function.update_of_ne hlk ..))

theorem sound_put (h : Sound svc s known) (hk : k < n) (hkn : ∀ t, known t → known' t)
    (hrow : known' row.refreshToken) :
    Sound svc { s with nextID := n, sessions := ⟨ids, Function.update s.sessions.row k row⟩ } known' := by
  have htok : ∀ l, Function.update s.sessions.row k row l = if l = k then row else s.sessions.row l :=
    fun l => Function.update_apply ..
  constructor
  · intro l hl m hm ht
    simp only [Store.tokenAt, htok] at ht
    by_cases hlk : l = k <;> by_cases hmk : m = k
    · rw [hlk, hmk]
    · rw [if_pos hlk, if_neg hmk] at ht
      exact absurd (ht ▸ h.stored m (hmem m hm hmk)) hnew
    · rw [if_neg hlk, if_pos hmk] at ht
      exact absurd (ht ▸ h.stored l (hmem l hl hlk)) hnew
    · rw [if_neg hlk, if_neg hmk] at ht
      exact h.distinct l (hmem l hl hlk) m (hmem m hm hmk) ht
  · intro l hl
    by_cases hlk : l = k
    · exact hlk ▸ hk
    · exact (h.below l (hmem l hl hlk)).trans_le hn
  · intro l hl
    simp only [Store.tokenAt, htok]
    split
    · exact hrow
    · exact hkn _ (h.stored l (hmem l hl ‹_›))

end

/-! ## Steps -/

structure Rotations (svc : Service) (s₀ : Store) (c : State) : Prop where
  sound : Sound svc c.shared (Known svc s₀ c)
  holds : ∀ t ∈ c.threads, t.Holds svc c.shared (Known svc s₀ c) (Redeemed c)
  once : RedeemedOnce c

theorem Rotations.not_redeemed (h : Rotations svc s₀ c) (hk : k ∈ c.shared.sessions.ids)
    (htok : c.shared.tokenAt k = svc.hashRefreshToken token) : ¬ Redeemed c token := by
  rintro ⟨u, hu, hred⟩
  cases u with
  | refresh tok pc =>
    cases pc with
    | refreshed l r =>
      cases hred
      exact (h.holds _ hu).2.1 k hk htok
    | _ => cases hred
  | _ => cases hred

theorem unfinished {t t' : Thread} {x : Input} (h : svc.threadStep s t x = some (s', t')) :
    t.issued = none ∧ t.redeemed = none := by
  cases t with
  | login r pc | refresh tok pc => cases pc <;> first | exact ⟨rfl, rfl⟩ | cases h
  | _ => exact ⟨rfl, rfl⟩

theorem idle_holds {t : Thread} (h : t.idle = true) : t.Holds svc s known redeemed := by
  cases t with
  | login r pc | refresh tok pc => cases pc <;> trivial
  | _ => trivial

theorem idle_redeemed {t : Thread} (h : t.idle = true) : t.redeemed = none := by
  cases t with
  | refresh tok pc => cases pc <;> first | rfl | cases h
  | _ => rfl

theorem start_holds (r : Request) : (svc.start r).Holds svc s known redeemed := by
  cases r with
  | login r =>
    simp only [Service.start, Service.loginStart]
    split <;> trivial
  | refresh tok =>
    simp only [Service.start, refreshStart]
    split <;> trivial
  | _ => trivial

theorem start_redeemed (r : Request) : (svc.start r).redeemed = none := by
  cases r with
  | refresh tok =>
    simp only [Service.start, refreshStart]
    split <;> rfl
  | _ => rfl

section

variable {i : Nat} {t t' : Thread}

theorem Issued.mono (ht : c.threads[i]? = some t) (hu : t.issued = none) (h : Issued c k token) :
    Issued ⟨s', c.threads.set i t'⟩ k token := by
  refine exists_mem_set ht (fun h => ?_) h
  rw [hu] at h
  cases h

theorem Redeemed.mono (ht : c.threads[i]? = some t) (hu : t.redeemed = none) (h : Redeemed c token) :
    Redeemed ⟨s', c.threads.set i t'⟩ token := by
  refine exists_mem_set ht (fun h => ?_) h
  rw [hu] at h
  cases h

theorem Known.mono {hashed : String} (ht : c.threads[i]? = some t) (hu : t.issued = none)
    (h : Known svc s₀ c hashed) : Known svc s₀ ⟨s', c.threads.set i t'⟩ hashed := by
  rcases h with h | ⟨k, tok, hi, hh⟩
  · exact .inl h
  · exact .inr ⟨k, tok, hi.mono ht hu, hh⟩

theorem known_issued (hself : t' ∈ c.threads.set i t') (h : t'.issued = some (k, token)) :
    Known svc s₀ ⟨s', c.threads.set i t'⟩ (svc.hashRefreshToken token) :=
  .inr ⟨k, token, ⟨t', hself, h⟩, rfl⟩

theorem RedeemedOnce.set (h : RedeemedOnce c)
    (hnew : ∀ token, t'.redeemed = some token → ¬ Redeemed c token) :
    RedeemedOnce ⟨s', c.threads.set i t'⟩ :=
  Once.set h fun token htok ⟨_, u, _, hj, hu⟩ => hnew token htok ⟨u, List.mem_of_getElem? hj, hu⟩

theorem rotate_error_inv {hashed err : String} {e : Int} (h : Sound svc s known)
    (hnew : ¬ known hashed) (hr : rotateSessionToken s k hashed e = .error err) :
    k ∉ s.sessions.ids := by
  unfold rotateSessionToken at hr
  split at hr
  · assumption
  · split at hr
    · rename_i htaken
      obtain ⟨l, hl, hl'⟩ := List.any_eq_true.mp htaken
      simp only [Bool.and_eq_true, decide_eq_true_eq] at hl'
      exact absurd (hl'.2 ▸ h.stored l hl) hnew
    · cases hr

variable (hinj : Function.Injective svc.hashRefreshToken)
include hinj

theorem not_known (h : FreshToken svc s₀ c token) :
    ¬ Known svc s₀ c (svc.hashRefreshToken token) := by
  rintro (⟨k, hk, hk'⟩ | ⟨k, tok, ⟨t, ht, hi⟩, htok⟩)
  · exact h.2 k hk hk'
  · exact h.1 t ht (k, tok) hi (hinj htok)

variable (h : Rotations svc s₀ c)
include h

theorem Rotations.set (ht : c.threads[i]? = some t) (hu : t.issued = none ∧ t.redeemed = none)
    (he : Evolves svc (Known svc s₀ c) (Redeemed ⟨s', c.threads.set i t'⟩) c.shared s')
    (hs : Sound svc s' (Known svc s₀ ⟨s', c.threads.set i t'⟩))
    (hown : t'.Holds svc s' (Known svc s₀ ⟨s', c.threads.set i t'⟩) (Redeemed ⟨s', c.threads.set i t'⟩))
    (hnew : ∀ token, t'.redeemed = some token → ¬ Redeemed c token) :
    Rotations svc s₀ ⟨s', c.threads.set i t'⟩ :=
  ⟨hs, forall_mem_set hown fun u hmem => (h.holds u hmem).mono he hinj
    (fun _ hr => hr.mono ht hu.2) fun _ hk => hk.mono ht hu.1, h.once.set hnew⟩

theorem Rotations.quiet (ht : c.threads[i]? = some t) (hu : t.issued = none ∧ t.redeemed = none)
    (hs : s'.sessions = c.shared.sessions) (hid : c.shared.nextID ≤ s'.nextID)
    (hnow : s'.now = c.shared.now)
    (hown : t'.Holds svc s' (Known svc s₀ ⟨s', c.threads.set i t'⟩) (Redeemed ⟨s', c.threads.set i t'⟩))
    (hnew : t'.redeemed = none) : Rotations svc s₀ ⟨s', c.threads.set i t'⟩ :=
  h.set hinj ht hu (evolves_same hs hid (Int.le_of_eq hnow.symm))
    (sound_same h.sound hs hid fun _ hk => hk.mono ht hu.1) hown (forall_mem_of_none hnew)

theorem rotations_act {x : Input} (ht : c.threads[i]? = some t)
    (hs : svc.threadStep c.shared t x = some (s', t')) (hf : Fresh svc s₀ c (.act i x))
    (hc : Unrivalled svc c (.act i x)) : Rotations svc s₀ ⟨s', c.threads.set i t'⟩ := by
  have hu := unfinished hs
  have hmem : t ∈ c.threads := List.mem_of_getElem? ht
  have hknown : ∀ hashed, Known svc s₀ c hashed → Known svc s₀ ⟨s', c.threads.set i t'⟩ hashed :=
    fun _ hk => hk.mono ht hu.1
  have hself : t' ∈ c.threads.set i t' := List.mem_set (List.getElem?_eq_some_iff.mp ht).1 t'
  have heff := thread_effect hs
  clear hs
  cases heff with
  | idle hi => exact h.quiet hinj ht hu rfl (Nat.le_refl _) rfl (idle_holds hi) (idle_redeemed hi)
  | registered hcreate =>
    obtain ⟨hsame, hid, hnow⟩ := createUser_same hcreate
    exact h.quiet hinj ht hu hsame hid hnow trivial rfl
  | verified huser hp => exact h.quiet hinj ht hu rfl (Nat.le_refl _) rfl ⟨_, rfl⟩ rfl
  | @created r id user tokens _ _ hx hcreate =>
    simp only [Fresh, ht] at hf
    have hnew := not_known hinj hf
    have hgen : Generated tokens.refreshToken := h.holds _ hmem
    obtain rfl := createSession_inv hcreate
    have hin : ∀ l ∈ c.shared.sessions.ids ++ [c.shared.nextID], l ≠ c.shared.nextID →
        l ∈ c.shared.sessions.ids := fun l hl hne =>
      (List.mem_append.mp hl).resolve_right fun hl => hne (List.mem_singleton.mp hl)
    have hout : c.shared.nextID ∉ c.shared.sessions.ids := fun hk => Nat.lt_irrefl _ (h.sound.below _ hk)
    refine h.set hinj ht hu (evolves_put hnew hin (Nat.le_succ _) (.inr le_rfl) (absurd · hout))
      (sound_put hnew hin (Nat.le_succ _) h.sound (Nat.lt_succ_self _) hknown (known_issued hself rfl))
      ⟨hgen, Nat.lt_succ_self _, fun _ => .inl ?_⟩ nofun
    simp [Store.tokenAt, Table.insert]
  | found hget he =>
    obtain ⟨hk, htok, -⟩ := getSessionByToken_inv hget
    refine h.quiet hinj ht hu rfl (Nat.le_refl _) rfl ⟨⟨_, rfl⟩, hknown _ (htok ▸ h.sound.stored _ hk),
      h.sound.below _ hk, fun l hl hl' => h.sound.distinct l hl _ hk (hl'.trans htok.symm),
      fun _ => .inl htok⟩ rfl
  | expired hget he =>
    obtain ⟨hk, htok, rfl⟩ := getSessionByToken_inv hget
    refine h.quiet hinj ht hu rfl (Nat.le_refl _) rfl
      ⟨hknown _ (htok ▸ h.sound.stored _ hk), fun l hl hl' => ?_⟩ rfl
    rwa [h.sound.distinct l hl _ hk (hl'.trans htok.symm)]
  | undrawn hx hget herr =>
    simp only [Unrivalled, ht, herr] at hc
    cases hc
  | @rotated token k tokens _ _ hx hrotate =>
    simp only [Fresh, ht] at hf
    simp only [Unrivalled, ht] at hc
    have hnew := not_known hinj hf
    obtain ⟨hgen, hkn, hlt, hsole, -⟩ := h.holds _ hmem
    obtain ⟨hk, rfl⟩ := rotateSessionToken_inv hrotate
    have htok := hc.2 hk
    have hspent : svc.hashRefreshToken tokens.refreshToken ≠ svc.hashRefreshToken token :=
      fun he => hnew (he ▸ hkn)
    refine h.set hinj ht hu (evolves_put hnew (fun l hl _ => hl) le_rfl (.inl hk)
        fun _ => ⟨_, htok, _, hself, rfl⟩)
      (sound_put hnew (fun l hl _ => hl) le_rfl h.sound hlt hknown (known_issued hself rfl))
      ⟨hknown _ hkn, fun l hl => ?_, hgen, hlt, fun _ => .inl ?_⟩ ?_
    · by_cases hlk : l = k
      · subst hlk
        simpa [Store.tokenAt] using hspent
      · rw [Store.tokenAt, Table.set_row_ne _ _ hlk]
        exact fun hl' => hlk (hsole l hl hl')
    · simp [Store.tokenAt]
    · rintro tok ⟨⟩
      exact h.not_redeemed hk htok
  | unrotated hr =>
    simp only [Fresh, ht] at hf
    simp only [Unrivalled, ht] at hc
    obtain ⟨-, hkn, -, hsole, -⟩ := h.holds _ hmem
    have hgone := rotate_error_inv h.sound (not_known hinj hf) (hr hc.1)
    refine h.quiet hinj ht hu rfl (Nat.le_refl _) rfl ⟨hknown _ hkn, fun l hl hl' => ?_⟩ rfl
    exact hgone (hsole l hl hl' ▸ hl)
  | deleted hd hi =>
    exact h.set hinj ht hu (evolves_delete _) (sound_delete h.sound _ hknown) (idle_holds hi)
      (forall_mem_of_none (idle_redeemed hi))
  | requested hx hcreate =>
    obtain ⟨hsame, hid, hnow⟩ := createPasswordReset_same hcreate
    exact h.quiet hinj ht hu hsame hid hnow trivial rfl
  | sent | admitted hget hused he | marked | finished | stopped hpc =>
    exact h.quiet hinj ht hu rfl (Nat.le_refl _) rfl trivial rfl
  | changed hx hupdate =>
    obtain ⟨hsame, hid, hnow⟩ := updateUserPassword_same hupdate
    exact h.quiet hinj ht hu hsame hid hnow trivial rfl
  | cleared =>
    exact h.set hinj ht hu (evolves_delete _) (sound_delete h.sound _ hknown) trivial nofun

theorem rotations_spawn (r : Request) :
    Rotations svc s₀ { c with threads := c.threads ++ [svc.start r] } := by
  have hknown : ∀ hashed, Known svc s₀ c hashed →
      Known svc s₀ { c with threads := c.threads ++ [svc.start r] } hashed := by
    rintro hashed (hk | ⟨k, tok, ⟨t, ht, hi⟩, hh⟩)
    · exact .inl hk
    · exact .inr ⟨k, tok, ⟨t, List.mem_append_left _ ht, hi⟩, hh⟩
  refine ⟨sound_same h.sound rfl (Nat.le_refl _) hknown, forall_mem_concat (start_holds r) ?_,
    h.once.concat (start_redeemed r)⟩
  exact fun t ht => (h.holds t ht).mono (evolves_same rfl (Nat.le_refl _) (Int.le_refl _)) hinj
    (fun tok ⟨u, hu, hr⟩ => ⟨u, List.mem_append_left _ hu, hr⟩) hknown

theorem rotations_step {d : State} {a : Act Request Input Nat} (hf : Fresh svc s₀ c a)
    (hc : Unrivalled svc c a) (hs : (authMachine svc).step c a = some d) : Rotations svc s₀ d := by
  cases Machine.step_effect hs with
  | spawn r =>
    exact rotations_spawn hinj h r
  | act ht hl =>
    exact rotations_act hinj h ht hl hf hc
  | @env e _ hl =>
    cases hl
    have he : Evolves svc (Known svc s₀ c) (Redeemed c) c.shared
        { c.shared with now := c.shared.now + e } :=
          evolves_same rfl (Nat.le_refl _) (Int.le_add_of_nonneg_right (Int.natCast_nonneg e))
    exact ⟨sound_same h.sound rfl (Nat.le_refl _) fun _ => id,
      fun t ht => (h.holds t ht).mono he hinj (fun _ => id) fun _ => id, h.once⟩

end

/-! ## What the outline gives -/

theorem Rotations.good (h : Rotations svc s₀ c) (hi : Issued c k token) :
    Good svc c.shared (Redeemed c) k token := by
  obtain ⟨t, ht, hi⟩ := hi
  have hh := h.holds t ht
  cases t with
  | login r pc =>
    cases pc with
    | loggedIn session verified res =>
      cases hi
      exact hh
    | _ => cases hi
  | refresh tok pc =>
    cases pc with
    | refreshed session res =>
      cases hi
      exact hh.2.2
    | _ => cases hi
  | _ => cases hi

theorem Generated.start (h : Generated token) :
    svc.start (.refresh token) = .refresh token .getSession := by
  obtain ⟨bytes, rfl⟩ := h
  have htrim : trimSpace (tokenOf 48 bytes) = tokenOf 48 bytes := trimSpace_encodeToString _
  have hne : tokenOf 48 bytes ≠ "" := encodeToString_ne_empty (by simp)
  simp only [Service.start, htrim, refreshStart, if_neg hne]

theorem getSessionByToken_eq (h : Sound svc s known) (hk : k ∈ s.sessions.ids) :
    getSessionByToken s (s.tokenAt k) = some (k, s.sessions.row k) :=
  getSessionByToken_sole hk rfl fun l hl ht => h.distinct l hl k hk ht

theorem Rotations.honoured (hinj : Function.Injective svc.hashRefreshToken) (h : Rotations svc s₀ c)
    (hi : Issued c k token) (hk : k ∈ c.shared.sessions.ids)
    (he : c.shared.now ≤ (c.shared.sessions.row k).expiresAt) (hr : ¬ Redeemed c token) :
    Honoured svc s₀ c token := by
  have htok : c.shared.tokenAt k = svc.hashRefreshToken token :=
    ((h.good hi).2.2 hk).resolve_right hr
  rintro i pc pc' ⟨call, random⟩ s' ht hf rfl hrandom hsign hs hpc
  cases pc with
  | getSession =>
    have hget := getSessionByToken_eq h.sound hk
    rw [htok] at hget
    obtain ⟨bytes, rfl⟩ : ∃ bytes, random = .ok bytes := by
      cases random with
      | error err => cases hrandom
      | ok bytes => exact ⟨bytes, rfl⟩
    have hsigned := hsign (c.shared.sessions.row k).userID c.shared.now
    simp only [Service.refreshStep, hget, if_neg (Int.not_lt.mpr he)] at hs
    split at hs
    · rename_i herr
      rw [herr] at hsigned
      cases hsigned
    · cases hs
      rfl
  | rotate l r =>
    obtain ⟨-, -, -, hsole, -⟩ := h.holds _ (List.mem_of_getElem? ht)
    obtain rfl := hsole k hk htok
    simp only [Fresh, ht] at hf
    simp only [Service.refreshStep] at hs
    split at hs
    · rename_i herr
      exact absurd hk (rotate_error_inv h.sound (not_known hinj hf) herr)
    · cases hs
      rfl
  | refreshed session r => cases hs
  | deleteExpired | deleteUnrotated err | rejected err => cases hpc

theorem mem_of_delete {p : Session → Bool} (hk : k ∈ s.sessions.ids)
    (hgone : k ∉ (s.sessions.delete p).ids) : p (s.sessions.row k) = true := by
  by_contra hp
  exact hgone (List.mem_filter.mpr ⟨hk, by simpa using hp⟩)

theorem Rotations.ends (h : Rotations svc s₀ c) {d : State} {a : Act Request Input Nat}
    (hs : (authMachine svc).step c a = some d) (hk : k ∈ c.shared.sessions.ids)
    (hgone : k ∉ d.shared.sessions.ids) : Ends svc c k a := by
  cases Machine.step_effect hs with
  | spawn r =>
    exact absurd hk hgone
  | env hl =>
    cases hl
    exact absurd hk hgone
  | @act _ _ t _ _ ht hl =>
    have hholds := h.holds t (List.mem_of_getElem? ht)
    have heff := thread_effect hl
    clear hl
    cases heff with
    | deleted hd hi =>
      have htok := of_decide_eq_true (mem_of_delete hk hgone)
      cases t with
      | logout pc =>
        cases pc with
        | deleteSession hashed =>
          cases hd
          simp only [Ends, ht]
          exact htok
        | returned r => cases hd
      | refresh token pc =>
        cases pc with
        | deleteExpired =>
          cases hd
          simp only [Ends, ht]
          exact ⟨htok, hholds.2 k hk htok⟩
        | deleteUnrotated err =>
          cases hd
          exact absurd htok (hholds.2 k hk)
        | _ => cases hd
      | _ => cases hd
    | cleared =>
      simp only [Ends, ht]
      exact of_decide_eq_true (mem_of_delete hk hgone)
    | created hx hcreate =>
      obtain rfl := createSession_inv hcreate
      exact absurd (List.mem_append_left _ hk) hgone
    | rotated hx hrotate =>
      obtain ⟨-, rfl⟩ := rotateSessionToken_inv hrotate
      exact absurd hk hgone
    | registered hcreate => exact absurd hk ((createUser_same hcreate).1 ▸ hgone)
    | requested hx hcreate => exact absurd hk ((createPasswordReset_same hcreate).1 ▸ hgone)
    | changed hx hupdate => exact absurd hk ((updateUserPassword_same hupdate).1 ▸ hgone)
    | _ => exact absurd hk hgone

/-- From any store whose sessions have different tokens, in every run in which new
tokens are fresh and rotations are not rivalled: no token is redeemed twice; a token
that was handed out can be presented as it is, and while its session exists, has not
expired and the token has not been redeemed, no call that presents it is turned down;
and sessions end only by logout, reset and expiry. -/
theorem tokens_redeemed_once (svc : Service) (hinj : Function.Injective svc.hashRefreshToken)
    (s₀ : Store)
    (hdistinct : ∀ k ∈ s₀.sessions.ids, ∀ l ∈ s₀.sessions.ids, s₀.tokenAt k = s₀.tokenAt l → k = l)
    (hbelow : ∀ k ∈ s₀.sessions.ids, k < s₀.nextID) (acts : List (Act Request Input Nat)) (c : State)
    (hr : run (authMachine svc).step ⟨s₀, []⟩ acts = some c)
    (hfresh : Meets (authMachine svc).step (Fresh svc s₀) ⟨s₀, []⟩ acts)
    (hmeets : Meets (authMachine svc).step (Unrivalled svc) ⟨s₀, []⟩ acts) :
    RedeemedOnce c ∧
    (∀ k token, Issued c k token → svc.start (.refresh token) = .refresh token .getSession ∧
      (k ∈ c.shared.sessions.ids → c.shared.now ≤ (c.shared.sessions.row k).expiresAt →
        ¬ Redeemed c token → Honoured svc s₀ c token)) ∧
    ∀ a d k, (authMachine svc).step c a = some d → k ∈ c.shared.sessions.ids →
      k ∉ d.shared.sessions.ids → Ends svc c k a := by
  have hstart : Rotations svc s₀ ⟨s₀, []⟩ :=
    ⟨⟨hdistinct, hbelow, fun k hk => .inl ⟨k, hk, rfl⟩⟩, nofun, Once.nil⟩
  have h : Rotations svc s₀ c := run_inv (I := Rotations svc s₀)
    (fun _ _ _ h hc hs => rotations_step hinj h hc.1 hc.2 hs) hstart (hfresh.and hmeets) hr
  exact ⟨h.once, fun k token hi => ⟨(h.good hi).1.start,
    fun hk he hnot => h.honoured hinj hi hk he hnot⟩, fun a d k hs hk hgone => h.ends hs hk hgone⟩

/-! ## Two calls with one token -/

/-- Passwords and tokens are stored as they are. -/
def plainService : Service where
  accessTokenTTL := 0
  refreshTokenTTL := 0
  resetTokenTTL := 0
  toLower := id
  fold := id
  hashRefreshToken := id
  createHash password _ := .ok password
  comparePasswordAndHash password hash := .ok (password = hash)
  signAccessToken _ _ := .ok ""

def oneUser : Store :=
  { emptyStore with
    nextID := 10
    users := ⟨[1], fun _ => ⟨"", "user", "old", [], 0, 0⟩⟩ }

def drawing (byte : UInt8) : Input := ⟨.ok, .ok fun _ => byte⟩

def tokenFrom (byte : UInt8) : String := tokenOf 48 fun _ => byte

/-- The calls log in, and redeem the first token one after the other. -/
def loginThenRefresh : List (Act Request Input Nat) :=
  [.spawn (.login ⟨"user", "old", "", ""⟩), .act 0 (drawing 1), .act 0 (drawing 0),
    .spawn (.refresh (tokenFrom 1)), .act 1 (drawing 2), .act 1 (drawing 0),
    .spawn (.refresh (tokenFrom 1)), .act 2 (drawing 3)]

theorem redeemed_one_after_the_other :
    ∃ c, run (authMachine plainService).step ⟨oneUser, []⟩ loginThenRefresh = some c ∧
      c.threads.map Thread.redeemed = [none, some (tokenFrom 1), none] ∧ RedeemedOnce c :=
  reaches_and (by decide +kernel) fun c hc _ => (tokens_redeemed_once plainService (fun _ _ h => h)
    oneUser nofun nofun _ c hc (by decide +kernel) (by decide +kernel)).1

/-- Two calls read the session before either of them rotates it; then the token of the
first one is presented. -/
def overlappingRefreshes : List (Act Request Input Nat) :=
  [.spawn (.login ⟨"user", "old", "", ""⟩), .act 0 (drawing 1), .act 0 (drawing 0),
    .spawn (.refresh (tokenFrom 1)), .spawn (.refresh (tokenFrom 1)), .act 1 (drawing 2),
    .act 2 (drawing 3), .act 1 (drawing 0), .act 2 (drawing 0),
    .spawn (.refresh (tokenFrom 2)), .act 3 (drawing 4)]

/-- The token is redeemed twice, and the one that the first call has returned is turned
down while its session exists. -/
theorem redeemed_twice :
    ∃ c, run (authMachine plainService).step ⟨oneUser, []⟩ overlappingRefreshes = some c ∧
      (c.threads.map Thread.redeemed = [none, some (tokenFrom 1), some (tokenFrom 1), none] ∧
        c.threads.map Thread.issued =
          [some (10, tokenFrom 1), some (10, tokenFrom 2), some (10, tokenFrom 3), none] ∧
        c.threads.map Thread.idle = [false, false, false, true] ∧ c.shared.sessions.ids = [10]) :=
  reaches (by decide +kernel)

end TokoApi.Auth
