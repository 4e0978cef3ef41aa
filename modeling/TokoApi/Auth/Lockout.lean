import TokoApi.Auth.Rotation

/-!
# Reset and the sessions of the old password

Reset replaces the password and then deletes the user's sessions. A Login that has
checked the old password before can still create its session after that deletion. In
every run in which no Login does so, a Reset that has returned leaves no session whose
Login checked the password that it has replaced.
-/
namespace TokoApi.Auth

open Lib.Rows Lib.Runs Lib.Threads

/-- The session that a finished Login has created, and the hash it has checked the
password against. -/
def Thread.opened : Thread → Option (Nat × String)
  | .login _ (.loggedIn session verified _) => some (session, verified)
  | _ => none

/-- The user and the replaced hash of a Reset that has deleted the sessions. -/
def Thread.cleared : Thread → Option (Nat × String)
  | .reset _ _ (.deleteResets user replaced) | .reset _ _ (.done user replaced) =>
    some (user, replaced)
  | _ => none

def Thread.completed : Thread → Option (Nat × String)
  | .reset _ _ (.done user replaced) => some (user, replaced)
  | _ => none

/-- Every session of the user is that of a Login of the run, and none of these has
checked the password against the hash. -/
def LockedOut (c : State) (user : Nat) (hash : String) : Prop :=
  ∀ k ∈ c.shared.sessions.ids, (c.shared.sessions.row k).userID = user →
    (∃ t ∈ c.threads, ∃ verified, t.opened = some (k, verified)) ∧
      ∀ t ∈ c.threads, ∀ verified, t.opened = some (k, verified) → verified ≠ hash

/-- A session is created while no Reset that has replaced the hash its Login has
checked the password against has deleted the user's sessions. -/
def Timely (c : State) : Act Request Input Nat → Prop
  | .act i x =>
    match c.threads[i]? with
    | some (.login _ (.createSession id user _)) => x.call = .ok →
        ∀ t ∈ c.threads, t.cleared ≠ some (id, user.passwordHash)
    | _ => True
  | _ => True

def Thread.creating : Thread → Option (Nat × String)
  | .login _ (.createSession id user _) => some (id, user.passwordHash)
  | _ => none

theorem timely_act_iff {c : State} {i : Nat} {x : Input} :
    Timely c (.act i x) ↔ ∀ t ∈ c.threads[i]?, ∀ p ∈ t.creating, x.call = .ok →
      ∀ u ∈ c.threads, u.cleared ≠ some p := by
  simp only [Timely]
  split
  · rename_i h
    simp [h, Thread.creating]
  · rename_i h
    refine iff_of_true trivial fun t ht p hp => ?_
    unfold Thread.creating at hp
    split at hp <;> cases hp
    exact absurd ht (h _ _ _ _)

instance decidableTimely (c : State) : ∀ a : Act Request Input Nat, Decidable (Timely c a)
  | .act _ _ => decidable_of_iff _ timely_act_iff.symm
  | .spawn _ | .env _ => .isTrue trivial

structure Locks (c : State) : Prop where
  below : ∀ k ∈ c.shared.sessions.ids, k < c.shared.nextID
  opened : ∀ t ∈ c.threads, ∀ p ∈ t.opened, p.1 < c.shared.nextID
  locked : ∀ t ∈ c.threads, ∀ p ∈ t.cleared, LockedOut c p.1 p.2

variable {svc : Service} {c : State} {s s' : Store} {i : Nat} {t t' : Thread} {x : Input}

theorem opened_none (h : t.issued = none) : t.opened = none := by
  cases t with
  | login r pc => cases pc <;> first | rfl | cases h
  | _ => rfl

section

variable (h : Locks c) (ht : c.threads[i]? = some t) (hu : t.opened = none)
include h ht hu

/-- Sessions go or stay with their user; a Reset that deletes the sessions leaves none
of its user. -/
theorem Locks.set (hid : c.shared.nextID ≤ s'.nextID)
    (hkeep : ∀ k ∈ s'.sessions.ids, k ∈ c.shared.sessions.ids ∧
      (s'.sessions.row k).userID = (c.shared.sessions.row k).userID)
    (hopen : t'.opened = none)
    (hclear : ∀ p ∈ t'.cleared, t.cleared = some p ∨ ∀ k ∈ s'.sessions.ids, (s'.sessions.row k).userID ≠ p.1) :
    Locks ⟨s', c.threads.set i t'⟩ := by
  have hlocked : ∀ user hash, LockedOut c user hash → LockedOut ⟨s', c.threads.set i t'⟩ user hash := by
    intro user hash hl k hk huser
    obtain ⟨hk', hrow⟩ := hkeep k hk
    obtain ⟨hex, hall⟩ := hl k hk' (hrow ▸ huser)
    refine ⟨exists_mem_set ht ?_ hex, forall_mem_set ?_ hall⟩
    · rintro ⟨v, hv⟩
      rw [hu] at hv
      cases hv
    · intro v hv
      rw [hopen] at hv
      cases hv
  refine ⟨fun k hk => Nat.lt_of_lt_of_le (h.below k (hkeep k hk).1) hid, ?_, ?_⟩
  · refine forall_mem_set (fun p hp => ?_) fun u hu p hp => Nat.lt_of_lt_of_le (h.opened u hu p hp) hid
    rw [hopen] at hp
    cases hp
  · refine forall_mem_set (fun p hp => ?_) fun u hu p hp => hlocked _ _ (h.locked u hu p hp)
    rcases hclear p hp with hold | hnone
    · exact hlocked _ _ (h.locked t (List.mem_of_getElem? ht) p hold)
    · exact fun k hk huser => absurd huser (hnone k hk)

theorem Locks.quiet (hs : s'.sessions = c.shared.sessions) (hid : c.shared.nextID ≤ s'.nextID)
    (hopen : t'.opened = none) (hclear : ∀ p ∈ t'.cleared, t.cleared = some p) :
    Locks ⟨s', c.threads.set i t'⟩ :=
  h.set ht hu hid (fun k hk => ⟨hs ▸ hk, by rw [hs]⟩) hopen fun p hp => .inl (hclear p hp)

theorem Locks.delete (p : Session → Bool) (hopen : t'.opened = none)
    (hclear : ∀ q ∈ t'.cleared, ∀ k ∈ (c.shared.sessions.delete p).ids,
      (c.shared.sessions.row k).userID ≠ q.1) :
    Locks ⟨{ c.shared with sessions := c.shared.sessions.delete p }, c.threads.set i t'⟩ :=
  h.set ht hu (Nat.le_refl _) (fun _ hk => ⟨List.mem_of_mem_filter hk, rfl⟩) hopen
    fun q hq => .inr (hclear q hq)

end

theorem idle_opened (h : t.idle = true) : t.opened = none ∧ t.cleared = none := by
  cases t with
  | login r pc | reset token password pc => cases pc <;> first | exact ⟨rfl, rfl⟩ | cases h
  | _ => exact ⟨rfl, rfl⟩

/-- A new session, of a user whom no Reset of the checked hash has cleared. -/
theorem Locks.create {r : LoginRequest} {id : Nat} {user : User} {tokens : RefreshResult}
    (h : Locks c) (ht : c.threads[i]? = some (.login r (.createSession id user tokens)))
    (hs : createSession c.shared id (svc.hashRefreshToken tokens.refreshToken) (pgText r.userAgent)
      (pgText r.ip) tokens.refreshExpiry = .ok s')
    (hc : ∀ t ∈ c.threads, t.cleared ≠ some (id, user.passwordHash)) :
    Locks ⟨s', c.threads.set i
      (.login r (.loggedIn c.shared.nextID user.passwordHash ⟨tokens, convertUser id user⟩))⟩ := by
  obtain rfl := createSession_inv hs
  have hself := List.mem_set (List.getElem?_eq_some_iff.mp ht).1
    (Thread.login r (.loggedIn c.shared.nextID user.passwordHash ⟨tokens, convertUser id user⟩))
  have hcases : ∀ k ∈ c.shared.sessions.ids ++ [c.shared.nextID],
      k ∈ c.shared.sessions.ids ∧ k ≠ c.shared.nextID ∨ k = c.shared.nextID :=
    forall_mem_concat (.inr rfl) fun k hk => .inl ⟨hk, Nat.ne_of_lt (h.below k hk)⟩
  refine ⟨forall_mem_concat (Nat.lt_succ_self _) fun k hk => Nat.lt_succ_of_lt (h.below k hk), ?_, ?_⟩
  · refine forall_mem_set (fun p hp => ?_) fun u hu p hp => Nat.lt_succ_of_lt (h.opened u hu p hp)
    cases hp
    exact Nat.lt_succ_self _
  · refine forall_mem_set forall_mem_none fun u hu p hp k hk huser => ?_
    rcases hcases k hk with ⟨hk, hne⟩ | rfl
    · have hrow : (c.shared.sessions.row k).userID = p.1 := by
        simpa [Table.insert, hne] using huser
      obtain ⟨hex, hall⟩ := h.locked u hu p hp k hk hrow
      refine ⟨exists_mem_set ht ?_ hex, forall_mem_set (fun v hv => ?_) hall⟩
      · rintro ⟨v, hv⟩
        cases hv
      · cases hv
        exact absurd rfl hne
    · have hid : id = p.1 := by simpa [Table.insert] using huser
      refine ⟨⟨_, hself, _, rfl⟩, forall_mem_set (fun v hv => ?_) fun w hw v hv => ?_⟩
      · cases hv
        rintro hv
        exact hc u hu (hp.trans (by rw [hid, hv]))
      · exact absurd (h.opened w hw _ hv) (Nat.lt_irrefl _)

theorem locks_act (h : Locks c) (ht : c.threads[i]? = some t)
    (hs : svc.threadStep c.shared t x = some (s', t')) (hc : Timely c (.act i x)) :
    Locks ⟨s', c.threads.set i t'⟩ := by
  have hu : t.opened = none := opened_none (unfinished hs).1
  have heff := thread_effect hs
  clear hs
  cases heff with
  | idle hi =>
    exact h.quiet ht hu rfl (Nat.le_refl _) (idle_opened hi).1 (forall_mem_of_none (idle_opened hi).2)
  | registered hcreate =>
    exact h.quiet ht hu (createUser_same hcreate).1 (createUser_same hcreate).2.1 rfl forall_mem_none
  | created hx hcreate =>
    simp only [Timely, ht] at hc
    exact h.create ht hcreate (hc hx)
  | rotated hx hrotate =>
    obtain ⟨hk, rfl⟩ := rotateSessionToken_inv hrotate
    refine h.set ht hu (Nat.le_refl _) (fun l hl => ⟨hl, ?_⟩) rfl forall_mem_none
    simp only [Table.set, Function.update_apply]
    split
    · rename_i hlk
      rw [hlk]
    · rfl
  | deleted hd hi =>
    exact h.delete ht hu _ (idle_opened hi).1 (forall_mem_of_none (idle_opened hi).2)
  | requested hx hcreate =>
    exact h.quiet ht hu (createPasswordReset_same hcreate).1 (createPasswordReset_same hcreate).2.1 rfl
      forall_mem_none
  | changed hx hupdate =>
    exact h.quiet ht hu (updateUserPassword_same hupdate).1 (updateUserPassword_same hupdate).2.1 rfl
      forall_mem_none
  | cleared =>
    refine h.delete ht hu _ rfl fun q hq k hk => ?_
    cases hq
    simpa using (List.mem_filter.mp hk).2
  | finished => exact h.quiet ht hu rfl (Nat.le_refl _) rfl fun p hp => hp
  | stopped hpc => exact h.quiet ht hu rfl (Nat.le_refl _) rfl forall_mem_none
  | verified | found | expired | undrawn | unrotated | sent | admitted | marked =>
    exact h.quiet ht hu rfl (Nat.le_refl _) rfl forall_mem_none

theorem cleared_of_completed {p : Nat × String} (h : t.completed = some p) : t.cleared = some p := by
  cases t with
  | reset token password pc => cases pc <;> first | exact h | cases h
  | _ => cases h

theorem start_opened (r : Request) : (svc.start r).opened = none ∧ (svc.start r).cleared = none := by
  cases r with
  | login r =>
    simp only [Service.start, Service.loginStart]
    split <;> exact ⟨rfl, rfl⟩
  | reset token password =>
    simp only [Service.start, resetStart]
    split
    · exact ⟨rfl, rfl⟩
    · split <;> exact ⟨rfl, rfl⟩
  | _ => exact ⟨rfl, rfl⟩

theorem locks_step {d : State} {a : Act Request Input Nat} (h : Locks c) (hc : Timely c a)
    (hs : (authMachine svc).step c a = some d) : Locks d := by
  cases Machine.step_effect hs with
  | spawn r =>
    obtain ⟨hopen, hclear⟩ : ((authMachine svc).start r).opened = none ∧
        ((authMachine svc).start r).cleared = none := start_opened r
    refine ⟨h.below, forall_mem_concat (forall_mem_of_none hopen) h.opened,
      forall_mem_concat (forall_mem_of_none hclear) ?_⟩
    intro t ht p hp k hk huser
    obtain ⟨⟨u, hu, hex⟩, hall⟩ := h.locked t ht p hp k hk huser
    exact ⟨⟨u, List.mem_append_left _ hu, hex⟩, forall_mem_concat (by simp [hopen]) hall⟩
  | act ht hl =>
    exact locks_act h ht hl hc
  | env hl =>
    cases hl
    exact ⟨h.below, h.opened, h.locked⟩

/-- From any store, in every run of calls in any interleaving in which every Login
creates its session in time: once a Reset has returned nil, every session of the user
was created by a Login of the run, and none of these has checked the password against
the hash that the Reset has replaced. -/
theorem reset_locks_out (svc : Service) (s₀ : Store) (hbelow : ∀ k ∈ s₀.sessions.ids, k < s₀.nextID)
    (acts : List (Act Request Input Nat)) (c : State)
    (hr : run (authMachine svc).step ⟨s₀, []⟩ acts = some c)
    (hmeets : Meets (authMachine svc).step Timely ⟨s₀, []⟩ acts) (t : Thread) (ht : t ∈ c.threads)
    (user : Nat) (replaced : String) (hdone : t.completed = some (user, replaced)) :
    LockedOut c user replaced := by
  have hstart : Locks ⟨s₀, []⟩ := ⟨hbelow, List.forall_mem_nil _, List.forall_mem_nil _⟩
  have h : Locks c := run_inv (fun _ _ _ h hc hs => locks_step h hc hs) hstart hmeets hr
  exact h.locked t ht _ (cleared_of_completed hdone)

def resetRequested : Store :=
  { oneUser with passwordResets := ⟨[2], fun _ => ⟨1, "reset", 100, none, 0⟩⟩ }

def login (password : String) : Request := .login ⟨"user", password, "", ""⟩

def steps (i n : Nat) : List (Act Request Input Nat) := List.replicate n (.act i (drawing 0))

def resets (i : Nat) (password : String) : List (Act Request Input Nat) :=
  .spawn (.reset "reset" password) :: steps i 5

theorem logins_around_reset :
    ∃ c, run (authMachine plainService).step ⟨resetRequested, []⟩
        (.spawn (login "old") :: steps 0 2 ++ resets 1 "password" ++
          .spawn (login "password") :: [.act 2 (drawing 1), .act 2 (drawing 1)]) = some c ∧
      (c.threads.map Thread.opened = [some (10, "old"), none, some (11, "password")] ∧
        c.shared.sessions.ids = [11]) ∧ LockedOut c 1 "old" := by
  refine reaches_imp (P := fun c : State => (∃ t ∈ c.threads, t.completed = some (1, "old")) ∧
      c.threads.map Thread.opened = [some (10, "old"), none, some (11, "password")] ∧
      c.shared.sessions.ids = [11]) (by decide +kernel) fun c hc ⟨⟨t, ht, hdone⟩, hopen⟩ => ⟨hopen, ?_⟩
  exact reset_locks_out plainService resetRequested (List.forall_mem_nil _) _ c hc (by decide +kernel)
    t ht 1 "old" hdone

/-- A Login checks the password, then a Reset runs to its end, and the Login creates
its session. -/
theorem not_locked_out :
    ∃ c, run (authMachine plainService).step ⟨resetRequested, []⟩
        (.spawn (login "old") :: steps 0 1 ++ resets 1 "password" ++ steps 0 1) = some c ∧
      (c.threads.map Thread.opened = [some (10, "old"), none] ∧
        c.threads.map Thread.completed = [none, some (1, "old")] ∧ c.shared.sessions.ids = [10] ∧
        (c.shared.sessions.row 10).userID = 1) :=
  reaches (by decide +kernel)

end TokoApi.Auth
