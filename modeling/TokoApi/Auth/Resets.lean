import TokoApi.Auth.Lockout

/-!
# One reset for one token

A reset token is to change the password once. Reset tests in Go that the token has not
been used, changes the password, and marks the token only then; how many rows it has
marked is not looked at. Two calls that read the token before either has marked it
both change the password, and so does a call after one whose marking has failed. In
every run without such a change at most one call with a token changes the password.
-/
namespace TokoApi.Auth

open Lib.Rows Lib.Runs Lib.Threads

/-- The token of a Reset that has replaced the password and not marked the token. -/
def Thread.unmarked : Thread → Option String
  | .reset token _ (.usePasswordReset _ _) | .reset token _ (.failed (some _) _) => some token
  | _ => none

/-- The token of a Reset that has replaced the password and marked the token. -/
def Thread.marked : Thread → Option String
  | .reset token _ (.deleteSessions _ _) | .reset token _ (.deleteResets _ _)
  | .reset token _ (.done _ _) => some token
  | _ => none

/-- The token of a Reset that has replaced the password. -/
def Thread.changed (t : Thread) : Option String := t.unmarked <|> t.marked

/-- The password is changed while the row of the token is there and has not been used,
and no other call has changed it with the token and not marked the token. -/
def Unused (c : State) : Act Request Input Nat → Prop
  | .act i x =>
    match c.threads[i]? with
    | some (.reset token _ (.updatePassword _ _)) => x.call = .ok →
        ((getPasswordResetByToken c.shared token).any fun row => row.usedAt.isNone) = true ∧
          ∀ t ∈ c.threads, t.unmarked ≠ some token
    | _ => True
  | _ => True

/-- No password has been changed with a token that Forgot creates. -/
def FreshReset (c : State) : Act Request Input Nat → Prop
  | .act i _ =>
    match c.threads[i]? with
    | some (.forgot _ (.createReset _ _ token _)) => ∀ t ∈ c.threads, t.changed ≠ some token
    | _ => True
  | _ => True

def Thread.updating : Thread → Option String
  | .reset token _ (.updatePassword _ _) => some token
  | _ => none

def Thread.requesting : Thread → Option String
  | .forgot _ (.createReset _ _ token _) => some token
  | _ => none

theorem unused_act_iff {c : State} {i : Nat} {x : Input} :
    Unused c (.act i x) ↔ ∀ t ∈ c.threads[i]?, ∀ token ∈ t.updating, x.call = .ok →
      ((getPasswordResetByToken c.shared token).any fun row => row.usedAt.isNone) = true ∧
        ∀ u ∈ c.threads, u.unmarked ≠ some token := by
  simp only [Unused]
  split
  · rename_i h
    simp [h, Thread.updating]
  · rename_i h
    refine iff_of_true trivial fun t ht token hp => ?_
    unfold Thread.updating at hp
    split at hp <;> cases hp
    exact absurd ht (h _ _ _ _)

theorem freshReset_act_iff {c : State} {i : Nat} {x : Input} :
    FreshReset c (.act i x) ↔ ∀ t ∈ c.threads[i]?, ∀ token ∈ t.requesting,
      ∀ u ∈ c.threads, u.changed ≠ some token := by
  simp only [FreshReset]
  split
  · rename_i h
    simp [h, Thread.requesting]
  · rename_i h
    refine iff_of_true trivial fun t ht token hp => ?_
    unfold Thread.requesting at hp
    split at hp <;> cases hp
    exact absurd ht (h _ _ _ _ _)

instance decidableUnused (c : State) : ∀ a : Act Request Input Nat, Decidable (Unused c a)
  | .act _ _ => decidable_of_iff _ unused_act_iff.symm
  | .spawn _ | .env _ => .isTrue trivial

instance decidableFreshReset (c : State) : ∀ a : Act Request Input Nat, Decidable (FreshReset c a)
  | .act _ _ => decidable_of_iff _ freshReset_act_iff.symm
  | .spawn _ | .env _ => .isTrue trivial

def Spent (s : Store) (token : String) : Prop :=
  ∀ k ∈ s.passwordResets.ids, (s.passwordResets.row k).token = token →
    (s.passwordResets.row k).usedAt ≠ none

structure Resets (c : State) : Prop where
  spent : ∀ t ∈ c.threads, ∀ token ∈ t.marked, Spent c.shared token
  once : Once Thread.changed c.threads

variable {svc : Service} {c : State} {s s' : Store} {i : Nat} {t t' : Thread} {x : Input} {token : String}

/-! ## Rows -/

theorem Spent.find (h : Spent s token) :
    ((getPasswordResetByToken s token).any fun row => row.usedAt.isNone) = false := by
  unfold getPasswordResetByToken
  cases hf : s.passwordResets.ids.find? fun id => (s.passwordResets.row id).token = token with
  | none => rfl
  | some k =>
    have htok : (s.passwordResets.row k).token = token := by simpa using List.find?_some hf
    have hused := h k (List.mem_of_find?_eq_some hf) htok
    simpa [Option.isNone_eq_false_iff, Option.isSome_iff_ne_none] using hused

theorem spent_use {token' : String} (h : Spent s token ∨ token' = token) :
    Spent (usePasswordReset s token') token := by
  intro k hk htok
  simp only [usePasswordReset, Table.mapRows_row] at htok ⊢
  split at htok
  · rename_i hrow
    rw [if_pos hrow]
    exact Option.some_ne_none _
  · rename_i hrow
    rw [if_neg hrow]
    rcases h with h | rfl
    · exact h k hk htok
    · exact fun hnone => hrow ⟨htok, hnone⟩

theorem Spent.delete {user : Nat} (h : Spent s token) : Spent (deletePasswordResetsByUser s user) token :=
  fun k hk => h k (List.mem_of_mem_filter hk)

theorem Spent.same (h : Spent s token) (hs : s'.passwordResets = s.passwordResets) :
    Spent s' token := by
  unfold Spent
  rw [hs]
  exact h

theorem Spent.create {user : Nat} {token' : String} {e : Int} (h : Spent s token)
    (hs : createPasswordReset s user token' e = .ok s') (hne : token' ≠ token) : Spent s' token := by
  unfold createPasswordReset at hs
  split at hs <;> cases hs
  intro k hk htok
  simp only [Table.insert, Function.update_apply] at htok ⊢
  split at htok
  · exact absurd htok hne
  · rename_i hk'
    rw [if_neg hk']
    refine h k ?_ htok
    exact (List.mem_append.mp hk).resolve_right fun hk => hk' (List.mem_singleton.mp hk)

/-! ## Steps -/

theorem Resets.set (h : Resets c) (ht : c.threads[i]? = some t)
    (hspent : ∀ token, (∃ u ∈ c.threads, u.marked = some token) → Spent c.shared token → Spent s' token)
    (hmark : ∀ token ∈ t'.marked, t.marked = some token ∨ Spent s' token)
    (hchange : ∀ token ∈ t'.changed, t.changed = some token) :
    Resets ⟨s', c.threads.set i t'⟩ := by
  have hmem : t ∈ c.threads := List.mem_of_getElem? ht
  refine ⟨forall_mem_set (fun token hm => ?_) fun u hu token hm =>
    hspent token ⟨u, hu, hm⟩ (h.spent u hu token hm), h.once.set ?_⟩
  · rcases hmark token hm with hold | hnew
    · exact hspent token ⟨t, hmem, hold⟩ (h.spent t hmem token hold)
    · exact hnew
  · rintro token htok ⟨j, u, hji, hj, hu⟩
    exact hji (h.once j i u t token hj ht hu (hchange token htok))

theorem Resets.quiet (h : Resets c) (ht : c.threads[i]? = some t)
    (hs : s'.passwordResets = c.shared.passwordResets) (hmark : ∀ token ∈ t'.marked, t.marked = some token)
    (hchange : ∀ token ∈ t'.changed, t.changed = some token) : Resets ⟨s', c.threads.set i t'⟩ :=
  h.set ht (fun _ _ hsp => hsp.same hs) (fun token hm => .inl (hmark token hm)) hchange

theorem idle_changed (h : t.idle = true) : t.marked = none ∧ t.changed = none := by
  cases t with
  | reset token password pc =>
    cases pc with
    | failed replaced err =>
      cases replaced with
      | none => exact ⟨rfl, rfl⟩
      | some hash => cases h
    | _ => cases h
  | _ => exact ⟨rfl, rfl⟩

theorem changed_cases (h : t.changed = some token) : t.unmarked = some token ∨ t.marked = some token := by
  unfold Thread.changed at h
  cases hu : t.unmarked with
  | none =>
    rw [hu] at h
    exact .inr h
  | some token' =>
    rw [hu] at h
    exact .inl h

theorem resets_act (h : Resets c) (ht : c.threads[i]? = some t)
    (hs : svc.threadStep c.shared t x = some (s', t')) (hf : FreshReset c (.act i x))
    (hc : Unused c (.act i x)) : Resets ⟨s', c.threads.set i t'⟩ := by
  have heff := thread_effect hs
  clear hs
  cases heff with
  | idle hi | deleted hd hi =>
    exact h.quiet ht rfl (forall_mem_of_none (idle_changed hi).1)
      (forall_mem_of_none (idle_changed hi).2)
  | registered hcreate =>
    refine h.quiet ht ?_ forall_mem_none forall_mem_none
    unfold createUser at hcreate
    split at hcreate <;> cases hcreate
    rfl
  | created hx hcreate =>
    obtain rfl := createSession_inv hcreate
    exact h.quiet ht rfl forall_mem_none forall_mem_none
  | rotated hx hrotate =>
    obtain ⟨-, rfl⟩ := rotateSessionToken_inv hrotate
    exact h.quiet ht rfl forall_mem_none forall_mem_none
  | requested hx hcreate =>
    simp only [FreshReset, ht] at hf
    refine h.set ht ?_ forall_mem_none forall_mem_none
    rintro token ⟨u, hu, hm⟩ hsp
    refine hsp.create hcreate ?_
    rintro rfl
    refine hf u hu ?_
    rw [Thread.changed, hm]
    cases u with
    | reset token password pc => cases pc <;> first | rfl | cases hm
    | _ => cases hm
  | changed hx hupdate =>
    simp only [Unused, ht] at hc
    obtain ⟨hrow, hnone⟩ := hc hx
    refine ⟨forall_mem_set forall_mem_none fun u hu token hm => (h.spent u hu token hm).same ?_, h.once.set ?_⟩
    · unfold updateUserPassword at hupdate
      split at hupdate <;> cases hupdate
      rfl
    · -- whoever has changed the password before has marked the token
      rintro token htok ⟨j, u, -, hj, hu⟩
      cases htok
      have hmem := List.mem_of_getElem? hj
      rcases changed_cases hu with hun | hm
      · exact hnone u hmem hun
      · rw [(h.spent u hmem _ hm).find] at hrow
        cases hrow
  | marked =>
    refine h.set ht (fun _ _ hsp => spent_use (.inl hsp)) (fun token hm => .inr ?_) fun token hch => hch
    cases hm
    exact spent_use (.inr rfl)
  | cleared => exact h.quiet ht rfl (fun _ hm => hm) fun _ hch => hch
  | finished => exact h.set ht (fun _ _ hsp => hsp.delete) (fun _ hm => .inl hm) fun _ hch => hch
  | stopped hpc =>
    obtain ⟨user, rfl | rfl | rfl⟩ := hpc <;> exact h.quiet ht rfl forall_mem_none fun _ hch => hch
  | verified | found | expired | undrawn | unrotated | sent | admitted =>
    exact h.quiet ht rfl forall_mem_none forall_mem_none

theorem start_changed (r : Request) : (svc.start r).marked = none ∧ (svc.start r).changed = none := by
  cases r with
  | reset token password =>
    simp only [Service.start, resetStart]
    split
    · exact ⟨rfl, rfl⟩
    · split <;> exact ⟨rfl, rfl⟩
  | _ => exact ⟨rfl, rfl⟩

theorem resets_step {d : State} {a : Act Request Input Nat} (h : Resets c) (hf : FreshReset c a)
    (hc : Unused c a) (hs : (authMachine svc).step c a = some d) : Resets d := by
  cases Machine.step_effect hs with
  | spawn r =>
    obtain ⟨hmark, hchange⟩ : ((authMachine svc).start r).marked = none ∧
        ((authMachine svc).start r).changed = none := start_changed r
    exact ⟨forall_mem_concat (forall_mem_of_none hmark) h.spent, h.once.concat hchange⟩
  | act ht hl =>
    exact resets_act h ht hl hf hc
  | env hl =>
    cases hl
    exact ⟨h.spent, h.once⟩

/-- From any store, in every run of calls in any interleaving in which reset tokens are
fresh and every change of a password finds its token unused: at most one Reset with a
token changes the password. -/
theorem one_change_per_token (svc : Service) (s₀ : Store) (acts : List (Act Request Input Nat)) (c : State)
    (hr : run (authMachine svc).step ⟨s₀, []⟩ acts = some c)
    (hfresh : Meets (authMachine svc).step FreshReset ⟨s₀, []⟩ acts)
    (hmeets : Meets (authMachine svc).step Unused ⟨s₀, []⟩ acts) : Once Thread.changed c.threads := by
  have hstart : Resets ⟨s₀, []⟩ := ⟨List.forall_mem_nil _, Once.nil⟩
  have h : Resets c := run_inv (I := Resets) (fun _ _ _ h hc hs => resets_step h hc.1 hc.2 hs) hstart
    (hfresh.and hmeets) hr
  exact h.once

theorem second_reset_refused :
    ∃ c, run (authMachine plainService).step ⟨resetRequested, []⟩
        (resets 0 "password" ++ .spawn (.reset "reset" "other password") :: steps 1 1) = some c ∧
      c.threads.map Thread.changed = [some "reset", none] ∧ Once Thread.changed c.threads :=
  reaches_and (by decide +kernel) fun c hc _ =>
    one_change_per_token plainService resetRequested _ c hc (by decide +kernel) (by decide +kernel)

/-- Two calls read the token before either of them has marked it; or the first cannot
mark it, and the second comes after it. -/
theorem password_changed_twice :
    (∃ c, run (authMachine plainService).step ⟨resetRequested, []⟩
        (.spawn (.reset "reset" "password") :: .spawn (.reset "reset" "other password") ::
          (steps 0 1 ++ steps 1 1 ++ steps 0 4 ++ steps 1 4)) = some c ∧
      (c.threads.map Thread.changed = [some "reset", some "reset"] ∧
        c.threads.map Thread.completed = [some (1, "old"), some (1, "password")])) ∧
    ∃ c, run (authMachine plainService).step ⟨resetRequested, []⟩
        (.spawn (.reset "reset" "password") :: (steps 0 2 ++ [.act 0 ⟨.fail "timeout", .error ""⟩]) ++
          resets 1 "other password") = some c ∧
      (c.threads.map Thread.changed = [some "reset", some "reset"] ∧
        (c.shared.users.row 1).passwordHash = "other password") :=
  ⟨reaches (by decide +kernel), reaches (by decide +kernel)⟩

end TokoApi.Auth
