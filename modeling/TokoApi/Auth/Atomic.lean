import TokoApi.Auth.Resets

/-!
# A reset that fails

One call of Reset, with any of its statements failing. The statements are not in one
transaction: the password is replaced first, and no exit takes that back. So an error
leaves the user's password, sessions and tokens as they were exactly where it comes
before the password has been replaced; after that the user is told that the reset has
failed, and the old password is gone.
-/
namespace TokoApi.Auth

open Lib.Text Lib.Runs

/-- The tables that Reset writes are as they were. -/
def Unchanged (s s' : Store) : Prop :=
  s'.users = s.users ∧ s'.sessions = s.sessions ∧ s'.passwordResets = s.passwordResets

def ResetPc.replaced : ResetPc → Option String
  | .usePasswordReset _ hash | .deleteSessions _ hash | .deleteResets _ hash | .done _ hash => some hash
  | .failed hash _ => hash
  | .getReset | .updatePassword _ _ => none

def ResetPc.replaces (s : Store) : ResetPc → Input → Bool
  | .updatePassword user _, x => x.call = .ok && user ∈ s.users.ids
  | _, _ => false

def Thread.replaced : Thread → Option String
  | .reset _ _ pc => pc.replaced
  | _ => none

def Thread.replacesPassword (s : Store) : Thread → Input → Bool
  | .reset _ _ pc, x => pc.replaces s x
  | _, _ => false

/-- Reset while no other call runs; time passes before each statement. -/
def resetting (svc : Service) (token newPassword : String) (s : Store) (xs : List (Nat × Input)) :
    Option (Store × Thread) :=
  (authMachine svc).paced.alone 0 (s, svc.start (.reset token newPassword)) xs

abbrev PasswordKept (svc : Service) (token newPassword : String) (s : Store) (xs : List (Nat × Input)) :
    Prop :=
  Meets (fun p x => (authMachine svc).paced.lstep 0 p.1 p.2 x)
    (fun p x => p.2.replacesPassword p.1 x.2 = false) (s, svc.start (.reset token newPassword)) xs

variable {svc : Service} {token newPassword : String} {s₀ s s' : Store} {pc pc' : ResetPc} {x : Input}

def Replaced (svc : Service) (newPassword : String) (s₀ s : Store) (old : String) : Prop :=
  ∃ user ∈ s₀.users.ids, (s₀.users.row user).passwordHash = old ∧
    ∃ bytes, svc.createHash newPassword bytes = .ok (s.users.row user).passwordHash

/-- How far a call has come that began with the store `s₀`. -/
inductive ResetPhase (svc : Service) (newPassword : String) (s₀ s : Store) (pc : ResetPc) : Prop where
  | before (hs : Unchanged s₀ s) (hpc : pc.replaced = none)
      (hhash : ∀ user hash, pc = .updatePassword user hash →
        ∃ bytes, svc.createHash newPassword bytes = .ok hash)
  | after {old} (hpc : pc.replaced = some old) (hold : Replaced svc newPassword s₀ s old)

theorem Replaced.same {old : String} (h : Replaced svc newPassword s₀ s old) (hs : s'.users = s.users) :
    Replaced svc newPassword s₀ s' old := by
  unfold Replaced
  rw [hs]
  exact h

theorem ResetPhase.keeps (h : ResetPhase svc newPassword s₀ s pc) {old : String}
    (hpc : pc.replaced = some old) (hpc' : pc'.replaced = some old) (hs : s'.users = s.users) :
    ResetPhase svc newPassword s₀ s' pc' := by
  cases h with
  | before _ hnone _ => cases hnone.symm.trans hpc
  | after hold hrep =>
    cases hold.symm.trans hpc
    exact .after hpc' (hrep.same hs)

theorem ResetPhase.unchanged (h : ResetPhase svc newPassword s₀ s pc) (hpc : pc.replaced = none) :
    Unchanged s₀ s := by
  cases h with
  | before hs _ _ => exact hs
  | after hold _ => cases hpc.symm.trans hold

theorem ResetPhase.failed (hs : Unchanged s₀ s) (err : AuthError) :
    ResetPhase svc newPassword s₀ s (.failed none err) :=
  .before hs rfl nofun

theorem resetPhase_getReset (h : svc.resetStep s token newPassword .getReset x = some (s', pc'))
    (hs : Unchanged s₀ s) : ResetPhase svc newPassword s₀ s' pc' ∧ pc'.replaced = none := by
  obtain ⟨call, random⟩ := x
  cases call with
  | fail err =>
    cases h
    exact ⟨.failed hs _, rfl⟩
  | ok =>
    simp only [Service.resetStep] at h
    split at h
    · cases h
      exact ⟨.failed hs _, rfl⟩
    · split at h
      · cases h
        exact ⟨.failed hs _, rfl⟩
      · split at h <;> cases h
        · exact ⟨.failed hs _, rfl⟩
        · rename_i hash hhash
          refine ⟨.before hs rfl ?_, rfl⟩
          rintro user' hash' ⟨⟩
          cases random with
          | error err => cases hhash
          | ok bytes => exact ⟨bytes, hhash⟩

theorem resetPhase_update {user : Nat} {hash : String} {bytes : Nat → UInt8}
    (h : svc.resetStep s token newPassword (.updatePassword user hash) x = some (s', pc'))
    (hs : Unchanged s₀ s) (hhash : svc.createHash newPassword bytes = .ok hash) :
    ResetPhase svc newPassword s₀ s' pc' ∧
      (pc'.replaced = none ↔ (ResetPc.updatePassword user hash).replaces s x = false) := by
  obtain ⟨call, random⟩ := x
  cases call with
  | fail err =>
    cases h
    exact ⟨.failed hs _, by simp [ResetPc.replaced, ResetPc.replaces]⟩
  | ok =>
    simp only [Service.resetStep, updateUserPassword] at h
    by_cases hmem : user ∈ s.users.ids
    · simp only [hmem, if_true] at h
      cases h
      refine ⟨.after rfl ⟨user, hs.1 ▸ hmem, by rw [← hs.1], bytes, hhash.trans ?_⟩, ?_⟩
      · simp [Lib.Rows.Table.set]
      · simp [ResetPc.replaced, ResetPc.replaces, hmem]
    · simp only [hmem, if_false] at h
      cases h
      exact ⟨.failed hs _, by simp [ResetPc.replaced, ResetPc.replaces, hmem]⟩

theorem resetPhase_step (h : svc.resetStep s token newPassword pc x = some (s', pc'))
    (hp : ResetPhase svc newPassword s₀ s pc) :
    ResetPhase svc newPassword s₀ s' pc' ∧
      (pc'.replaced = none ↔ pc.replaced = none ∧ pc.replaces s x = false) := by
  cases pc with
  | getReset =>
    obtain ⟨hphase, hnone⟩ := resetPhase_getReset h (hp.unchanged rfl)
    exact ⟨hphase, iff_of_true hnone ⟨rfl, rfl⟩⟩
  | updatePassword user hash =>
    cases hp with
    | before hs hpc hhash =>
      obtain ⟨bytes, hb⟩ := hhash user hash rfl
      rw [and_iff_right hpc]
      exact resetPhase_update h hs hb
    | after hold _ => cases hold
  | usePasswordReset user old | deleteSessions user old | deleteResets user old =>
    obtain ⟨call, random⟩ := x
    cases call <;> cases h <;> exact ⟨hp.keeps rfl rfl rfl, by simp [ResetPc.replaced]⟩
  | done user old | failed old err => cases h

theorem resetPhase_start (svc : Service) (token newPassword : String) (s : Store) :
    ResetPhase svc newPassword s s (resetStart token newPassword) ∧
      (resetStart token newPassword).replaced = none := by
  have hs : Unchanged s s := ⟨rfl, rfl, rfl⟩
  unfold resetStart
  split
  · exact ⟨.failed hs _, rfl⟩
  · split
    · exact ⟨.failed hs _, rfl⟩
    · exact ⟨.before hs rfl (by rintro _ _ ⟨⟩), rfl⟩

def InReset (svc : Service) (token newPassword : String) (s₀ : Store) (p : Store × Thread) : Prop :=
  ∃ pc, p.2 = .reset token newPassword pc ∧ ResetPhase svc newPassword s₀ p.1 pc

theorem inReset_step {p q : Store × Thread} {y : Nat × Input} (h : InReset svc token newPassword s₀ p)
    (hs : (authMachine svc).paced.lstep 0 p.1 p.2 y = some q) :
    InReset svc token newPassword s₀ q ∧
      (q.2.replaced = none ↔ p.2.replaced = none ∧ p.2.replacesPassword p.1 y.2 = false) := by
  obtain ⟨s₁, t⟩ := p
  obtain ⟨pc, rfl, hphase⟩ := h
  obtain ⟨⟨s₂, pc'⟩, hstep, rfl⟩ := Option.map_eq_some_iff.mp hs
  have hlater : ResetPhase svc newPassword s₀ { s₁ with now := s₁.now + y.1 } pc := by
    cases hphase with
    | before h hpc hhash => exact .before h hpc hhash
    | after hpc hold => exact .after hpc hold
  have hnext := resetPhase_step hstep hlater
  exact ⟨⟨pc', rfl, hnext.1⟩, hnext.2⟩

theorem Replaced.not_unchanged {old : String}
    (hsalt : ∀ bytes hash, svc.createHash newPassword bytes = .ok hash →
      ∀ user ∈ s₀.users.ids, (s₀.users.row user).passwordHash ≠ hash)
    (h : Replaced svc newPassword s₀ s old) : ¬ Unchanged s₀ s := by
  intro hsame
  obtain ⟨user, hmem, -, bytes, hhash⟩ := h
  rw [hsame.1] at hhash
  exact hsalt bytes _ hhash user hmem rfl

/-- A Reset that returns an error leaves the tables as they were where it has not replaced
the password. Where it has, the user's hash is one of the new password by now; so with
salted hashes, this is the only way in which nothing has changed. -/
theorem reset_failure_unchanged (svc : Service) (token newPassword : String) (s : Store)
    (xs : List (Nat × Input)) (s' : Store) (replaced : Option String) (err : AuthError)
    (hr : resetting svc token newPassword s xs =
      some (s', .reset (trimSpace token) newPassword (.failed replaced err))) :
    (PasswordKept svc token newPassword s xs → Unchanged s s') ∧
      (¬ PasswordKept svc token newPassword s xs →
        ∃ old, replaced = some old ∧ Replaced svc newPassword s s' old) ∧
      ((∀ bytes hash, svc.createHash newPassword bytes = .ok hash →
          ∀ user ∈ s.users.ids, (s.users.row user).passwordHash ≠ hash) →
        (Unchanged s s' ↔ PasswordKept svc token newPassword s xs)) := by
  obtain ⟨hstart, hnone⟩ := resetPhase_start svc (trimSpace token) newPassword s
  obtain ⟨⟨pc, hpc, hphase⟩, hiff⟩ := last_iff_meets
    (I := InReset svc (trimSpace token) newPassword s) (P := fun p => p.2.replaced = none)
    (A := fun _ => True) (fun _ _ _ h _ hs => (inReset_step h hs).1)
    (fun _ _ _ h _ hs => (inReset_step h hs).2) ⟨_, rfl, hstart⟩ (fun _ _ => trivial) hr
  cases hpc
  have hkept : replaced = none ↔ PasswordKept svc token newPassword s xs :=
    hiff.trans (and_iff_right hnone)
  have hunchanged (h : PasswordKept svc token newPassword s xs) : Unchanged s s' :=
    hphase.unchanged (hkept.mpr h)
  have hreplaced (h : ¬ PasswordKept svc token newPassword s xs) :
      ∃ old, replaced = some old ∧ Replaced svc newPassword s s' old := by
    cases hphase with
    | before _ hpc _ => exact absurd (hkept.mp hpc) h
    | after hpc hold => exact ⟨_, hpc, hold⟩
  refine ⟨hunchanged, hreplaced, fun hsalt => ⟨fun hsame => ?_, hunchanged⟩⟩
  by_contra hnot
  obtain ⟨old, -, hold⟩ := hreplaced hnot
  exact hold.not_unchanged hsalt hsame

/-- A Reset of user 1 with the password "new password", all of whose calls succeed but the
last. -/
def resetFailsAfter (n : Nat) : Option (Store × Thread) :=
  resetting plainService "reset" "new password" resetRequested
    (.replicate n (1, drawing 0) ++ [(1, ⟨.fail "connection reset", .error ""⟩)])

/-- The token and password of a Reset that has failed, with how it has. -/
def Thread.resetFailure : Thread → Option (String × String × Option String × AuthError)
  | .reset token newPassword (.failed replaced err) => some (token, newPassword, replaced, err)
  | _ => none

def lostAfter (replaced : Option String) (text : String) :
    Option (String × String × Option String × AuthError) :=
  some ("reset", "new password", replaced, .plain (text ++ ": connection reset"))

/-- The password cannot be updated, and everything is as it was. -/
theorem update_failure_unchanged :
    ∃ p, resetFailsAfter 1 = some p ∧ p.2.resetFailure = lostAfter none "update password" ∧
      Unchanged resetRequested p.1 := by
  refine reaches_and (by decide +kernel) fun ⟨s', t⟩ hp ht => ?_
  cases t with
  | reset token newPassword pc =>
    cases pc with
    | failed replaced err =>
      cases ht
      exact (reset_failure_unchanged plainService "reset" "new password" resetRequested _ s' _ _ hp).1
        (by decide +kernel)
    | _ => cases ht
  | _ => cases ht

/-- The token cannot be marked: the call fails, and the old password is gone. The sessions
cannot be deleted: the call fails, the old password is gone, and the token is used. -/
theorem failed_reset_replaces_password :
    (∃ p, resetFailsAfter 2 = some p ∧
      (p.2.resetFailure = lostAfter (some "old") "mark reset used" ∧
        (p.1.users.row 1).passwordHash = "new password")) ∧
    ∃ p, resetFailsAfter 3 = some p ∧
      (p.2.resetFailure = lostAfter (some "old") "delete sessions" ∧
        (p.1.users.row 1).passwordHash = "new password" ∧
        (p.1.passwordResets.row 2).usedAt = some 3) :=
  ⟨reaches (by decide +kernel), reaches (by decide +kernel)⟩

end TokoApi.Auth
