import Mathlib.Logic.Function.Basic

/-!
# Keys with a lifetime

What SETNX, DEL and expiry do to a set of Redis keys whose values nobody reads.
A lifetime of zero or less means that the key does not expire.
-/
namespace TokoApi.Lib.Redis

inductive Lease where
  | absent
  | expires (at_ : Int)
  | forever
  deriving DecidableEq

def Lease.held (now : Int) : Lease → Bool
  | .absent => false
  | .expires e => decide (now < e)
  | .forever => true

def Lease.starting (now ttl : Int) : Lease := if ttl ≤ 0 then .forever else .expires (now + ttl)

abbrev Keys (κ : Type) := κ → Lease

variable {κ : Type} [DecidableEq κ]

def Keys.empty : Keys κ := fun _ => .absent

/-- The answer says whether the caller has set the key. -/
def Keys.setNX (now ttl : Int) (k : κ) (s : Keys κ) : Bool × Keys κ :=
  if (s k).held now then (false, s) else (true, Function.update s k (Lease.starting now ttl))

def Keys.del (k : κ) (s : Keys κ) : Keys κ := Function.update s k .absent

/-- EXPIRE; a lifetime of zero or less deletes the key, and a key that is not there stays so. -/
def Keys.expire (now ttl : Int) (k : κ) (s : Keys κ) : Keys κ :=
  if (s k).held now then Function.update s k (if ttl ≤ 0 then .absent else .expires (now + ttl)) else s

variable {now ttl : Int} {k : κ} {s s' : Keys κ}

theorem held_starting_iff {later : Int} :
    (Lease.starting now ttl).held later = true ↔ ttl ≤ 0 ∨ later < now + ttl := by
  unfold Lease.starting
  split
  · simp only [Lease.held, true_iff]
    exact .inl (by assumption)
  · simp only [Lease.held, decide_eq_true_eq]
    omega

theorem starting_held {later : Int} (h : ttl ≤ 0 ∨ later < now + ttl) :
    (Lease.starting now ttl).held later = true := held_starting_iff.mpr h

theorem setNX_refused (h : (s k).held now = true) : s.setNX now ttl k = (false, s) := by
  simp [Keys.setNX, h]

theorem setNX_taken (h : (s k).held now = false) :
    s.setNX now ttl k = (true, Function.update s k (Lease.starting now ttl)) := by
  simp [Keys.setNX, h]

theorem held_of_refused (h : s.setNX now ttl k = (false, s')) : (s k).held now = true := by
  unfold Keys.setNX at h
  split at h
  · assumption
  · cases h

theorem taken_inv (h : s.setNX now ttl k = (true, s')) :
    (s k).held now = false ∧ s' = Function.update s k (Lease.starting now ttl) := by
  unfold Keys.setNX at h
  split at h
  · cases h
  · rename_i hh
    cases h
    exact ⟨by simpa using hh, rfl⟩

theorem setNX_kept {l : κ}
    (h : s.setNX now ttl k = (true, s')) (hl : (s l).held now = true) : s' l = s l := by
  obtain ⟨hk, rfl⟩ := taken_inv h
  have hne : l ≠ k := by
    rintro rfl
    rw [hk] at hl
    cases hl
  rw [Function.update_of_ne hne]

theorem expire_ne_absent {l : κ} (h : s.expire now ttl k l ≠ .absent) : s l ≠ .absent := by
  unfold Keys.expire at h
  split at h
  · rename_i hheld
    by_cases hl : l = k
    · rintro habsent
      rw [← hl, habsent] at hheld
      cases hheld
    · rwa [Function.update_of_ne hl] at h
  · exact h

theorem setNX_del (h : (s k).held now = false) : (s.del k).setNX now ttl k = s.setNX now ttl k := by
  have hdel : ((s.del k) k).held now = false := by simp [Keys.del, Lease.held]
  rw [setNX_taken hdel, setNX_taken h, Keys.del, Function.update_idem]

end TokoApi.Lib.Redis
