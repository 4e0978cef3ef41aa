import Mathlib.Logic.Function.Basic

/-!
# Rows under READ COMMITTED

A row has the version the last commit left and at most one uncommitted version,
owned by the transaction that wrote it. Readers see the committed version, or
their own. A write waits while another transaction owns the row: it is `none`,
a step that is not enabled yet. The uncommitted version is the row lock, so no
separate lock table is kept. A table numbers its rows by primary key; `ids`
lists the keys that exist, in the order of insertion.
-/
namespace TokoApi.Lib.Rows

structure Row (α : Type) where
  committed : α
  draft : Option (Nat × α)
  deriving DecidableEq

namespace Row

variable {α : Type} {r : Row α} {t u : Nat} {f : α → α} {a : α}

def free (a : α) : Row α := ⟨a, none⟩

def read (t : Nat) (r : Row α) : α :=
  match r.draft with
  | some (u, a) => if u = t then a else r.committed
  | none => r.committed

def update (t : Nat) (f : α → α) (r : Row α) : Option (Row α) :=
  match r.draft with
  | none => some { r with draft := some (t, f r.committed) }
  | some (u, a) => if u = t then some { r with draft := some (t, f a) } else none

/-- An UPDATE that is its own transaction. -/
def updateNow (f : α → α) (r : Row α) : Option (Row α) :=
  match r.draft with
  | none => some { r with committed := f r.committed }
  | some _ => none

def commit (t : Nat) (r : Row α) : Row α :=
  match r.draft with
  | some (u, a) => if u = t then ⟨a, none⟩ else r
  | none => r

def rollback (t : Nat) (r : Row α) : Row α :=
  match r.draft with
  | some (u, _) => if u = t then ⟨r.committed, none⟩ else r
  | none => r

def OwnedBy (t : Nat) (r : Row α) : Prop := ∃ a, r.draft = some (t, a)

@[simp] theorem free_committed (a : α) : (free a).committed = a := rfl
@[simp] theorem free_draft (a : α) : (free a).draft = none := rfl

theorem eq_free (h : r.draft = none) : r = free r.committed := by
  rw [free, ← h]

theorem draft_cases (h : ∀ a, r.draft ≠ some (t, a)) :
    r.draft = none ∨ ∃ u a, u ≠ t ∧ r.draft = some (u, a) := by
  cases hd : r.draft with
  | none => exact .inl rfl
  | some p => exact .inr ⟨p.1, p.2, fun hu => h p.2 (hu ▸ hd), rfl⟩

theorem read_of_draft (h : ∀ a, r.draft ≠ some (t, a)) : r.read t = r.committed := by
  obtain hd | ⟨u, a, hu, hd⟩ := draft_cases h <;> simp [read, *]

variable {r' : Row α}

theorem update_inv (h : r.update t f = some r') : r'.committed = r.committed ∧
      ((r.draft = none ∧ r'.draft = some (t, f r.committed)) ∨
        ∃ a, r.draft = some (t, a) ∧ r'.draft = some (t, f a)) := by
  unfold update at h
  split at h
  · rename_i hd
    obtain rfl := Option.some.inj h
    exact ⟨rfl, .inl ⟨hd, rfl⟩⟩
  · rename_i u a hd
    split at h
    · rename_i hu
      obtain rfl := Option.some.inj h
      exact ⟨rfl, .inr ⟨a, by rw [hd, hu], rfl⟩⟩
    · cases h

theorem updateNow_inv (h : r.updateNow f = some r') :
    r.draft = none ∧ r' = ⟨f r.committed, none⟩ := by
  unfold updateNow at h
  split at h
  · rename_i hd
    obtain rfl := Option.some.inj h
    exact ⟨hd, by rw [← hd]⟩
  · cases h

theorem commit_own (hd : r.draft = some (t, a)) : r.commit t = ⟨a, none⟩ := by
  simp [commit, hd]

theorem commit_other (h : ∀ a, r.draft ≠ some (t, a)) : r.commit t = r := by
  obtain hd | ⟨u, a, hu, hd⟩ := draft_cases h <;> simp [commit, *]

theorem rollback_committed : (r.rollback t).committed = r.committed := by
  unfold rollback
  split
  · split <;> rfl
  · rfl

theorem rollback_other (h : ∀ a, r.draft ≠ some (t, a)) : r.rollback t = r := by
  obtain hd | ⟨u, a, hu, hd⟩ := draft_cases h <;> simp [rollback, *]

theorem rollback_draft : (r.rollback t).draft = none ∨ (r.rollback t).draft = r.draft := by
  unfold rollback
  split
  · split
    · exact .inl rfl
    · exact .inr rfl
  · exact .inr rfl

theorem commit_draft : (r.commit t).draft = none ∨ (r.commit t) = r := by
  unfold commit
  split
  · split
    · exact .inl rfl
    · exact .inr rfl
  · exact .inr rfl

theorem commit_free : (r.commit t).draft ≠ some (t, a) := by
  unfold commit
  split
  · split <;> simp_all
  · simp_all

theorem rollback_free : (r.rollback t).draft ≠ some (t, a) := by
  unfold rollback
  split
  · split <;> simp_all
  · simp_all

theorem rollback_rollback : (r.rollback t).rollback t = r.rollback t :=
  rollback_other fun _ => rollback_free

theorem rollback_update (h : r.update t f = some r') : r'.rollback t = r.rollback t := by
  obtain ⟨hc, ⟨hn, hd⟩ | ⟨a, ha, hd⟩⟩ := update_inv h
  · simp only [rollback, hd, if_true, hn, hc]
    exact (eq_free hn).symm
  · simp only [rollback, hd, if_true, ha, hc]

/-- What transaction `t` can do to a row: a statement that applies a function of
`F`, inside the transaction or as its own, the commit, the rollback. -/
inductive Access (t : Nat) (F : (α → α) → Prop) (r : Row α) : Row α → Prop where
  | same : Access t F r r
  | update {f : α → α} {r' : Row α} (hf : F f) (h : r.update t f = some r') : Access t F r r'
  | now {f : α → α} {r' : Row α} (hf : F f) (h : r.updateNow f = some r') : Access t F r r'
  | commit : Access t F r (r.commit t)
  | rollback : Access t F r (r.rollback t)

/-- A property of the committed version and of the uncommitted one. -/
def Holds (P : α → Prop) (r : Row α) : Prop :=
  P r.committed ∧ ∀ u a, r.draft = some (u, a) → P a

namespace Access

variable {F : (α → α) → Prop} {r' : Row α} {P : α → Prop}

theorem other (h : Access t F r r') (hu : u ≠ t)
    (hd : r.draft = some (u, a) ∨ r'.draft = some (u, a)) : r' = r := by
  cases h with
  | same => rfl
  | update hf h =>
    obtain ⟨_, ⟨hn, hd'⟩ | ⟨b, hb, hd'⟩⟩ := update_inv h
    · simp_all
    · rcases hd with hd | hd <;> simp_all
  | now hf h =>
    obtain ⟨hn, rfl⟩ := updateNow_inv h
    simp_all
  | commit =>
    obtain hn | he := commit_draft (r := r) (t := t)
    · refine commit_other fun b hb => ?_
      simp_all
    · exact he
  | rollback =>
    refine rollback_other fun b hb => ?_
    obtain hn | he := rollback_draft (r := r) (t := t) <;> simp_all

theorem owner (h : Access t F r r') (hd : r'.draft = some (u, a)) :
    u = t ∨ r.draft = some (u, a) := by
  by_cases hu : u = t
  · exact .inl hu
  · exact .inr (h.other hu (.inr hd) ▸ hd)

theorem holds (h : Access t F r r') (hF : ∀ f, F f → ∀ b, P b → P (f b)) (hP : r.Holds P) :
    r'.Holds P := by
  obtain ⟨hc, hd⟩ := hP
  cases h with
  | same => exact ⟨hc, hd⟩
  | update hf h =>
    obtain ⟨he, hdraft⟩ := update_inv h
    refine ⟨he ▸ hc, fun u a hu => ?_⟩
    obtain ⟨_, hd'⟩ | ⟨b, hb, hd'⟩ := hdraft <;> rw [hd'] at hu <;> cases hu
    · exact hF _ hf _ hc
    · exact hF _ hf _ (hd t b hb)
  | now hf h =>
    obtain ⟨_, rfl⟩ := updateNow_inv h
    exact ⟨hF _ hf _ hc, nofun⟩
  | commit =>
    by_cases ho : ∃ b, r.draft = some (t, b)
    · obtain ⟨b, hb⟩ := ho
      rw [commit_own hb]
      exact ⟨hd t b hb, nofun⟩
    · rw [commit_other fun b hb => ho ⟨b, hb⟩]
      exact ⟨hc, hd⟩
  | rollback =>
    refine ⟨rollback_committed (r := r) ▸ hc, fun u a hu => ?_⟩
    obtain hn | he := rollback_draft (r := r) (t := t)
    · rw [hn] at hu
      cases hu
    · exact hd u a (he ▸ hu)

end Access

theorem read_holds {P : α → Prop} (h : r.Holds P) (i : Nat) : P (r.read i) := by
  unfold read
  split
  · rename_i k b hd
    split
    · exact h.2 k b hd
    · exact h.1
  · exact h.1

/-- All versions of the row agree on what `g` says. -/
def Agrees {β : Type} (g : α → β) (r : Row α) : Prop := r.Holds fun a => g a = g r.committed

theorem Agrees.of_free {β : Type} {g : α → β} (h : r.draft = none) : r.Agrees g := by
  refine ⟨rfl, fun u a hd => ?_⟩
  rw [h] at hd
  cases hd

theorem Access.agrees {β : Type} {g : α → β} {F : (α → α) → Prop}
    (h : Access t F r r') (hF : ∀ f, F f → ∀ b, g (f b) = g b) (hr : r.Agrees g) :
    r'.Agrees g ∧ g r'.committed = g r.committed := by
  have hall : r'.Holds fun a => g a = g r.committed :=
    h.holds (fun f hf b hb => (hF f hf b).trans hb) hr
  exact ⟨⟨rfl, fun u a hd => (hall.2 u a hd).trans hall.1.symm⟩, hall.1⟩

end Row

structure Table (α : Type) where
  ids : List Nat
  row : Nat → α

namespace Table

variable {α : Type}

def get? (t : Table α) (id : Nat) : Option α := if id ∈ t.ids then some (t.row id) else none

/-- INSERT with a key that is not in use yet. -/
def insert (t : Table α) (id : Nat) (a : α) : Table α :=
  ⟨t.ids ++ [id], Function.update t.row id a⟩

def set (t : Table α) (id : Nat) (a : α) : Table α := { t with row := Function.update t.row id a }

/-- A statement on the row with the given key: nothing where there is none, and
not enabled while the statement on the row is not. -/
def modify (t : Table α) (id : Nat) (f : α → Option α) : Option (Table α) :=
  if id ∈ t.ids then (f (t.row id)).map (t.set id) else some t

def mapRows (t : Table α) (f : α → α) : Table α := { t with row := f ∘ t.row }

def delete (t : Table α) (p : α → Bool) : Table α :=
  { t with ids := t.ids.filter fun id => !p (t.row id) }

@[simp] theorem set_ids (t : Table α) (id : Nat) (a : α) : (t.set id a).ids = t.ids := rfl
@[simp] theorem mapRows_ids (t : Table α) (f : α → α) : (t.mapRows f).ids = t.ids := rfl
@[simp] theorem mapRows_row (t : Table α) (f : α → α) (id : Nat) :
    (t.mapRows f).row id = f (t.row id) := rfl

@[simp] theorem set_row_self (t : Table α) (id : Nat) (a : α) : (t.set id a).row id = a := by
  simp [set]

variable {id : Nat} {t t' : Table α} {f : α → Option α}

theorem set_row_ne (t : Table α) {k : Nat} (a : α) (h : k ≠ id) : (t.set id a).row k = t.row k := by
  simp [set, h]

theorem modify_inv (h : t.modify id f = some t') :
    (id ∉ t.ids ∧ t' = t) ∨ (id ∈ t.ids ∧ ∃ a, f (t.row id) = some a ∧ t' = t.set id a) := by
  unfold modify at h
  split at h
  · rename_i hin
    obtain ⟨a, ha, rfl⟩ := Option.map_eq_some_iff.mp h
    exact .inr ⟨hin, a, ha, rfl⟩
  · rename_i hin
    exact .inl ⟨hin, (Option.some.inj h).symm⟩

theorem modify_ids (h : t.modify id f = some t') : t'.ids = t.ids := by
  obtain ⟨_, rfl⟩ | ⟨_, a, _, rfl⟩ := modify_inv h <;> rfl

theorem modify_row_ne {k : Nat}
    (h : t.modify id f = some t') (hk : k ≠ id) : t'.row k = t.row k := by
  obtain ⟨_, rfl⟩ | ⟨_, a, _, rfl⟩ := modify_inv h
  · rfl
  · exact set_row_ne t a hk

theorem get?_eq_some {a : α} : t.get? id = some a ↔ id ∈ t.ids ∧ t.row id = a := by
  unfold get?
  split <;> simp_all

/-! An UPDATE of one row. -/

variable {t t' : Table (Row α)} {u : Nat} {f : α → α}

section

variable (h : t.modify id (Row.update u f) = some t')
include h

theorem modify_row (k : Nat) :
    t'.row k = t.row k ∨ (t.row k).update u f = some (t'.row k) := by
  obtain ⟨_, rfl⟩ | ⟨_, r, hr, rfl⟩ := modify_inv h
  · exact .inl rfl
  · by_cases hk : k = id
    · subst hk
      exact .inr (by rw [set_row_self, hr])
    · exact .inl (set_row_ne t r hk)

theorem modify_rollback :
    t'.mapRows (Row.rollback u) = t.mapRows (Row.rollback u) := by
  refine congrArg₂ Table.mk (modify_ids h) (funext fun k => ?_)
  obtain he | hr := modify_row h k
  · simp only [Function.comp_apply, he]
  · exact Row.rollback_update hr

theorem modify_access {F : (α → α) → Prop} (hf : F f) (k : Nat) :
    Row.Access u F (t.row k) (t'.row k) := by
  obtain he | hr := modify_row h k
  · exact he ▸ .same
  · exact .update hf hr

theorem modify_committed (k : Nat) :
    (t'.row k).committed = (t.row k).committed := by
  obtain he | hr := modify_row h k
  · rw [he]
  · exact (Row.update_inv hr).1

theorem modify_draft (hid : id ∈ t.ids) (hfree : ∀ a, (t.row id).draft ≠ some (u, a)) :
    (t'.row id).draft = some (u, f (t.row id).committed) := by
  obtain ⟨hout, _⟩ | ⟨_, r, hr, rfl⟩ := modify_inv h
  · exact absurd hid hout
  · obtain ⟨_, ⟨_, hd⟩ | ⟨a, ha, _⟩⟩ := Row.update_inv hr
    · rw [set_row_self, hd]
    · exact absurd ha (hfree a)

end

end Table

theorem sole_put_iff {A A' : Nat → Prop} {p : Nat} (hother : ∀ k, k ≠ p → (A' k ↔ A k))
    (hone : ∀ a, A a → ∀ b, A b → a = b) :
    (∀ a, A' a → ∀ b, A' b → a = b) ↔ (A' p → ∀ k, A k → k = p) := by
  constructor
  · intro hone' hp k hk
    by_contra hne
    exact hne (hone' k ((hother k hne).mpr hk) p hp)
  · intro halone a ha b hb
    by_cases hap : a = p <;> by_cases hbp : b = p
    · rw [hap, hbp]
    · subst hap
      exact absurd (halone ha b ((hother b hbp).mp hb)) hbp
    · subst hbp
      exact absurd (halone hb a ((hother a hap).mp ha)) hap
    · exact hone a ((hother a hap).mp ha) b ((hother b hbp).mp hb)

/-- ORDER BY `f` DESC LIMIT 1; among equal rows the first one comes. -/
def newest (f : Nat → Int) : List Nat → Option Nat
  | [] => none
  | id :: ids =>
    match newest f ids with
    | none => some id
    | some later => if f id < f later then some later else some id

variable {f : Nat → Int} {ids : List Nat} {id : Nat}

theorem newest_mem (h : newest f ids = some id) : id ∈ ids := by
  induction ids with
  | nil => cases h
  | cons a ids ih =>
    unfold newest at h
    split at h
    · cases h
      exact List.mem_cons_self
    · rename_i later hl
      split at h <;> cases h
      · exact List.mem_cons_of_mem _ (ih hl)
      · exact List.mem_cons_self

theorem eq_nil_of_newest (h : newest f ids = none) : ids = [] := by
  cases ids with
  | nil => rfl
  | cons a ids =>
    unfold newest at h
    split at h
    · cases h
    · split at h <;> cases h

theorem newest_of_sole (hid : id ∈ ids) (hsole : ∀ k ∈ ids, k = id) : newest f ids = some id := by
  cases h : newest f ids with
  | some k => rw [hsole k (newest_mem h)]
  | none =>
    rw [eq_nil_of_newest h] at hid
    cases hid

theorem newest_le (h : newest f ids = some id) : ∀ k ∈ ids, f k ≤ f id := by
  induction ids generalizing id with
  | nil => cases h
  | cons a ids ih =>
    unfold newest at h
    split at h
    · rename_i hnone
      cases h
      rw [eq_nil_of_newest hnone]
      simp
    · rename_i later hl
      have htail := ih hl
      split at h <;> cases h <;> refine List.forall_mem_cons.mpr ⟨by omega, fun k hk => ?_⟩
      · exact htail k hk
      · have := htail k hk
        omega

/-- The newest key stays the newest when it becomes newer and the others do not, and
when fewer of the others pass. -/
theorem newest_mono {f' : Nat → Int} {p p' : Nat → Bool}
    (h : newest f (ids.filter p) = some id) (hid : p' id = true) (hf : f id ≤ f' id)
    (hother : ∀ k, k ≠ id → p' k = true → p k = true ∧ f' k ≤ f k) :
    newest f' (ids.filter p') = some id := by
  have hpid : p id = true := (List.mem_filter.mp (newest_mem h)).2
  induction ids with
  | nil => cases h
  | cons a ids ih =>
    by_cases ha : a = id
    · subst ha
      rw [List.filter_cons_of_pos hpid] at h
      rw [List.filter_cons_of_pos hid]
      have hle := newest_le h
      unfold newest
      split
      · rfl
      · rename_i later hl
        obtain ⟨hin, hp⟩ := List.mem_filter.mp (newest_mem hl)
        refine if_neg fun hlt => ?_
        have hla : later ≠ a := by
          rintro rfl
          omega
        obtain ⟨hplater, hflater⟩ := hother later hla hp
        have := hle later (List.mem_cons_of_mem _ (List.mem_filter.mpr ⟨hin, hplater⟩))
        omega
    · -- the head is older than the newest, so the newest is that of the tail
      have hhead : newest f (ids.filter p) = some id ∧ (p a = true → f a < f id) := by
        by_cases hpa : p a = true
        · rw [List.filter_cons_of_pos hpa] at h
          unfold newest at h
          split at h
          · cases h
            exact absurd rfl ha
          · rename_i later hl
            split at h <;> cases h
            · exact ⟨hl, fun _ => by assumption⟩
            · exact absurd rfl ha
        · rw [List.filter_cons_of_neg hpa] at h
          exact ⟨h, fun h' => absurd h' hpa⟩
      have htail := ih hhead.1
      by_cases hpa : p' a = true
      · obtain ⟨hp, hfa⟩ := hother a ha hpa
        have hlt := hhead.2 hp
        rw [List.filter_cons_of_pos hpa, newest, htail]
        exact if_pos (by omega)
      · rwa [List.filter_cons_of_neg hpa]

end TokoApi.Lib.Rows
