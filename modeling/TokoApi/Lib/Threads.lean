import Mathlib.Algebra.Group.Basic
import Mathlib.Algebra.GroupWithZero.Nat
import Mathlib.Data.List.Perm.Basic
import TokoApi.Lib.Runs

/-!
# Threads over a shared store

A machine describes one kind of thread by the statement it executes next: a
local step reads and writes the shared store and moves the thread on, and an
input carries what the code does not decide (whether a call fails, what a peer
answers). A step is one atomic statement; threads interleave between steps in
any order. New requests arrive at any time, and the environment may change the
store (a clock, an expiry).

`Guarded` is the shape of a proof outline: a property of the store and, for
every thread, an assertion about the store at the point the thread has reached.
The rule asks what one step does to its own assertion and that it does not
disturb the assertion of any other thread.
-/
namespace TokoApi.Lib.Threads

open Runs

/-- How a call to a store ends: it takes effect, or fails and has none. -/
inductive Call where
  | ok
  | fail (err : String)
  deriving DecidableEq

structure Machine (σ τ ρ ι ε : Type) where
  start : ρ → τ
  lstep : Nat → σ → τ → ι → Option (σ × τ)
  estep : σ → ε → Option σ

structure Sys (σ τ : Type) where
  shared : σ
  threads : List τ

inductive Act (ρ ι ε : Type) where
  | spawn (r : ρ)
  | act (i : Nat) (x : ι)
  | env (e : ε)

variable {σ τ ρ ι ε : Type}

def Machine.step (M : Machine σ τ ρ ι ε) (c : Sys σ τ) : Act ρ ι ε → Option (Sys σ τ)
  | .spawn r => some { c with threads := c.threads ++ [M.start r] }
  | .act i x =>
    match c.threads[i]? with
    | none => none
    | some t => (M.lstep i c.shared t x).map fun p => ⟨p.1, c.threads.set i p.2⟩
  | .env e => (M.estep c.shared e).map fun s => { c with shared := s }

/-- One thread run on its own, a statement after the other. -/
def Machine.alone (M : Machine σ τ ρ ι ε) (i : Nat) (p : σ × τ) (xs : List ι) : Option (σ × τ) :=
  run (fun p x => M.lstep i p.1 p.2 x) p xs

variable {M : Machine σ τ ρ ι ε} {c d : Sys σ τ} {i : Nat} {s s' : σ}

theorem Machine.step_act {x : ι} (h : M.step c (.act i x) = some d) :
    ∃ t s' t', c.threads[i]? = some t ∧ M.lstep i c.shared t x = some (s', t') ∧
      d = ⟨s', c.threads.set i t'⟩ := by
  unfold Machine.step at h
  cases ht : c.threads[i]? with
  | none => simp [ht] at h
  | some t =>
    simp only [ht, Option.map_eq_some_iff] at h
    obtain ⟨⟨s', t'⟩, hl, rfl⟩ := h
    exact ⟨t, s', t', rfl, hl, rfl⟩

theorem Machine.step_env {e : ε} (h : M.step c (.env e) = some d) :
    ∃ s', M.estep c.shared e = some s' ∧ d = { c with shared := s' } := by
  obtain ⟨s', hs, rfl⟩ := Option.map_eq_some_iff.mp h
  exact ⟨s', hs, rfl⟩

/-- The steps of a machine, by what they do to the system. -/
inductive Machine.Effect (M : Machine σ τ ρ ι ε) (c : Sys σ τ) : Act ρ ι ε → Sys σ τ → Prop where
  | spawn (r : ρ) : M.Effect c (.spawn r) { c with threads := c.threads ++ [M.start r] }
  | act {i x t s' t'} (ht : c.threads[i]? = some t) (hl : M.lstep i c.shared t x = some (s', t')) :
      M.Effect c (.act i x) ⟨s', c.threads.set i t'⟩
  | env {e s'} (he : M.estep c.shared e = some s') : M.Effect c (.env e) { c with shared := s' }

theorem Machine.step_effect {a : Act ρ ι ε} (h : M.step c a = some d) : M.Effect c a d := by
  cases a with
  | spawn r =>
    obtain rfl := Option.some.inj h
    exact .spawn r
  | act i x =>
    obtain ⟨t, s', t', ht, hl, rfl⟩ := Machine.step_act h
    exact .act ht hl
  | env e =>
    obtain ⟨s', he, rfl⟩ := Machine.step_env h
    exact .env he

theorem Machine.stuck_stays {t : τ}
    (hstuck : ∀ s x, M.lstep i s t x = none) {acts : List (Act ρ ι ε)}
    (hc : c.threads[i]? = some t) (hr : run M.step c acts = some d) : d.threads[i]? = some t := by
  refine run_inv (I := fun c : Sys σ τ => c.threads[i]? = some t) ?_ hc (meets_true c acts) hr
  intro c a d hc _ hs
  cases Machine.step_effect hs with
  | spawn r =>
    have hlt : i < c.threads.length := (List.getElem?_eq_some_iff.mp hc).1
    simp only [List.getElem?_append_left hlt, hc]
  | @act j _ u _ _ hu hl =>
    have hne : j ≠ i := by
      rintro rfl
      obtain rfl : t = u := Option.some.inj (hc.symm.trans hu)
      rw [hstuck] at hl
      cases hl
    simp only [List.getElem?_set_ne hne, hc]
  | env _ =>
    exact hc

/-! ## Requests one after the other -/

/-- One request with what happens to each of its statements, or a change by the
environment. -/
inductive Turn (ρ ι ε : Type) where
  | call (r : ρ) (xs : List ι)
  | env (e : ε)

/-- A request is handled to its end before the next turn. -/
def Machine.serial (M : Machine σ τ ρ ι ε) (finished : τ → Bool) (s : σ) : Turn ρ ι ε → Option σ
  | .call r xs => ((M.alone 0 (s, M.start r) xs).filter fun p => finished p.2).map Prod.fst
  | .env e => M.estep s e

theorem Machine.alone_inv {J : σ × τ → Prop}
    (hstep : ∀ p x q, J p → M.lstep i p.1 p.2 x = some q → J q) {p q : σ × τ} {xs : List ι}
    (hp : J p) (h : M.alone i p xs = some q) : J q :=
  run_inv (fun p x q hp (_ : True) hs => hstep p x q hp hs) hp (meets_true p xs) h

theorem Machine.serial_inv {finished : τ → Bool} {I : σ → Prop}
    (hstep : ∀ s t x s' t', I s → M.lstep 0 s t x = some (s', t') → I s')
    (henv : ∀ s e s', I s → M.estep s e = some s' → I s') {l : Turn ρ ι ε} (hs : I s)
    (h : M.serial finished s l = some s') : I s' := by
  cases l with
  | call r xs =>
    obtain ⟨q, hq, rfl⟩ := Option.map_eq_some_iff.mp h
    obtain ⟨hq, _⟩ := Option.filter_eq_some_iff.mp hq
    exact Machine.alone_inv (J := fun p => I p.1) (fun p x q hp hl => hstep _ _ x q.1 q.2 hp hl) hs hq
  | env e => exact henv s e s' hs h

/-- The machine in which the environment has a turn before each statement of a thread. -/
def Machine.paced (M : Machine σ τ ρ ι ε) : Machine σ τ ρ (ε × ι) ε where
  start := M.start
  lstep i s t x := (M.estep s x.1).bind fun s' => M.lstep i s' t x.2
  estep := M.estep

theorem lifted_inv {β γ : Type} {o : Option (σ × β)} {f : β → γ} {t' : γ}
    (h : (o.map fun p => (p.1, f p.2)) = some (s', t')) : ∃ u', o = some (s', u') ∧ t' = f u' := by
  obtain ⟨⟨s₁, u'⟩, ho, he⟩ := Option.map_eq_some_iff.mp h
  cases he
  exact ⟨u', ho, rfl⟩

/-- Threads of two kinds over one store. -/
def Machine.beside {τ' ρ' : Type} (M : Machine σ τ ρ ι ε) (N : Machine σ τ' ρ' ι ε) :
    Machine σ (τ ⊕ τ') (ρ ⊕ ρ') ι ε where
  start := Sum.map M.start N.start
  lstep i s t x :=
    match t with
    | .inl u => (M.lstep i s u x).map fun p => (p.1, .inl p.2)
    | .inr u => (N.lstep i s u x).map fun p => (p.1, .inr p.2)
  estep := M.estep

theorem Machine.beside_lstep {τ' ρ' : Type} {N : Machine σ τ' ρ' ι ε} {t t' : τ ⊕ τ'} {x : ι}
    (h : (M.beside N).lstep i s t x = some (s', t')) :
    (∃ u u', t = .inl u ∧ t' = .inl u' ∧ M.lstep i s u x = some (s', u')) ∨
      ∃ u u', t = .inr u ∧ t' = .inr u' ∧ N.lstep i s u x = some (s', u') := by
  cases t with
  | inl u =>
    obtain ⟨u', hl, rfl⟩ := lifted_inv h
    exact .inl ⟨u, u', rfl, rfl, hl⟩
  | inr u =>
    obtain ⟨u', hl, rfl⟩ := lifted_inv h
    exact .inr ⟨u, u', rfl, rfl, hl⟩

/-! ## Proof outlines -/

/-- A property of the store and of the number of threads started so far, with one
assertion for each thread. -/
def Guarded (I : Nat → σ → Prop) (A : Nat → σ → τ → Prop) (c : Sys σ τ) : Prop :=
  I c.threads.length c.shared ∧ ∀ i t, c.threads[i]? = some t → A i c.shared t

theorem guarded_start {I : Nat → σ → Prop} {A : Nat → σ → τ → Prop} (h : I 0 s) :
    Guarded I A (⟨s, []⟩ : Sys σ τ) :=
  ⟨h, fun i t ht => by simp at ht⟩

section

variable {M : Machine σ τ ρ ι ε} {I : Nat → σ → Prop} {A : Nat → σ → τ → Prop} {c : Sys σ τ}

theorem guarded_spawn {r : ρ} (hg : Guarded I A c)
    (hI : I (c.threads.length + 1) c.shared) (hA : A c.threads.length c.shared (M.start r)) :
    Guarded I A { c with threads := c.threads ++ [M.start r] } := by
  refine ⟨by simpa using hI, fun i t ht => ?_⟩
  by_cases hi : i < c.threads.length
  · rw [List.getElem?_append_left hi] at ht
    exact hg.2 i t ht
  · rw [List.getElem?_append_right (by omega)] at ht
    have hz : i - c.threads.length = 0 := by
      by_contra hne
      rw [List.getElem?_eq_none (by simp; omega)] at ht
      cases ht
    rw [hz] at ht
    obtain rfl := Option.some.inj ht
    rwa [show i = c.threads.length by omega]

theorem guarded_act {t' : τ} (hI : I c.threads.length s')
    (hown : A i s' t') (hother : ∀ j u, j ≠ i → c.threads[j]? = some u → A j s' u) :
    Guarded I A ⟨s', c.threads.set i t'⟩ := by
  refine ⟨by simpa using hI, fun j u hu => ?_⟩
  by_cases hji : j = i
  · subst j
    have hlt : i < c.threads.length := by
      by_contra hge
      rw [List.getElem?_eq_none (by simpa using Nat.le_of_not_lt hge)] at hu
      cases hu
    rw [List.getElem?_set_self hlt] at hu
    exact Option.some.inj hu ▸ hown
  · rw [List.getElem?_set_ne (Ne.symm hji)] at hu
    exact hother j u hji hu

theorem guarded_step {l : Act ρ ι ε} (hg : Guarded I A c) (hs : M.step c l = some d)
    (hstart : ∀ r, l = .spawn r →
      I (c.threads.length + 1) c.shared ∧ A c.threads.length c.shared (M.start r))
    (hact : ∀ i x t s' t', l = .act i x → c.threads[i]? = some t →
      M.lstep i c.shared t x = some (s', t') → I c.threads.length s' ∧ A i s' t' ∧
        ∀ j u, j ≠ i → c.threads[j]? = some u → A j s' u)
    (henv : ∀ e s', M.estep c.shared e = some s' →
      I c.threads.length s' ∧ ∀ j u, c.threads[j]? = some u → A j s' u) : Guarded I A d := by
  cases Machine.step_effect hs with
  | spawn r =>
    obtain ⟨hI, hA⟩ := hstart r rfl
    exact guarded_spawn hg hI hA
  | @act i x t s' t' ht hl =>
    obtain ⟨hI, hA, hother⟩ := hact i x t s' t' rfl ht hl
    exact guarded_act hI hA hother
  | @env e s' hl =>
    exact henv e s' hl

end

/-! ## One element of a list and the others -/

section

variable {α : Type} {l : List α} {i : Nat} {x y : α} {P : α → Prop}

/-- Some element at another place than `i` has the property. -/
def Others (i : Nat) (l : List α) (P : α → Prop) : Prop := ∃ j x, j ≠ i ∧ l[j]? = some x ∧ P x

theorem exists_mem_iff_others (h : l[i]? = some x) : (∃ z ∈ l, P z) ↔ P x ∨ Others i l P := by
  constructor
  · rintro ⟨z, hz, hP⟩
    obtain ⟨j, hj⟩ := List.mem_iff_getElem?.mp hz
    by_cases hji : j = i
    · subst j
      rw [h] at hj
      exact .inl (Option.some.inj hj ▸ hP)
    · exact .inr ⟨j, z, hji, hj, hP⟩
  · rintro (hP | ⟨j, z, _, hj, hP⟩)
    · exact ⟨x, List.mem_of_getElem? h, hP⟩
    · exact ⟨z, List.mem_of_getElem? hj, hP⟩

theorem exists_mem_set_iff_others (h : l[i]? = some x) :
    (∃ z ∈ l.set i y, P z) ↔ P y ∨ Others i l P := by
  have hlt : i < l.length := (List.getElem?_eq_some_iff.mp h).1
  rw [exists_mem_iff_others (List.getElem?_set_self hlt)]
  refine or_congr_right ?_
  constructor <;> rintro ⟨j, z, hji, hj, hP⟩ <;> refine ⟨j, z, hji, ?_, hP⟩
  · rwa [List.getElem?_set_ne (Ne.symm hji)] at hj
  · rwa [List.getElem?_set_ne (Ne.symm hji)]

theorem exists_mem_set (h : l[i]? = some x) (hxy : P x → P y) (hl : ∃ z ∈ l, P z) :
    ∃ z ∈ l.set i y, P z :=
  (exists_mem_set_iff_others h).mpr (((exists_mem_iff_others h).mp hl).imp_left hxy)

theorem forall_mem_set (hy : P y) (hl : ∀ z ∈ l, P z) : ∀ z ∈ l.set i y, P z := by
  intro z hz
  rcases List.mem_or_eq_of_mem_set hz with hz | rfl
  · exact hl z hz
  · exact hy

theorem forall_mem_of_none {o : Option α} (h : o = none) : ∀ z ∈ o, P z :=
  fun z hz => absurd (h ▸ hz) (Option.not_mem_none z)

theorem forall_mem_none : ∀ z ∈ (none : Option α), P z := forall_mem_of_none rfl

theorem forall_mem_concat (hy : P y) (hl : ∀ z ∈ l, P z) : ∀ z ∈ l ++ [y], P z := by
  intro z hz
  rcases List.mem_append.mp hz with hz | hz
  · exact hl z hz
  · exact List.mem_singleton.mp hz ▸ hy

/-- No value of `f` belongs to two elements of the list. -/
def Once {β : Type} (f : α → Option β) (l : List α) : Prop :=
  ∀ (i j : Nat) (x y : α) (b : β), l[i]? = some x → l[j]? = some y → f x = some b → f y = some b →
    i = j

variable {β : Type} {f : α → Option β}

theorem Once.nil : Once f [] := fun i j x y b hx => by simp at hx

theorem Once.set (h : Once f l)
    (hnew : ∀ b, f y = some b → ¬ Others i l (f · = some b)) : Once f (l.set i y) := by
  have hother : ∀ (j : Nat) (z : α), (l.set i y)[j]? = some z → j ≠ i → l[j]? = some z := by
    intro j z hj hji
    rwa [List.getElem?_set_ne (Ne.symm hji)] at hj
  have hself : ∀ z, (l.set i y)[i]? = some z → z = y := by
    intro z hz
    rw [List.getElem?_set_self', Option.map_eq_map] at hz
    obtain ⟨_, _, rfl⟩ := Option.map_eq_some_iff.mp hz
    rfl
  intro j k u w b hj hk hu hw
  by_cases hji : j = i <;> by_cases hki : k = i
  · rw [hji, hki]
  · subst hji
    obtain rfl := hself u hj
    exact absurd ⟨k, w, hki, hother k w hk hki, hw⟩ (hnew b hu)
  · subst hki
    obtain rfl := hself w hk
    exact absurd ⟨j, u, hji, hother j u hj hji, hu⟩ (hnew b hw)
  · exact h j k u w b (hother j u hj hji) (hother k w hk hki) hu hw

theorem Once.concat (h : Once f l) (hy : f y = none) : Once f (l ++ [y]) := by
  have hold : ∀ (j : Nat) (z : α) (b : β), (l ++ [y])[j]? = some z → f z = some b →
      l[j]? = some z := by
    intro j z b hj hz
    rcases Nat.lt_or_ge j l.length with hlt | hge
    · rwa [List.getElem?_append_left hlt] at hj
    · rw [List.getElem?_append_right hge] at hj
      obtain rfl := List.mem_singleton.mp (List.mem_of_getElem? hj)
      rw [hy] at hz
      cases hz
  intro j k u w b hj hk hu hw
  exact h j k u w b (hold j u b hj hu) (hold k w b hk hw) hu hw

theorem cons_eraseIdx_perm (h : l[i]? = some x) : (x :: l.eraseIdx i).Perm l := by
  obtain ⟨hlt, rfl⟩ := List.getElem?_eq_some_iff.mp h
  exact List.getElem_cons_eraseIdx_perm hlt

theorem cons_eraseIdx_perm_set (h : l[i]? = some x) : (y :: l.eraseIdx i).Perm (l.set i y) := by
  have hlt : i < l.length := (List.getElem?_eq_some_iff.mp h).1
  have hp := cons_eraseIdx_perm (List.getElem?_set_self hlt (a := y))
  rwa [List.eraseIdx_set_eq] at hp

theorem sum_map_set {M : Type} [AddCommMonoid M] {f : α → M} (h : l[i]? = some x) :
    ((l.set i y).map f).sum + f x = (l.map f).sum + f y := by
  induction l generalizing i with
  | nil => simp at h
  | cons a l ih =>
    cases i with
    | zero =>
      obtain rfl : a = x := by simpa using h
      simp only [List.set_cons_zero, List.map_cons, List.sum_cons]
      rw [add_right_comm, add_comm (f y), add_right_comm, add_comm (f a)]
    | succ i =>
      have hrest := ih (by simpa using h)
      simp only [List.set_cons_succ, List.map_cons, List.sum_cons]
      rw [add_assoc, hrest, add_assoc]

end

/-! ## Bookkeeping -/

/-- A weight of the steps of threads, as one of the steps of the system. -/
def ofThread (w : σ → τ → ι → Nat) (c : Sys σ τ) : Act ρ ι ε → Nat
  | .act i x => (c.threads[i]?).elim 0 fun t => w c.shared t x
  | _ => 0

theorem Machine.run_tally {f : σ → Int} {share : τ → Nat}
    {gain loss : σ → τ → ι → Nat} (hstart : ∀ r, share (M.start r) = 0)
    (hstep : ∀ i s t x s' t', M.lstep i s t x = some (s', t') →
      f s' + share t' + loss s t x = f s + share t + gain s t x)
    (henv : ∀ s e s', M.estep s e = some s' → f s' = f s)
    {acts : List (Act ρ ι ε)} (hr : run M.step c acts = some d) :
    f d.shared + (d.threads.map share).sum + tally M.step (ofThread loss) c acts =
      f c.shared + (c.threads.map share).sum + tally M.step (ofThread gain) c acts := by
  refine Runs.run_tally (I := fun _ => True) (f := fun c => f c.shared + (c.threads.map share).sum)
    (fun _ _ _ _ _ => trivial) ?_ trivial hr
  intro c a d _ hs
  cases Machine.step_effect hs with
  | spawn r =>
    simp [ofThread, hstart]
  | @act i x t s' t' ht hl =>
    have hthread := hstep i c.shared t x s' t' hl
    have hshares := sum_map_set (f := share) (y := t') ht
    simp only [ofThread, ht, Option.elim_some]
    omega
  | @env e s' hl =>
    simp [ofThread, henv c.shared e s' hl]

end TokoApi.Lib.Threads
