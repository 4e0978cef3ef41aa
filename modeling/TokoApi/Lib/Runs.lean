import Mathlib.Data.List.Basic

/-!
# Runs of a partial step function

A step function takes a state and a label and is `none` where the label is not
enabled. `run` follows a list of labels. `Meets` says that every step of a run
is taken in a state and with a label that satisfy a side condition; it is a
condition on the run, not on the step function. Every state a run passes
through is the end of a shorter run, so a statement about the last state of
every run is one about every state reached.
-/
namespace TokoApi.Lib.Runs

variable {σ ℓ : Type} {step : σ → ℓ → Option σ} {cond : σ → ℓ → Prop}

def run (step : σ → ℓ → Option σ) : σ → List ℓ → Option σ
  | s, [] => some s
  | s, l :: ls =>
    match step s l with
    | none => none
    | some t => run step t ls

/-- Every step of the run from `s` along the labels meets the condition. -/
def Meets (step : σ → ℓ → Option σ) (cond : σ → ℓ → Prop) : σ → List ℓ → Prop
  | _, [] => True
  | s, l :: ls => cond s l ∧ ∀ t, step s l = some t → Meets step cond t ls

@[simp] theorem run_nil (s : σ) : run step s [] = some s := rfl

variable {s t : σ} {l : ℓ} {ls : List ℓ} {cond' : σ → ℓ → Prop} {I P : σ → Prop} {o : Option σ}

theorem run_cons (h : run step s (l :: ls) = some t) :
    ∃ m, step s l = some m ∧ run step m ls = some t := by
  unfold run at h
  cases hs : step s l with
  | none => simp [hs] at h
  | some m => exact ⟨m, rfl, by simpa [hs] using h⟩

theorem run_step (h : step s l = some t) : run step s (l :: ls) = run step t ls := by
  simp only [run, h]

theorem run_append {ms : List ℓ} (h : run step s (ls ++ ms) = some t) :
    ∃ m, run step s ls = some m ∧ run step m ms = some t := by
  induction ls generalizing s with
  | nil => exact ⟨s, rfl, h⟩
  | cons l ls ih =>
    obtain ⟨a, ha, hrest⟩ := run_cons h
    obtain ⟨m, hm, ht⟩ := ih hrest
    exact ⟨m, by simp only [run, ha, hm], ht⟩

theorem run_take_length (h : run step s ls = some t) : run step s (ls.take ls.length) = some t := by
  rwa [List.take_length]

theorem meets_cons (h : step s l = some t) :
    Meets step cond s (l :: ls) ↔ cond s l ∧ Meets step cond t ls :=
  and_congr_right fun _ => ⟨fun hm => hm t h, fun hm _ hu => Option.some.inj (h.symm.trans hu) ▸ hm⟩

theorem Meets.append {ms : List ℓ} (h : Meets step cond s (ls ++ ms))
    (hr : run step s ls = some t) : Meets step cond s ls ∧ Meets step cond t ms := by
  induction ls generalizing s with
  | nil =>
    obtain rfl := Option.some.inj hr
    exact ⟨trivial, h⟩
  | cons l ls ih =>
    obtain ⟨m, hm, hrest⟩ := run_cons hr
    obtain ⟨hl, hls⟩ := h
    refine ⟨⟨hl, fun a ha => ?_⟩, (ih (hls m hm) hrest).2⟩
    rw [hm] at ha
    obtain rfl := Option.some.inj ha
    exact (ih (hls m hm) hrest).1

theorem Meets.and (h : Meets step cond s ls)
    (h' : Meets step cond' s ls) : Meets step (fun s l => cond s l ∧ cond' s l) s ls := by
  induction ls generalizing s with
  | nil => trivial
  | cons l ls ih => exact ⟨⟨h.1, h'.1⟩, fun t ht => ih (h.2 t ht) (h'.2 t ht)⟩

theorem run_take_succ (h : step s l = some t) (n : Nat) :
    run step s ((l :: ls).take (n + 1)) = run step t (ls.take n) := run_step h

theorem run_next {u : σ} {n : Nat} (hr : run step s ls = some t)
    (hu : run step s (ls.take n) = some u) (hl : ls[n]? = some l) : ∃ v, step u l = some v := by
  induction ls generalizing s n with
  | nil => simp at hl
  | cons a ls ih =>
    obtain ⟨m, ha, hrest⟩ := run_cons hr
    cases n with
    | zero =>
      obtain rfl := Option.some.inj hu
      obtain rfl := Option.some.inj hl
      exact ⟨m, ha⟩
    | succ n =>
      exact ih hrest (run_take_succ ha n ▸ hu) hl

theorem meets_iff (hr : run step s ls = some t) : Meets step cond s ls ↔
      ∀ n u l, run step s (ls.take n) = some u → ls[n]? = some l → cond u l := by
  induction ls generalizing s with
  | nil => exact ⟨fun _ n u l _ hl => by simp at hl, fun _ => trivial⟩
  | cons a ls ih =>
    obtain ⟨m, ha, hrest⟩ := run_cons hr
    constructor
    · rintro ⟨hc, hms⟩ n u l hu hl
      cases n with
      | zero =>
        obtain rfl := Option.some.inj hu
        obtain rfl := Option.some.inj hl
        exact hc
      | succ n => exact (ih hrest).mp (hms m ha) n u l (run_take_succ ha n ▸ hu) hl
    · intro h
      refine ⟨h 0 s a rfl rfl, fun u hu => ?_⟩
      obtain rfl : m = u := Option.some.inj (ha.symm.trans hu)
      exact (ih hrest).mpr fun n u l hu hl => h (n + 1) u l (run_take_succ ha n ▸ hu) hl

theorem run_inv (hstep : ∀ s l t, I s → cond s l → step s l = some t → I t)
    (hs : I s) (hm : Meets step cond s ls)
    (hr : run step s ls = some t) : I t := by
  induction ls generalizing s with
  | nil => exact Option.some.inj hr ▸ hs
  | cons l ls ih =>
    obtain ⟨m, hl, hrest⟩ := run_cons hr
    exact ih (hstep s l m hs hm.1 hl) (hm.2 m hl) hrest

theorem run_take_inv (hstep : ∀ s l t, I s → cond s l → step s l = some t → I t)
    {n : Nat} (hs : I s) (hm : Meets step cond s ls)
    (hr : run step s (ls.take n) = some t) : I t := by
  rw [← List.take_append_drop n ls] at hm
  exact run_inv hstep hs (hm.append hr).1 hr

theorem meets_of_forall {A : ℓ → Prop} (h : ∀ l ∈ ls, A l) : Meets step (fun _ l => A l) s ls := by
  induction ls generalizing s with
  | nil => trivial
  | cons l ls ih =>
    exact ⟨h l List.mem_cons_self, fun _ _ => ih fun a ha => h a (List.mem_cons_of_mem l ha)⟩

/-- Where a step out of a good state is a good step to a good state exactly when it meets
the condition, a run has good states and good steps exactly when every step meets it. -/
theorem always_and_meets_iff {Q : σ → ℓ → Prop}
    (hinv : ∀ s l t, I s → P s → step s l = some t → I t)
    (hstep : ∀ s l t, I s → P s → step s l = some t → (P t ∧ Q s l ↔ cond s l))
    (hs : I s) (hp : P s) (hr : run step s ls = some t) :
    ((∀ n u, run step s (ls.take n) = some u → P u) ∧ Meets step Q s ls) ↔
      Meets step cond s ls := by
  induction ls generalizing s with
  | nil =>
    refine ⟨fun _ => trivial, fun _ => ⟨fun n u hu => ?_, trivial⟩⟩
    rw [List.take_nil] at hu
    exact Option.some.inj hu ▸ hp
  | cons l ls ih =>
    obtain ⟨m, hl, hrest⟩ := run_cons hr
    constructor
    · rintro ⟨h, hq, hqs⟩
      have hm : P m := h 1 m (run_take_succ hl 0)
      refine ⟨(hstep s l m hs hp hl).mp ⟨hm, hq⟩, fun u hu => ?_⟩
      rw [hl] at hu
      cases hu
      exact (ih (hinv s l m hs hp hl) hm hrest).mp ⟨fun n u hu => h (n + 1) u
        (run_take_succ hl n ▸ hu), hqs m hl⟩
    · rintro ⟨hc, hms⟩
      obtain ⟨hm, hq⟩ := (hstep s l m hs hp hl).mpr hc
      obtain ⟨hlater, hqs⟩ := (ih (hinv s l m hs hp hl) hm hrest).mpr (hms m hl)
      refine ⟨fun n u hu => ?_, hq, fun u hu => Option.some.inj (hl.symm.trans hu) ▸ hqs⟩
      cases n with
      | zero => exact Option.some.inj hu ▸ hp
      | succ n =>
        rw [run_take_succ hl] at hu
        exact hlater n u hu

theorem always_iff_meets (hinv : ∀ s l t, I s → P s → step s l = some t → I t)
    (hstep : ∀ s l t, I s → P s → step s l = some t → (P t ↔ cond s l))
    (hs : I s) (hp : P s) (hr : run step s ls = some t) :
    (∀ n u, run step s (ls.take n) = some u → P u) ↔ Meets step cond s ls := by
  rw [← always_and_meets_iff (Q := fun _ _ => True) hinv
    (fun s l t hs hp hl => (and_iff_left trivial).trans (hstep s l t hs hp hl)) hs hp hr]
  exact (and_iff_left (meets_of_forall fun _ _ => trivial)).symm

theorem last_iff_meets {A : ℓ → Prop} (hinv : ∀ s l t, I s → A l → step s l = some t → I t)
    (hstep : ∀ s l t, I s → A l → step s l = some t → (P t ↔ P s ∧ cond s l))
    (hs : I s) (hA : ∀ l ∈ ls, A l) (hr : run step s ls = some t) :
    I t ∧ (P t ↔ P s ∧ Meets step cond s ls) := by
  induction ls generalizing s with
  | nil =>
    obtain rfl := Option.some.inj hr
    exact ⟨hs, (and_iff_left trivial).symm⟩
  | cons l ls ih =>
    obtain ⟨m, hl, hrest⟩ := run_cons hr
    have hAl : A l := hA l List.mem_cons_self
    obtain ⟨hI, hP⟩ :=
      ih (hinv s l m hs hAl hl) (fun a ha => hA a (List.mem_cons_of_mem l ha)) hrest
    exact ⟨hI, by rw [hP, hstep s l m hs hAl hl, meets_cons hl, and_assoc]⟩

theorem meets_congr_of_meets {A : σ → ℓ → Prop}
    (hinv : ∀ s l t, I s → A s l → step s l = some t → I t)
    (hc : ∀ s l t, I s → A s l → step s l = some t → (cond s l ↔ cond' s l))
    (hs : I s) (hA : Meets step A s ls) (hr : run step s ls = some t) :
    Meets step cond s ls ↔ Meets step cond' s ls := by
  induction ls generalizing s with
  | nil => exact Iff.rfl
  | cons l ls ih =>
    obtain ⟨m, hl, hrest⟩ := run_cons hr
    refine and_congr (hc s l m hs hA.1 hl) (forall_congr' fun u => ?_)
    refine imp_congr_right fun hu => ?_
    obtain rfl : m = u := Option.some.inj (hl.symm.trans hu)
    exact ih (hinv s l m hs hA.1 hl) (hA.2 m hl) hrest

theorem meets_true (s : σ) (ls : List ℓ) : Meets step (fun _ _ => True) s ls :=
  meets_of_forall fun _ _ => trivial

theorem meets_congr (hinv : ∀ s l t, I s → step s l = some t → I t)
    (hc : ∀ s l t, I s → step s l = some t → (cond s l ↔ cond' s l))
    (hs : I s) (hr : run step s ls = some t) :
    Meets step cond s ls ↔ Meets step cond' s ls :=
  meets_congr_of_meets (fun s l t hI _ => hinv s l t hI) (fun s l t hI _ => hc s l t hI) hs
    (meets_true s ls) hr

def Visits (step : σ → ℓ → Option σ) (s : σ) (ls : List ℓ) (u : σ) : Prop :=
  ∃ n, run step s (ls.take n) = some u

theorem meets_visits (hr : run step s ls = some t) :
    Meets step (fun u _ => Visits step s ls u) s ls :=
  (meets_iff hr).mpr fun n _ _ hu _ => ⟨n, hu⟩

def tally (step : σ → ℓ → Option σ) (w : σ → ℓ → Nat) : σ → List ℓ → Nat
  | _, [] => 0
  | s, l :: ls =>
    match step s l with
    | none => 0
    | some t => w s l + tally step w t ls

theorem tally_zero (s : σ) (ls : List ℓ) : tally step (fun _ _ => 0) s ls = 0 := by
  induction ls generalizing s with
  | nil => rfl
  | cons l ls ih =>
    unfold tally
    split
    · rfl
    · rw [ih]

theorem run_tally {f : σ → Int} {gain loss : σ → ℓ → Nat}
    (hinv : ∀ s l t, I s → step s l = some t → I t)
    (hstep : ∀ s l t, I s → step s l = some t → f t + loss s l = f s + gain s l)
    (hs : I s) (hr : run step s ls = some t) :
    f t + tally step loss s ls = f s + tally step gain s ls := by
  induction ls generalizing s with
  | nil =>
    obtain rfl := Option.some.inj hr
    rfl
  | cons l ls ih =>
    obtain ⟨m, hl, hrest⟩ := run_cons hr
    have hfirst := hstep s l m hs hl
    have hlater := ih (hinv s l m hs hl) hrest
    simp only [tally, hl]
    omega

theorem reaches [DecidablePred P] (h : (o.any fun s => P s) = true) : ∃ s, o = some s ∧ P s := by
  cases o with
  | none => cases h
  | some s => exact ⟨s, rfl, of_decide_eq_true h⟩

theorem reaches_imp {Q : σ → Prop} [DecidablePred P]
    (h : (o.any fun s => P s) = true) (hQ : ∀ s, o = some s → P s → Q s) :
    ∃ s, o = some s ∧ Q s := by
  obtain ⟨s, hs, hP⟩ := reaches h
  exact ⟨s, hs, hQ s hs hP⟩

theorem reaches_and {Q : σ → Prop} [DecidablePred P]
    (h : (o.any fun s => P s) = true) (hQ : ∀ s, o = some s → P s → Q s) :
    ∃ s, o = some s ∧ P s ∧ Q s :=
  reaches_imp h fun s hs hP => ⟨hP, hQ s hs hP⟩

theorem reaches_then {τ : Type} {f : σ → Option τ} {P : σ → τ → Prop}
    [∀ s, DecidablePred (P s)] (h : (o.any fun s => (f s).any fun t => P s t) = true) :
    ∃ s t, o = some s ∧ f s = some t ∧ P s t := by
  cases o with
  | none => cases h
  | some s =>
    obtain ⟨t, ht, hP⟩ := reaches h
    exact ⟨s, t, rfl, ht, hP⟩

instance decidableMeets [∀ s l, Decidable (cond s l)] :
    ∀ (s : σ) (ls : List ℓ), Decidable (Meets step cond s ls)
  | _, [] => .isTrue trivial
  | s, l :: ls =>
    match h : step s l with
    | none => decidable_of_iff (cond s l) ⟨fun hc => ⟨hc, fun t ht => by simp [h] at ht⟩, And.left⟩
    | some t =>
      have := decidableMeets t ls
      decidable_of_iff (cond s l ∧ Meets step cond t ls)
        ⟨fun hc => ⟨hc.1, fun u hu => by rw [h] at hu; exact Option.some.inj hu ▸ hc.2⟩,
          fun hc => ⟨hc.1, hc.2 t h⟩⟩

end TokoApi.Lib.Runs
