import Mathlib.Data.List.Basic
import Mathlib.Data.List.Nodup

/-!
# Rows that are updated or inserted

A loop that looks for the row with the key of an entry, joins the entry to the row it
finds and inserts a row where it finds none. A rule fixes what is joined and what is
inserted. An entry is settled in a list of rows that it would not change; with a rule
whose entries stay settled the loop may be begun again at any point.
-/
namespace TokoApi.Lib.Upsert

/-- How an entry of type `β` becomes a row of type `α`. -/
structure Rule (α β κ : Type) where
  key : α → κ
  keyOf : β → κ
  make : β → α
  join : β → α → α
  key_make : ∀ b, key (make b) = keyOf b
  key_join : ∀ b r, key (join b r) = key r

/-- Joining an entry once is enough, and later entries do not undo it. -/
structure Rule.Lasting {α β κ : Type} (R : Rule α β κ) : Prop where
  make : ∀ b, R.join b (R.make b) = R.make b
  join : ∀ b r, R.join b (R.join b r) = R.join b r
  later : ∀ b c r, R.join b r = r → R.join b (R.join c r) = R.join c r

variable {α β κ ν : Type} {R : Rule α β κ} {rows : List α} {b c : β} {r : α} {k : κ}

namespace Rule

def add (R : Rule α β κ) (o : Option α) (b : β) : Option α := some (o.elim (R.make b) (R.join b))

theorem add_max {f : α → ν} {g : β → ν} [Max ν] (hmake : ∀ b, f (R.make b) = g b)
    (hjoin : ∀ b r, f (R.join b r) = max (f r) (g b)) (bs : List β) (o : Option α) :
    (bs.foldl R.add o).map f = ((o.map f).toList ++ bs.map g).max? := by
  induction bs generalizing o with
  | nil => cases o <;> rfl
  | cons b bs ih =>
    refine (ih (R.add o b)).trans ?_
    cases o with
    | none => simp [add, hmake]
    | some r => simp [add, hjoin, List.max?_cons']

variable [DecidableEq κ] (R)

def touch (b : β) (r : α) : α := if R.key r = R.keyOf b then R.join b r else r

def upsert (rows : List α) (b : β) : List α :=
  if rows.any fun r => R.key r = R.keyOf b then rows.map (R.touch b) else rows ++ [R.make b]

def upserts (rows : List α) (bs : List β) : List α := bs.foldl R.upsert rows

def row? (rows : List α) (k : κ) : Option α := rows.find? fun r => R.key r = k

def Settled (rows : List α) (b : β) : Prop :=
  (∃ r ∈ rows, R.key r = R.keyOf b) ∧ ∀ r ∈ rows, R.key r = R.keyOf b → R.join b r = r

variable {R}

theorem key_touch : R.key (R.touch b r) = R.key r := by
  unfold touch
  split
  · exact R.key_join b r
  · rfl

theorem upsert_found (h : ∃ r ∈ rows, R.key r = R.keyOf b) :
    R.upsert rows b = rows.map (R.touch b) :=
  if_pos (by simpa using h)

theorem upsert_missing (h : ∀ r ∈ rows, R.key r ≠ R.keyOf b) :
    R.upsert rows b = rows ++ [R.make b] :=
  if_neg (by simpa using h)

/-! ## One row for each key -/

theorem upsert_nodup (h : (rows.map R.key).Nodup) : ((R.upsert rows b).map R.key).Nodup := by
  by_cases hf : ∃ r ∈ rows, R.key r = R.keyOf b
  · have hkeys : R.key ∘ R.touch b = R.key := funext fun _ => key_touch
    rwa [upsert_found hf, List.map_map, hkeys]
  · simp only [not_exists, not_and] at hf
    rw [upsert_missing hf, List.map_append, List.map_singleton, R.key_make]
    refine List.nodup_append.mpr ⟨h, List.nodup_singleton _, ?_⟩
    rintro _ hold _ hnew rfl
    obtain ⟨r, hr, hkey⟩ := List.mem_map.mp hold
    exact hf r hr (hkey.trans (List.mem_singleton.mp hnew))

theorem upserts_nodup (bs : List β) (h : (rows.map R.key).Nodup) :
    ((R.upserts rows bs).map R.key).Nodup := by
  induction bs generalizing rows with
  | nil => exact h
  | cons b bs ih => exact ih (upsert_nodup h)

/-! ## The row for a key -/

theorem row?_upsert : R.row? (R.upsert rows b) k =
    if R.keyOf b = k then R.add (R.row? rows k) b else R.row? rows k := by
  by_cases hf : ∃ r ∈ rows, R.key r = R.keyOf b
  · have hkeys : (fun r => decide (R.key r = k)) ∘ R.touch b = fun r => decide (R.key r = k) :=
      funext fun r => by simp only [Function.comp, key_touch]
    rw [upsert_found hf, row?, List.find?_map, hkeys]
    by_cases hk : R.keyOf b = k
    · subst hk
      obtain ⟨r, hr⟩ := Option.isSome_iff_exists.mp
        (List.find?_isSome (p := fun r => decide (R.key r = R.keyOf b)) |>.mpr (by simpa using hf))
      have hkey : R.key r = R.keyOf b := by simpa using List.find?_some hr
      rw [if_pos rfl, hr, row?, hr, Option.map_some, touch, if_pos hkey]
      rfl
    · rw [if_neg hk, row?]
      cases hr : rows.find? fun r => decide (R.key r = k) with
      | none => rfl
      | some r =>
        have hkey : R.key r = k := by simpa using List.find?_some hr
        rw [Option.map_some, touch, if_neg fun h => hk (h.symm.trans hkey)]
  · simp only [not_exists, not_and] at hf
    rw [upsert_missing hf, row?, List.find?_append]
    by_cases hk : R.keyOf b = k
    · subst hk
      have hnone : rows.find? (fun r => decide (R.key r = R.keyOf b)) = none := by
        simpa using hf
      rw [if_pos rfl, row?, hnone]
      simp [R.key_make, add]
    · rw [if_neg hk]
      simp [R.key_make, hk, row?]

theorem row?_upserts (bs : List β) :
    R.row? (R.upserts rows bs) k = (bs.filter (R.keyOf · = k)).foldl R.add (R.row? rows k) := by
  induction bs generalizing rows with
  | nil => rfl
  | cons b bs ih =>
    change R.row? (R.upserts (R.upsert rows b) bs) k = _
    rw [ih, row?_upsert]
    by_cases hk : R.keyOf b = k
    · rw [if_pos hk, List.filter_cons_of_pos (by simpa using hk), List.foldl_cons]
    · rw [if_neg hk, List.filter_cons_of_neg (by simpa using hk)]

theorem filter_key (h : (rows.map R.key).Nodup) :
    rows.filter (R.key · = k) = (R.row? rows k).toList := by
  induction rows with
  | nil => rfl
  | cons r rows ih =>
    obtain ⟨hr, hrest⟩ := List.nodup_cons.mp h
    have hrow := ih hrest
    by_cases hk : R.key r = k
    · have hnone : rows.filter (R.key · = k) = [] := by
        refine List.filter_eq_nil_iff.mpr fun q hq hqk => hr ?_
        rw [hk, ← of_decide_eq_true hqk]
        exact List.mem_map_of_mem hq
      simp [row?, hk, hnone]
    · simp only [row?, List.filter_cons, List.find?_cons, hk, decide_false] at hrow ⊢
      exact hrow

section

variable {f : α → ν} {g : β → ν}

theorem row?_upserts_max [Max ν] (hmake : ∀ b, f (R.make b) = g b)
    (hjoin : ∀ b r, f (R.join b r) = max (f r) (g b)) (h : (rows.map R.key).Nodup) (bs : List β) :
    (R.row? (R.upserts rows bs) k).map f =
      ((rows.filter (R.key · = k)).map f ++ (bs.filter (R.keyOf · = k)).map g).max? := by
  rw [row?_upserts, add_max hmake hjoin, filter_key h]
  cases R.row? rows k <;> rfl

theorem row?_upserts_keeps (hjoin : ∀ b r, f (R.join b r) = f r) (bs : List β)
    (h : R.row? rows k = some r) : (R.row? (R.upserts rows bs) k).map f = some (f r) := by
  have hadd : ∀ (l : List β) (r : α), (l.foldl R.add (some r)).map f = some (f r) := by
    intro l
    induction l with
    | nil => exact fun r => rfl
    | cons b l ih => exact fun r => (ih (R.join b r)).trans (congrArg some (hjoin b r))
  rw [row?_upserts, h, hadd]

end

/-! ## Settled entries -/

theorem upsert_settled (h : R.Settled rows b) : R.upsert rows b = rows := by
  rw [upsert_found h.1]
  refine List.map_congr_left (g := id) (fun r hr => ?_) |>.trans (List.map_id rows)
  unfold touch
  split
  · exact h.2 r hr ‹_›
  · rfl

theorem upserts_settled {bs : List β} (h : ∀ b ∈ bs, R.Settled rows b) : R.upserts rows bs = rows := by
  induction bs with
  | nil => rfl
  | cons b bs ih =>
    rw [upserts, List.foldl_cons, upsert_settled (h b List.mem_cons_self)]
    exact ih fun c hc => h c (List.mem_cons_of_mem b hc)

theorem Lasting.settled_self (hR : R.Lasting) : R.Settled (R.upsert rows b) b := by
  by_cases hf : ∃ r ∈ rows, R.key r = R.keyOf b
  · rw [upsert_found hf]
    obtain ⟨r, hr, hkey⟩ := hf
    refine ⟨⟨R.touch b r, List.mem_map_of_mem hr, key_touch.trans hkey⟩, ?_⟩
    refine List.forall_mem_map.mpr fun q _ hq => ?_
    rw [key_touch] at hq
    rw [touch, if_pos hq, hR.join]
  · simp only [not_exists, not_and] at hf
    rw [upsert_missing hf]
    refine ⟨⟨R.make b, List.mem_append_right _ (List.mem_singleton_self _), R.key_make b⟩, ?_⟩
    refine List.forall_mem_append.mpr ⟨fun r hr hkey => absurd hkey (hf r hr), ?_⟩
    exact List.forall_mem_singleton.mpr fun _ => hR.make b

theorem Lasting.settled_later (hR : R.Lasting) (h : R.Settled rows b) :
    R.Settled (R.upsert rows c) b := by
  obtain ⟨⟨r, hr, hkey⟩, hall⟩ := h
  by_cases hf : ∃ r ∈ rows, R.key r = R.keyOf c
  · rw [upsert_found hf]
    refine ⟨⟨R.touch c r, List.mem_map_of_mem hr, key_touch.trans hkey⟩, ?_⟩
    refine List.forall_mem_map.mpr fun q hq hqb => ?_
    rw [key_touch] at hqb
    unfold touch
    split
    · exact hR.later b c q (hall q hq hqb)
    · exact hall q hq hqb
  · simp only [not_exists, not_and] at hf
    rw [upsert_missing hf]
    refine ⟨⟨r, List.mem_append_left _ hr, hkey⟩, List.forall_mem_append.mpr ⟨hall, ?_⟩⟩
    refine List.forall_mem_singleton.mpr fun hc => ?_
    exact absurd (hkey.trans (hc.symm.trans (R.key_make c))) (hf r hr)

theorem Lasting.settled (hR : R.Lasting) (bs : List β) :
    ∀ b ∈ bs, R.Settled (R.upserts rows bs) b := by
  have hlater : ∀ (l : List β) {rows : List α} {b : β}, R.Settled rows b →
      R.Settled (R.upserts rows l) b := by
    intro l
    induction l with
    | nil => exact fun h => h
    | cons c l ih => exact fun h => ih (hR.settled_later h)
  induction bs generalizing rows with
  | nil => exact List.forall_mem_nil _
  | cons b bs ih => exact List.forall_mem_cons.mpr ⟨hlater bs hR.settled_self, ih⟩

theorem Lasting.upserts_again (hR : R.Lasting) (done rest : List β) :
    R.upserts (R.upserts rows done) (done ++ rest) = R.upserts rows (done ++ rest) := by
  have hsame : R.upserts (R.upserts rows done) done = R.upserts rows done :=
    upserts_settled (hR.settled done)
  simp only [upserts, List.foldl_append] at hsame ⊢
  rw [hsame]

end Rule

end TokoApi.Lib.Upsert
