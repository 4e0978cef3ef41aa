import Mathlib.Data.Finset.Card
import Mathlib.Data.List.Chain
import TokoApi.Catalog.Detail

/-!
# The path of a category

The loop of `categoryPath` on its own: `walk` repeats its round with a bound on the lookups,
which running out of is no path. A blank slug is left out of the path.

The path gets a slug before it is tested whether the category has been seen, so a category
whose ancestors lead back to it stands in its path twice.
-/
namespace TokoApi.Catalog

open Lib.Rows Lib.Text

/-! ## The loop -/

def walk (categories : Table Category) : Nat → Nat → List String → List Nat → Option (List String)
  | 0, _, _, _ => none
  | lookups + 1, current, path, seen =>
    match round categories current path seen with
    | .done path => some path
    | .next current path seen => walk categories lookups current path seen

/-- The path of a category, if it takes no more than so many lookups. -/
def categoryPath (categories : Table Category) (lookups id : Nat) : Option (List String) :=
  walk categories lookups id [] []

theorem detail_walks (c : Cache) (s : State) (slug : String) (d : ProductDetail) {lookups current : Nat}
    {path p : List String} {seen : List Nat}
    (h : walk s.tables.categories lookups current path seen = some p) :
    ∃ n ≤ lookups, Lib.Runs.run (fun (x : State × Reader) y => detailStep c x.1 x.2 y)
      (s, ⟨slug, .getCategory current path seen d⟩) (List.replicate n .ok) =
        some (s, ⟨slug, .listVariants { d with categoryPath := p }⟩) := by
  induction lookups generalizing current path seen with
  | zero => cases h
  | succ lookups ih =>
    have hround : detailStep c s ⟨slug, .getCategory current path seen d⟩ .ok =
        some (s, ⟨slug, (round s.tables.categories current path seen).pc d⟩) := rfl
    rw [walk] at h
    cases hr : round s.tables.categories current path seen with
    | done q =>
      rw [hr] at h hround
      obtain rfl := Option.some.inj h
      exact ⟨1, Nat.succ_pos _, Lib.Runs.run_step hround⟩
    | next current' path' seen' =>
      rw [hr] at h hround
      obtain ⟨n, hn, hrun⟩ := ih h
      exact ⟨n + 1, Nat.succ_le_succ hn, (Lib.Runs.run_step hround).trans hrun⟩

/-! ## Ancestors -/

def ancestor (categories : Table Category) (id : Nat) : Nat → Option Nat
  | 0 => some id
  | k + 1 => (ancestor categories id k).bind fun i =>
      (categories.get? i).bind Category.parentID

def shownSlug (categories : Table Category) (id : Nat) : String :=
  trimSpace (categories.row id).slug

/-- What a path shows of the categories on it. -/
def shownPath (categories : Table Category) (ids : List Nat) : List String :=
  (ids.map (shownSlug categories)).filter (· ≠ "")

theorem shownPath_cons (categories : Table Category) (id : Nat) (ids : List Nat) :
    shownPath categories (id :: ids) =
      if shownSlug categories id = "" then shownPath categories ids
      else shownSlug categories id :: shownPath categories ids := by
  simp only [shownPath, List.map_cons, List.filter_cons, decide_not]
  split <;> simp_all

def IsParent (categories : Table Category) (parent id : Nat) : Prop :=
  id ∈ categories.ids ∧ (categories.row id).parentID = some parent

/-- A table of categories whose slugs are unique and not blank. -/
structure Categories extends Table Category where
  unique : ∀ i ∈ ids, ∀ j ∈ ids, (row i).slug = (row j).slug → i = j
  shown : ∀ i ∈ ids, shownSlug toTable i ≠ ""

/-- No ancestor of the category is shown as another one is, or as itself further up. -/
def AncestorsDiffer (categories : Table Category) (id : Nat) : Prop :=
  ∀ k l i j, ancestor categories id k = some i → ancestor categories id l = some j →
    i ∈ categories.ids → j ∈ categories.ids →
    shownSlug categories i = shownSlug categories j → k = l

section

variable {categories t : Table Category} {start current : Nat} {seen : List Nat}

theorem get?_of_mem {id : Nat} (h : id ∈ t.ids) : t.get? id = some (t.row id) :=
  if_pos h

theorem get?_of_not_mem {id : Nat} (h : id ∉ t.ids) : t.get? id = none :=
  if_neg h

/-- Before a lookup the categories seen are different ones, the last ancestor first. -/
structure Climbed (categories : Table Category) (start current : Nat) (seen : List Nat) : Prop where
  nodup : seen.Nodup
  stored : ∀ i ∈ seen, i ∈ categories.ids
  parents : (current :: seen).IsChain (IsParent categories)
  origin : (current :: seen).getLast? = some start
  ancestors : ∀ k ≤ seen.length,
    ancestor categories start k = (current :: seen).reverse[k]?

theorem climbed_start (categories : Table Category) (start : Nat) : Climbed categories start start [] where
  nodup := List.nodup_nil
  stored := by simp
  parents := List.IsChain.singleton _
  origin := rfl
  ancestors k hk := by
    obtain rfl : k = 0 := Nat.le_zero.mp hk
    rfl

/-- The categories of a finished path, the last ancestor first. -/
structure Traced (categories : Table Category) (start : Nat) (ids : List Nat) : Prop where
  stored : ∀ i ∈ ids, i ∈ categories.ids
  parents : ids.IsChain (IsParent categories)
  origin : ids.getLast? = if start ∈ categories.ids then some start else none
  ancestors : ∀ k < ids.length, ancestor categories start k = ids.reverse[k]?
  -- a path without a repetition ends where there are no more ancestors
  complete : ids.Nodup → ∀ k i, ancestor categories start k = some i → i ∈ categories.ids →
    k < ids.length

theorem ancestor_none_of_le {k l : Nat} (h : ancestor t start k = none)
    (hkl : k ≤ l) : ancestor t start l = none := by
  induction l, hkl using Nat.le_induction with
  | base => exact h
  | succ l _ ih => rw [ancestor, ih, Option.bind_none]

theorem round_stored (hin : current ∈ categories.ids) :
    round categories current (shownPath categories seen) seen =
      if current ∈ seen then .done (shownPath categories (current :: seen))
      else
        match (categories.row current).parentID with
        | none => .done (shownPath categories (current :: seen))
        | some parent =>
          .next parent (shownPath categories (current :: seen)) (current :: seen) := by
  simp only [round, get?_of_mem hin, shownPath_cons, shownSlug]
  rfl

section

variable (h : Climbed categories start current seen)
include h

theorem Climbed.current_ancestor :
    ancestor categories start seen.length = some current := by
  rw [h.ancestors _ le_rfl]
  simp

theorem Climbed.up {parent : Nat} (hin : current ∈ categories.ids) (hnew : current ∉ seen)
    (hparent : (categories.row current).parentID = some parent) :
    Climbed categories start parent (current :: seen) where
  nodup := List.nodup_cons.mpr ⟨hnew, h.nodup⟩
  stored := List.forall_mem_cons.mpr ⟨hin, h.stored⟩
  parents := List.isChain_cons_cons.mpr ⟨⟨hin, hparent⟩, h.parents⟩
  origin := h.origin
  ancestors k hk := by
    rcases Nat.lt_or_eq_of_le hk with hlt | rfl
    · rw [h.ancestors k (Nat.lt_succ_iff.mp hlt), @List.reverse_cons _ parent (current :: seen),
        List.getElem?_append_left (by simpa using hlt)]
    · rw [List.length_cons, ancestor, h.current_ancestor, Option.bind_some, get?_of_mem hin,
        Option.bind_some, hparent]
      simp

theorem Climbed.ancestor_lt (hend : (categories.get? current).bind Category.parentID = none)
    {k i : Nat} (hk : ancestor categories start k = some i) : k < seen.length + 1 := by
  have hnone : ancestor categories start (seen.length + 1) = none := by
    rw [ancestor, h.current_ancestor, Option.bind_some, hend]
  by_contra hge
  rw [ancestor_none_of_le hnone (Nat.le_of_not_lt hge)] at hk
  cases hk

theorem Climbed.missing (hout : current ∉ categories.ids) :
    Traced categories start seen where
  stored := h.stored
  parents := h.parents.of_cons
  origin := by
    cases seen with
    | nil =>
      obtain rfl : current = start := Option.some.inj h.origin
      rw [if_neg hout]
      rfl
    | cons a seen =>
      have hlast : (a :: seen).getLast? = some start := h.origin
      rw [if_pos (h.stored start (List.mem_of_getLast? hlast)), hlast]
  ancestors k hk := by
    rw [h.ancestors k hk.le, List.reverse_cons, List.getElem?_append_left (by simpa using hk)]
  complete _ k i hk hi := by
    have hend : (categories.get? current).bind Category.parentID = none := by
      rw [get?_of_not_mem hout, Option.bind_none]
    rcases Nat.lt_succ_iff_lt_or_eq.mp (h.ancestor_lt hend hk) with hlt | rfl
    · exact hlt
    · rw [h.current_ancestor] at hk
      exact absurd (Option.some.inj hk ▸ hi) hout

theorem Climbed.ended (hin : current ∈ categories.ids)
    (hend : current ∈ seen ∨ (categories.row current).parentID = none) :
    Traced categories start (current :: seen) where
  stored := List.forall_mem_cons.mpr ⟨hin, h.stored⟩
  parents := h.parents
  origin := by
    have hstart : start ∈ categories.ids :=
      List.forall_mem_cons.mpr ⟨hin, h.stored⟩ start (List.mem_of_getLast? h.origin)
    rw [if_pos hstart, h.origin]
  ancestors k hk := h.ancestors k (Nat.lt_succ_iff.mp hk)
  complete hnodup k i hk _ := by
    rcases hend with hseen | hroot
    · exact absurd hseen (List.nodup_cons.mp hnodup).1
    · refine h.ancestor_lt ?_ hk
      rw [get?_of_mem hin, Option.bind_some, hroot]

theorem Climbed.length_le :
    seen.length ≤ categories.ids.toFinset.card := by
  rw [← List.toFinset_card_of_nodup h.nodup]
  exact Finset.card_le_card fun i hi => by simpa using h.stored i (by simpa using hi)

theorem walk_traced {lookups : Nat} (hleft : categories.ids.toFinset.card < lookups + seen.length) :
    ∃ ids, walk categories lookups current (shownPath categories seen) seen =
      some (shownPath categories ids) ∧ Traced categories start ids := by
  induction lookups generalizing current seen with
  | zero => exact absurd hleft (by simpa using h.length_le)
  | succ lookups ih =>
    rw [walk]
    by_cases hin : current ∈ categories.ids
    · rw [round_stored hin]
      by_cases hseen : current ∈ seen
      · rw [if_pos hseen]
        exact ⟨current :: seen, rfl, h.ended hin (.inl hseen)⟩
      · rw [if_neg hseen]
        cases hparent : (categories.row current).parentID with
        | none => exact ⟨current :: seen, rfl, h.ended hin (.inr hparent)⟩
        | some parent => exact ih (h.up hin hseen hparent) (by rw [List.length_cons]; omega)
    · have hround : round categories current (shownPath categories seen) seen =
          .done (shownPath categories seen) := by
        simp only [round, get?_of_not_mem hin]
      rw [hround]
      exact ⟨seen, rfl, h.missing hin⟩

end

/-- A finished path repeats a slug exactly if two of the ancestors are shown with it. -/
theorem Traced.nodup_iff {ids : List Nat} (h : Traced categories start ids) :
    (ids.map (shownSlug categories)).Nodup ↔ AncestorsDiffer categories start := by
  have hshown : ∀ k < ids.length,
      (ids.reverse.map (shownSlug categories))[k]? =
        (ancestor categories start k).map (shownSlug categories) := by
    intro k hk
    rw [List.getElem?_map, h.ancestors k hk]
  rw [← List.nodup_reverse, ← List.map_reverse]
  constructor
  · intro hnodup k l i j hi hj hiin hjin heq
    have hids : ids.Nodup := List.nodup_reverse.mp hnodup.of_map
    have hk := h.complete hids k i hi hiin
    have hl := h.complete hids l j hj hjin
    refine (List.getElem?_inj (by simpa using hk) hnodup).mp ?_
    rw [hshown k hk, hshown l hl, hi, hj, Option.map_some, Option.map_some, heq]
  · intro hdiffer
    refine List.nodup_iff_getElem?_ne_getElem?.mpr fun k l hkl hl heq => ?_
    replace hl : l < ids.length := by simpa using hl
    have hk : k < ids.length := hkl.trans hl
    have hi := h.ancestors k hk
    have hj := h.ancestors l hl
    rw [hshown k hk, hshown l hl, hi, hj] at heq
    rw [List.getElem?_eq_getElem (by simpa using hk)] at hi heq
    rw [List.getElem?_eq_getElem (by simpa using hl)] at hj heq
    refine hkl.ne (hdiffer k l _ _ hi hj (h.stored _ ?_) (h.stored _ ?_) (Option.some.inj heq))
    · exact List.mem_reverse.mp (List.getElem_mem _)
    · exact List.mem_reverse.mp (List.getElem_mem _)

end

/-- `GetProductDetail` gets past the category of the product, in every state, with one lookup
more than there are categories at most. -/
theorem detail_gets_past (c : Cache) (s : State) (slug : String) (d : ProductDetail) (start : Nat) :
    ∃ n ≤ s.tables.categories.ids.toFinset.card + 1, ∃ ids, Traced s.tables.categories start ids ∧
      Lib.Runs.run (fun (x : State × Reader) y => detailStep c x.1 x.2 y)
        (s, ⟨slug, afterBrand (some start) d⟩) (List.replicate n .ok) =
          some (s, ⟨slug, .listVariants { d with
            categoryPath := shownPath s.tables.categories ids }⟩) := by
  obtain ⟨ids, hwalk, htraced⟩ := walk_traced (climbed_start s.tables.categories start)
    (Nat.lt_succ_self _)
  obtain ⟨n, hn, hrun⟩ := detail_walks c s slug d hwalk
  exact ⟨n, hn, ids, htraced, hrun⟩

/-! ## The path -/

/-- Each slug of the path is that of the parent of the next one's category. -/
def ParentsInOrder (categories : Table Category) (path : List String) : Prop :=
  path.IsChain fun slug next => ∃ parent id, IsParent categories parent id ∧
    shownSlug categories parent = slug ∧ shownSlug categories id = next

/-- For every table, also one with cycles, and every category the path takes at most one
lookup more than there are categories, ends with the category itself and goes from parent to
child; and it shows no slug twice exactly if all ancestors are shown with different ones. -/
theorem category_path_nodup_iff (categories : Categories) (start : Nat) :
    ∃ path, categoryPath categories.toTable (categories.ids.toFinset.card + 1) start = some path ∧
      path.getLast? =
        (if start ∈ categories.ids then some (shownSlug categories.toTable start) else none) ∧
      ParentsInOrder categories.toTable path ∧
      (path.Nodup ↔ AncestorsDiffer categories.toTable start) := by
  obtain ⟨ids, hwalk, htraced⟩ := walk_traced (climbed_start categories.toTable start)
    (Nat.lt_succ_self _)
  have hall : shownPath categories.toTable ids = ids.map (shownSlug categories.toTable) := by
    refine List.filter_eq_self.mpr fun slug hslug => decide_eq_true ?_
    obtain ⟨id, hid, rfl⟩ := List.mem_map.mp hslug
    exact categories.shown id (htraced.stored id hid)
  rw [hall] at hwalk
  refine ⟨ids.map (shownSlug categories.toTable), hwalk, ?_, ?_, htraced.nodup_iff⟩
  · rw [List.getLast?_map, htraced.origin]
    split <;> rfl
  · refine List.isChain_map_of_isChain _ (fun parent id h => ?_) htraced.parents
    exact ⟨parent, id, h, rfl, rfl⟩

def selfParent : Categories where
  ids := [1]
  row _ := ⟨"shoes", some 1⟩
  unique i hi j hj _ := (List.mem_singleton.mp hi).trans (List.mem_singleton.mp hj).symm
  shown _ _ := show trimSpace "shoes" ≠ "" by decide

theorem shoes_twice :
    categoryPath selfParent.toTable 2 1 = some ["shoes", "shoes"] ∧ ¬ ["shoes", "shoes"].Nodup := by
  decide

end TokoApi.Catalog
