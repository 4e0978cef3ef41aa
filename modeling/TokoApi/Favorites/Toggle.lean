import Mathlib.Data.List.Nodup
import TokoApi.Lib.Threads

/-!
# Favorites

`favorites.Handler` and `favorites.Service` over the table `favorites`. Check and
Remove look for a row by user, product and tenant. The primary key is the user and the
product alone, and Add does nothing where it is taken. So a product that a user has
among the favorites of one tenant cannot be added for another: Toggle says that it is a
favorite, and Check that it is not.
-/
namespace TokoApi.Favorites

open Lib.Threads

structure Favorite where
  userID : Nat
  productID : Nat
  tenantID : Nat
  createdAt : Int
  deriving DecidableEq

/-- The arguments of all three statements. -/
structure IDs where
  user : Nat
  product : Nat
  tenant : Nat
  deriving DecidableEq

def IDs.key (k : IDs) : Nat × Nat := (k.user, k.product)

def Favorite.ids (f : Favorite) : IDs := ⟨f.userID, f.productID, f.tenantID⟩

structure Rows where
  rows : List Favorite
  primaryKey : (rows.map fun f => f.ids.key).Nodup

/-! ## Statements -/

namespace Rows

variable (t : Rows)

def taken (k : IDs) : Bool := t.rows.any fun f => f.ids.key = k.key

/-- ON CONFLICT (user_id, product_id) DO NOTHING. -/
def addFavorite (now : Int) (k : IDs) : Rows :=
  if h : t.taken k = true then t
  else
    { rows := t.rows ++ [⟨k.user, k.product, k.tenant, now⟩]
      primaryKey := by
        rw [List.map_append, List.map_singleton, ← List.concat_eq_append]
        refine t.primaryKey.concat fun hmem => h ?_
        obtain ⟨f, hf, hkey⟩ := List.mem_map.mp hmem
        exact List.any_eq_true.mpr ⟨f, hf, decide_eq_true hkey⟩ }

def removeFavorite (k : IDs) : Rows where
  rows := t.rows.filter fun f => f.ids ≠ k
  primaryKey := t.primaryKey.sublist (List.filter_sublist.map _)

def checkFavorite (k : IDs) : Bool := t.rows.any fun f => f.ids = k

end Rows

/-! ## The service and its handlers -/

/-- An error of the statement counts as no row. -/
def check (t : Rows) (k : IDs) : Call → Bool
  | .fail _ => false
  | .ok => t.checkFavorite k

inductive Answer where
  | error (status : Nat) (code message : String) (detail : Option String)
  | favorited (b : Bool)
  deriving DecidableEq

/-- What the middlewares have put into the context. -/
structure Context where
  userID : Option String
  tenantID : Option String

/-- `toUUID` is `uuid.Parse`. -/
structure Handler where
  toUUID : String → Except String Nat

namespace Handler

variable (h : Handler)

def uuid (status : Nat) (code message value : String) : Except Answer Nat :=
  (h.toUUID value).mapError fun err => .error status code message (some err)

def product (value : String) : Except Answer Nat :=
  h.uuid 400 "invalid_product_id" "invalid product id" value

def user (value : String) : Except Answer Nat :=
  h.uuid 500 "invalid_user_id" "invalid user id" value

def tenant : Option String → Except Answer Nat
  | none => .error (.error 400 "missing_tenant" "missing tenant context" none)
  | some value => h.uuid 500 "invalid_tenant_id" "invalid tenant id" value

/-- What both handlers check after the product, where `missing` answers a request without
a user. -/
def ids (missing : Answer) (ctx : Context) (product : Nat) : Except Answer IDs :=
  match ctx.userID with
  | none => .error missing
  | some value => do
    let user ← h.user value
    let tenant ← h.tenant ctx.tenantID
    return ⟨user, product, tenant⟩

/-- `body` is the product id of the decoded body. -/
def toggleIDs (body : Except String String) (ctx : Context) : Except Answer IDs := do
  let value ← body.mapError fun err =>
    .error 400 "invalid_body" "invalid request body" (some err)
  let product ← h.product value
  h.ids (.error 401 "unauthorized" "unauthorized" none) ctx product

/-- A caller who is not logged in has no favorites. -/
def checkIDs (productID : String) (ctx : Context) : Except Answer IDs := do
  let product ← h.product productID
  h.ids (.favorited false) ctx product

/-- `read` and `write` are the outcomes of the two statements. -/
def toggle (now : Int) (read write : Call) (t : Rows) (body : Except String String)
    (ctx : Context) : Rows × Answer :=
  match h.toggleIDs body ctx with
  | .error a => (t, a)
  | .ok k =>
    match check t k read, write with
    | true, .fail err => (t, .error 500 "remove_failed" "failed to remove favorite" (some err))
    | true, .ok => (t.removeFavorite k, .favorited false)
    | false, .fail err => (t, .error 500 "add_failed" "failed to add favorite" (some err))
    | false, .ok => (t.addFavorite now k, .favorited true)

def checks (read : Call) (t : Rows) (productID : String) (ctx : Context) : Answer :=
  match h.checkIDs productID ctx with
  | .error a => a
  | .ok k => .favorited (check t k read)

end Handler

/-! ## Rows of the table -/

variable {t t' : Rows} {k l : IDs} {now : Int}

theorem checkFavorite_iff : t.checkFavorite k = true ↔ ∃ f ∈ t.rows, f.ids = k := by
  simp [Rows.checkFavorite]

theorem taken_iff : t.taken k = true ↔ ∃ f ∈ t.rows, f.ids.key = k.key := by
  simp [Rows.taken]

theorem same_key {f g : Favorite} (hf : f ∈ t.rows) (hg : g ∈ t.rows) (h : f.ids.key = g.ids.key) :
    f = g :=
  List.inj_on_of_nodup_map t.primaryKey hf hg h

theorem check_add : (t.addFavorite now k).checkFavorite l = true ↔
    t.checkFavorite l = true ∨ (l = k ∧ t.taken k = false) := by
  unfold Rows.addFavorite
  split
  · rename_i htaken
    simp [htaken]
  · rename_i hfree
    simp only [Bool.not_eq_true] at hfree
    simp only [checkFavorite_iff, List.mem_append, List.mem_singleton, or_and_right, exists_or,
      exists_eq_left, hfree, and_true, Favorite.ids]
    exact or_congr_right eq_comm

theorem check_remove : (t.removeFavorite k).checkFavorite l = true ↔
    t.checkFavorite l = true ∧ l ≠ k := by
  simp only [checkFavorite_iff, Rows.removeFavorite, List.mem_filter, decide_eq_true_eq]
  constructor
  · rintro ⟨f, ⟨hf, hne⟩, rfl⟩
    exact ⟨⟨f, hf, rfl⟩, hne⟩
  · rintro ⟨⟨f, hf, rfl⟩, hne⟩
    exact ⟨f, ⟨hf, hne⟩, rfl⟩

theorem taken_remove (h : t.checkFavorite k = true) : (t.removeFavorite k).taken k = false := by
  refine Bool.eq_false_iff.mpr fun htaken => ?_
  obtain ⟨f, hf, rfl⟩ := checkFavorite_iff.mp h
  obtain ⟨g, hg, hkey⟩ := taken_iff.mp htaken
  obtain ⟨hg, hne⟩ := List.mem_filter.mp hg
  obtain rfl := same_key hg hf hkey
  simp at hne

/-- No other tenant has the user's favorite. -/
abbrev Unshared (t : Rows) (k : IDs) : Prop :=
  ∀ f ∈ t.rows, f.userID = k.user → f.productID = k.product → f.tenantID = k.tenant

theorem unshared_iff : Unshared t k ↔ (t.taken k = true → t.checkFavorite k = true) := by
  constructor
  · intro h htaken
    obtain ⟨f, hf, hkey⟩ := taken_iff.mp htaken
    obtain ⟨hu, hp⟩ : f.userID = k.user ∧ f.productID = k.product := Prod.mk.inj hkey
    refine checkFavorite_iff.mpr ⟨f, hf, ?_⟩
    rw [Favorite.ids, hu, hp, h f hf hu hp]
  · intro h f hf hu hp
    have hkey : f.ids.key = k.key := Prod.ext hu hp
    obtain ⟨g, hg, rfl⟩ := checkFavorite_iff.mp (h (taken_iff.mpr ⟨f, hf, hkey⟩))
    obtain rfl := same_key hf hg hkey
    rfl

/-- The tables are the same up to the order of the rows and the times of creation. -/
def SameFavorites (t t' : Rows) : Prop := (t.rows.map Favorite.ids).Perm (t'.rows.map Favorite.ids)

theorem ids_nodup (t : Rows) : (t.rows.map Favorite.ids).Nodup := by
  refine List.Nodup.of_map IDs.key ?_
  rw [List.map_map]
  exact t.primaryKey

theorem sameFavorites_of_check (h : ∀ l, t.checkFavorite l = true ↔ t'.checkFavorite l = true) :
    SameFavorites t t' := by
  refine (List.perm_ext_iff_of_nodup (ids_nodup t) (ids_nodup t')).mpr fun l => ?_
  simp only [List.mem_map]
  rw [← checkFavorite_iff, ← checkFavorite_iff]
  exact h l

/-! ## One toggle and two -/

section

variable {h : Handler} {body : Except String String} {ctx : Context}

theorem toggle_removes (hk : h.toggleIDs body ctx = .ok k) (hcheck : t.checkFavorite k = true) :
    h.toggle now .ok .ok t body ctx = (t.removeFavorite k, .favorited false) := by
  simp only [Handler.toggle, hk, check, hcheck]

theorem toggle_adds (hk : h.toggleIDs body ctx = .ok k) (hcheck : t.checkFavorite k = false) :
    h.toggle now .ok .ok t body ctx = (t.addFavorite now k, .favorited true) := by
  simp only [Handler.toggle, hk, check, hcheck]

theorem toggle_toggle (hk : h.toggleIDs body ctx = .ok k) (now later : Int) (t : Rows) :
    SameFavorites t (h.toggle later .ok .ok (h.toggle now .ok .ok t body ctx).1 body ctx).1 := by
  refine sameFavorites_of_check fun l => ?_
  cases hcheck : t.checkFavorite k with
  | true =>
    have hgone : (t.removeFavorite k).checkFavorite k = false :=
      Bool.eq_false_iff.mpr fun hk => (check_remove.mp hk).2 rfl
    rw [toggle_removes hk hcheck, toggle_adds hk hgone, check_add, check_remove,
      and_iff_left (taken_remove hcheck)]
    by_cases hl : l = k
    · simp [hl, hcheck]
    · simp [hl]
  | false =>
    rw [toggle_adds hk hcheck]
    cases htaken : t.taken k with
    | true =>
      have hsame : t.addFavorite now k = t := by rw [Rows.addFavorite, dif_pos htaken]
      rw [hsame, toggle_adds hk hcheck, check_add, htaken]
      simp
    | false =>
      have hadded : (t.addFavorite now k).checkFavorite k = true :=
        check_add.mpr (.inr ⟨rfl, htaken⟩)
      rw [toggle_removes hk hadded, check_remove, check_add]
      by_cases hl : l = k
      · simp [hl, hcheck]
      · simp [hl]

end

/-- For every table, and requests of Toggle and Check that name the same user, product and
tenant, with no error of the database: Check answers what Toggle has answered exactly if no
other tenant has the product among the user's favorites. Two toggles restore the table. -/
theorem toggle_check_iff (h : Handler) (t : Rows) (now later : Int) (body : Except String String)
    (productID : String) (ctx ctx' : Context) (k : IDs) (hk : h.toggleIDs body ctx = .ok k)
    (hk' : h.checkIDs productID ctx' = .ok k) :
    ((∀ b, (h.toggle now .ok .ok t body ctx).2 = .favorited b →
        h.checks .ok (h.toggle now .ok .ok t body ctx).1 productID ctx' = .favorited b) ↔
      Unshared t k) ∧
    SameFavorites t (h.toggle later .ok .ok (h.toggle now .ok .ok t body ctx).1 body ctx).1 := by
  refine ⟨?_, toggle_toggle hk now later t⟩
  have hchecks : ∀ t, h.checks .ok t productID ctx' = .favorited (t.checkFavorite k) := fun t => by
    simp only [Handler.checks, hk', check]
  rw [unshared_iff]
  cases hcheck : t.checkFavorite k with
  | true =>
    rw [toggle_removes hk hcheck]
    refine iff_of_true ?_ fun _ => rfl
    rintro b ⟨⟩
    have hgone : (t.removeFavorite k).checkFavorite k = false :=
      Bool.eq_false_iff.mpr fun hk => (check_remove.mp hk).2 rfl
    rw [hchecks, hgone]
  | false =>
    have hadd : (t.addFavorite now k).checkFavorite k = true ↔ t.taken k = false := by
      rw [check_add, hcheck]
      simp
    rw [toggle_adds hk hcheck]
    constructor
    · intro hall htaken
      have hanswer := hall true rfl
      rw [hchecks, Answer.favorited.injEq, hadd] at hanswer
      cases htaken.symm.trans hanswer
    · rintro hfree b ⟨⟩
      rw [hchecks, Answer.favorited.injEq, hadd]
      exact Bool.eq_false_iff.mpr fun htaken => Bool.false_ne_true (hfree htaken)

def numerals : Handler where
  toUUID value := match value.toList with
    | [c] => .ok (c.toNat - 48)
    | _ => .error "invalid UUID length"

def inShop : Context := ⟨some "1", some "7"⟩

/-- User 1 has product 5 among the favorites of tenant 8. -/
def elsewhere : Rows := ⟨[⟨1, 5, 8, 0⟩], by decide⟩

/-- Other users have product 5 among their favorites, and user 1 has other products. -/
def others : Rows := ⟨[⟨2, 5, 7, 0⟩, ⟨1, 6, 8, 1⟩, ⟨3, 5, 8, 2⟩, ⟨1, 4, 7, 3⟩], by decide⟩

theorem added_and_found :
    (numerals.toggle 10 .ok .ok others (.ok "5") inShop).2 = .favorited true ∧
      numerals.checks .ok (numerals.toggle 10 .ok .ok others (.ok "5") inShop).1 "5" inShop =
        .favorited true := by
  have hanswer : (numerals.toggle 10 .ok .ok others (.ok "5") inShop).2 =
      .favorited true := by decide +kernel
  exact ⟨hanswer, (toggle_check_iff numerals others 10 11 (.ok "5") "5" inShop inShop ⟨1, 5, 7⟩
    (by decide +kernel) (by decide +kernel)).1.mpr (by decide) true hanswer⟩

/-- Tenant 7 is told that the product is a favorite now, and then that it is none. -/
theorem toggled_and_not_found :
    (numerals.toggle 10 .ok .ok elsewhere (.ok "5") inShop).2 = .favorited true ∧
      numerals.checks .ok (numerals.toggle 10 .ok .ok elsewhere (.ok "5") inShop).1 "5" inShop =
        .favorited false := by
  decide +kernel

end TokoApi.Favorites
