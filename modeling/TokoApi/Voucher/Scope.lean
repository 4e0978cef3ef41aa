import TokoApi.Voucher.Engine

/-!
# The eligible amount of a voucher with a scope

`EligibleSubtotal` of the engine and the loop of `evaluateVoucher` over the items of a
cart add up the items in the scope of a voucher. The engine rejects an item without a
category as soon as categories are listed; `itemEligible` goes on to the brands. Here
it is determined for which carts the two amounts are the same.
-/
namespace TokoApi.Voucher

open Db Cart Lib.Runs Lib.Wrap

/-- An item of a cart as an item of the engine. -/
def engineItem (s : Store) (it : CartItem) : Item where
  productID := some it.productID
  categoryID := (s.products.row it.productID).categoryID
  brandID := (s.products.row it.productID).brandID
  subtotal := it.subtotal

/-- An item counts where its product, category or brand is listed, or nothing is. -/
def counts (s : Store) (v : Db.Voucher) (it : CartItem) : Bool :=
  !Voucher.hasScope v || itemEligible v it.productID (s.products.row it.productID)

/-- The amount that `evaluateVoucher` takes the discount of. -/
def eligibleAmount (s : Store) (v : Db.Voucher) (items : List CartItem) : Int :=
  if Voucher.hasScope v then
    items.foldl (fun eligible it =>
      if itemEligible v it.productID (s.products.row it.productID) then int64 (eligible + it.subtotal)
      else eligible) 0
  else subtotalOf items

/-- The engine does not come to the brand of the item. -/
def missed (s : Store) (v : Db.Voucher) (it : CartItem) : Bool :=
  it.productID ∉ v.productIds && !v.categoryIds.isEmpty &&
    (s.products.row it.productID).categoryID.isNone &&
    (s.products.row it.productID).brandID.any (· ∈ v.brandIds)

variable {svc : Cart.Service} {s : Store} {a : EvalArgs} {v : Db.Voucher} {items : List CartItem}

/-! ## The loop of evaluateVoucher -/

theorem run_nextItem (hproducts : ∀ it ∈ items, it.productID ∈ s.products.ids) (eligible : Int) :
    run (evalStep svc s a) (nextItem v eligible items) (List.replicate items.length .ok) =
      some (nextItem v (items.foldl (fun eligible it =>
        if itemEligible v it.productID (s.products.row it.productID) then int64 (eligible + it.subtotal)
        else eligible) eligible) []) := by
  induction items generalizing eligible with
  | nil => rfl
  | cons it items ih =>
    have hit : s.products.get? it.productID = some (s.products.row it.productID) :=
      if_pos (hproducts it List.mem_cons_self)
    have hstep : evalStep svc s a (nextItem v eligible (it :: items)) .ok = some (nextItem v
        (if itemEligible v it.productID (s.products.row it.productID) then int64 (eligible + it.subtotal)
          else eligible) items) := by
      simp only [nextItem, evalStep, hit]
    rw [List.length_cons, List.replicate_succ, run, hstep, List.foldl_cons]
    exact ih (fun it' h => hproducts it' (List.mem_cons_of_mem _ h)) _

theorem eligibleAmount_eq :
    eligibleAmount s v items = int64 ((items.filter (counts s v)).map (·.subtotal)).sum := by
  unfold eligibleAmount counts
  split
  · rename_i hscope
    rw [foldl_int64_zero]
    simp [hscope]
  · rename_i hscope
    have h := foldl_int64_zero (fun _ => true) (·.subtotal) items
    simp only [if_true] at h
    rw [subtotalOf, h]
    simp [hscope]

/-! ## The engine -/

theorem listed_none {ids : List Nat} {next : Bool} : listed ids none next = (ids.isEmpty && next) := by
  cases ids <;> rfl

theorem listed_some {ids : List Nat} {k : Nat} {next : Bool} :
    listed ids (some k) next = (k ∈ ids || next) := by
  cases ids <;> simp [listed]

/-- The engine counts what the cart does, but for the items that it misses. -/
theorem matches_eq {it : CartItem} :
    (!(ruleFromModel v).isScoped || ruleMatchesItem (ruleFromModel v) (engineItem s it)) =
      (counts s v it && !missed s v it) := by
  have hscoped : (ruleFromModel v).isScoped = Voucher.hasScope v := rfl
  rw [hscoped, counts]
  by_cases hscope : Voucher.hasScope v = true
  · -- some list is not empty, so the last test of the engine fails
    have hlast : (v.productIds.isEmpty && v.categoryIds.isEmpty && v.brandIds.isEmpty) = false := by
      simpa [Voucher.hasScope, not_and_or, imp_iff_not_or, or_assoc] using hscope
    simp only [hscope, ruleMatchesItem, engineItem, ruleFromModel, hlast, missed, itemEligible]
    cases (s.products.row it.productID).categoryID with
    | none =>
      cases (s.products.row it.productID).brandID with
      | none => simp [listed_none, listed_some]
      | some b =>
        simp only [listed_none, listed_some]
        by_cases hproduct : it.productID ∈ v.productIds <;> by_cases hbrand : b ∈ v.brandIds <;>
          simp [hproduct, hbrand]
    | some c =>
      cases (s.products.row it.productID).brandID <;> simp [listed_none, listed_some, Bool.or_assoc]
  · have hcategories : v.categoryIds.isEmpty = true := by
      simp [Voucher.hasScope] at hscope
      simp [hscope]
    simp [hscope, missed, hcategories]

theorem eligibleSubtotal_eq (hpos : ∀ it ∈ items, 0 < it.subtotal) :
    eligibleSubtotal (items.map (engineItem s)) (ruleFromModel v) =
      int64 ((items.filter fun it => counts s v it && !missed s v it).map (·.subtotal)).sum := by
  have hstep : ∀ n : Int, ∀ it ∈ items,
      (if it.subtotal ≤ 0 then n
        else if !(ruleFromModel v).isScoped || ruleMatchesItem (ruleFromModel v) (engineItem s it) then
          int64 (n + it.subtotal)
        else n) =
      if counts s v it && !missed s v it then int64 (n + it.subtotal) else n := by
    intro n it hit
    rw [if_neg (by have := hpos it hit; omega), matches_eq]
  rw [← foldl_int64_zero, eligibleSubtotal, List.foldl_map]
  exact List.foldl_ext _ _ _ hstep

theorem counts_of_missed {it : CartItem} (h : missed s v it = true) : counts s v it = true := by
  unfold missed at h
  unfold counts itemEligible
  simp only [Bool.and_eq_true] at h
  simp [h.2]

theorem sum_counts : ((items.filter (counts s v)).map (·.subtotal)).sum =
    ((items.filter (missed s v)).map (·.subtotal)).sum +
      ((items.filter fun it => counts s v it && !missed s v it).map (·.subtotal)).sum := by
  have hmissed : (items.filter (counts s v)).filter (missed s v) = items.filter (missed s v) := by
    rw [List.filter_filter]
    exact List.filter_congr fun it _ => Bool.and_eq_left_iff_imp.mpr counts_of_missed
  have hrest : (items.filter (counts s v)).filter (!missed s v ·) =
      items.filter fun it => counts s v it && !missed s v it := by
    rw [List.filter_filter]
    exact List.filter_congr fun it _ => Bool.and_comm ..
  have hsplit := List.sum_map_filter_add_sum_map_filter_not (missed s v · = true) (·.subtotal)
    (items.filter (counts s v))
  simp only [decide_not, Bool.decide_eq_true, hmissed, hrest] at hsplit
  exact hsplit.symm

/-- For every list of items with positive subtotals and every scope, the amount of the
cart is the sum of the items that count, and the engine's is the same unless the items
that it misses add up to something. -/
theorem eligible_amounts_iff (svc : Cart.Service) (s : Store) (a : EvalArgs) (v : Db.Voucher)
    (items : List CartItem) (hpos : ∀ it ∈ items, 0 < it.subtotal)
    (hproducts : ∀ it ∈ items, it.productID ∈ s.products.ids) :
    (Voucher.hasScope v = true →
      run (evalStep svc s a) (nextItem v 0 items) (List.replicate items.length .ok) =
        some (nextItem v (eligibleAmount s v items) [])) ∧
    eligibleAmount s v items = int64 ((items.filter (counts s v)).map (·.subtotal)).sum ∧
    (eligibleSubtotal (items.map (engineItem s)) (ruleFromModel v) = eligibleAmount s v items ↔
      2 ^ 64 ∣ ((items.filter (missed s v)).map (·.subtotal)).sum) := by
  refine ⟨fun hscope => ?_, eligibleAmount_eq, ?_⟩
  · rw [run_nextItem hproducts, eligibleAmount, if_pos hscope]
  · rw [eligibleSubtotal_eq hpos, eligibleAmount_eq, int64_eq_int64_iff, sum_counts,
      Int.add_sub_cancel]

/-- Product 30 of brand 7 has no category; 31 is of category 5, and 32 and 33 are of category 6,
of which 32 is of brand 7. -/
def scopedProducts : Store :=
  { emptyStore with
    products := ⟨[30, 31, 32, 33], fun id =>
      match id with
      | 30 => ⟨"", "", 100, none, some 7, 1⟩
      | 31 => ⟨"", "", 100, some 5, none, 1⟩
      | 32 => ⟨"", "", 100, some 6, some 7, 1⟩
      | _ => ⟨"", "", 100, some 6, none, 1⟩⟩ }

/-- Ten off for category 5 and brand 7. -/
def twoScopes : Db.Voucher :=
  ⟨"SAVE", .fixedAmount, 10, none, 0, none, none, 0, none, none, [], [5], [7]⟩

def lineOf (product : Nat) : CartItem := ⟨product, 11, product, none, "", "", 1, 100, 100⟩

/-- A line of the category, one of the brand and one of neither. -/
def threeLines : List CartItem := [lineOf 31, lineOf 32, lineOf 33]

theorem category_counts_for_both :
    eligibleSubtotal (threeLines.map (engineItem scopedProducts)) (ruleFromModel twoScopes) =
      eligibleAmount scopedProducts twoScopes threeLines ∧
    eligibleAmount scopedProducts twoScopes threeLines = 200 := by
  have h := eligible_amounts_iff ⟨0, 0, none, fun _ => .ok 0⟩ scopedProducts ⟨11, none, "SAVE"⟩ twoScopes
    threeLines (by decide) (by decide)
  exact ⟨h.2.2.mpr (by decide), by decide⟩

/-- The brand of a product without a category counts for the cart only. -/
theorem brand_missed :
    eligibleSubtotal ([lineOf 30].map (engineItem scopedProducts)) (ruleFromModel twoScopes) = 0 ∧
    run (evalStep ⟨0, 0, none, fun _ => .ok 0⟩ scopedProducts ⟨11, none, "SAVE"⟩)
      (nextItem twoScopes 0 [lineOf 30]) [.ok] = some (nextItem twoScopes 100 []) ∧
    eligibleSubtotal ([lineOf 30].map (engineItem scopedProducts)) (ruleFromModel twoScopes) ≠
      eligibleAmount scopedProducts twoScopes [lineOf 30] := by
  decide +kernel

end TokoApi.Voucher
