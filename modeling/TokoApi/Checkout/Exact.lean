import TokoApi.Checkout.Create

/-!
# Pricing without overflow

`pricing.Compute` multiplies, adds and divides in 64 bits. For the amounts that can
reach checkout no quantity, price, voucher or tax rate is negative, but the product of
a line, the sum of the lines, the product with the tax rate and the total may each
leave the range. `Fits` says that three of these numbers do not, and `Exact` what the
summary is in unbounded integers.
-/
namespace TokoApi.Checkout

open Db Cart Lib.Wrap

/-- Quantity times unit price over the items, in unbounded integers. -/
def itemsValue (items : List CartItem) : Int :=
  items.foldl (fun n it => n + it.qty * it.unitPrice) 0

/-- The summary is the one of unbounded integers; the tax is rounded down. -/
structure Exact (items : List CartItem) (voucher taxBps shipping : Int) (r : Summary) : Prop where
  subtotal : r.subtotal = itemsValue items
  discount : r.discount = min voucher r.subtotal
  discount_nonneg : 0 ≤ r.discount
  discount_le : r.discount ≤ r.subtotal
  tax : r.tax = (r.subtotal - r.discount) * taxBps / 10000
  shipped : r.shipping = shipping
  total : r.total = r.subtotal - r.discount + r.tax + shipping
  total_nonneg : 0 ≤ r.total

def taxableValue (items : List CartItem) (voucher : Int) : Int :=
  itemsValue items - min voucher (itemsValue items)

/-- The sum of the lines, the product with the tax rate and the total fit into 64 bits. -/
structure Fits (items : List CartItem) (voucher taxBps shipping : Int) : Prop where
  subtotal : itemsValue items < 2 ^ 63
  taxed : taxableValue items voucher * taxBps < 2 ^ 63
  total : taxableValue items voucher + taxableValue items voucher * taxBps / 10000 + shipping < 2 ^ 63

instance (items : List CartItem) (voucher taxBps shipping : Int) :
    Decidable (Fits items voucher taxBps shipping) :=
  decidable_of_iff (itemsValue items < 2 ^ 63 ∧ taxableValue items voucher * taxBps < 2 ^ 63 ∧
      taxableValue items voucher + taxableValue items voucher * taxBps / 10000 + shipping < 2 ^ 63)
    ⟨fun h => ⟨h.1, h.2.1, h.2.2⟩, fun h => ⟨h.1, h.2, h.3⟩⟩

variable {items : List CartItem} {voucher taxBps shipping : Int}

section

variable (hqty : ∀ it ∈ items, 1 ≤ it.qty)
include hqty

theorem foldl_lineTotal (n : Int) :
    items.foldl lineTotal (int64 n) =
      int64 (items.foldl (fun n it => n + it.qty * it.unitPrice) n) := by
  induction items generalizing n with
  | nil => rfl
  | cons it items ih =>
    have hpos : ¬ it.qty ≤ 0 := by
      have := hqty it List.mem_cons_self
      omega
    have hline : lineTotal (int64 n) it = int64 (n + it.qty * it.unitPrice) := by
      rw [lineTotal, if_neg hpos, int64_add_int64, int64_add_right]
    rw [List.foldl_cons, List.foldl_cons, hline]
    exact ih (fun x hx => hqty x (List.mem_cons_of_mem it hx)) _

theorem compute_subtotal :
    (compute items voucher taxBps shipping).subtotal = int64 (itemsValue items) :=
  foldl_lineTotal hqty 0

theorem itemsValue_nonneg (hprice : ∀ it ∈ items, 0 ≤ it.unitPrice) : 0 ≤ itemsValue items := by
  have hfrom : ∀ n, 0 ≤ n → 0 ≤ items.foldl (fun n it => n + it.qty * it.unitPrice) n := by
    induction items with
    | nil => exact fun n hn => hn
    | cons it items ih =>
      intro n hn
      have hline : 0 ≤ it.qty * it.unitPrice := by
        apply Int.mul_nonneg
        · have := hqty it List.mem_cons_self
          omega
        · exact hprice it List.mem_cons_self
      apply ih (fun x hx => hqty x (List.mem_cons_of_mem it hx))
        (fun x hx => hprice x (List.mem_cons_of_mem it hx))
      exact Int.add_nonneg hn hline
  exact hfrom 0 le_rfl

theorem compute_of_subtotal (hvalue : 0 ≤ itemsValue items) (hvoucher : 0 ≤ voucher)
    (hsub : itemsValue items < 2 ^ 63) :
    compute items voucher taxBps shipping =
      ⟨itemsValue items, min voucher (itemsValue items),
        (int64 (taxableValue items voucher * taxBps)).tdiv 10000, shipping,
        int64 (taxableValue items voucher +
          (int64 (taxableValue items voucher * taxBps)).tdiv 10000 + shipping)⟩ := by
  have hloop : items.foldl lineTotal 0 = itemsValue items := by
    rw [← int64_eq_self_iff.mpr ⟨by omega, hsub⟩]
    exact foldl_lineTotal hqty 0
  have htaxable : max 0 (int64 (itemsValue items - min voucher (itemsValue items))) =
      taxableValue items voucher := by
    have hself : int64 (taxableValue items voucher) = taxableValue items voucher := by
      apply int64_eq_self_iff.mpr
      unfold taxableValue
      omega
    rw [← taxableValue, hself]
    unfold taxableValue
    omega
  simp only [compute, hloop, htaxable]

end

/-- `Compute` gives the exact amounts exactly if the sum of the lines, the product with
the tax rate and the total fit. -/
theorem compute_exact_iff (hqty : ∀ it ∈ items, 1 ≤ it.qty)
    (hprice : ∀ it ∈ items, 0 ≤ it.unitPrice) (hvoucher : 0 ≤ voucher) (htax : 0 ≤ taxBps)
    (hshipping : 0 ≤ shipping) :
    Exact items voucher taxBps shipping (compute items voucher taxBps shipping) ↔
      Fits items voucher taxBps shipping := by
  have hvalue := itemsValue_nonneg hqty hprice
  have htaxable : 0 ≤ taxableValue items voucher := by
    unfold taxableValue
    omega
  have hproduct : 0 ≤ taxableValue items voucher * taxBps := Int.mul_nonneg htaxable htax
  constructor
  · intro h
    have hsub : itemsValue items < 2 ^ 63 := by
      rw [← h.subtotal, compute_subtotal hqty]
      exact (int64_range _).2
    have htotal := h.total
    have htaxed := h.tax
    rw [compute_of_subtotal hqty hvalue hvoucher hsub] at htotal htaxed
    have hfit : taxableValue items voucher * taxBps < 2 ^ 63 := (basisPoints_exact_iff hproduct).mp htaxed
    refine ⟨hsub, hfit, ?_⟩
    simp only [(basisPoints_exact_iff hproduct).mpr hfit] at htotal
    have hrange := (int64_range (taxableValue items voucher +
      taxableValue items voucher * taxBps / 10000 + shipping)).2
    rwa [htotal] at hrange
  · intro h
    rw [compute_of_subtotal hqty hvalue hvoucher h.subtotal, (basisPoints_exact_iff hproduct).mpr h.taxed]
    have htotal : int64 (taxableValue items voucher +
        taxableValue items voucher * taxBps / 10000 + shipping) =
        taxableValue items voucher + taxableValue items voucher * taxBps / 10000 + shipping := by
      apply int64_eq_self_iff.mpr
      have := h.total
      omega
    constructor
    · rfl
    · rfl
    · show 0 ≤ min voucher (itemsValue items)
      omega
    · show min voucher (itemsValue items) ≤ itemsValue items
      omega
    · rfl
    · rfl
    · exact htotal
    · show 0 ≤ int64 _
      rw [htotal]
      omega

/-! ### Amounts in range and out of range -/

def mugs (qty unitPrice : Int) : CartItem := ⟨1, 11, 31, none, "Mug", "mug", qty, unitPrice, 0⟩

/-- Three mugs and two cups with a voucher, 11 per cent tax and shipping. -/
theorem ordinary_cart_exact :
    Exact [mugs 3 1500, mugs 2 999] 500 1100 9000
      (compute [mugs 3 1500, mugs 2 999] 500 1100 9000) := by
  exact (compute_exact_iff (by decide) (by decide) (by decide) (by decide) (by decide)).mpr
    (by decide)

/-- Two mugs at 2⁶² make a negative subtotal; the tax of one mug at 2⁶² wraps; a price of
shipping near the upper end makes the total negative. -/
theorem large_amounts_wrap :
    ¬ Exact [mugs 2 (2 ^ 62)] 0 0 0 (compute [mugs 2 (2 ^ 62)] 0 0 0) ∧
      ¬ Exact [mugs 1 (2 ^ 62)] 0 1100 0 (compute [mugs 1 (2 ^ 62)] 0 1100 0) ∧
      ¬ Exact [mugs 1 1] 0 0 (2 ^ 63 - 1) (compute [mugs 1 1] 0 0 (2 ^ 63 - 1)) := by
  refine ⟨fun h => ?_, fun h => ?_, fun h => ?_⟩
  · exact absurd h.subtotal (by decide)
  · exact absurd h.tax (by decide)
  · exact absurd h.total_nonneg (by decide)

end TokoApi.Checkout
