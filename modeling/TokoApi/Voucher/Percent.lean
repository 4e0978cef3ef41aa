import TokoApi.Voucher.Grant

/-!
# Percentages in 64 bits

`Compute` (voucher/engine.go) and the last block of `evaluateVoucher` (cart/service.go)
take the same percentage of an amount: the product is formed first, in 64 bits, and
divided by 10000 afterwards. For a percentage of at most 100 the quotient is the exact
one, rounded down, as long as the product fits, and never beyond that.
-/
namespace TokoApi.Voucher

open Db Cart Lib.Wrap

/-- What both evaluations compute for a percent voucher. -/
def percentDiscount (eligible bps : Int) : Int :=
  max 0 (min ((int64 (eligible * bps)).tdiv 10000) eligible)

variable {r r' : Rule} {v v' : Db.Voucher} {bps bps' e e' : Int}

theorem compute_percent (hk : r.kind = .percent) (hb : r.percentBps = some bps) (hpos : 0 < bps)
    (he : 0 < e) : compute e r = percentDiscount e bps := by
  simp only [compute, hk, hb, if_neg (Int.not_le.mpr he), if_neg (Int.not_le.mpr hpos),
    percentDiscount]

theorem discountOf_percent (hk : v.kind = .percent) (hb : v.percentBps = some bps)
    (hpos : 0 < bps) : discountOf v e = .returned (.ok (percentDiscount e bps, v)) := by
  simp only [discountOf, hk, hb, if_neg (Int.not_le.mpr hpos), percentDiscount]

theorem discountOn_percent (hk : v.kind = .percent) (hb : v.percentBps = some bps)
    (hpos : 0 < bps) : discountOn v e = percentDiscount e bps := by
  rw [discountOn, discountOf_percent hk hb hpos]
  rfl

theorem percentDiscount_exact_iff (hpos : 0 < bps) (hle : bps ≤ 10000) (he : 0 < e) :
    percentDiscount e bps = e * bps / 10000 ↔ e * bps < 2 ^ 63 := by
  have hprod : 0 < e * bps := Int.mul_pos he hpos
  have hshare : e * bps ≤ e * 10000 := Int.mul_le_mul_of_nonneg_left hle (Int.le_of_lt he)
  have hiff := basisPoints_exact_iff (Int.le_of_lt hprod)
  unfold percentDiscount
  constructor
  · intro h
    by_contra hlarge
    -- a wrapped quotient is smaller than the exact one, so the amount does not cut it
    have hrange := (int64_range (e * bps)).2
    have hquot : (int64 (e * bps)).tdiv 10000 ≤ (2 ^ 63 - 1 : Int).tdiv 10000 :=
      Int.tdiv_le_tdiv (by decide) (by omega)
    have hbound : (2 ^ 63 - 1 : Int).tdiv 10000 = 922337203685477 := by decide
    have hsame : (int64 (e * bps)).tdiv 10000 = e * bps / 10000 := by omega
    exact hlarge (hiff.mp hsame)
  · intro hfits
    rw [hiff.mpr hfits]
    omega

theorem percentDiscount_le (hpos : 0 < bps) (hle : bps ≤ 10000) (he : 0 < e) (hee : e ≤ e')
    (hbb : bps ≤ bps') (hle' : bps' ≤ 10000) (hfits : e' * bps' < 2 ^ 63) :
    percentDiscount e bps ≤ percentDiscount e' bps' := by
  have hpos' : 0 < bps' := Int.lt_of_lt_of_le hpos hbb
  have he' : 0 < e' := Int.lt_of_lt_of_le he hee
  have hmono : e * bps ≤ e' * bps' :=
    Int.mul_le_mul hee hbb (Int.le_of_lt hpos) (Int.le_of_lt he')
  rw [(percentDiscount_exact_iff hpos hle he).mpr (Int.lt_of_le_of_lt hmono hfits),
    (percentDiscount_exact_iff hpos' hle' he').mpr hfits]
  exact Int.ediv_le_ediv (by decide) hmono

/-- Both evaluations round the exact percentage down exactly where the product fits into
64 bits, and there the discount grows with the amount and with the percentage. -/
theorem percent_exact_iff (r : Rule) (v : Db.Voucher) (bps e : Int) (hkr : r.kind = .percent)
    (hbr : r.percentBps = some bps) (hkv : v.kind = .percent) (hbv : v.percentBps = some bps)
    (hpos : 0 < bps) (hle : bps ≤ 10000) (he : 0 < e) :
    (compute e r = e * bps / 10000 ↔ e * bps < 2 ^ 63) ∧
    (discountOf v e = .returned (.ok (e * bps / 10000, v)) ↔ e * bps < 2 ^ 63) ∧
    ∀ (r' : Rule) (v' : Db.Voucher) (bps' e' : Int), r'.kind = .percent →
      r'.percentBps = some bps' → v'.kind = .percent → v'.percentBps = some bps' → bps ≤ bps' →
      bps' ≤ 10000 → e ≤ e' → e' * bps' < 2 ^ 63 →
      compute e r ≤ compute e' r' ∧ discountOn v e ≤ discountOn v' e' := by
  have hiff := percentDiscount_exact_iff hpos hle he
  refine ⟨?_, ?_, ?_⟩
  · rw [compute_percent hkr hbr hpos he]
    exact hiff
  · rw [discountOf_percent hkv hbv hpos]
    refine Iff.trans ⟨fun h => ?_, fun h => by rw [h]⟩ hiff
    injection h with h
    injection h with h
    exact (Prod.mk.inj h).1
  · intro r' v' bps' e' hkr' hbr' hkv' hbv' hbb hle' hee hfits
    have hpos' : 0 < bps' := Int.lt_of_lt_of_le hpos hbb
    have hgrows := percentDiscount_le hpos hle he hee hbb hle' hfits
    rw [compute_percent hkr hbr hpos he,
      compute_percent hkr' hbr' hpos' (Int.lt_of_lt_of_le he hee),
      discountOn_percent hkv hbv hpos, discountOn_percent hkv' hbv' hpos']
    exact ⟨hgrows, hgrows⟩

/-- A voucher without conditions that takes a percentage off. -/
def percentOff (bps : Int) : Db.Voucher :=
  ⟨"SAVE", .percent, 0, some bps, 0, none, none, 0, none, none, [], [], []⟩

theorem twenty_percent_of_hundred_thousand :
    compute 100000 (ruleFromModel (percentOff 2000)) = 20000 ∧
      discountOf (percentOff 2000) 100000 = .returned (.ok (20000, percentOff 2000)) := by
  obtain ⟨hcompute, hcart, _⟩ := percent_exact_iff (ruleFromModel (percentOff 2000)) (percentOff 2000)
    2000 100000 rfl rfl rfl rfl (by decide) (by decide) (by decide)
  exact ⟨hcompute.mpr (by decide), hcart.mpr (by decide)⟩

/-- One unit more than the largest amount whose product fits, and all of it off: the
discount falls from everything to nothing. -/
theorem full_discount_wraps :
    compute 922337203685477 (ruleFromModel (percentOff 10000)) = 922337203685477 ∧
      compute 922337203685478 (ruleFromModel (percentOff 10000)) = 0 ∧
      discountOf (percentOff 10000) 922337203685478 = .returned (.ok (0, percentOff 10000)) ∧
      compute 922337203685478 (ruleFromModel (percentOff 9999)) = 922244969965109 := by
  decide +kernel

end TokoApi.Voucher
