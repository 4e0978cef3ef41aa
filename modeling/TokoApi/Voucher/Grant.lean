import TokoApi.Voucher.Agreement

/-!
# What a voucher grants

The rule of `evaluateVoucher` as a function of the lines, of which it uses the products
and the subtotals. `ahead` is what an evaluation that has read its voucher is going to
return if the calls that remain succeed; a step does not change it.
-/
namespace TokoApi.Voucher

open Db Cart Lib.Wrap

/-- The product and the subtotal of a line. -/
abbrev RuleLine := Nat × Int

def ruleLine (it : CartItem) : RuleLine := (it.productID, it.subtotal)

def total (lines : List RuleLine) : Int := lines.foldl (fun n l => int64 (n + l.2)) 0

/-- The lines in the scope, added up; a product that is gone is an error. -/
def scopeTotal (s : Store) (v : Db.Voucher) : Int → List RuleLine → Option Int
  | n, [] => some n
  | n, (product, subtotal) :: rest =>
    match s.products.get? product with
    | none => none
    | some p => scopeTotal s v (if itemEligible v product p then int64 (n + subtotal) else n) rest

/-- An error grants nothing. -/
def amount : EvalPc → Int
  | .returned (.ok (discount, _)) => discount
  | _ => 0

def discountOn (v : Db.Voucher) (n : Int) : Int := amount (discountOf v n)

def scopeGrant (s : Store) (v : Db.Voucher) (n : Int) (lines : List RuleLine) : Int :=
  match scopeTotal s v n lines with
  | none => 0
  | some n => if n = 0 then 0 else discountOn v n

/-- What a voucher grants that may be used. -/
def limitsGrant (s : Store) (v : Db.Voucher) (lines : List RuleLine) (subtotal : Int) : Int :=
  if subtotal < v.minSpend then 0
  else if Voucher.hasScope v then scopeGrant s v 0 lines
  else discountOn v subtotal

/-- The voucher is valid, and neither its limit nor that of the user is used up. -/
abbrev Usable (svc : Cart.Service) (s : Store) (user : Option Nat) (id : Nat) (v : Db.Voucher) : Prop :=
  (∀ first ∈ v.validFrom, first ≤ s.now) ∧ (∀ last ∈ v.validTo, s.now ≤ last) ∧
    (∀ limit ∈ v.usageLimit, v.usedCount < limit) ∧
    ¬ UsedUp s id user (v.perUserLimit.getD (int32 svc.voucherPerUserLimitDefault))

/-- The discount on the lines, as the store stands. -/
def granted (svc : Cart.Service) (s : Store) (user : Option Nat) (code : String)
    (lines : List RuleLine) : Int :=
  if code = "" then 0
  else
    match getVoucherByCode s code with
    | none => 0
    | some (id, v) =>
      if Usable svc s user id v then limitsGrant s v lines (total lines) else 0

def ahead (s : Store) : EvalPc → Int
  | .countUsage id v user limit items subtotal =>
    if limit ≤ int32 (countVoucherUsageByUser s id user) then 0
    else limitsGrant s v (items.map ruleLine) subtotal
  | .getProduct v item rest n => scopeGrant s v n (ruleLine item :: rest.map ruleLine)
  | pc => amount pc

variable {svc : Cart.Service} {s s' : Store} {a : EvalArgs} {id : Nat} {v : Db.Voucher}
  {items : List CartItem} {n subtotal : Int} {pc pc' : EvalPc}

theorem discountOn_nonneg (v : Db.Voucher) (n : Int) : 0 ≤ discountOn v n := by
  unfold discountOn discountOf
  dsimp only
  split
  · split
    · exact le_rfl
    · split
      · exact le_rfl
      · exact Int.le_max_left ..
  · exact Int.le_max_left ..

theorem granted_nonneg (svc : Cart.Service) (s : Store) (user : Option Nat) (code : String)
    (lines : List RuleLine) : 0 ≤ granted svc s user code lines := by
  unfold granted limitsGrant scopeGrant
  have hdiscount := discountOn_nonneg
  grind

theorem total_ruleLine : total (items.map ruleLine) = subtotalOf items := by
  rw [total, List.foldl_map]
  rfl

theorem ahead_discountOf : ahead s (discountOf v n) = discountOn v n := by
  unfold discountOn discountOf
  dsimp only
  split
  · split
    · rfl
    · split <;> rfl
  · rfl

theorem ahead_nextItem : ahead s (nextItem v n items) = scopeGrant s v n (items.map ruleLine) := by
  cases items with
  | nil =>
    simp only [nextItem, scopeGrant, List.map_nil, scopeTotal]
    split
    · rfl
    · exact ahead_discountOf
  | cons it rest => rfl

theorem ahead_afterLimits :
    ahead s (afterLimits v items subtotal) = limitsGrant s v (items.map ruleLine) subtotal := by
  unfold afterLimits limitsGrant
  split
  · rfl
  · split
    · exact ahead_nextItem
    · exact ahead_discountOf

theorem ahead_userLimit (user : Option Nat) (limit : Int) :
    ahead s (match user with
      | some user => if 0 < limit then .countUsage id v user limit items subtotal
          else afterLimits v items subtotal
      | none => afterLimits v items subtotal) =
      if UsedUp s id user limit then 0 else limitsGrant s v (items.map ruleLine) subtotal := by
  cases user with
  | none => simp [ahead_afterLimits, UsedUp]
  | some user =>
    by_cases hpos : 0 < limit
    · simp [hpos, ahead, UsedUp]
    · simp [hpos, ahead_afterLimits, UsedUp]

theorem ahead_afterVoucher :
    ahead s (afterVoucher svc a s.now id v items subtotal) =
      if Usable svc s a.userID id v then limitsGrant s v (items.map ruleLine) subtotal else 0 := by
  obtain ⟨hfrom, hto, hlimit⟩ := beyond_iff v s.now
  unfold afterVoucher
  dsimp only
  split
  · rename_i h
    exact (if_neg fun hu => hfrom.mp h hu.1).symm
  · rename_i h₁
    split
    · rename_i h
      exact (if_neg fun hu => hto.mp h hu.2.1).symm
    · rename_i h₂
      split
      · rename_i h
        exact (if_neg fun hu => hlimit.mp h hu.2.2.1).symm
      · rename_i h₃
        rw [hfrom, Classical.not_not] at h₁
        rw [hto, Classical.not_not] at h₂
        rw [hlimit, Classical.not_not] at h₃
        refine (ahead_userLimit a.userID _).trans ?_
        by_cases hused :
            UsedUp s id a.userID (v.perUserLimit.getD (int32 svc.voucherPerUserLimitDefault))
        · rw [if_pos hused, if_neg fun hu => hu.2.2.2 hused]
        · rw [if_neg hused, if_pos ⟨h₁, h₂, h₃, hused⟩]

/-- The evaluation has read its voucher. -/
def pastVoucher : EvalPc → Bool
  | .listItems | .getVoucher _ _ => false
  | _ => true

theorem pastVoucher_discountOf : pastVoucher (discountOf v n) = true := by
  unfold discountOf
  dsimp only
  split
  · split
    · rfl
    · split <;> rfl
  · rfl

theorem pastVoucher_nextItem : pastVoucher (nextItem v n items) = true := by
  cases items with
  | nil =>
    simp only [nextItem]
    split
    · rfl
    · exact pastVoucher_discountOf
  | cons it rest => rfl

theorem pastVoucher_afterLimits : pastVoucher (afterLimits v items subtotal) = true := by
  unfold afterLimits
  split
  · rfl
  · split
    · exact pastVoucher_nextItem
    · exact pastVoucher_discountOf

theorem pastVoucher_afterVoucher {now : Int} :
    pastVoucher (afterVoucher svc a now id v items subtotal) = true := by
  unfold afterVoucher
  dsimp only
  split
  · rfl
  · split
    · rfl
    · split
      · rfl
      · split
        · split
          · rfl
          · exact pastVoucher_afterLimits
        · exact pastVoucher_afterLimits

theorem pastVoucher_step (hlist : pc ≠ .listItems) (h : evalStep svc s a pc .ok = some pc') :
    pastVoucher pc' = true := by
  cases pc with
  | listItems => exact absurd rfl hlist
  | getVoucher items n =>
    simp only [evalStep] at h
    split at h <;> cases h
    · rfl
    · exact pastVoucher_afterVoucher
  | countUsage id v user limit items subtotal =>
    simp only [evalStep] at h
    split at h <;> cases h
    · rfl
    · exact pastVoucher_afterLimits
  | getProduct v item rest n =>
    simp only [evalStep] at h
    split at h <;> cases h
    · rfl
    · exact pastVoucher_nextItem
  | returned r => cases h

theorem ahead_getVoucher (hcode : a.code ≠ "")
    (h : evalStep svc s a (.getVoucher items (subtotalOf items)) .ok = some pc') :
    ahead s pc' = granted svc s a.userID a.code (items.map ruleLine) := by
  simp only [evalStep] at h
  rw [granted, if_neg hcode]
  generalize getVoucherByCode s a.code = found at h ⊢
  cases found with
  | none =>
    cases h
    rfl
  | some row =>
    cases h
    rw [total_ruleLine]
    exact ahead_afterVoucher

theorem ahead_step (hpast : pastVoucher pc = true) (h : evalStep svc s a pc .ok = some pc') :
    ahead s pc' = ahead s pc := by
  cases pc with
  | listItems | getVoucher items n => cases hpast
  | countUsage id v user limit items subtotal =>
    simp only [evalStep] at h
    split at h <;> cases h
    · rename_i hused
      simp only [ahead, if_pos hused]
      rfl
    · rename_i hused
      simp only [ahead, if_neg hused]
      exact ahead_afterLimits
  | getProduct v item rest n =>
    simp only [evalStep] at h
    split at h
    · rename_i hp
      cases h
      simp only [ahead, scopeGrant, scopeTotal, ruleLine, hp]
      rfl
    · rename_i p hp
      cases h
      rw [ahead_nextItem]
      simp only [ahead, scopeGrant, scopeTotal, ruleLine, hp]
      rfl
  | returned r => cases h

/-! ## Stores with the same vouchers -/

theorem scopeTotal_congr (hp : s'.products = s.products) (n : Int) (lines : List RuleLine) :
    scopeTotal s' v n lines = scopeTotal s v n lines := by
  induction lines generalizing n with
  | nil => rfl
  | cons l rest ih =>
    simp only [scopeTotal, hp]
    split
    · rfl
    · exact ih _

theorem limitsGrant_congr (hp : s'.products = s.products) (lines : List RuleLine) (subtotal : Int) :
    limitsGrant s' v lines subtotal = limitsGrant s v lines subtotal := by
  simp only [limitsGrant, scopeGrant, scopeTotal_congr hp]

theorem ahead_congr (hp : s'.products = s.products) (hu : s'.usages = s.usages) (pc : EvalPc) :
    ahead s' pc = ahead s pc := by
  cases pc with
  | countUsage id v user limit items subtotal =>
    have hcount : countVoucherUsageByUser s' id user = countVoucherUsageByUser s id user := by
      rw [countVoucherUsageByUser, countVoucherUsageByUser, hu]
    simp only [ahead, hcount, limitsGrant_congr hp]
  | getProduct v item rest n => simp only [ahead, scopeGrant, scopeTotal_congr hp]
  | _ => rfl

end TokoApi.Voucher
