import TokoApi.Voucher.Engine

/-!
# Two evaluations of a voucher

`Preview` and the cart's `evaluateVoucher` test the same row by two pieces of code.
They treat negative usage limits and limits per user that are not positive
differently; here it is determined exactly where they part.
-/
namespace TokoApi.Voucher

open Db Cart Lib.Runs Lib.Text Lib.Wrap

/-! ## Acceptance -/

/-- The errors of `Rule.Validate`. -/
def validationErrors : List String :=
  [errMinimumSpendUnmet, errVoucherInactive, errVoucherExpired, errUsageLimitReached,
    errPerUserLimitReached]

/-- `Preview` has passed the validation. -/
def Validated (r : Except String PreviewResult) : Prop :=
  ∀ err, r = .error err → err ∉ validationErrors

instance (r : Except String PreviewResult) : Decidable (Validated r) :=
  match r with
  | .ok _ => .isTrue nofun
  | .error err => decidable_of_iff (err ∉ validationErrors)
      ⟨fun h _ herr => Except.error.inj herr ▸ h, fun h => h err rfl⟩

/-- The errors of the checks of `evaluateVoucher`, up to the minimum spend. -/
def checkErrors : List String :=
  ["voucher not active: invalid input", "voucher expired: invalid input",
    "voucher usage exceeded: invalid input", "minimum spend not met: invalid input"]

/-- The usages are counted where the checks before have not failed. -/
def countUsages (svc : Cart.Service) (s : Store) (a : EvalArgs) : EvalPc → Option EvalPc
  | .countUsage id v user limit items subtotal =>
    evalStep svc s a (.countUsage id v user limit items subtotal) .ok
  | pc => some pc

/-- `evaluateVoucher` on its own, until its checks are done. -/
def evaluateChecks (svc : Cart.Service) (s : Store) (a : EvalArgs) : Option EvalPc :=
  (run (evalStep svc s a) (evalStart a) [.ok, .ok]).bind (countUsages svc s a)

/-- `evaluateVoucher` has passed its checks. -/
def Checked (pc : Option EvalPc) : Prop :=
  ∀ err, pc = some (.returned (.error err)) → err ∉ checkErrors

instance (pc : Option EvalPc) : Decidable (Checked pc) :=
  match pc with
  | some (.returned (.error err)) => decidable_of_iff (err ∉ checkErrors)
      ⟨fun h _ herr => by cases herr; exact h, fun h => h err rfl⟩
  | some (.returned (.ok _)) | some .listItems | some (.getVoucher _ _)
  | some (.countUsage _ _ _ _ _ _) | some (.getProduct _ _ _ _) | none => .isTrue nofun

/-- The texts name the user of the cart, or nobody where it has none. -/
def Service.Names (svc : Service) (userID : Option String) (user : Option Nat) : Prop :=
  match userID.filter (· ≠ "") with
  | none => user = none
  | some text => ∃ u, user = some u ∧ svc.parseUUID (trimSpace text) = .ok u

/-- The conditions that the two agree on. -/
def InForce (v : Db.Voucher) (now subtotal : Int) : Prop :=
  (∀ first ∈ v.validFrom, first ≤ now) ∧ (∀ last ∈ v.validTo, now ≤ last) ∧ v.minSpend ≤ subtotal

/-- A user has used up a limit. -/
abbrev UsedUp (s : Store) (id : Nat) (user : Option Nat) (limit : Int) : Prop :=
  0 < limit ∧ ∃ u ∈ user, limit ≤ int32 (countVoucherUsageByUser s id u)

/-- The limit per user that `Preview` goes by. -/
def previewLimit (d : Int) (v : Db.Voucher) : Int :=
  if v.perUserLimit.any (0 < ·) then v.perUserLimit.getD 0 else int32 d

/-- Where the two part: a negative usage limit, which `Preview` takes for none, or a
limit per user that is not positive, for which `Preview` takes the default; and nothing
else stands in the way. -/
def Parts (d : Int) (s : Store) (id : Nat) (v : Db.Voucher) (user : Option Nat) (subtotal : Int) :
    Prop :=
  InForce v s.now subtotal ∧
    ((∃ limit ∈ v.usageLimit, limit < 0 ∧ limit ≤ v.usedCount) ∧
        ¬ UsedUp s id user (previewLimit d v) ∨
      (∀ limit ∈ v.usageLimit, v.usedCount < limit) ∧ (∃ limit ∈ v.perUserLimit, limit ≤ 0) ∧
        UsedUp s id user (int32 d))

variable {pv : Service} {svc : Cart.Service} {s : Store} {a : EvalArgs} {id : Nat} {v : Db.Voucher}
  {code : String} {userID : Option String} {user : Option Nat} {total : Int} {items : List Item}
  {rule : Rule}

/-! ## Preview -/

theorem validate_error {now : Int} {err : String} (h : rule.validate now total = .error err) :
    err ∈ validationErrors := by
  unfold Rule.validate at h
  split at h
  · cases h
    simp [validationErrors]
  · split at h
    · cases h
      simp [validationErrors]
    · split at h
      · cases h
        simp [validationErrors]
      · split at h
        · cases h
          simp [validationErrors]
        · split at h
          · cases h
            simp [validationErrors]
          · cases h

theorem validated_iff (htrim : trimSpace code ≠ "")
    (hv : getVoucherByCode s (trimSpace code) = some (id, v)) (hrule : pv.ruleFor s id v userID = .ok rule) :
    Validated (pv.preview s code userID total items) ↔ rule.validate s.now total = .ok () := by
  have hpreview : pv.preview s code userID total items = (rule.validate s.now total).bind fun _ =>
      if eligibleSubtotal items rule ≤ 0 then .error errNotEligible
      else if compute (eligibleSubtotal items rule) rule ≤ 0 then .error errNotEligible
      else .ok ⟨compute (eligibleSubtotal items rule) rule, eligibleSubtotal items rule, v.code⟩ := by
    rw [Service.preview, if_neg htrim, hv]
    simp only [hrule]
    rfl
  rw [hpreview]
  cases hval : rule.validate s.now total with
  | error err => exact iff_of_false (fun h => h err rfl (validate_error hval)) nofun
  | ok _ =>
    refine iff_of_true (fun err herr => ?_) rfl
    have hne : errNotEligible ∉ validationErrors := by decide
    simp only [Except.bind] at herr
    split at herr
    · exact Except.error.inj herr ▸ hne
    · split at herr
      · exact Except.error.inj herr ▸ hne
      · cases herr

theorem effectivePerUserLimit_eq (hd : 0 ≤ pv.defaultPerUserLimit) :
    effectivePerUserLimit (pv.rule v) = previewLimit pv.defaultPerUserLimit v := by
  refine if_congr Iff.rfl rfl ?_
  rcases Int.lt_or_eq_of_le hd with h | h
  · exact if_pos h
  · rw [← h]
    exact if_neg fun hpos => absurd (hpos.trans_eq h.symm) (by decide)

theorem ruleFor_eq (hn : pv.Names userID user) (hd : 0 ≤ pv.defaultPerUserLimit) :
    ∃ used limit, pv.ruleFor s id v userID =
        .ok { pv.rule v with perUserUsed := used, effectiveLimit := limit } ∧
      (0 < limit ∧ limit ≤ used ↔ UsedUp s id user (previewLimit pv.defaultPerUserLimit v)) := by
  rw [← effectivePerUserLimit_eq hd]
  unfold Service.ruleFor UsedUp
  unfold Service.Names at hn
  generalize effectivePerUserLimit (pv.rule v) = limit
  by_cases hl : limit ≤ 0
  · refine ⟨0, 0, if_pos hl, iff_of_false (by simp) fun h => ?_⟩
    exact absurd h.1 (by omega)
  · simp only [if_neg hl]
    generalize userID.filter (· ≠ "") = name at hn ⊢
    cases name with
    | none =>
      subst hn
      exact ⟨0, limit, rfl, iff_of_false (fun h => hl h.2) (by simp)⟩
    | some text =>
      obtain ⟨u, rfl, hparse⟩ := hn
      refine ⟨int32 (countVoucherUsageByUser s id u), limit, ?_, by simp⟩
      simp only [hparse]

theorem check_eq_ok {α : Type} {p : Prop} [Decidable p] {err : String} {r : Except String α} {x : α} :
    (if p then .error err else r) = .ok x ↔ ¬ p ∧ r = .ok x := by
  split <;> simp [*]

theorem validate_iff {used limit now : Int} :
    Rule.validate { pv.rule v with perUserUsed := used, effectiveLimit := limit } now total = .ok () ↔
      InForce v now total ∧ (∀ l ∈ v.usageLimit, 0 ≤ l → v.usedCount < l) ∧
        ¬ (0 < limit ∧ limit ≤ used) := by
  have hfrom : v.validFrom.any (now < ·) = true ↔ ¬ ∀ first ∈ v.validFrom, first ≤ now := by
    cases v.validFrom <;> simp
  have hto : v.validTo.any (· < now) = true ↔ ¬ ∀ last ∈ v.validTo, now ≤ last := by
    cases v.validTo <;> simp
  have husage : (v.usageLimit.any fun l => 0 ≤ l && l ≤ v.usedCount) = true ↔
      ¬ ∀ l ∈ v.usageLimit, 0 ≤ l → v.usedCount < l := by
    cases v.usageLimit <;> simp
  rw [Rule.validate, check_eq_ok, check_eq_ok, check_eq_ok, check_eq_ok, check_eq_ok]
  simp only [Service.rule, ruleFromModel, hfrom, hto, InForce, Classical.not_not, Int.not_lt]
  tauto

theorem preview_validated_iff (htrim : trimSpace code ≠ "")
    (hv : getVoucherByCode s (trimSpace code) = some (id, v)) (hn : pv.Names userID user)
    (hd : 0 ≤ pv.defaultPerUserLimit) :
    Validated (pv.preview s code userID total items) ↔
      InForce v s.now total ∧ (∀ l ∈ v.usageLimit, 0 ≤ l → v.usedCount < l) ∧
        ¬ UsedUp s id user (previewLimit pv.defaultPerUserLimit v) := by
  obtain ⟨used, limit, hrule, hused⟩ := ruleFor_eq (s := s) (v := v) hn hd
  rw [validated_iff htrim hv hrule, validate_iff, hused]

/-! ## evaluateVoucher -/

theorem checked_invalidInput {reason : String} :
    Checked (some (invalidInput reason)) ↔ reason ++ ": invalid input" ∉ checkErrors :=
  ⟨fun h => h _ rfl, fun h err herr => by cases herr; exact h⟩

variable {lines : List CartItem} {subtotal : Int}

theorem checked_rest :
    Checked (some (if Voucher.hasScope v then nextItem v 0 lines else discountOf v subtotal)) := by
  have hpercent : Checked (some (invalidInput "invalid percent voucher")) :=
    checked_invalidInput.mpr (by decide)
  split
  · cases lines with
    | nil => exact checked_invalidInput.mpr (by decide)
    | cons it rest => exact nofun
  · unfold discountOf
    cases v.kind with
    | fixedAmount => exact nofun
    | percent =>
      cases v.percentBps with
      | none => exact hpercent
      | some bps =>
        dsimp only
        split
        · exact hpercent
        · exact nofun

theorem checked_afterLimits :
    Checked (some (afterLimits v lines subtotal)) ↔ v.minSpend ≤ subtotal := by
  unfold afterLimits
  by_cases hmin : subtotal < v.minSpend
  · rw [if_pos hmin]
    exact iff_of_false (mt checked_invalidInput.mp (by decide)) (by omega)
  · rw [if_neg hmin]
    exact iff_of_true checked_rest (by omega)


theorem evaluateChecks_eq (hcode : a.code ≠ "") (hcart : listCartItems s a.cartID ≠ [])
    (hv : getVoucherByCode s a.code = some (id, v)) :
    evaluateChecks svc s a = countUsages svc s a (afterVoucher svc a s.now id v
      (listCartItems s a.cartID) (subtotalOf (listCartItems s a.cartID))) := by
  have hfirst : evalStep svc s a .listItems .ok =
      some (.getVoucher (listCartItems s a.cartID) (subtotalOf (listCartItems s a.cartID))) := by
    simp only [evalStep]
  have hsecond : ∀ lines subtotal, evalStep svc s a (.getVoucher lines subtotal) .ok =
      some (afterVoucher svc a s.now id v lines subtotal) := by
    intro lines subtotal
    simp only [evalStep, hv]
  rw [evaluateChecks, evalStart, if_neg hcode]
  simp only [run, hfirst, hsecond, Option.bind_some]

theorem countUsages_afterLimits :
    Checked (countUsages svc s a (afterLimits v lines subtotal)) ↔ v.minSpend ≤ subtotal := by
  have hdiscount : ∀ e, countUsages svc s a (discountOf v e) = some (discountOf v e) := by
    intro e
    unfold discountOf
    dsimp only
    split
    · split
      · rfl
      · split <;> rfl
    · rfl
  have hsame : countUsages svc s a (afterLimits v lines subtotal) =
      some (afterLimits v lines subtotal) := by
    unfold afterLimits
    split
    · rfl
    · split
      · cases lines <;> rfl
      · exact hdiscount subtotal
  rw [hsame, checked_afterLimits]

theorem checked_countUsages {limit : Int} : Checked (countUsages svc s a (match user with
      | some u => if 0 < limit then .countUsage id v u limit lines subtotal
          else afterLimits v lines subtotal
      | none => afterLimits v lines subtotal)) ↔
      v.minSpend ≤ subtotal ∧ ¬ UsedUp s id user limit := by
  cases user with
  | none => simp [countUsages_afterLimits, UsedUp]
  | some u =>
    by_cases hpos : 0 < limit
    · simp only [if_pos hpos, countUsages, evalStep]
      by_cases hused : limit ≤ int32 (countVoucherUsageByUser s id u)
      · rw [if_pos hused]
        exact iff_of_false (mt checked_invalidInput.mp (by decide)) fun h => h.2 ⟨hpos, u, rfl, hused⟩
      · rw [if_neg hused, checked_afterLimits]
        simp [UsedUp, hused]
    · simp only [if_neg hpos]
      simp [countUsages_afterLimits, UsedUp, hpos]

theorem beyond_iff (v : Db.Voucher) (now : Int) :
    (v.validFrom.any (now < ·) = true ↔ ¬ ∀ first ∈ v.validFrom, first ≤ now) ∧
      (v.validTo.any (· < now) = true ↔ ¬ ∀ last ∈ v.validTo, now ≤ last) ∧
      (v.usageLimit.any (· ≤ v.usedCount) = true ↔ ¬ ∀ l ∈ v.usageLimit, v.usedCount < l) := by
  refine ⟨?_, ?_, ?_⟩
  · cases v.validFrom <;> simp
  · cases v.validTo <;> simp
  · cases v.usageLimit <;> simp

theorem evaluate_checked_iff (hcode : a.code ≠ "") (hcart : listCartItems s a.cartID ≠ [])
    (hv : getVoucherByCode s a.code = some (id, v)) :
    Checked (evaluateChecks svc s a) ↔
      InForce v s.now (subtotalOf (listCartItems s a.cartID)) ∧
        (∀ l ∈ v.usageLimit, v.usedCount < l) ∧
        ¬ UsedUp s id a.userID (v.perUserLimit.getD (int32 svc.voucherPerUserLimitDefault)) := by
  obtain ⟨hfrom, hto, husage⟩ := beyond_iff v s.now
  rw [evaluateChecks_eq hcode hcart hv, InForce, afterVoucher]
  by_cases h1 : v.validFrom.any (s.now < ·) = true
  · rw [if_pos h1]
    exact iff_of_false (mt checked_invalidInput.mp (by decide)) (fun h => hfrom.mp h1 h.1.1)
  by_cases h2 : v.validTo.any (· < s.now) = true
  · rw [if_neg h1, if_pos h2]
    exact iff_of_false (mt checked_invalidInput.mp (by decide)) (fun h => hto.mp h2 h.1.2.1)
  by_cases h3 : v.usageLimit.any (· ≤ v.usedCount) = true
  · rw [if_neg h1, if_neg h2, if_pos h3]
    exact iff_of_false (mt checked_invalidInput.mp (by decide)) (fun h => husage.mp h3 h.2.1)
  rw [if_neg h1, if_neg h2, if_neg h3]
  refine Iff.trans (@checked_countUsages svc s a id v a.userID _ _ _) ?_
  rw [hfrom, Classical.not_not] at h1
  rw [hto, Classical.not_not] at h2
  rw [husage, Classical.not_not] at h3
  tauto

/-! ## Agreement -/

theorem usedUp_cart_iff {d : Int} : UsedUp s id user (v.perUserLimit.getD (int32 d)) ↔
    UsedUp s id user (previewLimit d v) ∧ ¬ (∃ limit ∈ v.perUserLimit, limit ≤ 0) := by
  unfold previewLimit
  cases v.perUserLimit with
  | none => simp
  | some l =>
    by_cases hl : 0 < l
    · simp [hl]
    · have hle : l ≤ 0 := by omega
      simp [UsedUp, hl, hle]

theorem usage_iff : (∀ l ∈ v.usageLimit, v.usedCount < l) ↔
    (∀ l ∈ v.usageLimit, 0 ≤ l → v.usedCount < l) ∧
      ¬ ∃ l ∈ v.usageLimit, l < 0 ∧ l ≤ v.usedCount := by
  cases v.usageLimit with
  | none => simp
  | some l =>
    simp only [Option.mem_def, Option.some.injEq, forall_eq', exists_eq_left']
    omega

/-- For every voucher row, user, number of usages, instant and cart, `Preview` passes the
validation exactly when `evaluateVoucher` passes its checks, unless the row has a
negative usage limit or a limit per user that is not positive, in the cases of `Parts`. -/
theorem previews_agree_iff (pv : Service) (svc : Cart.Service)
    (hdefault : pv.defaultPerUserLimit = svc.voucherPerUserLimitDefault)
    (hd : 0 ≤ svc.voucherPerUserLimitDefault) (s : Store) (a : EvalArgs) (id : Nat) (v : Db.Voucher)
    (code : String) (userID : Option String) (items : List Item) (hcode : a.code ≠ "")
    (htrim : trimSpace code ≠ "") (hcart : listCartItems s a.cartID ≠ [])
    (hv : getVoucherByCode s a.code = some (id, v))
    (hv' : getVoucherByCode s (trimSpace code) = some (id, v)) (hn : pv.Names userID a.userID) :
    (Validated (pv.preview s code userID (subtotalOf (listCartItems s a.cartID)) items) ↔
        Checked (evaluateChecks svc s a)) ↔
      ¬ Parts svc.voucherPerUserLimitDefault s id v a.userID
        (subtotalOf (listCartItems s a.cartID)) := by
  rw [← hdefault] at hd
  rw [preview_validated_iff htrim hv' hn hd, evaluate_checked_iff hcode hcart hv, hdefault,
    usedUp_cart_iff, Parts, usage_iff]
  have hnegative : (∃ l ∈ v.usageLimit, l < 0 ∧ l ≤ v.usedCount) →
      ∀ l ∈ v.usageLimit, 0 ≤ l → v.usedCount < l := by
    rintro ⟨l, hl, hneg, _⟩ l' hl' hpos
    obtain rfl := Option.some.inj (hl.symm.trans hl')
    omega
  have hlimit : (∃ l ∈ v.perUserLimit, l ≤ 0) →
      previewLimit svc.voucherPerUserLimitDefault v = int32 svc.voucherPerUserLimitDefault := by
    rintro ⟨l, hl, hle⟩
    rw [previewLimit, hl, if_neg (by simpa using hle)]
  -- what is left is propositional in the conditions
  generalize InForce v s.now _ = inForce
  generalize (∀ l ∈ v.usageLimit, 0 ≤ l → v.usedCount < l) = unlimited at hnegative ⊢
  generalize (∃ l ∈ v.usageLimit, l < 0 ∧ l ≤ v.usedCount) = negative at hnegative ⊢
  by_cases hz : ∃ l ∈ v.perUserLimit, l ≤ 0
  · rw [hlimit hz]
    generalize UsedUp s id a.userID _ = usedUp
    simp only [hz]
    clear * - hnegative
    tauto
  · generalize UsedUp s id a.userID (previewLimit _ v) = usedUp
    simp only [hz]
    clear * - hnegative
    tauto

/-- User 1 has used voucher 20 once and has a line of 100 in the cart 11. -/
def usedOnce (usageLimit perUserLimit : Option Int) : Store :=
  { emptyStore with
    vouchers := ⟨[20], fun _ => ⟨"SAVE", .fixedAmount, 10, none, 0, usageLimit, perUserLimit, 1, none,
      none, [], [], []⟩⟩
    usages := [⟨20, some 1, 40, 10⟩]
    cartItems := [⟨21, 11, 30, none, "", "", 1, 100, 100⟩] }

/-- Both services, with the default limit of one use for each user. -/
def previews : Service := ⟨1, fun text => if text = "1" then .ok 1 else .error "invalid UUID"⟩

def carts : Cart.Service := ⟨0, 1, none, previews.parseUUID⟩

/-- The line of the cart, as the caller of `Preview` hands it in. -/
def lineOf100 : List Item := [⟨some 30, none, none, 100⟩]

theorem second_use_agrees :
    (Validated (previews.preview (usedOnce (some 5) (some 2)) "SAVE" (some "1") 100 lineOf100) ↔
      Checked (evaluateChecks carts (usedOnce (some 5) (some 2)) ⟨11, some 1, "SAVE"⟩)) ∧
    previews.preview (usedOnce (some 5) (some 2)) "SAVE" (some "1") 100 lineOf100 =
      .ok ⟨10, 100, "SAVE"⟩ := by
  refine ⟨(previews_agree_iff previews carts rfl (by decide) _ ⟨11, some 1, "SAVE"⟩ 20 _ "SAVE" (some "1")
    lineOf100 (by decide) (by decide) (by decide) rfl rfl ⟨1, rfl, rfl⟩).mpr ?_, by decide +kernel⟩
  rintro ⟨-, ⟨⟨l, hl, hneg, -⟩, -⟩ | ⟨-, ⟨l, hl, hle⟩, -⟩⟩
  · cases hl
    exact absurd hneg (by decide)
  · cases hl
    exact absurd hle (by decide)

/-- A usage limit of minus one is none for `Preview` and has been reached for the cart;
with a limit of zero for each user, `Preview` goes by the default and the cart by no
limit. -/
theorem previews_part :
    ¬ (Validated (previews.preview (usedOnce (some (-1)) (some 2)) "SAVE" (some "1") 100 lineOf100) ↔
        Checked (evaluateChecks carts (usedOnce (some (-1)) (some 2)) ⟨11, some 1, "SAVE"⟩)) ∧
    ¬ (Validated (previews.preview (usedOnce none (some 0)) "SAVE" (some "1") 100 lineOf100) ↔
        Checked (evaluateChecks carts (usedOnce none (some 0)) ⟨11, some 1, "SAVE"⟩)) ∧
    previews.preview (usedOnce (some (-1)) (some 2)) "SAVE" (some "1") 100 lineOf100 =
      .ok ⟨10, 100, "SAVE"⟩ ∧
    evaluateChecks carts (usedOnce (some (-1)) (some 2)) ⟨11, some 1, "SAVE"⟩ =
      some (invalidInput "voucher usage exceeded") ∧
    previews.preview (usedOnce none (some 0)) "SAVE" (some "1") 100 lineOf100 =
      .error errPerUserLimitReached := by
  decide +kernel

end TokoApi.Voucher
