import TokoApi.Cart.Voucher

/-!
# The rules of vouchers

voucher/engine.go, and `Preview` with its helpers of voucher/service.go: a second
evaluation of vouchers beside the one of the cart. The caller of `Preview` hands in
the total and the items. It reads the voucher and, for a user with a limit, the
number of usages, and writes nothing, so it is a function of the store. The columns
that no check reads (combinable, priority) and the stack size are left out.
-/
namespace TokoApi.Voucher

open Db Cart Lib.Text Lib.Wrap

/-! ## engine.go -/

def errNotEligible : String := "voucher not eligible"
def errUsageLimitReached : String := "voucher usage limit reached"
def errPerUserLimitReached : String := "voucher per-user usage limit reached"
def errVoucherInactive : String := "voucher not active"
def errVoucherExpired : String := "voucher expired"
def errMinimumSpendUnmet : String := "voucher minimum spend not met"

structure Rule where
  code : String
  kind : DiscountKind
  value : Int
  percentBps : Option Int
  minSpend : Int
  usageLimit : Option Int
  usedCount : Int
  perUserLimit : Option Int
  validFrom : Option Int
  validTo : Option Int
  productIDs : List Nat
  categoryIDs : List Nat
  brandIDs : List Nat
  defaultLimit : Int
  perUserUsed : Int
  effectiveLimit : Int

structure Item where
  productID : Option Nat
  categoryID : Option Nat
  brandID : Option Nat
  subtotal : Int

def Rule.validate (r : Rule) (now cartTotal : Int) : Except String Unit :=
  if cartTotal < r.minSpend then .error errMinimumSpendUnmet
  else if r.validFrom.any (now < ·) then .error errVoucherInactive
  else if r.validTo.any (· < now) then .error errVoucherExpired
  -- a negative limit is none
  else if r.usageLimit.any fun limit => 0 ≤ limit && limit ≤ r.usedCount then
    .error errUsageLimitReached
  else if 0 < r.effectiveLimit ∧ r.effectiveLimit ≤ r.perUserUsed then
    .error errPerUserLimitReached
  else .ok ()

/-- One list of a scope: an item without the identifier is out, one that is listed is
in, and any other is decided by the lists that follow. -/
def listed (ids : List Nat) (id : Option Nat) (next : Bool) : Bool :=
  if ids.isEmpty then next
  else
    match id with
    | none => false
    | some k => k ∈ ids || next

def ruleMatchesItem (r : Rule) (it : Item) : Bool :=
  listed r.productIDs it.productID <| listed r.categoryIDs it.categoryID <|
    listed r.brandIDs it.brandID <|
      r.productIDs.isEmpty && r.categoryIDs.isEmpty && r.brandIDs.isEmpty

def Rule.isScoped (r : Rule) : Bool :=
  !r.productIDs.isEmpty || !r.categoryIDs.isEmpty || !r.brandIDs.isEmpty

def eligibleSubtotal (items : List Item) (r : Rule) : Int :=
  items.foldl (fun total it =>
    if it.subtotal ≤ 0 then total
    else if !r.isScoped || ruleMatchesItem r it then int64 (total + it.subtotal)
    else total) 0

def compute (eligible : Int) (r : Rule) : Int :=
  let clamp (discount : Int) : Int := max 0 (min discount eligible)
  if eligible ≤ 0 then 0
  else
    match r.kind with
    | .fixedAmount => clamp r.value
    | .percent =>
      match r.percentBps with
      | none => 0
      | some bps => if bps ≤ 0 then 0 else clamp ((int64 (eligible * bps)).tdiv 10000)

/-! ## service.go -/

structure Service where
  defaultPerUserLimit : Int
  parseUUID : String → Except String Nat

structure PreviewResult where
  discount : Int
  eligibleAmount : Int
  code : String
  deriving DecidableEq

def ruleFromModel (v : Db.Voucher) : Rule where
  code := v.code
  kind := v.kind
  value := v.value
  percentBps := v.percentBps
  minSpend := v.minSpend
  usageLimit := v.usageLimit
  usedCount := v.usedCount
  perUserLimit := v.perUserLimit
  validFrom := v.validFrom
  validTo := v.validTo
  productIDs := v.productIds
  categoryIDs := v.categoryIds
  brandIDs := v.brandIds
  defaultLimit := 0
  perUserUsed := 0
  effectiveLimit := 0

/-- The row's limit where it is positive, and the default otherwise. -/
def effectivePerUserLimit (r : Rule) : Int :=
  if r.perUserLimit.any (0 < ·) then r.perUserLimit.getD 0
  else if 0 < r.defaultLimit then int32 r.defaultLimit
  else 0

/-- The rule of a row, before the user is known. -/
def Service.rule (svc : Service) (v : Db.Voucher) : Rule :=
  { ruleFromModel v with defaultLimit := svc.defaultPerUserLimit }

/-- The rule for a user, with the usages recorded so far. -/
def Service.ruleFor (svc : Service) (s : Store) (id : Nat) (v : Db.Voucher)
    (userID : Option String) : Except String Rule :=
  if effectivePerUserLimit (svc.rule v) ≤ 0 then .ok (svc.rule v)
  else
    match userID.filter (· ≠ "") with
    | none => .ok { svc.rule v with effectiveLimit := effectivePerUserLimit (svc.rule v) }
    | some text =>
      match svc.parseUUID (trimSpace text) with
      | .error err => .error ("invalid user id: " ++ err)
      | .ok user => .ok { svc.rule v with
          perUserUsed := int32 (countVoucherUsageByUser s id user)
          effectiveLimit := effectivePerUserLimit (svc.rule v) }

def Service.preview (svc : Service) (s : Store) (code : String) (userID : Option String)
    (cartTotal : Int) (items : List Item) : Except String PreviewResult :=
  if trimSpace code = "" then .error ("code is required: " ++ errNotEligible)
  else
    match getVoucherByCode s (trimSpace code) with
    | none => .error errNotEligible
    | some (id, v) => do
      let rule ← svc.ruleFor s id v userID
      rule.validate s.now cartTotal
      let eligible := eligibleSubtotal items rule
      let discount := compute eligible rule
      if eligible ≤ 0 then .error errNotEligible
      else if discount ≤ 0 then .error errNotEligible
      else return ⟨discount, eligible, v.code⟩

end TokoApi.Voucher
