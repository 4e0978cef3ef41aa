import TokoApi.Lib.Threads
import TokoApi.Lib.Wrap
import TokoApi.Db.Tables

/-!
# Vouchers on a cart

`evaluateVoucher` and `ApplyVoucher` of cart/service.go, one step for each
statement. The limits of a voucher are tested here, against its counter and the
usages recorded so far; nothing is reserved.
-/
namespace TokoApi.Cart

open Db Lib.Threads Lib.Wrap

structure Service where
  ttl : Int
  voucherPerUserLimitDefault : Int
  defaultTenantID : Option Nat
  toUUID : String → Except String Nat

/-- Seven days where nothing is configured. -/
def Service.expiry (svc : Service) (now : Int) : Int :=
  now + if svc.ttl ≤ 0 then 604800 else svc.ttl

/-! ## evaluateVoucher -/

structure EvalArgs where
  cartID : Nat
  userID : Option Nat
  code : String
  deriving DecidableEq

abbrev EvalResult := Except String (Int × Voucher)

inductive EvalPc where
  | listItems
  | getVoucher (items : List CartItem) (subtotal : Int)
  | countUsage (voucher : Nat) (v : Voucher) (user : Nat) (limit : Int) (items : List CartItem)
      (subtotal : Int)
  | getProduct (v : Voucher) (item : CartItem) (rest : List CartItem) (eligible : Int)
  | returned (r : EvalResult)
  deriving DecidableEq

def invalidInput (reason : String) : EvalPc := .returned (.error (reason ++ ": invalid input"))

def evalStart (a : EvalArgs) : EvalPc :=
  if a.code = "" then invalidInput "voucher code required" else .listItems

/-- `itemEligible` once the product is known. -/
def itemEligible (v : Voucher) (product : Nat) (p : Product) : Bool :=
  product ∈ v.productIds || p.categoryID.any (· ∈ v.categoryIds) ||
    p.brandID.any (· ∈ v.brandIds)

def Voucher.hasScope (v : Voucher) : Bool :=
  !v.productIds.isEmpty || !v.categoryIds.isEmpty || !v.brandIds.isEmpty

def discountOf (v : Voucher) (eligible : Int) : EvalPc :=
  let clamp (d : Int) : Int := max 0 (min d eligible)
  match v.kind with
  | .percent =>
    match v.percentBps with
    | none => invalidInput "invalid percent voucher"
    | some bps =>
      if bps ≤ 0 then invalidInput "invalid percent voucher"
      else .returned (.ok (clamp ((int64 (eligible * bps)).tdiv 10000), v))
  | .fixedAmount => .returned (.ok (clamp v.value, v))

def nextItem (v : Voucher) (eligible : Int) : List CartItem → EvalPc
  | [] => if eligible = 0 then invalidInput "voucher not applicable" else discountOf v eligible
  | item :: rest => .getProduct v item rest eligible

def afterLimits (v : Voucher) (items : List CartItem) (subtotal : Int) : EvalPc :=
  if subtotal < v.minSpend then invalidInput "minimum spend not met"
  else if Voucher.hasScope v then nextItem v 0 items
  else discountOf v subtotal

def afterVoucher (svc : Service) (a : EvalArgs) (now : Int) (id : Nat) (v : Voucher)
    (items : List CartItem) (subtotal : Int) : EvalPc :=
  let limit := v.perUserLimit.getD (int32 svc.voucherPerUserLimitDefault)
  if v.validFrom.any (now < ·) then invalidInput "voucher not active"
  else if v.validTo.any (· < now) then invalidInput "voucher expired"
  else if v.usageLimit.any (· ≤ v.usedCount) then invalidInput "voucher usage exceeded"
  else
    match a.userID with
    | some user => if 0 < limit then .countUsage id v user limit items subtotal
        else afterLimits v items subtotal
    | none => afterLimits v items subtotal

def subtotalOf (items : List CartItem) : Int := items.foldl (fun n it => int64 (n + it.subtotal)) 0

def evalStep (svc : Service) (s : Store) (a : EvalArgs) : EvalPc → Call → Option EvalPc
  | .listItems, .fail err => some (.returned (.error err))
  | .listItems, .ok =>
    match listCartItems s a.cartID with
    | [] => some (invalidInput "cart empty")
    | items => some (.getVoucher items (subtotalOf items))
  | .getVoucher _ _, .fail err => some (.returned (.error err))
  | .getVoucher items subtotal, .ok =>
    match getVoucherByCode s a.code with
    | none => some (.returned (.error "no rows in result set"))
    | some (id, v) => some (afterVoucher svc a s.now id v items subtotal)
  | .countUsage _ _ _ _ _ _, .fail err => some (.returned (.error err))
  | .countUsage id v user limit items subtotal, .ok =>
    if limit ≤ int32 (countVoucherUsageByUser s id user) then some (invalidInput "voucher usage exceeded")
    else some (afterLimits v items subtotal)
  | .getProduct _ _ _ _, .fail err => some (.returned (.error err))
  | .getProduct v item rest eligible, .ok =>
    match s.products.get? item.productID with
    | none => some (.returned (.error "no rows in result set"))
    | some p =>
      let eligible' := if itemEligible v item.productID p then int64 (eligible + item.subtotal) else eligible
      some (nextItem v eligible' rest)
  | .returned _, _ => none

/-! ## ApplyVoucher -/

structure ApplyRequest where
  cartID : String
  code : String
  deriving DecidableEq

inductive ApplyPc where
  | getCart (cartID : Nat)
  | eval (a : EvalArgs) (pc : EvalPc)
  | updateCart (cartID : Nat) (code : String) (discount : Int)
  | touchCart (cartID : Nat) (discount : Int)
  | returned (r : Except String Int)
  deriving DecidableEq

def applyStart (svc : Service) (r : ApplyRequest) : ApplyPc :=
  if r.code = "" then .returned (.error "voucher code required: invalid input")
  else
    match svc.toUUID r.cartID with
    | .error err => .returned (.error ("parse cart id: " ++ err))
    | .ok id => .getCart id

def afterEval (a : EvalArgs) : EvalPc → ApplyPc
  | .returned (.error err) => .returned (.error err)
  | .returned (.ok (discount, v)) => .updateCart a.cartID v.code discount
  | pc => .eval a pc

def applyStep (svc : Service) (s : Store) (r : ApplyRequest) :
    ApplyPc → Call → Option (Store × ApplyPc)
  | .getCart _, .fail err => some (s, .returned (.error err))
  | .getCart id, .ok =>
    match getCartByID s id with
    | none => some (s, .returned (.error "cart not found"))
    | some cart =>
      let a : EvalArgs := ⟨id, cart.userID, r.code⟩
      some (s, afterEval a (evalStart a))
  | .eval a pc, x => (evalStep svc s a pc x).map fun pc' => (s, afterEval a pc')
  | .updateCart _ _ _, .fail err => some (s, .returned (.error err))
  | .updateCart id code discount, .ok =>
    some (updateCartVoucher s id (some code), .touchCart id discount)
  -- the error of the expiry update is discarded
  | .touchCart _ discount, .fail _ => some (s, .returned (.ok discount))
  | .touchCart id discount, .ok => some (touchCart s id (svc.expiry s.now), .returned (.ok discount))
  | .returned _, _ => none

end TokoApi.Cart
