import TokoApi.Cart.Effects
import TokoApi.Checkout.Create

/-!
# The handlers of a cart

`Get`, `QuoteTax`, `AddItem`, `UpdateItem`, `RemoveItem`, `ApplyVoucher` and
`RemoveVoucher` of cart/handlers.go, one step for each statement and for each reading
of the clock. The three handlers that change lines answer with the cart, so they go on
as `Get`; their statements before that are those of the service. `Get` prices the cart
with the discount of its voucher, and `QuoteTax` without.

A body is taken as decoded. The answer to an error of the service keeps its text;
`writeError` derives the status from the kind of the error.
-/
namespace TokoApi.Cart

open Db Lib.Text Lib.Threads

structure Handler where
  svc : Service
  taxBps : Int
  currency : String

structure AddPayload where
  productID : String
  variantID : Option String
  qty : Int
  deriving DecidableEq

/-- The identifiers in the URL and the body; `none` is a body that does not decode. -/
inductive HandlerRequest where
  | get (id : String)
  | quoteTax (id : String)
  | addItem (id : String) (payload : Option AddPayload)
  | updateItem (id itemID : String) (qty : Option Int)
  | removeItem (id itemID : String)
  | applyVoucher (id : String) (code : Option String)
  | removeVoucher (id : String)
  deriving DecidableEq

def HandlerRequest.cartID : HandlerRequest → String
  | .get id | .quoteTax id | .addItem id _ | .updateItem id _ _ | .removeItem id _
  | .applyVoucher id _ | .removeVoucher id => id

structure CartView where
  id : Nat
  anonID : Option String
  voucher : Option String
  items : List CartItem
  pricing : Checkout.Summary
  currency : String
  deriving DecidableEq

inductive Reply where
  | error (r : Response)
  | failed (err : String)
  | cart (view : CartView)
  | tax (amount : Int)
  | discount (amount : Int)
  | voucherRemoved
  deriving DecidableEq

inductive HandlerPc where
  | edit (pc : EditPc)
  | apply (r : ApplyRequest) (pc : ApplyPc)
  | getCart (id : Nat)
  | clock (id : Nat) (cart : Cart)
  | listItems (id : Nat) (cart : Cart)
  | eval (cart : Cart) (items : List CartItem) (a : EvalArgs) (pc : EvalPc)
  | listTaxed (id : Nat)
  | done (reply : Reply)
  deriving DecidableEq

structure HandlerThread where
  request : HandlerRequest
  pc : HandlerPc
  deriving DecidableEq

def badRequest (message : String) : HandlerPc := .done (.error ⟨400, "BAD_REQUEST", message⟩)

def notFound (message : String) : HandlerPc := .done (.error ⟨404, "NOT_FOUND", message⟩)

def internal (message : String) : HandlerPc := .done (.error ⟨500, "INTERNAL", message⟩)

namespace Handler

variable (h : Handler)

/-- `Get` and `QuoteTax` begin with the identifier in the URL. -/
def onCart (id : String) (next : Nat → HandlerPc) : HandlerPc :=
  match h.svc.toUUID id with
  | .error _ => badRequest "invalid cart id"
  | .ok cart => next cart

def afterEdit (r : HandlerRequest) : EditPc → HandlerPc
  | .returned (.error err) => .done (.failed err)
  | .returned (.ok ()) =>
    match r with
    | .removeVoucher _ => .done .voucherRemoved
    | r => h.onCart r.cartID .getCart
  | pc => .edit pc

def afterApply (r : ApplyRequest) : ApplyPc → HandlerPc
  | .returned (.error err) => .done (.failed err)
  | .returned (.ok discount) => .done (.discount discount)
  | pc => .apply r pc

def handlerStart (r : HandlerRequest) : HandlerPc :=
  match r with
  | .get id => h.onCart id .getCart
  | .quoteTax id => h.onCart id .listTaxed
  | .addItem _ none | .updateItem _ _ none | .applyVoucher _ none => badRequest "invalid payload"
  | .addItem id (some p) =>
    if p.productID = "" then badRequest "productId is required"
    else if p.qty ≤ 0 then badRequest "qty must be positive"
    else h.afterEdit r (editStart h.svc (.addItem id p.productID p.variantID p.qty))
  | .updateItem _ itemID (some qty) =>
    if qty ≤ 0 then badRequest "qty must be positive"
    else h.afterEdit r (editStart h.svc (.updateQty itemID qty))
  | .removeItem id itemID => h.afterEdit r (editStart h.svc (.removeItem id itemID))
  | .applyVoucher id (some code) =>
    afterApply ⟨id, trimSpace code⟩ (applyStart h.svc ⟨id, trimSpace code⟩)
  | .removeVoucher id => h.afterEdit r (editStart h.svc (.removeVoucher id))

def priced (id : Nat) (cart : Cart) (items : List CartItem) (discount : Int) : HandlerPc :=
  .done (.cart ⟨id, cart.anonID, cart.appliedVoucherCode, items,
    Checkout.compute items discount h.taxBps 0, h.currency⟩)

/-- An error of `evaluateVoucher` counts as no discount. -/
def afterEval (cart : Cart) (items : List CartItem) (a : EvalArgs) : EvalPc → HandlerPc
  | .returned (.ok (discount, _)) => h.priced a.cartID cart items discount
  | .returned (.error _) => h.priced a.cartID cart items 0
  | pc => .eval cart items a pc

/-- The voucher is evaluated where the cart carries a code. -/
def afterItems (id : Nat) (cart : Cart) (items : List CartItem) : HandlerPc :=
  if cart.appliedVoucherCode.getD "" = "" then h.priced id cart items 0
  else
    let a : EvalArgs := ⟨id, cart.userID, cart.appliedVoucherCode.getD ""⟩
    h.afterEval cart items a (evalStart a)

def getStep (s : Store) : HandlerPc → Call → Option HandlerPc
  | .getCart _, .fail _ => some (internal "unable to load cart")
  | .getCart id, .ok =>
    match getCartByID s id with
    | none => some (notFound "cart not found")
    | some cart => some (.clock id cart)
  | .clock id cart, .ok =>
    if cart.expiresAt.any (· < s.now) then some (notFound "cart expired")
    else some (.listItems id cart)
  | .listItems _ _, .fail _ | .listTaxed _, .fail _ => some (internal "unable to load cart items")
  | .listItems id cart, .ok => some (h.afterItems id cart (listCartItems s id))
  | .eval cart items a pc, x => (evalStep h.svc s a pc x).map (h.afterEval cart items a)
  | .listTaxed id, .ok =>
    some (.done (.tax (Checkout.compute (listCartItems s id) 0 h.taxBps 0).tax))
  -- reading the clock does not fail
  | _, _ => none

def handlerStep (s : Store) (t : HandlerThread) (x : Call) : Option (Store × HandlerThread) :=
  match t.pc with
  | .edit pc => (editStep h.svc s pc x).map fun p => (p.1, { t with pc := h.afterEdit t.request p.2 })
  | .apply r pc => (applyStep h.svc s r pc x).map fun p => (p.1, { t with pc := afterApply r p.2 })
  | pc => (h.getStep s pc x).map fun pc' => (s, { t with pc := pc' })

def machine : Machine Store HandlerThread HandlerRequest Call Nat where
  start r := ⟨r, h.handlerStart r⟩
  lstep _ := h.handlerStep
  estep := tick

end Handler

end TokoApi.Cart
