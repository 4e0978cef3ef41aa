import TokoApi.Cart.Voucher

/-!
# The lines of a cart

`AddItem`, `UpdateQty`, `RemoveItem` and `RemoveVoucher` of cart/service.go, one
step for each statement and for each reading of the clock. There is no
transaction: what a request has read may be gone when it writes. A quantity is
Go's `int`; the column has 32 bits.
-/
namespace TokoApi.Cart

open Db Lib.Threads Lib.Wrap

inductive EditRequest where
  | addItem (cartID productID : String) (variantID : Option String) (qty : Int)
  | updateQty (itemID : String) (qty : Int)
  | removeItem (cartID itemID : String)
  | removeVoucher (cartID : String)
  deriving DecidableEq

structure AddArgs where
  cartID : Nat
  productID : Nat
  variantID : Option Nat
  qty : Int
  deriving DecidableEq

inductive EditPc where
  | expires (a : AddArgs)
  | findItem (a : AddArgs) (expires : Int)
  | addQty (a : AddArgs) (expires : Int) (item : CartItem)
  | getProduct (a : AddArgs) (expires : Int)
  | getVariant (a : AddArgs) (expires : Int) (variant : Nat) (p : Product)
  | createItem (a : AddArgs) (expires : Int) (p : Product) (price : Int)
  | getItem (itemID : Nat) (qty : Int)
  | setQty (item : CartItem) (qty : Int)
  | deleteItem (cartID itemID : Nat)
  | clearVoucher (cartID : Nat)
  | clock (cartID : Nat)
  | touchCart (cartID : Nat) (expires : Int)
  | returned (r : Except String Unit)
  deriving DecidableEq

def EditPc.fails (err : String) : EditPc := .returned (.error err)

def EditPc.parsed {α : Type} (r : Except String α) (next : α → EditPc) : EditPc :=
  match r with
  | .error err => .fails err
  | .ok a => next a

def Service.parse (svc : Service) (what id : String) : Except String Nat :=
  match svc.toUUID id with
  | .error err => .error ("parse " ++ what ++ ": " ++ err)
  | .ok n => .ok n

/-- No variant, or an empty one, is NULL. -/
def Service.parseVariant (svc : Service) : Option String → Except String (Option Nat)
  | none => .ok none
  | some id => if id = "" then .ok none else (svc.parse "variant id" id).map some

theorem bind_eq_ok {α β : Type} {p : Except String α} {f : α → Except String β} {b : β}
    (hp : (p >>= f) = .ok b) : ∃ a, p = .ok a ∧ f a = .ok b := by
  cases p with
  | error err => cases hp
  | ok a => exact ⟨a, rfl, hp⟩

theorem parse_eq_ok {svc : Service} {what id : String} {n : Nat} (hp : svc.parse what id = .ok n) :
    svc.toUUID id = .ok n := by
  unfold Service.parse at hp
  split at hp <;> cases hp
  assumption

def positiveQty : String := "qty must be positive: invalid input"

def editStart (svc : Service) : EditRequest → EditPc
  | .addItem cart product variant qty =>
    let args : Except String AddArgs := do
      let cartID ← svc.parse "cart id" cart
      let productID ← svc.parse "product id" product
      let variantID ← svc.parseVariant variant
      return ⟨cartID, productID, variantID, qty⟩
    if qty ≤ 0 then .fails positiveQty else .parsed args .expires
  | .updateQty item qty =>
    if qty ≤ 0 then .fails positiveQty
    else .parsed (svc.parse "item id" item) fun id => .getItem id qty
  | .removeItem cart item =>
    let ids : Except String (Nat × Nat) := do
      let cartID ← svc.parse "cart id" cart
      let itemID ← svc.parse "item id" item
      return (cartID, itemID)
    .parsed ids fun p => .deleteItem p.1 p.2
  | .removeVoucher cart => .parsed (svc.parse "cart id" cart) .clearVoucher

/-- The line that `AddItem` inserts. The whole quantity is priced, its low 32 bits
are stored. -/
def newLine (a : AddArgs) (p : Product) (price : Int) : CartItem where
  id := 0
  cartID := a.cartID
  productID := a.productID
  variantID := a.variantID
  title := p.title
  slug := p.slug
  qty := int32 a.qty
  unitPrice := max 0 price
  subtotal := max 0 (int64 (a.qty * max 0 price))

def written {π : Type} (s : Store) (fails : String → π) (next : π) :
    Except String Store → Option (Store × π)
  | .error err => some (s, fails err)
  | .ok s' => some (s', next)

def editStep (svc : Service) (s : Store) : EditPc → Call → Option (Store × EditPc)
  | .expires a, .ok => some (s, .findItem a (svc.expiry s.now))
  | .findItem a expires, .ok =>
    match findCartItemByProductVariant s a.cartID a.productID a.variantID with
    | some item => some (s, .addQty a expires item)
    | none => some (s, .getProduct a expires)
  | .addQty a expires item, .ok =>
    let qty := int32 (item.qty + int32 a.qty)
    written s EditPc.fails (.touchCart a.cartID expires)
      (updateCartItemQty s item.id qty (int64 (qty * item.unitPrice)))
  | .getProduct a expires, .ok =>
    match s.products.get? a.productID with
    | none => some (s, .fails noRows)
    | some p =>
      match a.variantID with
      | none => some (s, .createItem a expires p p.price)
      | some variant => some (s, .getVariant a expires variant p)
  | .getVariant a expires variant p, .ok =>
    match s.variants.get? variant with
    | none => some (s, .fails noRows)
    | some row =>
      let v := row.committed
      if v.productID ≠ a.productID then
        some (s, .fails "variant does not belong to product: invalid input")
      else if v.stock ≤ 0 then some (s, .fails "variant out of stock: invalid input")
      else some (s, .createItem a expires p v.price)
  | .createItem a expires p price, .ok =>
    written s EditPc.fails (.touchCart a.cartID expires) (createCartItem s (newLine a p price))
  | .getItem id qty, .ok =>
    match getCartItemByID s id with
    | none => some (s, .fails "cart not found")
    | some item => some (s, .setQty item qty)
  | .setQty item qty, .ok =>
    written s EditPc.fails (.clock item.cartID)
      (updateCartItemQty s item.id (int32 qty) (int64 (qty * item.unitPrice)))
  | .deleteItem cart item, .ok => some (deleteCartItem s item cart, .clock cart)
  | .clearVoucher cart, .ok => some (updateCartVoucher s cart none, .clock cart)
  | .clock cart, .ok => some (s, .touchCart cart (svc.expiry s.now))
  | .touchCart cart expires, .ok => some (touchCart s cart expires, .returned (.ok ()))
  -- the error of the expiry update is discarded
  | .touchCart _ _, .fail _ => some (s, .returned (.ok ()))
  -- reading the clock does not fail
  | .expires _, .fail _ | .clock _, .fail _ | .returned _, _ => none
  | _, .fail err => some (s, .fails err)

end TokoApi.Cart
