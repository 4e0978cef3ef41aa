import TokoApi.Cart.Voucher

/-!
# Checkout

`checkout.Service.Create` (checkout/service.go) with `pricing.Compute`, one step
for each statement. The order and its items are written in a transaction and
appear with its commit, so they are kept with the thread until then. The voucher
is evaluated once more, on the connection pool; a voucher that fails there costs
the discount but stays on the order. The address, the shipping option and the
notes are stored and read by nobody here.
-/
namespace TokoApi.Checkout

open Db Cart Lib.Threads Lib.Wrap

/-! ## pricing/engine.go -/

structure Summary where
  subtotal : Int
  discount : Int
  tax : Int
  shipping : Int
  total : Int
  deriving DecidableEq

def lineTotal (n : Int) (it : CartItem) : Int :=
  if it.qty ≤ 0 then n else int64 (n + int64 (it.qty * it.unitPrice))

def compute (items : List CartItem) (voucher taxBps shipping : Int) : Summary :=
  let subtotal := items.foldl lineTotal 0
  let discount := min voucher subtotal
  let taxable := max 0 (int64 (subtotal - discount))
  let tax := (int64 (taxable * taxBps)).tdiv 10000
  ⟨subtotal, discount, tax, shipping, int64 (taxable + tax + shipping)⟩

/-! ## Create -/

structure Service where
  cartSvc : Cart.Service
  taxBps : Int

structure Input where
  userID : Option String
  tenantID : Option String
  cartID : String
  shippingPrice : Int

structure Ids where
  tenant : Nat
  cart : Nat
  user : Nat
  deriving DecidableEq

inductive Pc where
  | beginTx
  | getCart
  | listItems (cart : Cart)
  | getCartAgain (cart : Cart) (items : List CartItem)
  | eval (cart : Cart) (items : List CartItem) (a : EvalArgs) (pc : EvalPc)
  | createOrder (cart : Cart) (items : List CartItem) (discount : Int)
  | createItem (order : Order) (done rest : List OrderItem)
  | commit (order : Order) (items : List OrderItem)
  | returned (r : Except String (Nat × OrderStatus))
  deriving DecidableEq

structure Thread where
  ids : Ids
  shippingPrice : Int
  pc : Pc
  deriving DecidableEq

def Thread.goto (t : Thread) (pc : Pc) : Thread := { t with pc := pc }

def Thread.fails (t : Thread) (err : String) : Thread := t.goto (.returned (.error err))

def parseIds (svc : Service) (r : Input) : Except String Ids :=
  let parse (what : String) (id : String) : Except String Nat :=
    match svc.cartSvc.toUUID id with
    | .error err => .error ("invalid " ++ what ++ " id: " ++ err)
    | .ok n => .ok n
  if r.userID.getD "" = "" then .error "user is required for checkout"
  else if r.cartID = "" then .error "cartId is required"
  else if r.tenantID.getD "" = "" then .error "tenant is required"
  else do
    let tenant ← parse "tenant" (r.tenantID.getD "")
    let cart ← parse "cart" r.cartID
    let user ← parse "user" (r.userID.getD "")
    return ⟨tenant, cart, user⟩

def start (svc : Service) (r : Input) : Thread :=
  match parseIds svc r with
  | .error err => ⟨⟨0, 0, 0⟩, r.shippingPrice, .returned (.error err)⟩
  | .ok ids => ⟨ids, r.shippingPrice, .beginTx⟩

/-- The voucher is evaluated where the cart carries a code. -/
def afterItems (cart : Cart) (items : List CartItem) : Pc :=
  if cart.appliedVoucherCode.getD "" = "" then .createOrder cart items 0 else .getCartAgain cart items

/-- An error of `EvaluateVoucher` counts as no discount. -/
def afterEval (cart : Cart) (items : List CartItem) (a : EvalArgs) : EvalPc → Pc
  | .returned (.ok (discount, _)) => .createOrder cart items discount
  | .returned (.error _) => .createOrder cart items 0
  | pc => .eval cart items a pc

def newOrder (svc : Service) (t : Thread) (cart : Cart) (items : List CartItem) (discount : Int) :
    Order :=
  let summary := compute items discount svc.taxBps (max 0 t.shippingPrice)
  { userID := some t.ids.user
    cartID := some t.ids.cart
    status := .pendingPayment
    pricingSubtotal := summary.subtotal
    pricingDiscount := summary.discount
    pricingTax := summary.tax
    pricingShipping := summary.shipping
    pricingTotal := summary.total
    appliedVoucherCode := cart.appliedVoucherCode
    tenantID := t.ids.tenant }

/-- The order's key is not known before the commit; `Db.createOrder` fills it in. -/
def newItem (it : CartItem) : OrderItem :=
  ⟨0, it.productID, it.variantID, it.qty, it.unitPrice, it.subtotal⟩

def afterItem (order : Order) (done : List OrderItem) : List OrderItem → Pc
  | [] => .commit order done
  | rest => .createItem order done rest

def checkoutStep (svc : Service) (s : Store) (t : Thread) (x : Call) : Option (Store × Thread) :=
  match t.pc, x with
  | .beginTx, .fail err => some (s, t.fails err)
  | .beginTx, .ok => some (s, t.goto .getCart)
  | .getCart, .fail err => some (s, t.fails err)
  | .getCart, .ok =>
    match getCartByID s t.ids.cart with
    | none => some (s, t.fails "no rows in result set")
    | some cart =>
      if cart.userID.any (· ≠ t.ids.user) then some (s, t.fails "cart does not belong to user")
      else some (s, t.goto (.listItems cart))
  | .listItems _, .fail err => some (s, t.fails err)
  | .listItems cart, .ok =>
    match listCartItems s t.ids.cart with
    | [] => some (s, t.fails "cart is empty")
    | items => some (s, t.goto (afterItems cart items))
  -- from here to the order the voucher service works on the pool
  | .getCartAgain cart items, .fail _ => some (s, t.goto (.createOrder cart items 0))
  | .getCartAgain cart items, .ok =>
    match getCartByID s t.ids.cart with
    | none => some (s, t.goto (.createOrder cart items 0))
    | some now =>
      let a : EvalArgs := ⟨t.ids.cart, now.userID, cart.appliedVoucherCode.getD ""⟩
      some (s, t.goto (afterEval cart items a (evalStart a)))
  | .eval cart items a pc, x =>
    (evalStep svc.cartSvc s a pc x).map fun pc' => (s, t.goto (afterEval cart items a pc'))
  | .createOrder _ _ _, .fail err => some (s, t.fails err)
  | .createOrder cart items discount, .ok =>
    some (s, t.goto (afterItem (newOrder svc t cart items discount) [] (items.map newItem)))
  | .createItem _ _ _, .fail err => some (s, t.fails err)
  | .createItem order done [], .ok => some (s, t.goto (.commit order done))
  | .createItem order done (it :: rest), .ok => some (s, t.goto (afterItem order (done ++ [it]) rest))
  | .commit _ _, .fail err => some (s, t.fails err)
  | .commit order items, .ok =>
    some (createOrder s order items, t.goto (.returned (.ok (s.nextID, order.status))))
  | .returned _, _ => none

/-! ## What one statement can do -/

variable {svc : Service} {s s' : Store} {t t' : Thread} {x : Call}

/-- The ways through `checkoutStep`, each with what its statement has found. -/
inductive Executes (svc : Service) (s : Store) (t : Thread) (x : Call) : Store → Pc → Prop where
  | fails (err : String) : Executes svc s t x s (.returned (.error err))
  | begins (hpc : t.pc = .beginTx) : Executes svc s t x s .getCart
  | getsCart {cart} (hpc : t.pc = .getCart) (hc : getCartByID s t.ids.cart = some cart) :
      Executes svc s t x s (.listItems cart)
  | listsItems {cart} (hpc : t.pc = .listItems cart) (hl : listCartItems s t.ids.cart ≠ []) :
      Executes svc s t x s (afterItems cart (listCartItems s t.ids.cart))
  /-- The voucher service does not get at the cart. -/
  | skipsVoucher {cart items} (hpc : t.pc = .getCartAgain cart items)
      (hc : x = .ok → getCartByID s t.ids.cart = none) :
      Executes svc s t x s (.createOrder cart items 0)
  | getsCartAgain {cart now : Cart} {items : List CartItem} (hpc : t.pc = .getCartAgain cart items)
      (hc : getCartByID s t.ids.cart = some now) :
      Executes svc s t x s (afterEval cart items
        ⟨t.ids.cart, now.userID, cart.appliedVoucherCode.getD ""⟩
        (evalStart ⟨t.ids.cart, now.userID, cart.appliedVoucherCode.getD ""⟩))
  | evaluates {cart items a pc pc'} (hpc : t.pc = .eval cart items a pc)
      (he : evalStep svc.cartSvc s a pc x = some pc') :
      Executes svc s t x s (afterEval cart items a pc')
  | creates {cart} {items : List CartItem} {discount}
      (hpc : t.pc = .createOrder cart items discount) (hx : x = .ok) :
      Executes svc s t x s (afterItem (newOrder svc t cart items discount) [] (items.map newItem))
  | createsItem {order done rest it} (hpc : t.pc = .createItem order done (it :: rest)) :
      Executes svc s t x s (afterItem order (done ++ [it]) rest)
  | createsNone {order done} (hpc : t.pc = .createItem order done []) :
      Executes svc s t x s (.commit order done)
  | commits {order : Order} {items} (hpc : t.pc = .commit order items) (hx : x = .ok) :
      Executes svc s t x (createOrder s order items) (.returned (.ok (s.nextID, order.status)))

/-- The quantities that the service has read and is going to write. -/
def Pc.quantities : Pc → List Int
  | .getCartAgain _ items | .eval _ items _ _ | .createOrder _ items _ => items.map CartItem.qty
  | .createItem _ done rest => (done ++ rest).map OrderItem.qty
  | .commit _ items => items.map OrderItem.qty
  | _ => []

def Pc.order : Pc → Option Order
  | .createItem order _ _ | .commit order _ => some order
  | _ => none

theorem afterItem_quantities (order : Order) (done rest : List OrderItem) :
    (afterItem order done rest).quantities = (done ++ rest).map OrderItem.qty := by
  unfold afterItem
  split
  · rw [List.append_nil]
    rfl
  · rfl

theorem afterItem_order (order : Order) (done rest : List OrderItem) :
    (afterItem order done rest).order = some order := by
  unfold afterItem
  split <;> rfl

/-- The lines that the service has read and not yet written. -/
def Pc.lines : Pc → Option (List CartItem)
  | .getCartAgain _ items | .eval _ items _ _ | .createOrder _ items _ => some items
  | _ => none

/-- The order and the items of the transaction, those that are still to be written
included. -/
def Pc.written : Pc → Option (Order × List OrderItem)
  | .createItem order done rest => some (order, done ++ rest)
  | .commit order items => some (order, items)
  | _ => none

def Pc.placed : Pc → Option Nat
  | .returned (.ok (id, _)) => some id
  | _ => none

theorem quantities_eq (pc : Pc) :
    pc.quantities = (pc.lines.getD []).map CartItem.qty ++
      (pc.written.elim [] Prod.snd).map OrderItem.qty := by
  cases pc <;> simp [Pc.quantities, Pc.lines, Pc.written]

theorem order_eq (pc : Pc) : pc.order = pc.written.map Prod.fst := by
  cases pc <;> rfl

theorem afterEval_lines (cart : Cart) (items : List CartItem) (a : EvalArgs) (pc : EvalPc) :
    (afterEval cart items a pc).lines = some items ∧ (afterEval cart items a pc).written = none ∧
      (afterEval cart items a pc).placed = none := by
  unfold afterEval
  split <;> exact ⟨rfl, rfl, rfl⟩

theorem afterItems_lines (cart : Cart) (items : List CartItem) :
    (afterItems cart items).lines = some items ∧ (afterItems cart items).written = none ∧
      (afterItems cart items).placed = none := by
  unfold afterItems
  split <;> exact ⟨rfl, rfl, rfl⟩

theorem afterItem_written (order : Order) (done rest : List OrderItem) :
    (afterItem order done rest).written = some (order, done ++ rest) ∧
      (afterItem order done rest).lines = none ∧ (afterItem order done rest).placed = none := by
  unfold afterItem
  split
  · exact ⟨by rw [List.append_nil]; rfl, rfl, rfl⟩
  · exact ⟨rfl, rfl, rfl⟩

/-- One statement, by what it does to the lines and the rows of the transaction. -/
inductive Progress (svc : Service) (s : Store) (t : Thread) (x : Call) : Store → Pc → Prop where
  | idle {pc : Pc} (hl : pc.lines = none) (hw : pc.written = none) (hp : pc.placed = none) :
      Progress svc s t x s pc
  | reads {cart} {pc : Pc} (hpc : t.pc = .listItems cart)
      (hl : pc.lines = some (listCartItems s t.ids.cart)) (hw : pc.written = none)
      (hp : pc.placed = none) : Progress svc s t x s pc
  | goes {pc : Pc} (hl : pc.lines = t.pc.lines) (hw : pc.written = t.pc.written)
      (hp : pc.placed = none) : Progress svc s t x s pc
  | creates {cart} {items : List CartItem} {discount}
      (hpc : t.pc = .createOrder cart items discount) :
      Progress svc s t x s (afterItem (newOrder svc t cart items discount) [] (items.map newItem))
  | commits {order : Order} {items} (hpc : t.pc = .commit order items) (hx : x = .ok) :
      Progress svc s t x (createOrder s order items) (.returned (.ok (s.nextID, order.status)))

variable (h : checkoutStep svc s t x = some (s', t'))
include h

theorem checkoutStep_executes :
    ∃ pc, t' = t.goto pc ∧ Executes svc s t x s' pc := by
  cases hpc : t.pc
  case eval cart items a pc =>
    simp only [checkoutStep, hpc] at h
    obtain ⟨pc', he, hpair⟩ := Option.map_eq_some_iff.mp h
    cases hpair
    exact ⟨_, rfl, .evaluates hpc he⟩
  all_goals cases x <;> simp only [checkoutStep, hpc] at h
  case getCart.ok =>
    split at h
    · cases h
      exact ⟨_, rfl, .fails _⟩
    · rename_i cart hcart
      split at h <;> cases h
      · exact ⟨_, rfl, .fails _⟩
      · exact ⟨_, rfl, .getsCart hpc hcart⟩
  case listItems.ok =>
    split at h <;> cases h
    · exact ⟨_, rfl, .fails _⟩
    · rename_i hne
      exact ⟨_, rfl, .listsItems hpc hne⟩
  case getCartAgain.ok =>
    split at h <;> cases h
    · rename_i hnone
      exact ⟨_, rfl, .skipsVoucher hpc fun _ => hnone⟩
    · rename_i now hnow
      exact ⟨_, rfl, .getsCartAgain hpc hnow⟩
  case createItem.ok order done rest =>
    cases rest <;> cases h
    · exact ⟨_, rfl, .createsNone hpc⟩
    · exact ⟨_, rfl, .createsItem hpc⟩
  all_goals cases h
  case beginTx.ok => exact ⟨_, rfl, .begins hpc⟩
  case getCartAgain.fail => exact ⟨_, rfl, .skipsVoucher hpc nofun⟩
  case createOrder.ok => exact ⟨_, rfl, .creates hpc rfl⟩
  case commit.ok => exact ⟨_, rfl, .commits hpc rfl⟩
  all_goals exact ⟨_, rfl, .fails _⟩

theorem checkoutStep_progress :
    ∃ pc, t' = t.goto pc ∧ Progress svc s t x s' pc := by
  obtain ⟨pc, rfl, he⟩ := checkoutStep_executes h
  refine ⟨pc, rfl, ?_⟩
  cases he with
  | fails | begins | getsCart => exact .idle rfl rfl rfl
  | @listsItems cart hpc hl =>
    obtain ⟨hlines, hw, hp⟩ := afterItems_lines cart (listCartItems s t.ids.cart)
    exact .reads hpc hlines hw hp
  | skipsVoucher hpc => exact .goes (by rw [hpc]; rfl) (by rw [hpc]; rfl) rfl
  | @getsCartAgain cart now items hpc =>
    obtain ⟨hl, hw, hp⟩ := afterEval_lines cart items
      ⟨t.ids.cart, now.userID, cart.appliedVoucherCode.getD ""⟩ (evalStart
        ⟨t.ids.cart, now.userID, cart.appliedVoucherCode.getD ""⟩)
    exact .goes (by rw [hl, hpc]; rfl) (by rw [hw, hpc]; rfl) hp
  | @evaluates cart items a _ pc' hpc =>
    obtain ⟨hl, hw, hp⟩ := afterEval_lines cart items a pc'
    exact .goes (by rw [hl, hpc]; rfl) (by rw [hw, hpc]; rfl) hp
  | creates hpc => exact .creates hpc
  | @createsItem order done rest it hpc =>
    obtain ⟨hw, hl, hp⟩ := afterItem_written order (done ++ [it]) rest
    refine .goes (by rw [hl, hpc]; rfl) ?_ hp
    rw [hw, hpc, List.append_assoc]
    rfl
  | createsNone hpc =>
    refine .goes (by rw [hpc]; rfl) ?_ rfl
    rw [hpc, Pc.written, Pc.written, List.append_nil]
  | commits hpc hx => exact .commits hpc hx

theorem checkoutStep_inv :
    s' = s ∨ ∃ order items, t.pc = .commit order items ∧ x = .ok ∧
      s' = createOrder s order items := by
  obtain ⟨pc, _, hprog⟩ := checkoutStep_progress h
  cases hprog with
  | commits hpc hx => exact .inr ⟨_, _, hpc, hx, rfl⟩
  | _ => exact .inl rfl

theorem checkoutStep_quantities {q : Int} (hq : q ∈ t'.pc.quantities) :
    q ∈ t.pc.quantities ∨ ∃ it ∈ s.cartItems, it.qty = q := by
  obtain ⟨pc, rfl, hprog⟩ := checkoutStep_progress h
  change q ∈ pc.quantities at hq
  cases hprog with
  | idle hl hw _ =>
    rw [quantities_eq, hl, hw] at hq
    cases hq
  | reads _ hl hw _ =>
    rw [quantities_eq, hl, hw] at hq
    obtain ⟨it, hit, rfl⟩ := List.mem_map.mp (by simpa using hq)
    exact .inr ⟨it, (List.mem_filter.mp ((List.mem_insertionSort _).mp hit)).1, rfl⟩
  | goes hl hw _ =>
    rw [quantities_eq, hl, hw, ← quantities_eq] at hq
    exact .inl hq
  | creates hpc =>
    rw [afterItem_quantities, List.nil_append, List.map_map] at hq
    rw [hpc]
    exact .inl hq
  | commits _ _ => cases hq

theorem checkoutStep_order {o : Order} (ho : t'.pc.order = some o) :
    t.pc.order = some o ∨ (o.cartID = some t.ids.cart ∧ o.tenantID = t.ids.tenant) := by
  obtain ⟨pc, rfl, hprog⟩ := checkoutStep_progress h
  change pc.order = some o at ho
  cases hprog with
  | idle _ hw _ | reads _ _ hw _ =>
    rw [order_eq, hw] at ho
    cases ho
  | goes _ hw _ =>
    rw [order_eq, hw, ← order_eq] at ho
    exact .inl ho
  | creates _ =>
    rw [afterItem_order] at ho
    cases ho
    exact .inr ⟨rfl, rfl⟩
  | commits _ _ => cases ho

theorem checkoutStep_ids : t'.ids = t.ids := by
  obtain ⟨pc, rfl, _⟩ := checkoutStep_progress h
  rfl

end TokoApi.Checkout
