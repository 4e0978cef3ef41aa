import Mathlib.Data.List.Sort
import TokoApi.Lib.Rows
import TokoApi.Lib.Keys
import TokoApi.Db.Status

/-!
# Tables and queries of the shop

The tables the order flow reads and writes, with the columns that flow uses, and
the generated queries on them under their sqlc names. A primary key is a number,
a timestamp an integer. A query that takes the number `t` runs on behalf of
thread `t`: inside its transaction where the handler has opened one. `orders`,
`payments` and `product_variants` have rows that a transaction may hold locked;
the other tables are only written by statements that are their own transaction.

`settled` is not a table. It records, in commit order, the orders whose
settlement block has been committed.
-/
namespace TokoApi.Db

open Lib.Rows Lib.Redis

structure Order where
  userID : Option Nat
  cartID : Option Nat
  status : OrderStatus
  pricingSubtotal : Int
  pricingDiscount : Int
  pricingTax : Int
  pricingShipping : Int
  pricingTotal : Int
  appliedVoucherCode : Option String
  tenantID : Nat
  deriving DecidableEq

structure OrderItem where
  orderID : Nat
  productID : Nat
  variantID : Option Nat
  qty : Int
  unitPrice : Int
  subtotal : Int
  deriving DecidableEq

structure Payment where
  orderID : Nat
  status : PaymentStatus
  amount : Option Int
  createdAt : Int
  expiresAt : Option Int
  deriving DecidableEq

structure PaymentEvent where
  paymentID : Nat
  status : PaymentStatus
  deriving DecidableEq

structure Variant where
  productID : Nat
  price : Int
  stock : Int
  deriving DecidableEq

structure Product where
  title : String
  slug : String
  price : Int
  categoryID : Option Nat
  brandID : Option Nat
  tenantID : Nat
  deriving DecidableEq

inductive DiscountKind where
  | fixedAmount | percent
  deriving DecidableEq

structure Voucher where
  code : String
  kind : DiscountKind
  value : Int
  percentBps : Option Int
  minSpend : Int
  usageLimit : Option Int
  perUserLimit : Option Int
  usedCount : Int
  validFrom : Option Int
  validTo : Option Int
  productIds : List Nat
  categoryIds : List Nat
  brandIds : List Nat
  deriving DecidableEq

structure VoucherUsage where
  voucherID : Nat
  userID : Option Nat
  orderID : Nat
  amount : Int
  deriving DecidableEq

structure Cart where
  userID : Option Nat
  anonID : Option String
  appliedVoucherCode : Option String
  updatedAt : Int
  expiresAt : Option Int
  tenantID : Nat
  deriving DecidableEq

structure CartItem where
  id : Nat
  cartID : Nat
  productID : Nat
  variantID : Option Nat
  title : String
  slug : String
  qty : Int
  unitPrice : Int
  subtotal : Int
  deriving DecidableEq

structure Shipment where
  orderID : Nat
  status : ShipmentStatus
  courier : Option String
  trackingNumber : Option String
  lastStatus : Option ShipmentStatus
  lastEventAt : Option Int
  deriving DecidableEq

structure ShipmentEvent where
  shipmentID : Nat
  status : ShipmentStatus
  description : Option String
  location : Option String
  occurredAt : Int
  rawPayload : String
  deriving DecidableEq

structure Store where
  now : Int
  nextID : Nat
  orders : Table (Row Order)
  orderItems : List OrderItem
  payments : Table (Row Payment)
  paymentEvents : List PaymentEvent
  variants : Table (Row Variant)
  products : Table Product
  vouchers : Table Voucher
  usages : List VoucherUsage
  carts : Table Cart
  cartItems : List CartItem
  shipments : Table Shipment
  shipmentEvents : List ShipmentEvent
  replay : Keys String
  settled : List Nat

def emptyStore : Store where
  now := 0
  nextID := 0
  orders := ⟨[], fun _ => .free ⟨none, none, .pendingPayment, 0, 0, 0, 0, 0, none, 0⟩⟩
  orderItems := []
  payments := ⟨[], fun _ => .free ⟨0, .pending, none, 0, none⟩⟩
  paymentEvents := []
  variants := ⟨[], fun _ => .free ⟨0, 0, 0⟩⟩
  products := ⟨[], fun _ => ⟨"", "", 0, none, none, 0⟩⟩
  vouchers := ⟨[], fun _ => ⟨"", .fixedAmount, 0, none, 0, none, none, 0, none, none, [], [], []⟩⟩
  usages := []
  carts := ⟨[], fun _ => ⟨none, none, none, 0, none, 0⟩⟩
  cartItems := []
  shipments := ⟨[], fun _ => ⟨0, .pending, none, none, none, none⟩⟩
  shipmentEvents := []
  replay := .empty
  settled := []

/-- An answer of a handler: the status, and code and message of the error body. -/
structure Response where
  status : Nat
  code : String
  message : String
  deriving DecidableEq

def noContent : Response := ⟨204, "", ""⟩

variable (t : Nat) (s : Store)

def Store.commit : Store :=
  { s with
    orders := s.orders.mapRows (Row.commit t)
    payments := s.payments.mapRows (Row.commit t)
    variants := s.variants.mapRows (Row.commit t) }

def Store.rollback : Store :=
  { s with
    orders := s.orders.mapRows (Row.rollback t)
    payments := s.payments.mapRows (Row.rollback t)
    variants := s.variants.mapRows (Row.rollback t) }

def tick (d : Nat) : Option Store := some { s with now := s.now + d }

/-! ## orders.sql, orders_status.sql, orders_settlement.sql -/

/-- `CreateOrder` and its `CreateOrderItem`s, as the commit publishes them. -/
def createOrder (o : Order) (items : List OrderItem) : Store :=
  { s with
    nextID := s.nextID + 1
    orders := s.orders.insert s.nextID (.free o)
    orderItems := s.orderItems ++ items.map fun it => { it with orderID := s.nextID } }

def getOrderByID (id : Nat) : Option Order := (s.orders.get? id).map (Row.read t)

def getOrderByIDForUser (id user : Nat) : Option Order :=
  (getOrderByID t s id).filter fun o => o.userID = some user

def getOrderStatus (id : Nat) : Option OrderStatus := (getOrderByID t s id).map Order.status

def Order.withStatus (status : OrderStatus) (o : Order) : Order := { o with status := status }

@[simp] theorem Order.withStatus_status (status : OrderStatus) (o : Order) :
    (o.withStatus status).status = status := rfl

def updateOrderStatusTx (id : Nat) (status : OrderStatus) : Option Store :=
  (s.orders.modify id (Row.update t (Order.withStatus status))).map fun os => { s with orders := os }

def updateOrderStatus (id : Nat) (status : OrderStatus) : Option Store :=
  (s.orders.modify id (Row.updateNow (Order.withStatus status))).map fun os =>
    { s with orders := os }

/-- `UpdateOrderStatusIfAllowed`. The answer is false where pgx reports no rows.
A row whose committed version fails the WHERE clause is skipped without waiting
for its lock; one that passes it is waited for and tested again. -/
def updateOrderStatusIfAllowed (id : Nat) (status : OrderStatus) : Option (Store × Bool) :=
  match s.orders.get? id with
  | none => some (s, false)
  | some r =>
    if allowedOrderTransition r.committed.status status then
      (r.updateNow (Order.withStatus status)).map fun r' =>
        ({ s with orders := s.orders.set id r' }, true)
    else some (s, false)

theorem updateOrderStatus_inv {s s' : Store} {id : Nat} {status : OrderStatus}
    (h : updateOrderStatus s id status = some s') :
    (s' = s ∧ id ∉ s.orders.ids) ∨
      ∃ o, s.orders.get? id = some (.free o) ∧
        s' = { s with orders := s.orders.set id (.free (o.withStatus status)) } := by
  obtain ⟨os, hm, rfl⟩ := Option.map_eq_some_iff.mp h
  obtain ⟨hout, rfl⟩ | ⟨hin, r, hu, rfl⟩ := Table.modify_inv hm
  · exact .inl ⟨rfl, hout⟩
  · obtain ⟨hd, rfl⟩ := Row.updateNow_inv hu
    exact .inr ⟨_, Table.get?_eq_some.mpr ⟨hin, Row.eq_free hd⟩, rfl⟩

def Store.orderStatus (id : Nat) : Option OrderStatus :=
  (s.orders.get? id).map fun r => r.committed.status

/-- The guarded update keeps the store, or writes along an edge of the table to a
row that nobody has locked. -/
theorem updateOrderStatusIfAllowed_inv {s s' : Store} {id : Nat} {status : OrderStatus} {b : Bool}
    (h : updateOrderStatusIfAllowed s id status = some (s', b)) :
    (s' = s ∧ ∀ current ∈ s.orderStatus id, allowedOrderTransition current status = false) ∨
      ∃ o, s.orders.get? id = some (.free o) ∧ allowedOrderTransition o.status status = true ∧
        s' = { s with orders := s.orders.set id (.free (o.withStatus status)) } := by
  unfold updateOrderStatusIfAllowed at h
  cases hr : s.orders.get? id with
  | none =>
    simp only [hr, Option.some.injEq, Prod.mk.injEq] at h
    obtain ⟨rfl, _⟩ := h
    exact .inl ⟨rfl, by simp [Store.orderStatus, hr]⟩
  | some r =>
    simp only [hr] at h
    by_cases ha : allowedOrderTransition r.committed.status status = true
    · rw [if_pos ha] at h
      obtain ⟨r', hu, he⟩ := Option.map_eq_some_iff.mp h
      obtain ⟨hd, rfl⟩ := Row.updateNow_inv hu
      cases he
      exact .inr ⟨r.committed, congrArg some (Row.eq_free hd), ha, rfl⟩
    · rw [if_neg ha] at h
      cases h
      refine .inl ⟨rfl, fun current hc => ?_⟩
      simp only [Store.orderStatus, hr, Option.map_some, Option.mem_def, Option.some.injEq] at hc
      subst hc
      simpa using ha

/-- The variants and quantities of an order, for the items that have a variant. -/
def listOrderItemsForStock (id : Nat) : List (Nat × Int) :=
  s.orderItems.filterMap fun it =>
    if it.orderID = id then it.variantID.map fun v => (v, it.qty) else none

def Variant.decrement (qty : Int) (v : Variant) : Variant := { v with stock := max 0 (v.stock - qty) }

def decrementVariantStock (id : Nat) (qty : Int) : Option Store :=
  (s.variants.modify id (Row.update t (Variant.decrement qty))).map fun vs =>
    { s with variants := vs }

/-! ## payments.sql -/

/-- The key of the newest payment of an order: ORDER BY created_at DESC LIMIT 1.
SQL leaves the choice among equal timestamps open; here the first row wins. -/
def latestPaymentID (order : Nat) : Option Nat :=
  newest (fun id => (s.payments.row id).committed.createdAt)
    (s.payments.ids.filter fun id => (s.payments.row id).committed.orderID = order)

def getLatestPaymentByOrder (order : Nat) : Option (Nat × Payment) :=
  (latestPaymentID s order).map fun id => (id, (s.payments.row id).read t)

def createPayment (p : Payment) : Store :=
  { s with nextID := s.nextID + 1, payments := s.payments.insert s.nextID (.free p) }

def insertPaymentEvent (e : PaymentEvent) : Store :=
  { s with paymentEvents := s.paymentEvents ++ [e] }

def Payment.withStatus (status : PaymentStatus) (p : Payment) : Payment := { p with status := status }

@[simp] theorem Payment.withStatus_status (status : PaymentStatus) (p : Payment) :
    (p.withStatus status).status = status := rfl

def updatePaymentStatus (id : Nat) (status : PaymentStatus) : Option Store :=
  (s.payments.modify id (Row.update t (Payment.withStatus status))).map fun ps =>
    { s with payments := ps }

/-! ## vouchers.sql, voucher_rules.sql -/

def getVoucherByCode (code : String) : Option (Nat × Voucher) :=
  (s.vouchers.ids.find? fun id => (s.vouchers.row id).code = code).map fun id =>
    (id, s.vouchers.row id)

def countVoucherUsageByUser (voucher user : Nat) : Nat :=
  s.usages.countP fun u => u.voucherID = voucher ∧ u.userID = some user

def countVoucherUsage (voucher : Nat) : Nat := s.usages.countP fun u => u.voucherID = voucher

def hasVoucherUsage (voucher order : Nat) : Bool :=
  s.usages.any fun u => u.voucherID = voucher ∧ u.orderID = order

/-- ON CONFLICT (voucher_id, order_id) DO NOTHING. -/
def insertVoucherUsage (u : VoucherUsage) : Store :=
  if hasVoucherUsage s u.voucherID u.orderID then s else { s with usages := s.usages ++ [u] }

def Voucher.hasQuota (v : Voucher) : Bool :=
  match v.usageLimit with
  | none => true
  | some limit => v.usedCount < limit

def increaseVoucherUsedCount (id : Nat) : Store :=
  let v := s.vouchers.row id
  if id ∈ s.vouchers.ids ∧ v.hasQuota then
    { s with vouchers := s.vouchers.set id { v with usedCount := v.usedCount + 1 } }
  else s

/-! ## carts.sql, cart_items.sql -/

def noRows : String := "no rows in result set"

def getCartByID (id : Nat) : Option Cart := s.carts.get? id

/-- Without a tenant the column's constraint refuses the row. -/
def createCart (userID : Option Nat) (anonID : Option String) (expiresAt : Int)
    (tenantID : Option Nat) : Except String (Store × Nat × Cart) :=
  match tenantID with
  | none => .error ("ERROR: null value in column \"tenant_id\" of relation \"carts\" " ++
      "violates not-null constraint (SQLSTATE 23502)")
  | some tenant =>
    let cart : Cart := ⟨userID, anonID, none, s.now, some expiresAt, tenant⟩
    .ok ({ s with nextID := s.nextID + 1, carts := s.carts.insert s.nextID cart }, s.nextID, cart)

/-- Whether `now()` is before the expiry; a cart without one does not expire. -/
def Cart.active (now : Int) (c : Cart) : Bool := c.expiresAt.all (now < ·)

/-- ORDER BY updated_at DESC LIMIT 1 among the carts that have not expired. SQL
leaves the choice among equal timestamps open; here the first row wins. -/
def getActiveCart (p : Cart → Bool) : Option (Nat × Cart) :=
  (newest (fun id => (s.carts.row id).updatedAt)
    (s.carts.ids.filter fun id => p (s.carts.row id) && (s.carts.row id).active s.now)).map
      fun id => (id, s.carts.row id)

def getActiveCartByUser (user : Nat) : Option (Nat × Cart) :=
  getActiveCart s fun c => c.userID = some user

def getActiveCartByAnon (anon : String) : Option (Nat × Cart) :=
  getActiveCart s fun c => c.anonID = some anon

def updateCartVoucher (id : Nat) (code : Option String) : Store :=
  if id ∈ s.carts.ids then
    let cart := { s.carts.row id with appliedVoucherCode := code, updatedAt := s.now }
    { s with carts := s.carts.set id cart }
  else s

def touchCart (id : Nat) (expiresAt : Int) : Store :=
  if id ∈ s.carts.ids then
    let cart := { s.carts.row id with updatedAt := s.now, expiresAt := some expiresAt }
    { s with carts := s.carts.set id cart }
  else s

def transferCartToUser (id user : Nat) : Store :=
  if id ∈ s.carts.ids then
    let cart := { s.carts.row id with userID := some user, anonID := none, updatedAt := s.now }
    { s with carts := s.carts.set id cart }
  else s

/-- ORDER BY title ASC, id; titles are compared by code point. -/
def CartItem.precedes (a b : CartItem) : Bool :=
  a.title < b.title || (a.title = b.title && a.id ≤ b.id)

def listCartItems (cart : Nat) : List CartItem :=
  (s.cartItems.filter fun it => it.cartID = cart).insertionSort fun a b => a.precedes b

/-- LIMIT 1 without an order leaves the choice open; here the first row wins. -/
def findCartItemByProductVariant (cart product : Nat) (variant : Option Nat) : Option CartItem :=
  s.cartItems.find? fun it =>
    it.cartID = cart && it.productID = product && it.variantID = variant

def getCartItemByID (id : Nat) : Option CartItem := s.cartItems.find? fun it => it.id = id

def qtyViolation : String :=
  "ERROR: new row for relation \"cart_items\" violates check constraint " ++
    "\"cart_items_qty_check\" (SQLSTATE 23514)"

def cartViolation : String :=
  "ERROR: insert or update on table \"cart_items\" violates foreign key constraint " ++
    "\"cart_items_cart_id_fkey\" (SQLSTATE 23503)"

/-- The database gives the new line its key. -/
def createCartItem (it : CartItem) : Except String Store :=
  if it.qty ≤ 0 then .error qtyViolation
  else if it.cartID ∉ s.carts.ids then .error cartViolation
  else .ok { s with
    nextID := s.nextID + 1
    cartItems := s.cartItems ++ [{ it with id := s.nextID }] }

def CartItem.setQty (id : Nat) (qty subtotal : Int) (it : CartItem) : CartItem :=
  if it.id = id then { it with qty := qty, subtotal := subtotal } else it

def updateCartItemQty (id : Nat) (qty subtotal : Int) : Except String Store :=
  match getCartItemByID s id with
  | none => .error noRows
  | some _ =>
    if qty ≤ 0 then .error qtyViolation
    else .ok { s with cartItems := s.cartItems.map (CartItem.setQty id qty subtotal) }

def deleteCartItem (id cart : Nat) : Store :=
  { s with cartItems := s.cartItems.filter fun it => ¬ (it.id = id ∧ it.cartID = cart) }

/-! ## shipments.sql -/

def getShipmentByOrder (order : Nat) : Option (Nat × Shipment) :=
  (s.shipments.ids.find? fun id => (s.shipments.row id).orderID = order).map fun id =>
    (id, s.shipments.row id)

def createShipment (shipment : Shipment) : Store :=
  { s with nextID := s.nextID + 1, shipments := s.shipments.insert s.nextID shipment }

/-- The answer is false where pgx reports no rows. -/
def updateShipmentStatus (id : Nat) (status : ShipmentStatus) : Store × Bool :=
  if id ∈ s.shipments.ids then
    let row := { s.shipments.row id with
      status := status, lastStatus := some status, lastEventAt := some s.now }
    ({ s with shipments := s.shipments.set id row }, true)
  else (s, false)

def insertShipmentEvent (e : ShipmentEvent) : Store :=
  { s with shipmentEvents := s.shipmentEvents ++ [e] }

end TokoApi.Db
