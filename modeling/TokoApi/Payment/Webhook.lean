import TokoApi.Voucher.Settle

/-!
# The payment webhook

`payment.Webhook.Handle` (webhook.go) from the verified notification to the
answer, one step for each call to Redis or PostgreSQL. Everything between two
calls belongs to the step before it. The handler is wired as in cmd/api: a pool
is set, so the statements from `GetLatestPaymentByOrder` to the commit run in
one transaction, while `Voucher.Settle` runs on the pool outside of it.

A failed statement aborts the transaction for PostgreSQL. Where the handler
ignores the error (`InsertPaymentEvent`, the cancelling `UpdateOrderStatus`) the
next statement, or the commit, fails.

The caches and the event bus are told about the outcome and change no table;
they are left out.
-/
namespace TokoApi.Payment

open Db Voucher Lib.Text Lib.Threads

structure WebhookVerifyResult where
  orderID : String
  amount : Int
  status : String
  deriving DecidableEq

inductive Verdict where
  | error (err : String)
  | invalid
  | valid (r : WebhookVerifyResult)
  deriving DecidableEq

structure Request where
  provider : String
  signature : String
  body : String
  deriving DecidableEq

/-- The handler's fields, and the library functions it calls. -/
structure Webhook where
  providers : String → Option (Request → Verdict)
  replay : Bool
  replayTTL : Int
  voucher : Bool
  sha256Hex : String → String
  toUUID : String → Option Nat

/-- What the handler has read once it knows the order: `payment` and `order`. -/
structure Loaded where
  paymentID : Nat
  payment : Payment
  order : Order
  deriving DecidableEq

/-- The call that is made next, with the local variables it needs. -/
inductive Pc where
  | setNX
  | beginTx (orderID : Nat)
  | getPayment (orderID : Nat)
  | updatePayment (paymentID : Nat) (payment : Payment)
  | insertEvent (paymentID : Nat) (payment : Payment)
  | getOrder (paymentID : Nat) (payment : Payment)
  | updateOrder (l : Loaded)
  | listItems (l : Loaded)
  | decrement (l : Loaded) (variant : Nat) (qty : Int) (rest : List (Nat × Int))
  | settle (l : Loaded) (pc : SettlePc)
  | cancelOrder (l : Loaded)
  | commit (l : Loaded)
  | done (r : Response)
  deriving DecidableEq

structure Thread where
  key : String
  result : WebhookVerifyResult
  events : List PaymentEvent
  aborted : Bool
  pc : Pc
  deriving DecidableEq

namespace Thread

variable (t : Thread)

def newStatus : PaymentStatus := normaliseWebhookStatus t.result.status

def shouldSettle (payment : Payment) : Bool := t.newStatus = .paid && payment.status != .paid

def goto (pc : Pc) : Thread := { t with pc := pc }

@[simp] theorem goto_pc (pc : Pc) : (t.goto pc).pc = pc := rfl
@[simp] theorem goto_key (pc : Pc) : (t.goto pc).key = t.key := rfl
@[simp] theorem goto_aborted (pc : Pc) : (t.goto pc).aborted = t.aborted := rfl
@[simp] theorem goto_newStatus (pc : Pc) : (t.goto pc).newStatus = t.newStatus := rfl

end Thread

def settleArgs (l : Loaded) : SettleArgs where
  code := trimSpace (l.order.appliedVoucherCode.getD "")
  orderID := l.payment.orderID
  userID := l.order.userID
  amount := max 0 l.order.pricingDiscount

namespace Webhook

variable (h : Webhook)

def providerKey (r : Request) : String := toLower (trimSpace r.provider)

def replayKey (r : Request) : String := "wh:" ++ providerKey r ++ ":" ++ h.sha256Hex r.body

def afterReplay (r : WebhookVerifyResult) : Pc :=
  match h.toUUID r.orderID with
  | none => .done ⟨400, "INVALID_ORDER_ID", "invalid order identifier"⟩
  | some id => .beginTx id

def start (r : Request) : Thread :=
  match h.providers (providerKey r) with
  | none => ⟨"", ⟨"", 0, ""⟩, [], false, .done ⟨404, "PROVIDER_NOT_SUPPORTED", "unknown provider"⟩⟩
  | some verify =>
    match verify r with
    | .error err => ⟨"", ⟨"", 0, ""⟩, [], false, .done ⟨400, "WEBHOOK_INVALID", err⟩⟩
    | .invalid => ⟨"", ⟨"", 0, ""⟩, [], false,
        .done ⟨401, "INVALID_SIGNATURE", "signature verification failed"⟩⟩
    | .valid v => ⟨h.replayKey r, v, [], false,
        if h.replay ∧ 0 < h.replayTTL then .setNX else h.afterReplay v⟩

/-- `h.Voucher.Settle` is called for an order with a voucher code that is not
blank; otherwise, and when it has returned, the transaction is committed. -/
def afterStock (l : Loaded) : Pc :=
  if h.voucher ∧ (settleArgs l).code ≠ "" then .settle l (settleStart (settleArgs l)) else .commit l

def afterItems (l : Loaded) : List (Nat × Int) → Pc
  | [] => h.afterStock l
  | (variant, qty) :: rest => .decrement l variant qty rest

def afterOrder (t : Thread) (l : Loaded) : Pc :=
  match t.newStatus with
  | .paid => if t.shouldSettle l.payment then .updateOrder l else .commit l
  | .failed | .expired => if l.order.status = .pendingPayment then .cancelOrder l else .commit l
  | _ => .commit l

end Webhook

/-- The provider's amount is compared only when both amounts are known. -/
def amountMismatch (r : WebhookVerifyResult) (p : Payment) : Bool :=
  0 < r.amount &&
    match p.amount with
    | none => false
    | some a => a != r.amount

def abort (i : Nat) (s : Store) (t : Thread) (r : Response) : Option (Store × Thread) :=
  some (s.rollback i, t.goto (.done r))

def commitSettlement (i : Nat) (s : Store) (t : Thread) (l : Loaded) : Store :=
  { s.commit i with
    paymentEvents := s.paymentEvents ++ t.events
    settled := if t.shouldSettle l.payment then s.settled ++ [l.payment.orderID] else s.settled }

def webhookStep (h : Webhook) (i : Nat) (s : Store) (t : Thread) (x : Call) :
    Option (Store × Thread) :=
  match t.pc, x with
  | .setNX, .fail err => some (s, t.goto (.done ⟨500, "REPLAY_STORE_ERROR", err⟩))
  | .setNX, .ok =>
    match s.replay.setNX s.now h.replayTTL t.key with
    | (false, _) => some (s, t.goto (.done ⟨409, "REPLAY", "duplicate webhook"⟩))
    | (true, keys) => some ({ s with replay := keys }, t.goto (h.afterReplay t.result))
  | .beginTx _, .fail err => some (s, t.goto (.done ⟨500, "TX_ERROR", err⟩))
  | .beginTx id, .ok => some (s, t.goto (.getPayment id))
  | .getPayment _, .fail err => abort i s t ⟨500, "PAYMENT_FETCH_ERROR", err⟩
  | .getPayment id, .ok =>
    match getLatestPaymentByOrder i s id with
    | none => abort i s t ⟨404, "PAYMENT_NOT_FOUND", "payment not found"⟩
    | some (pid, p) =>
      if amountMismatch t.result p then
        abort i s t ⟨400, "AMOUNT_MISMATCH", "provider amount mismatch"⟩
      else some (s, t.goto (.updatePayment pid p))
  | .updatePayment _ _, .fail err => abort i s t ⟨500, "PAYMENT_UPDATE_ERROR", err⟩
  | .updatePayment pid p, .ok =>
    (updatePaymentStatus i s pid t.newStatus).map fun s' => (s', t.goto (.insertEvent pid p))
  | .insertEvent pid p, .fail _ => some (s, { t with aborted := true, pc := .getOrder pid p })
  | .insertEvent pid p, .ok =>
    some (s, { t with events := t.events ++ [⟨pid, t.newStatus⟩], pc := .getOrder pid p })
  | .getOrder _ _, .fail err => abort i s t ⟨500, "ORDER_FETCH_ERROR", err⟩
  | .getOrder pid p, .ok =>
    if t.aborted then abort i s t ⟨500, "ORDER_FETCH_ERROR", "current transaction is aborted"⟩
    else
      match getOrderByID i s p.orderID with
      | none => abort i s t ⟨500, "ORDER_FETCH_ERROR", "no rows in result set"⟩
      | some o => some (s, t.goto (Webhook.afterOrder t ⟨pid, p, o⟩))
  | .updateOrder _, .fail err => abort i s t ⟨500, "ORDER_UPDATE_ERROR", err⟩
  | .updateOrder l, .ok =>
    (updateOrderStatusTx i s l.payment.orderID .paid).map fun s' => (s', t.goto (.listItems l))
  | .listItems _, .fail err => abort i s t ⟨500, "ORDER_ITEMS_ERROR", err⟩
  | .listItems l, .ok =>
    some (s, t.goto (h.afterItems l (listOrderItemsForStock s l.payment.orderID)))
  | .decrement _ _ _ _, .fail err => abort i s t ⟨500, "STOCK_UPDATE_ERROR", err⟩
  | .decrement l variant qty rest, .ok =>
    (decrementVariantStock i s variant qty).map fun s' => (s', t.goto (h.afterItems l rest))
  | .settle l (.returned none), _ => some (s, t.goto (.commit l))
  | .settle _ (.returned (some err)), _ => abort i s t ⟨500, "VOUCHER_SETTLEMENT_FAILED", err⟩
  | .settle l pc, x =>
    (settleStep s (settleArgs l) pc x).map fun (s', pc') => (s', t.goto (.settle l pc'))
  -- the error is not reported, but it has aborted the transaction
  | .cancelOrder l, .fail _ => some (s, { t with aborted := true, pc := .commit l })
  | .cancelOrder l, .ok =>
    (updateOrderStatusTx i s l.payment.orderID .canceled).map fun s' => (s', t.goto (.commit l))
  | .commit _, .fail err => abort i s t ⟨500, "TX_COMMIT_ERROR", err⟩
  | .commit l, .ok =>
    if t.aborted then abort i s t ⟨500, "TX_COMMIT_ERROR", "commit unexpectedly resulted in rollback"⟩
    else some (commitSettlement i s t l, t.goto (.done noContent))
  | .done _, _ => none

def webhookMachine (h : Webhook) : Machine Store Thread Request Call Nat where
  start := h.start
  lstep := webhookStep h
  estep := tick

end TokoApi.Payment
