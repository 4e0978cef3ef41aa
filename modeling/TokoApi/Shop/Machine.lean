import TokoApi.Payment.Effects
import TokoApi.Payment.Intent
import TokoApi.Order.Handlers
import TokoApi.Shipping.Webhook
import TokoApi.Checkout.Create
import TokoApi.Cart.Effects

/-!
# The shop

All handlers that share the tables of the order flow, as one machine: requests of
every kind are in progress at once and their statements interleave in any order.
`Change` says, for the threads other than the payment webhook, what one statement
does to the shared store; the webhook has `Payment.Effect`.
-/
namespace TokoApi.Shop

open Db Lib.Redis Lib.Threads

structure Config where
  payment : Payment.Webhook
  intents : Payment.Service
  courier : Shipping.Webhook
  orders : Order.Library
  checkout : Checkout.Service

inductive Request where
  | payment (r : Payment.Request)
  | intent (a : Payment.IntentArgs)
  | courier (r : Shipping.WebhookRequest)
  | shipping (r : Shipping.Request)
  | cancel (r : Order.CancelRequest)
  | patch (r : Order.PatchRequest)
  | applyVoucher (r : Cart.ApplyRequest)
  | cart (r : Cart.Request)
  | checkout (r : Checkout.Input)

inductive Thread where
  | payment (t : Payment.Thread)
  | intent (a : Payment.IntentArgs) (pc : Payment.IntentPc)
  | courier (t : Shipping.WebhookThread)
  | shipping (t : Shipping.Thread)
  | cancel (pc : Order.CancelPc)
  | patch (pc : Order.PatchPc)
  | applyVoucher (r : Cart.ApplyRequest) (pc : Cart.ApplyPc)
  | cart (t : Cart.Thread)
  | checkout (t : Checkout.Thread)

variable (cfg : Config) {t t' : Thread}

def start : Request → Thread
  | .payment r => .payment (cfg.payment.start r)
  | .intent a => .intent a (Payment.intentStart cfg.intents a)
  | .courier r => .courier (cfg.courier.start r)
  | .shipping r => .shipping (Shipping.serviceStart r)
  | .cancel r => .cancel (Order.cancelStart cfg.orders r)
  | .patch r => .patch (Order.patchStart cfg.orders r)
  | .applyVoucher r => .applyVoucher r (Cart.applyStart cfg.checkout.cartSvc r)
  | .cart r => .cart (Cart.start cfg.checkout.cartSvc r)
  | .checkout r => .checkout (Checkout.start cfg.checkout r)

def shopStep (i : Nat) (s : Store) (t : Thread) (x : Call) : Option (Store × Thread) :=
  match t with
  | .payment u => (Payment.webhookStep cfg.payment i s u x).map fun p => (p.1, .payment p.2)
  | .intent a pc => (Payment.intentStep cfg.intents i s a pc x).map fun p => (p.1, .intent a p.2)
  | .courier u => (Shipping.webhookStep cfg.courier i s u x).map fun p => (p.1, .courier p.2)
  | .shipping u => (Shipping.serviceStep i s u x).map fun p => (p.1, .shipping p.2)
  | .cancel pc => (Order.cancelStep i s pc x).map fun p => (p.1, .cancel p.2)
  | .patch pc => (Order.patchStep i s pc x).map fun p => (p.1, .patch p.2)
  | .applyVoucher r pc =>
    (Cart.applyStep cfg.checkout.cartSvc s r pc x).map fun p => (p.1, .applyVoucher r p.2)
  | .cart u => (Cart.cartStep cfg.checkout.cartSvc s u x).map fun p => (p.1, .cart p.2)
  | .checkout u => (Checkout.checkoutStep cfg.checkout s u x).map fun p => (p.1, .checkout p.2)

def shopMachine : Machine Store Thread Request Call Nat where
  start := start cfg
  lstep := shopStep cfg
  estep := tick

abbrev State := Sys Store Thread

abbrev Label := Act Request Call Nat

/-! ## What one statement can do -/

def Thread.isPayment : Thread → Bool
  | .payment _ => true
  | _ => false

/-- The write to a cart or a line that the thread is about to execute. -/
def Thread.write (svc : Cart.Service) (now : Int) : Thread → Option Cart.Write
  | .applyVoucher _ pc => pc.write svc now
  | .cart u => u.write svc
  | _ => none

/-- A statement of a thread that is not a payment webhook. -/
inductive Change (cfg : Config) (s : Store) (t : Thread) (x : Call) : Store → Prop where
  /-- It leaves the tables alone that several handlers depend on. -/
  | own {s' : Store} (hs : s' = { s with
      nextID := s'.nextID, payments := s'.payments, paymentEvents := s'.paymentEvents,
      shipments := s'.shipments, shipmentEvents := s'.shipmentEvents })
      (hn : s.nextID ≤ s'.nextID) : Change cfg s t x s'
  | carted {s'} (ho : Cart.Outcome s (t.write cfg.checkout.cartSvc s.now) x s') :
      Change cfg s t x s'
  | guarded {id status b s'} (hu : updateOrderStatusIfAllowed s id status = some (s', b)) :
      Change cfg s t x s'
  | canceled {id s'} (ht : t = .cancel (.updateOrder id)) (hx : x = .ok)
      (hu : updateOrderStatus s id .canceled = some s') : Change cfg s t x s'
  | ordered {u : Checkout.Thread} {o items} (ht : t = .checkout u) (hpc : u.pc = .commit o items)
      (hx : x = .ok) : Change cfg s t x (createOrder s o items)
  | claimed {u : Shipping.WebhookThread} {keys} (ht : t = .courier u)
      (hk : s.replay.setNX s.now cfg.courier.replayTTL u.key = (true, keys)) :
      Change cfg s t x { s with replay := keys }

theorem Change.same {cfg : Config} {s : Store} {x : Call} : Change cfg s t x s :=
  .own rfl (Nat.le_refl _)

variable {cfg} {i : Nat} {s s' : Store} {x : Call}

theorem event_change {a : Shipping.EventArgs} {pc pc' : Shipping.EventPc}
    (h : Shipping.eventStep i s a pc x = some (s', pc')) : Change cfg s t x s' := by
  obtain hf | ⟨target, b, hu⟩ := Shipping.eventStep_inv h
  · exact .own (by rw [hf]) (Nat.le_of_eq (by rw [hf]))
  · exact .guarded hu

theorem courier_change {u u' : Shipping.WebhookThread}
    (h : Shipping.webhookStep cfg.courier i s u x = some (s', u')) :
    Change cfg s (.courier u) x s' := by
  cases hpc : u.pc with
  | setNX =>
    cases x <;> simp only [Shipping.webhookStep, hpc] at h
    · split at h
      · cases h
        exact .same
      · rename_i keys hk
        cases h
        exact .claimed rfl hk
    · cases h
      exact .same
  | append a pc =>
    simp only [Shipping.webhookStep, hpc] at h
    obtain ⟨⟨s₁, pc'⟩, hs, he⟩ := Option.map_eq_some_iff.mp h
    cases he
    exact event_change hs
  | done r =>
    simp only [Shipping.webhookStep, hpc] at h
    cases h

theorem step_change (h : shopStep cfg i s t x = some (s', t')) :
    (∃ u u', t = .payment u ∧ t' = .payment u' ∧ Payment.webhookStep cfg.payment i s u x =
        some (s', u')) ∨
      (t.isPayment = false ∧ t'.isPayment = false ∧ Change cfg s t x s') := by
  cases t <;> obtain ⟨u', hs, rfl⟩ := lifted_inv h
  case payment u => exact .inl ⟨u, u', rfl, rfl, hs⟩
  case intent a pc =>
    have hf := Payment.intentStep_frame hs
    exact .inr ⟨rfl, rfl, .own (by rw [hf.1]) hf.2⟩
  case courier u => exact .inr ⟨rfl, rfl, courier_change hs⟩
  case shipping u =>
    refine .inr ⟨rfl, rfl, ?_⟩
    obtain ⟨hf, hn⟩ | ⟨id, status, b, hu⟩ := Shipping.serviceStep_inv hs
    · exact .own (by rw [hf]) hn
    · exact .guarded hu
  case cancel pc =>
    refine .inr ⟨rfl, rfl, ?_⟩
    obtain rfl | ⟨o, rfl, hx, hu⟩ := Order.cancelStep_inv hs
    · exact .same
    · exact .canceled rfl hx hu
  case patch pc =>
    refine .inr ⟨rfl, rfl, ?_⟩
    obtain rfl | ⟨id, status, b, hu⟩ := Order.patchStep_inv hs
    · exact .same
    · exact .guarded hu
  case applyVoucher r pc =>
    exact .inr ⟨rfl, rfl, .carted (Cart.apply_outcome hs)⟩
  case cart u =>
    exact .inr ⟨rfl, rfl, .carted (Cart.step_write hs)⟩
  case checkout u =>
    refine .inr ⟨rfl, rfl, ?_⟩
    obtain rfl | ⟨o, items, hpc, hx, rfl⟩ := Checkout.checkoutStep_inv hs
    · exact .same
    · exact .ordered rfl hpc hx

/-- The changes as far as the orders, the replay keys and the settlement go. -/
inductive Touches (cfg : Config) (s : Store) (t : Thread) (x : Call) : Store → Prop where
  | beside {s' : Store} (hs : s' = { s with
      nextID := s'.nextID, payments := s'.payments, paymentEvents := s'.paymentEvents,
      shipments := s'.shipments, shipmentEvents := s'.shipmentEvents, carts := s'.carts,
      cartItems := s'.cartItems }) (hn : s.nextID ≤ s'.nextID) : Touches cfg s t x s'
  | status {id} {o : Order} {v} (hget : s.orders.get? id = some (.free o)) :
      Touches cfg s t x { s with orders := s.orders.set id (.free (o.withStatus v)) }
  | ordered {u : Checkout.Thread} {o items} (ht : t = .checkout u) (hpc : u.pc = .commit o items)
      (hx : x = .ok) : Touches cfg s t x (createOrder s o items)
  | claimed {u : Shipping.WebhookThread} {keys} (ht : t = .courier u)
      (hk : s.replay.setNX s.now cfg.courier.replayTTL u.key = (true, keys)) :
      Touches cfg s t x { s with replay := keys }

theorem Change.touches (h : Change cfg s t x s') : Touches cfg s t x s' := by
  cases h with
  | own hs hn => exact .beside (by rw [hs]) hn
  | carted ho => exact .beside (by rw [ho.frame.1]) ho.frame.2
  | guarded hu =>
    obtain ⟨rfl, _⟩ | ⟨o, hget, _, rfl⟩ := updateOrderStatusIfAllowed_inv hu
    · exact .beside rfl le_rfl
    · exact .status hget
  | canceled _ _ hu =>
    obtain ⟨rfl, _⟩ | ⟨o, hget, rfl⟩ := updateOrderStatus_inv hu
    · exact .beside rfl le_rfl
    · exact .status hget
  | ordered ht hpc hx => exact .ordered ht hpc hx
  | claimed ht hk => exact .claimed ht hk

/-- A statement leaves carts and lines alone, or it is one of the cart service. -/
inductive CartStep (s : Store) (w : Option Cart.Write) (x : Call) (s' : Store) : Prop where
  | kept (hw : w = none) (hc : s'.carts = s.carts) (hi : s'.cartItems = s.cartItems)
      (hn : s.nextID ≤ s'.nextID) (ht : s'.now = s.now)
  | outcome (h : Cart.Outcome s w x s')

theorem step_cart (h : shopStep cfg i s t x = some (s', t')) :
    CartStep s (t.write cfg.checkout.cartSvc s.now) x s' := by
  have hkept : ∀ {u : Thread}, u.write cfg.checkout.cartSvc s.now = none → Change cfg s u x s' →
      CartStep s (u.write cfg.checkout.cartSvc s.now) x s' := by
    intro u hw hc
    cases hc with
    | own hs hn => exact .kept hw (by rw [hs]) (by rw [hs]) hn (by rw [hs])
    | carted ho => exact .outcome ho
    | guarded hu =>
      obtain ⟨rfl, _⟩ | ⟨o, _, _, rfl⟩ := updateOrderStatusIfAllowed_inv hu <;>
        exact .kept hw rfl rfl le_rfl rfl
    | canceled _ _ hu =>
      obtain ⟨rfl, _⟩ | ⟨o, _, rfl⟩ := updateOrderStatus_inv hu <;>
        exact .kept hw rfl rfl le_rfl rfl
    | ordered => exact .kept hw rfl rfl (Nat.le_succ _) rfl
    | claimed _ _ => exact .kept hw rfl rfl le_rfl rfl
  cases t with
  | applyVoucher r pc =>
    obtain ⟨pc', hs, rfl⟩ := lifted_inv h
    exact .outcome (Cart.apply_outcome hs)
  | cart u =>
    obtain ⟨u', hs, rfl⟩ := lifted_inv h
    exact .outcome (Cart.step_write hs)
  | payment u =>
    obtain ⟨u', hs, rfl⟩ := lifted_inv h
    have he := Payment.step_effect hs
    exact .kept rfl he.frame.carts he.frame.cartItems (Nat.le_of_eq he.frame.nextID.symm) he.frame.now
  | _ =>
    obtain ⟨u, u', hu, _⟩ | ⟨_, _, hc⟩ := step_change h
    · cases hu
    · exact hkept rfl hc

/-! ## A small shop -/

def openOrder : Store :=
  { emptyStore with
    nextID := 8
    orders := ⟨[7], fun _ => .free ⟨some 1, none, .pendingPayment, 0, 0, 0, 0, 0, none, 0⟩⟩
    payments := ⟨[5], fun _ => .free ⟨7, .pending, none, 0, none⟩⟩ }

/-- A shop whose identifiers are decimal digits and whose provider sends the bare
status of order 7. -/
def plainShop : Config where
  payment :=
    { providers := fun name => if name = "plain" then some fun r => .valid ⟨"7", 0, r.body⟩ else none
      replay := true
      replayTTL := 3600
      voucher := true
      sha256Hex := id
      toUUID := fun id => if id = "7" then some 7 else none }
  intents := ⟨fun _ _ => .ok 0, 900, "", fun _ => .ok 7⟩
  courier := ⟨600, id, fun _ => none, fun _ => none, fun id => if id = "7" then some 7 else none⟩
  orders := ⟨fun id => if id = "7" then some 7 else if id = "1" then some 1 else none, some⟩
  checkout := ⟨⟨0, 0, none, fun _ => .error ""⟩, 0⟩

def request (i : Nat) (r : Request) (n : Nat) : List Label :=
  .spawn r :: List.replicate n (.act i .ok)

def paidNotice : Request := .payment ⟨"plain", "", "PAID"⟩

end TokoApi.Shop
