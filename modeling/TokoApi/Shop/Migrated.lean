import TokoApi.Db.Schema
import TokoApi.Payment.OneOpen
import TokoApi.Shipping.Forward
import TokoApi.Shop.StatusEdges

/-!
# The shop against the migrated schema

`CreatePayment` and `CreateShipment` name no `tenant_id`. Whether a call that has found
nothing to object to stores its row is therefore a matter of the schema: it does exactly
when the table has no NOT NULL column without a default that the INSERT leaves out. The
last migration makes `tenant_id` such a column, so no payment and no shipment is stored
after it. The rows from before keep the tenant that the migration gave them, which is the
tenant of their orders.
-/
namespace TokoApi.Shop

open Db Lib.Rows Lib.Threads Lib.Runs

/-- The table and the columns of the INSERT that the thread is about to execute, as far as
payments and shipments go. -/
def Thread.insertion : Thread → Option (String × List String)
  | .intent _ (.createPayment _ _ _) => some ("payments", createPaymentColumns)
  | .shipping (.create _ .createShipment) => some ("shipments", createShipmentColumns)
  | _ => none

/-- How the next statement ends if nothing fails but a constraint of the schema. -/
def Thread.answer (d : Schema) (t : Thread) : Call :=
  match t.insertion with
  | none => .ok
  | some (table, given) => d.answer table given

def later (s : Store) (delay : Nat) : Store := { s with now := s.now + delay }

theorem later_later (s : Store) (j k : Nat) : later (later s j) k = later s (j + k) := by
  simp only [later, Int.natCast_add, Int.add_assoc]

/-- One call on its own: time passes, then the next statement meets the schema. -/
def calling (cfg : Config) (d : Schema) (i : Nat) (p : Store × Thread) (delay : Nat) :
    Option (Store × Thread) :=
  shopStep cfg i (later p.1 delay) p.2 (p.2.answer d)

/-- `CreateIntent` finds nothing to object to: the order waits for its payment, the latest
payment is neither paid nor reusable, and the provider answers. -/
structure Payable (svc : Payment.Service) (i : Nat) (s : Store) (a : Payment.IntentArgs)
    (id : Nat) : Prop where
  uuid : svc.toUUID a.orderID = .ok id
  order : ∃ o, getOrderByID i s id = some o ∧ o.status = .pendingPayment ∧
    (0 < a.amount → a.amount = o.pricingTotal)
  payments : ∀ pid p, getLatestPaymentByOrder i s id = some (pid, p) →
    p.status ≠ .paid ∧ Payment.reusable p s.now = false
  provider : ∀ r now, ∃ expiry, svc.createIntent r now = .ok expiry
  fresh : ∀ pid ∈ s.payments.ids, pid < s.nextID

/-- The order is PAID or PACKED, nobody has it locked, and it has no shipment. -/
structure Shippable (s : Store) (id : Nat) : Prop where
  order : ∃ o, s.orders.get? id = some (.free o) ∧ (o.status = .paid ∨ o.status = .packed)
  shipments : getShipmentByOrder s id = none
  fresh : ∀ k ∈ s.shipments.ids, k < s.nextID

def StoresPayment (s s' : Store) (order : Nat) : Prop :=
  ∃ id ∈ s'.payments.ids, id ∉ s.payments.ids ∧
    (s'.payments.row id).committed.orderID = order ∧
    (s'.payments.row id).committed.status = .pending

def StoresShipment (s s' : Store) (order : Nat) : Prop :=
  ∃ id ∈ s'.shipments.ids, id ∉ s.shipments.ids ∧ (s'.shipments.row id).orderID = order

/-! ## CreateIntent -/

section

variable {cfg : Config} {d : Schema} {i id k : Nat} {s s' : Store} {delays : Nat → Nat}

theorem calling_free {t : Thread} (h : t.insertion = none) :
    calling cfg d i (s, t) k = shopStep cfg i (later s k) t .ok := by
  rw [calling, Thread.answer, h]

section

variable {a : Payment.IntentArgs}

theorem intent_start (h : Payable cfg.intents i s a id) :
    start cfg (.intent a) = .intent a (.getOrder id) := by
  simp only [start, Payment.intentStart, h.uuid]

theorem intent_getOrder {o : Order} (hget : getOrderByID i s id = some o)
    (hstatus : o.status = .pendingPayment) (hamount : 0 < a.amount → a.amount = o.pricingTotal) :
    calling cfg d i (s, .intent a (.getOrder id)) k =
      some (later s k, .intent a (.getPayment id o.pricingTotal)) := by
  have hread : getOrderByID i (later s k) id = some o := hget
  have hagrees : ¬(0 < a.amount ∧ a.amount ≠ o.pricingTotal) := fun h => h.2 (hamount h.1)
  rw [calling_free rfl]
  simp only [shopStep, Payment.intentStep, hread, hstatus, ne_eq, not_true_eq_false, if_false,
    if_neg hagrees, Option.map_some]

theorem intent_opens (h : Payable cfg.intents i s a id) (e now : Int) :
    ∃ at_, Payment.openIntent cfg.intents a id e now = .createPayment id e at_ := by
  unfold Payment.openIntent
  dsimp only
  obtain ⟨expiry, hexpiry⟩ := h.provider ⟨a.orderID, e, a.channel, cfg.intents.ttl,
    if a.cbBase = "" then cfg.intents.callbackBaseURL else a.cbBase⟩ now
  rw [hexpiry]
  exact ⟨_, rfl⟩

theorem intent_getPayment {j : Nat} (h : Payable cfg.intents i s a id) (e : Int) :
    ∃ at_, calling cfg d i (later s j, .intent a (.getPayment id e)) k =
      some (later s (j + k), .intent a (.createPayment id e at_)) := by
  obtain ⟨at_, hopens⟩ := intent_opens h e (later s (j + k)).now
  refine ⟨at_, ?_⟩
  have hread : getLatestPaymentByOrder i (later s (j + k)) id = getLatestPaymentByOrder i s id := rfl
  rw [calling_free rfl]
  simp only [shopStep, Payment.intentStep, later_later, hread]
  cases hget : getLatestPaymentByOrder i s id with
  | none => simp only [hopens, Option.map_some]
  | some q =>
    obtain ⟨hunpaid, hused⟩ := h.payments q.1 q.2 hget
    have hlater : ¬Payment.reusable q.2 (later s (j + k)).now = true := by
      intro hopen
      rw [Payment.reusable_of_later hopen] at hused
      cases hused
    simp only [if_neg hunpaid, if_neg hlater, hopens, Option.map_some]

theorem intent_stored {p : Payment} {e at_ : Int}
    (hp : p = ⟨id, .pending, some e, (later s k).now, some at_⟩)
    (hmissing : d.missing "payments" createPaymentColumns = none) :
    calling cfg d i (s, .intent a (.createPayment id e at_)) k =
      some (createPayment (later s k) p, .intent a (.insertEvent p s.nextID)) := by
  subst hp
  simp only [calling, Thread.answer, Thread.insertion, Schema.answer, hmissing, shopStep,
    Payment.intentStep, Option.map_some]
  rfl

theorem intent_refused {e at_ : Int} {column : String}
    (hmissing : d.missing "payments" createPaymentColumns = some column) :
    calling cfg d i (s, .intent a (.createPayment id e at_)) k =
      some (later s k, .intent a (.returned (.error (notNullViolation column "payments")))) := by
  simp only [calling, Thread.answer, Thread.insertion, Schema.answer, hmissing, shopStep,
    Payment.intentStep, Option.map_some]

theorem intent_insertEvent {p : Payment} {pid : Nat} :
    calling cfg d i (s, .intent a (.insertEvent p pid)) k =
      some (insertPaymentEvent (later s k) ⟨pid, .pending⟩, .intent a (.returned (.ok p))) := by
  rw [calling_free rfl]
  simp only [shopStep, Payment.intentStep, Option.map_some]

theorem intent_returns (h : Payable cfg.intents i s a id) (delays : Nat → Nat) :
    ∃ n s' r, run (calling cfg d i) (s, start cfg (.intent a)) ((List.range n).map delays) =
        some (s', .intent a (.returned r)) ∧
      (StoresPayment s s' id ↔ d.missing "payments" createPaymentColumns = none) := by
  obtain ⟨o, hget, hstatus, hamount⟩ := h.order
  obtain ⟨at_, hsecond⟩ := intent_getPayment (d := d) (j := delays 0) (k := delays 1) h o.pricingTotal
  have hrun : ∀ ls, run (calling cfg d i) (s, start cfg (.intent a)) (delays 0 :: delays 1 :: ls) =
      run (calling cfg d i) (later s (delays 0 + delays 1),
        .intent a (.createPayment id o.pricingTotal at_)) ls := by
    intro ls
    rw [intent_start h, run_step (intent_getOrder hget hstatus hamount), run_step hsecond]
  cases hmissing : d.missing "payments" createPaymentColumns with
  | none =>
    have hlast := hrun [delays 2, delays 3]
    rw [run_step (intent_stored rfl hmissing), run_step intent_insertEvent] at hlast
    refine ⟨4, _, _, hlast, iff_of_true ?_ rfl⟩
    refine ⟨s.nextID, ?_, fun hold => Nat.lt_irrefl _ (h.fresh _ hold), ?_, ?_⟩ <;>
      simp [insertPaymentEvent, createPayment, Table.insert, later]
  | some column =>
    have hlast := hrun [delays 2]
    rw [run_step (intent_refused hmissing)] at hlast
    refine ⟨3, _, _, hlast, iff_of_false ?_ (by simp)⟩
    rintro ⟨pid, hin, hnew, _⟩
    exact hnew hin

end

/-! ## Create -/

section

variable {a : Shipping.CreateArgs}

theorem ship_getOrder {o : Order} (hget : s.orders.get? a.orderID = some (.free o))
    (hstatus : o.status = .paid ∨ o.status = .packed) :
    calling cfg d i (s, .shipping (.create a .getOrder)) k =
      some (later s k, .shipping (.create a .getShipment)) := by
  have hread : getOrderByID i (later s k) a.orderID = some o := by
    simp only [getOrderByID, later, hget, Option.map_some]
    rfl
  have heligible : ¬(o.status ≠ .paid ∧ o.status ≠ .packed) := by
    rintro ⟨hpaid, hpacked⟩
    exact hstatus.elim hpaid hpacked
  rw [calling_free rfl]
  simp only [shopStep, Shipping.serviceStep, Shipping.createStep, hread, if_neg heligible,
    Option.map_some]

theorem ship_getShipment (hnone : getShipmentByOrder s a.orderID = none) :
    calling cfg d i (s, .shipping (.create a .getShipment)) k =
      some (later s k, .shipping (.create a .createShipment)) := by
  have hread : getShipmentByOrder (later s k) a.orderID = none := hnone
  rw [calling_free rfl]
  simp only [shopStep, Shipping.serviceStep, Shipping.createStep, hread, Option.map_some]

theorem ship_stored (hmissing : d.missing "shipments" createShipmentColumns = none) :
    calling cfg d i (s, .shipping (.create a .createShipment)) k =
      some (createShipment (later s k) (a.shipment (later s k).now),
        .shipping (.create a (.updateOrder (a.shipment (later s k).now)))) := by
  simp only [calling, Thread.answer, Thread.insertion, Schema.answer, hmissing, shopStep,
    Shipping.serviceStep, Shipping.createStep, Option.map_some]

theorem ship_refused {column : String}
    (hmissing : d.missing "shipments" createShipmentColumns = some column) :
    calling cfg d i (s, .shipping (.create a .createShipment)) k =
      some (later s k, .shipping (.create a (.returned (.error (.store
        (notNullViolation column "shipments")))))) := by
  simp only [calling, Thread.answer, Thread.insertion, Schema.answer, hmissing, shopStep,
    Shipping.serviceStep, Shipping.createStep, Option.map_some]

theorem ship_updateOrder {o : Order} {shipment : Shipment}
    (hget : s.orders.get? a.orderID = some (.free o)) :
    ∃ s', s'.shipments = s.shipments ∧
      calling cfg d i (s, .shipping (.create a (.updateOrder shipment))) k =
        some (s', .shipping (.create a (.returned (.ok shipment)))) := by
  have hget' : (later s k).orders.get? a.orderID = some (.free o) := hget
  obtain ⟨⟨s', b⟩, hu⟩ : ∃ q, updateOrderStatusIfAllowed (later s k) a.orderID .packed = some q := by
    unfold updateOrderStatusIfAllowed
    rw [hget']
    dsimp only
    split
    · exact ⟨_, rfl⟩
    · exact ⟨_, rfl⟩
  refine ⟨s', (Shipping.orders_quiet hu).1, ?_⟩
  rw [calling_free rfl]
  simp only [shopStep, Shipping.serviceStep, Shipping.createStep, hu, Option.map_some]

theorem ship_returns (h : Shippable s a.orderID) (delays : Nat → Nat) :
    ∃ n s' r, run (calling cfg d i) (s, start cfg (.shipping (.create a)))
        ((List.range n).map delays) = some (s', .shipping (.create a (.returned r))) ∧
      (StoresShipment s s' a.orderID ↔
        d.missing "shipments" createShipmentColumns = none) := by
  obtain ⟨o, hget, hstatus⟩ := h.order
  have hnone : getShipmentByOrder (later s (delays 0)) a.orderID = none := h.shipments
  have hrun : ∀ ls, run (calling cfg d i) (s, start cfg (.shipping (.create a)))
        (delays 0 :: delays 1 :: ls) =
      run (calling cfg d i) (later s (delays 0 + delays 1),
        .shipping (.create a .createShipment)) ls := by
    intro ls
    have hstart : start cfg (.shipping (.create a)) = .shipping (.create a .getOrder) := rfl
    rw [hstart, run_step (ship_getOrder hget hstatus), run_step (ship_getShipment hnone),
      later_later]
  cases hmissing : d.missing "shipments" createShipmentColumns with
  | none =>
    have hlast := hrun [delays 2, delays 3]
    rw [run_step (ship_stored hmissing)] at hlast
    obtain ⟨s', hshipments, hfourth⟩ := ship_updateOrder
      (s := createShipment (later (later s (delays 0 + delays 1)) (delays 2)) _) hget
    rw [run_step hfourth] at hlast
    refine ⟨4, s', _, hlast, iff_of_true ?_ rfl⟩
    refine ⟨s.nextID, ?_, fun hold => Nat.lt_irrefl _ (h.fresh _ hold), ?_⟩ <;>
      simp [hshipments, createShipment, Table.insert, later, Shipping.CreateArgs.shipment]
  | some column =>
    have hlast := hrun [delays 2]
    rw [run_step (ship_refused hmissing)] at hlast
    refine ⟨3, _, _, hlast, iff_of_false ?_ (by simp)⟩
    rintro ⟨k, hin, hnew, _⟩
    exact hnew hin

end

end

/-! ## The tenant of a row -/

/-- `tenant_id` in a table whose rows were `ids` when the last migration ran. It gave them
the default tenant. No statement of the program names the column, so it is NULL in a row
that is inserted later. -/
def tenantColumn (ids : List Nat) (default id : Nat) : Option Nat :=
  if id ∈ ids then some default else none

def tenantOfOrder (s : Store) (id : Nat) : Option Nat :=
  (s.orders.get? id).map fun r => r.committed.tenantID

/-- Payments and shipments have the tenant of their order, for tables that the migration
found as in `s₀`. -/
structure UnderOrder (default : Nat) (s₀ s : Store) : Prop where
  payments : ∀ id ∈ s.payments.ids,
    ∃ tenant ∈ tenantOfOrder s (s.payments.row id).committed.orderID,
      tenantColumn s₀.payments.ids default id = some tenant
  shipments : ∀ id ∈ s.shipments.ids, ∃ tenant ∈ tenantOfOrder s (s.shipments.row id).orderID,
    tenantColumn s₀.shipments.ids default id = some tenant

/-- The store after the last migration, with no transaction open: the orders have the
default tenant, and the foreign keys hold. -/
structure Backfilled (default : Nat) (s : Store) : Prop where
  ready : Ready s
  tenants : ∀ id ∈ s.orders.ids, (s.orders.row id).committed.tenantID = default
  unlocked : ∀ id, (s.payments.row id).draft = none
  payments : ∀ id ∈ s.payments.ids, (s.payments.row id).committed.orderID ∈ s.orders.ids
  shipments : ∀ id ∈ s.shipments.ids, (s.shipments.row id).orderID ∈ s.orders.ids

/-- An INSERT that the schema refuses does not succeed. -/
def Obeys (d : Schema) (c : State) : Label → Prop
  | .act i .ok => ∀ t ∈ c.threads[i]?, t.answer d = .ok
  | _ => True

instance (d : Schema) (c : State) (l) : Decidable (Obeys d c l) := by
  rcases l with _ | ⟨_, _ | _⟩ | _ <;> dsimp only [Obeys] <;> infer_instance

section

variable {cfg : Config} {d : Schema} {default i : Nat} {s s' s₀ : Store} {t t' : Thread} {x : Call}
  {c c' : State} {l : Label}

/-- What the migrated schema leaves of a statement: no row is added to the two tables, and
rows stay with their order. -/
structure RowsKept (i : Nat) (s s' : Store) : Prop where
  paymentIDs : s'.payments.ids = s.payments.ids
  payments : ∀ id, Row.Access i Payment.StatusUpdate (s.payments.row id) (s'.payments.row id)
  shipmentIDs : s'.shipments.ids = s.shipments.ids
  shipments : ∀ id, (s'.shipments.row id).orderID = (s.shipments.row id).orderID

theorem rowsKept_of_eq (hp : s'.payments = s.payments) (hs : s'.shipments = s.shipments) :
    RowsKept i s s' := by
  refine ⟨by rw [hp], ?_, by rw [hs], ?_⟩
  · rw [hp]
    exact fun _ => .same
  · rw [hs]
    exact fun _ => rfl

theorem rowsKept_guarded {id : Nat} {status : OrderStatus} {b : Bool}
    (hu : updateOrderStatusIfAllowed s id status = some (s', b)) : RowsKept i s s' := by
  obtain ⟨rfl, _⟩ | ⟨o, _, _, rfl⟩ := updateOrderStatusIfAllowed_inv hu <;>
    exact rowsKept_of_eq rfl rfl

theorem updateShipmentStatus_kept (id k : Nat) (status : ShipmentStatus) :
    (updateShipmentStatus s id status).1.shipments.ids = s.shipments.ids ∧
      ((updateShipmentStatus s id status).1.shipments.row k).orderID =
        (s.shipments.row k).orderID := by
  by_cases hid : id ∈ s.shipments.ids
  · rw [Shipping.updateShipmentStatus_shipments status hid]
    refine ⟨rfl, ?_⟩
    by_cases hk : k = id
    · rw [hk, Table.set_row_self]
    · rw [Table.set_row_ne _ _ hk]
  · simp [updateShipmentStatus, hid]

theorem rowsKept_shipment {u u' : Shipping.Thread} (he : Shipping.ShipmentEffect s u x s' u')
    (hp : s'.payments = s.payments)
    (hx : x = .ok → ∀ a, u ≠ .create a .createShipment) : RowsKept i s s' := by
  cases he with
  | quiet hs _ _ _ => exact rowsKept_of_eq hp hs
  | creates a ht hok _ _ => exact absurd ht (hx hok a)
  | updates a id _ _ _ _ hs _ =>
    refine ⟨by rw [hp], fun k => by rw [hp]; exact .same, ?_, fun k => ?_⟩
    · rw [hs]
      exact (updateShipmentStatus_kept id 0 a.status).1
    · rw [hs]
      exact (updateShipmentStatus_kept id k a.status).2

theorem event_payments {a : Shipping.EventArgs} {pc pc' : Shipping.EventPc}
    (h : Shipping.eventStep i s a pc x = some (s', pc')) : s'.payments = s.payments := by
  obtain hf | ⟨target, b, hu⟩ := Shipping.eventStep_inv h
  · rw [hf]
  · obtain ⟨rfl, _⟩ | ⟨o, _, _, rfl⟩ := updateOrderStatusIfAllowed_inv hu <;> rfl

theorem rowsKept_courier {u u' : Shipping.WebhookThread}
    (h : Shipping.webhookStep cfg.courier i s u x = some (s', u')) : RowsKept i s s' := by
  cases hpc : u.pc with
  | setNX =>
    cases x <;> simp only [Shipping.webhookStep, hpc] at h
    · split at h <;> cases h <;> exact rowsKept_of_eq rfl rfl
    · cases h
      exact rowsKept_of_eq rfl rfl
  | append a pc =>
    simp only [Shipping.webhookStep, hpc] at h
    obtain ⟨⟨s₁, pc'⟩, hs, he⟩ := Option.map_eq_some_iff.mp h
    cases he
    exact rowsKept_shipment (Shipping.eventStep_shipments hs) (event_payments hs) (by simp)
  | done r =>
    simp only [Shipping.webhookStep, hpc] at h
    cases h

theorem rowsKept_step (h : shopStep cfg i s t x = some (s', t'))
    (hx : x = .ok → t.insertion = none) : RowsKept i s s' := by
  cases t <;> obtain ⟨u', hs, rfl⟩ := lifted_inv h
  case payment u =>
    have he := Payment.step_effect hs
    have hrows := Payment.payment_effect he
    refine ⟨hrows.ids, hrows.access, ?_, ?_⟩ <;> rw [he.frame.shipments]
    exact fun _ => rfl
  case intent a pc =>
    have hships : s'.shipments = s.shipments := by rw [(Payment.intentStep_frame hs).1]
    cases Payment.intent_effect hs with
    | quiet hp _ _ _ _ _ => exact rowsKept_of_eq hp hships
    | opens hpc hok _ _ =>
      subst hpc
      cases hx hok
  case courier u => exact rowsKept_courier hs
  case shipping u =>
    have hpayments : s'.payments = s.payments := by
      obtain ⟨hf, _⟩ | ⟨id, status, b, hu⟩ := Shipping.serviceStep_inv hs
      · rw [hf]
      · obtain ⟨rfl, _⟩ | ⟨o, _, _, rfl⟩ := updateOrderStatusIfAllowed_inv hu <;> rfl
    refine rowsKept_shipment (Shipping.serviceStep_shipments hs) hpayments ?_
    rintro hok a rfl
    cases hx hok
  case cancel pc =>
    obtain rfl | ⟨o, rfl, _, hu⟩ := Order.cancelStep_inv hs
    · exact rowsKept_of_eq rfl rfl
    · obtain ⟨rfl, _⟩ | ⟨o, _, rfl⟩ := updateOrderStatus_inv hu <;> exact rowsKept_of_eq rfl rfl
  case patch pc =>
    obtain rfl | ⟨id, status, b, hu⟩ := Order.patchStep_inv hs
    · exact rowsKept_of_eq rfl rfl
    · exact rowsKept_guarded hu
  case applyVoucher r pc =>
    have hf := (Cart.apply_outcome hs).frame.1
    exact rowsKept_of_eq (by rw [hf]) (by rw [hf])
  case cart u =>
    have hf := (Cart.step_write hs).frame.1
    exact rowsKept_of_eq (by rw [hf]) (by rw [hf])
  case checkout u =>
    obtain rfl | ⟨o, items, _, _, rfl⟩ := Checkout.checkoutStep_inv hs <;>
      exact rowsKept_of_eq rfl rfl

/-- The rows of the two tables are those that the migration found, each with the order it
had, and those orders are still there with the default tenant. -/
structure Standing (default : Nat) (s₀ s : Store) : Prop where
  fresh : ∀ id ∈ s.orders.ids, id < s.nextID
  orders : ∀ id ∈ s₀.orders.ids, id ∈ s.orders.ids
  tenants : ∀ id ∈ s₀.orders.ids, (s.orders.row id).Holds fun o => o.tenantID = default
  paymentIDs : s.payments.ids = s₀.payments.ids
  payments : ∀ id, (s.payments.row id).Holds fun p =>
    p.orderID = (s₀.payments.row id).committed.orderID
  shipmentIDs : s.shipments.ids = s₀.shipments.ids
  shipments : ∀ id, (s.shipments.row id).orderID = (s₀.shipments.row id).orderID

theorem Backfilled.standing (h : Backfilled default s₀) : Standing default s₀ s₀ where
  fresh := h.ready.fresh
  orders _ hid := hid
  tenants id hid := ⟨h.tenants id hid, fun u o hd => by rw [h.ready.unlocked id] at hd; cases hd⟩
  paymentIDs := rfl
  payments id := ⟨rfl, fun u p hd => by rw [h.unlocked id] at hd; cases hd⟩
  shipmentIDs := rfl
  shipments _ := rfl

theorem Standing.act (hs : Standing default s₀ s) (hrows : RowsKept i s s')
    (horders : RowStep i s s') : Standing default s₀ s' := by
  have hpayments : ∀ id, (s'.payments.row id).Holds fun p =>
      p.orderID = (s₀.payments.row id).committed.orderID := by
    intro id
    refine (hrows.payments id).holds ?_ (hs.payments id)
    rintro f ⟨status, rfl⟩ p hp
    exact hp
  have hshipments : ∀ id, (s'.shipments.row id).orderID = (s₀.shipments.row id).orderID :=
    fun id => (hrows.shipments id).trans (hs.shipments id)
  cases horders with
  | kept hids hn hrow =>
    refine ⟨?_, ?_, ?_, hrows.paymentIDs.trans hs.paymentIDs, hpayments,
      hrows.shipmentIDs.trans hs.shipmentIDs, hshipments⟩
    · intro id hid
      exact Nat.lt_of_lt_of_le (hs.fresh id (hids ▸ hid)) hn
    · rw [hids]
      exact hs.orders
    · intro id hid
      refine (hrow id).holds ?_ (hs.tenants id hid)
      rintro f ⟨status, rfl⟩ o ho
      exact ho
  | added ho hn =>
    refine ⟨?_, ?_, ?_, hrows.paymentIDs.trans hs.paymentIDs, hpayments,
      hrows.shipmentIDs.trans hs.shipmentIDs, hshipments⟩
    · rw [ho, hn]
      exact forall_mem_concat (Nat.lt_succ_self _) fun id hid => Nat.lt_succ_of_lt (hs.fresh id hid)
    · intro id hid
      rw [ho]
      exact List.mem_append_left _ (hs.orders id hid)
    · intro id hid
      have hne : id ≠ s.nextID := Nat.ne_of_lt (hs.fresh id (hs.orders id hid))
      rw [ho]
      simp only [Table.insert, Function.update_of_ne hne]
      exact hs.tenants id hid

theorem insertion_of_answer (h : t.answer migrated = .ok) : t.insertion = none := by
  cases t with
  | intent a pc =>
    cases pc with
    | createPayment id e at_ =>
      simp only [Thread.answer, Thread.insertion, Schema.answer, migrated_payments] at h
      cases h
    | _ => rfl
  | shipping u =>
    cases u with
    | create a pc =>
      cases pc with
      | createShipment =>
        simp only [Thread.answer, Thread.insertion, Schema.answer, migrated_shipments] at h
        cases h
      | _ => rfl
    | append a pc => rfl
  | _ => rfl

theorem standing_step (hs : Standing default s₀ c.shared) (ho : Obeys migrated c l)
    (h : (shopMachine cfg).step c l = some c') : Standing default s₀ c'.shared := by
  cases Machine.step_effect h with
  | spawn r =>
    exact hs
  | env hs' =>
    cases hs'
    exact { hs with }
  | @act _ _ t _ _ ht hl =>
    refine hs.act (rowsKept_step hl ?_) (rowStep_of_step hl)
    rintro rfl
    exact insertion_of_answer (ho t ht)

theorem Standing.tenant (hs : Standing default s₀ s) {id : Nat} (hid : id ∈ s₀.orders.ids) :
    default ∈ tenantOfOrder s id := by
  have hin := hs.orders id hid
  rw [tenantOfOrder, Table.get?, if_pos hin, Option.map_some, (hs.tenants id hid).1]
  exact rfl

theorem Standing.underOrder (hs : Standing default s₀ s) (h : Backfilled default s₀) :
    UnderOrder default s₀ s := by
  constructor
  · intro id hid
    rw [hs.paymentIDs] at hid
    refine ⟨default, ?_, if_pos hid⟩
    rw [(hs.payments id).1]
    exact hs.tenant (h.payments id hid)
  · intro id hid
    rw [hs.shipmentIDs] at hid
    refine ⟨default, ?_, if_pos hid⟩
    rw [hs.shipments id]
    exact hs.tenant (h.shipments id hid)

end

/-- Against a schema `d`, a call of `CreateIntent` for an order that waits for its payment
returns and has stored a PENDING payment exactly when the INSERT leaves out no NOT NULL
column without a default, and so a call of `Create` with a shipment. In every run against
the migrated schema payments and shipments have the tenant of their order. -/
theorem stored_iff_none_missing (cfg : Config) (d : Schema) :
    (∀ i s a id, Payable cfg.intents i s a id → ∀ delays : Nat → Nat, ∃ n s' r,
      run (calling cfg d i) (s, start cfg (.intent a)) ((List.range n).map delays) =
          some (s', .intent a (.returned r)) ∧
        (StoresPayment s s' id ↔ d.missing "payments" createPaymentColumns = none)) ∧
    (∀ i s (a : Shipping.CreateArgs), Shippable s a.orderID → ∀ delays : Nat → Nat, ∃ n s' r,
      run (calling cfg d i) (s, start cfg (.shipping (.create a))) ((List.range n).map delays) =
          some (s', .shipping (.create a (.returned r))) ∧
        (StoresShipment s s' a.orderID ↔ d.missing "shipments" createShipmentColumns = none)) ∧
    ∀ default s₀, Backfilled default s₀ → ∀ acts c,
      run (shopMachine cfg).step ⟨s₀, []⟩ acts = some c →
        Meets (shopMachine cfg).step (Obeys migrated) ⟨s₀, []⟩ acts →
          UnderOrder default s₀ c.shared := by
  refine ⟨fun i s a id h => intent_returns h, fun i s a h => ship_returns h, ?_⟩
  intro default s₀ hs acts c hr hm
  have hstanding : Standing default s₀ c.shared :=
    run_inv (I := fun c : State => Standing default s₀ c.shared)
      (fun _ _ _ hs ho h => standing_step hs ho h) hs.standing hm hr
  exact hstanding.underOrder hs

/-! ## Before and after the last migration -/

def paysSeven : Request := .intent ⟨"7", 100, "qris", ""⟩

def shipsSeven : Request := .shipping (.create ⟨7, "jne", "TRACK123"⟩)

/-- Order 7 with payment 5 and shipment 6, as the last migration leaves them. -/
def migratedOrder : Store :=
  { openOrder with shipments := ⟨[6], fun _ => ⟨7, .pending, none, none, none, none⟩⟩ }

theorem payable_seven : Payable plainShop.intents 0 Payment.awaitsPayment ⟨"7", 100, "qris", ""⟩ 7 where
  uuid := rfl
  order := ⟨_, rfl, rfl, fun _ => rfl⟩
  payments _ _ h := by cases h
  provider _ _ := ⟨0, rfl⟩
  fresh := List.forall_mem_nil _

theorem shippable_seven : Shippable Shipping.paidOrder 7 where
  order := ⟨_, rfl, .inl rfl⟩
  shipments := rfl
  fresh := List.forall_mem_nil _

theorem backfilled_migratedOrder : Backfilled 0 migratedOrder where
  ready := ⟨fun _ => rfl, by decide⟩
  tenants _ _ := rfl
  unlocked _ := rfl
  payments _ _ := List.mem_singleton_self 7
  shipments _ _ := List.mem_singleton_self 7

/-- Without the last migration both rows are stored; after it, what was there is paid and
has the tenant of its order. -/
theorem stored_before_tenancy :
    (∃ n s' r, run (calling plainShop untenanted 0) (Payment.awaitsPayment, start plainShop paysSeven)
        ((List.range n).map fun _ => 1) = some (s', .intent ⟨"7", 100, "qris", ""⟩ (.returned r)) ∧
      StoresPayment Payment.awaitsPayment s' 7) ∧
    (∃ n s' r, run (calling plainShop untenanted 0) (Shipping.paidOrder, start plainShop shipsSeven)
        ((List.range n).map fun _ => 1) =
          some (s', .shipping (.create ⟨7, "jne", "TRACK123"⟩ (.returned r))) ∧
      StoresShipment Shipping.paidOrder s' 7) ∧
    ∃ c, run (shopMachine plainShop).step ⟨migratedOrder, []⟩ (request 0 paidNotice 9) = some c ∧
      c.shared.orderStatus 7 = some .paid ∧ UnderOrder 0 migratedOrder c.shared := by
  obtain ⟨hpayment, hshipment, _⟩ := stored_iff_none_missing plainShop untenanted
  refine ⟨?_, ?_, ?_⟩
  · obtain ⟨n, s', r, hrun, hstored⟩ := hpayment 0 _ _ 7 payable_seven fun _ => 1
    exact ⟨n, s', r, hrun, hstored.mpr (by decide +kernel)⟩
  · obtain ⟨n, s', r, hrun, hstored⟩ :=
      hshipment 0 _ ⟨7, "jne", "TRACK123"⟩ shippable_seven fun _ => 1
    exact ⟨n, s', r, hrun, hstored.mpr (by decide +kernel)⟩
  · exact reaches_and (by decide +kernel) fun c hc _ =>
      (stored_iff_none_missing plainShop untenanted).2.2 0 migratedOrder backfilled_migratedOrder _ c
        hc (by decide +kernel)

/-- The error that a call of `CreateIntent` or `Create` has returned. -/
def Thread.failure : Thread → Option String
  | .intent _ (.returned (.error err)) => some err
  | .shipping (.create _ (.returned (.error err))) => some err.text
  | _ => none

/-- After the last migration neither call stores its row. -/
theorem tenant_id_missing :
    (∃ p, run (calling plainShop migrated 0) (Payment.awaitsPayment, start plainShop paysSeven)
        [1, 1, 1] = some p ∧
      p.2.failure = some (notNullViolation "tenant_id" "payments") ∧ p.1.payments.ids = []) ∧
    ∃ p, run (calling plainShop migrated 0) (Shipping.paidOrder, start plainShop shipsSeven)
        [1, 1, 1] = some p ∧
      p.2.failure = some (notNullViolation "tenant_id" "shipments") ∧ p.1.shipments.ids = [] :=
  ⟨reaches (by decide +kernel), reaches (by decide +kernel)⟩

end TokoApi.Shop
