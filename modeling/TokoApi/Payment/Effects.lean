import TokoApi.Payment.Webhook

/-!
# What one step of the payment webhook can do

`Executes` lists, once, the ways through the step function. `Effect` groups them by
how they change the store and move the thread. The invariants of the webhook are
proved by cases on one of the two and do not look at the step function again.
-/
namespace TokoApi.Payment

open Db Voucher Lib.Rows Lib.Redis Lib.Threads

/-- The payment whose row the transaction has written: from
`UpdatePaymentStatus` to the commit. -/
def Pc.wrote : Pc → Option (Nat × Payment)
  | .insertEvent pid p | .getOrder pid p => some (pid, p)
  | .updateOrder l | .listItems l | .decrement l _ _ _ | .settle l _ | .cancelOrder l
  | .commit l => some (l.paymentID, l.payment)
  | _ => none

def marking (l : Loaded) : PaymentStatus → Option OrderStatus
  | .paid => if l.payment.status = .paid then none else some .paid
  | .failed | .expired => if l.order.status = .pendingPayment then some .canceled else none
  | _ => none

def Thread.marks (t : Thread) (l : Loaded) : Option OrderStatus := marking l t.newStatus

/-- The points between the write of the order and the commit, and those that have
passed it without a write. -/
def Pc.passed : Pc → Option Loaded
  | .listItems l | .decrement l _ _ _ | .settle l _ | .commit l => some l
  | _ => none

/-- The order whose row the transaction has written, and the status it wrote. -/
def Thread.ordered (t : Thread) : Option (Nat × OrderStatus) :=
  t.pc.passed.bind fun l =>
    if t.aborted then none else (t.marks l).map fun v => (l.payment.orderID, v)

/-- A handler that is about to write the order has decided what to write and knows
that the order exists. -/
def Thread.Planned (t : Thread) (ids : List Nat) : Prop :=
  match t.pc with
  | .updateOrder l =>
    t.aborted = false ∧ t.marks l = some .paid ∧ l.payment.orderID ∈ ids
  | .cancelOrder l =>
    t.aborted = false ∧ t.marks l = some .canceled ∧ l.payment.orderID ∈ ids
  | _ => True

inductive Effect (h : Webhook) (i : Nat) (s : Store) (t : Thread) : Store → Thread → Prop where
  /-- The thread moves on and the store stays as it is. -/
  | move {t' : Thread} (hr : t'.result = t.result) (hw : t'.pc.wrote = t.pc.wrote)
      (hu : ∀ pid p, t'.pc ≠ .updatePayment pid p) (ho : t'.ordered = t.ordered)
      (hp : t'.Planned s.orders.ids) : Effect h i s t s t'
  | claim {keys} (hpc : t.pc = .setNX)
      (hk : s.replay.setNX s.now h.replayTTL t.key = (true, keys)) :
      Effect h i s t { s with replay := keys } (t.goto (h.afterReplay t.result))
  | load {id pid} (hpc : t.pc = .getPayment id) (hl : latestPaymentID s id = some pid) :
      Effect h i s t s (t.goto (.updatePayment pid ((s.payments.row pid).read i)))
  | payment {pid p s'} (hpc : t.pc = .updatePayment pid p)
      (hs : updatePaymentStatus i s pid t.newStatus = some s') :
      Effect h i s t s' (t.goto (.insertEvent pid p))
  | paid {l : Loaded} {s'} (hpc : t.pc = .updateOrder l)
      (hs : updateOrderStatusTx i s l.payment.orderID .paid = some s') :
      Effect h i s t s' (t.goto (.listItems l))
  | canceled {l : Loaded} {s'} (hpc : t.pc = .cancelOrder l)
      (hs : updateOrderStatusTx i s l.payment.orderID .canceled = some s') :
      Effect h i s t s' (t.goto (.commit l))
  | stock {l v q rest s'} (hpc : t.pc = .decrement l v q rest)
      (hs : decrementVariantStock i s v q = some s') :
      Effect h i s t s' (t.goto (h.afterItems l rest))
  | voucher {l pc pc' x s'} (hpc : t.pc = .settle l pc)
      (hs : settleStep s (settleArgs l) pc x = some (s', pc')) :
      Effect h i s t s' (t.goto (.settle l pc'))
  | abort (r : Response) (hr : r.status ≠ 204) :
      Effect h i s t (s.rollback i) (t.goto (.done r))
  | commit {l} (hpc : t.pc = .commit l) (ha : t.aborted = false) :
      Effect h i s t (commitSettlement i s t l) (t.goto (.done noContent))

theorem afterReplay_wrote (h : Webhook) (r : WebhookVerifyResult) :
    (h.afterReplay r).wrote = none := by
  unfold Webhook.afterReplay
  split <;> rfl

theorem afterReplay_ne_update (h : Webhook) (r : WebhookVerifyResult) (pid : Nat) (p : Payment) :
    h.afterReplay r ≠ .updatePayment pid p := by
  unfold Webhook.afterReplay
  split <;> simp

theorem afterItems_wrote (h : Webhook) (l : Loaded) (items : List (Nat × Int)) :
    (h.afterItems l items).wrote = some (l.paymentID, l.payment) := by
  cases items with
  | nil => simp only [Webhook.afterItems, Webhook.afterStock]; split <;> rfl
  | cons it rest => rfl

theorem afterOrder_wrote (t : Thread) (l : Loaded) :
    (Webhook.afterOrder t l).wrote = some (l.paymentID, l.payment) := by
  unfold Webhook.afterOrder
  split <;> (try split) <;> rfl

variable {pc : Pc} {t t' : Thread} {h : Webhook} {i : Nat} {s s' : Store} {x : Call}

theorem ne_update_of_wrote {pid : Nat} {p : Payment} (hw : pc.wrote = some (pid, p))
    (pid' : Nat) (p' : Payment) : pc ≠ .updatePayment pid' p' := by
  rintro rfl
  cases hw

theorem ordered_none (h : t.pc.passed = none) : t.ordered = none := by
  rw [Thread.ordered, h]
  rfl

theorem goto_marks (t : Thread) (pc : Pc) (l : Loaded) : (t.goto pc).marks l = t.marks l := by
  rw [Thread.marks, Thread.marks, Thread.goto_newStatus]

theorem ordered_some {l : Loaded} (h : pc.passed = some l) (ha : t.aborted = false) :
    (t.goto pc).ordered = (t.marks l).map fun v => (l.payment.orderID, v) := by
  simp only [Thread.ordered, Thread.goto_pc, Thread.goto_aborted, goto_marks, h, ha,
    Option.bind_some, Bool.false_eq_true, if_false]

theorem goto_ordered (h : pc.passed = t.pc.passed) : (t.goto pc).ordered = t.ordered := by
  simp only [Thread.ordered, Thread.goto_pc, h, goto_marks, Thread.goto_aborted]

theorem afterItems_passed (l : Loaded) (items : List (Nat × Int)) :
    (h.afterItems l items).passed = some l := by
  cases items with
  | nil => simp only [Webhook.afterItems, Webhook.afterStock]; split <;> rfl
  | cons it rest => rfl

theorem afterItems_planned (l : Loaded) (items : List (Nat × Int))
    (ids : List Nat) : (t.goto (h.afterItems l items)).Planned ids := by
  cases items with
  | nil =>
    simp only [Webhook.afterItems, Webhook.afterStock]
    split <;> trivial
  | cons it rest => trivial

theorem afterReplay_planned (r : WebhookVerifyResult) (ids : List Nat) :
    (t.goto (h.afterReplay r)).Planned ids := by
  unfold Webhook.afterReplay
  split <;> trivial

theorem afterReplay_passed (r : WebhookVerifyResult) : (h.afterReplay r).passed = none := by
  unfold Webhook.afterReplay
  split <;> rfl

theorem afterOrder_cases (t : Thread) (l : Loaded) :
    (t.marks l = none ∧ Webhook.afterOrder t l = .commit l) ∨
      (t.marks l = some .paid ∧ Webhook.afterOrder t l = .updateOrder l) ∨
      (t.marks l = some .canceled ∧ Webhook.afterOrder t l = .cancelOrder l) := by
  unfold Thread.marks Webhook.afterOrder Thread.shouldSettle
  cases t.newStatus
  case paid => by_cases hp : l.payment.status = .paid <;> simp [marking, hp]
  case failed => by_cases hp : l.order.status = .pendingPayment <;> simp [marking, hp]
  case expired => by_cases hp : l.order.status = .pendingPayment <;> simp [marking, hp]
  all_goals simp [marking]

theorem afterOrder_effect {pid : Nat}
    {p : Payment} {o : Order} (hpc : t.pc = .getOrder pid p) (ha : t.aborted = false)
    (hid : p.orderID ∈ s.orders.ids) :
    Effect h i s t s (t.goto (Webhook.afterOrder t ⟨pid, p, o⟩)) := by
  have hcases := afterOrder_cases t ⟨pid, p, o⟩
  have hw := afterOrder_wrote t ⟨pid, p, o⟩
  have hnone : t.ordered = none := ordered_none (by rw [hpc]; rfl)
  generalize Webhook.afterOrder t ⟨pid, p, o⟩ = pc at hcases hw ⊢
  refine .move rfl (by rw [hpc]; exact hw) (ne_update_of_wrote hw) ?_ ?_
  · rw [hnone]
    obtain ⟨hm, rfl⟩ | ⟨_, rfl⟩ | ⟨_, rfl⟩ := hcases
    · rw [ordered_some rfl ha, hm, Option.map_none]
    · exact ordered_none rfl
    · exact ordered_none rfl
  · obtain ⟨_, rfl⟩ | ⟨hm, rfl⟩ | ⟨hm, rfl⟩ := hcases
    · trivial
    · exact ⟨ha, (goto_marks t _ _).trans hm, hid⟩
    · exact ⟨ha, (goto_marks t _ _).trans hm, hid⟩

theorem goto_effect (hw : pc.wrote = t.pc.wrote) (hu : ∀ pid p, pc ≠ .updatePayment pid p)
    (ho : pc.passed = t.pc.passed) (hp : (t.goto pc).Planned s.orders.ids) :
    Effect h i s t s (t.goto pc) :=
  .move rfl hw hu (goto_ordered ho) hp

/-! ## One statement -/

/-- The ways through `webhookStep`, each with what its statement has found. -/
inductive Executes (h : Webhook) (i : Nat) (s : Store) (t : Thread) (x : Call) :
    Store → Thread → Prop where
  /-- There is no transaction yet. -/
  | refuses (r : Response) (hpc : t.pc = .setNX ∨ ∃ id, t.pc = .beginTx id) :
      Executes h i s t x s (t.goto (.done r))
  | claims {keys} (hpc : t.pc = .setNX)
      (hk : s.replay.setNX s.now h.replayTTL t.key = (true, keys)) :
      Executes h i s t x { s with replay := keys } (t.goto (h.afterReplay t.result))
  | begins {id} (hpc : t.pc = .beginTx id) : Executes h i s t x s (t.goto (.getPayment id))
  | loads {id pid p} (hpc : t.pc = .getPayment id)
      (hg : getLatestPaymentByOrder i s id = some (pid, p))
      (hm : amountMismatch t.result p = false) :
      Executes h i s t x s (t.goto (.updatePayment pid p))
  | updatesPayment {pid p s'} (hpc : t.pc = .updatePayment pid p)
      (hs : updatePaymentStatus i s pid t.newStatus = some s') :
      Executes h i s t x s' (t.goto (.insertEvent pid p))
  /-- An error is not reported, but it aborts the transaction. -/
  | insertsEvent {pid p} {t' : Thread} (hpc : t.pc = .insertEvent pid p) (hr : t'.result = t.result)
      (hpc' : t'.pc = .getOrder pid p) (hk : t'.key = t.key) : Executes h i s t x s t'
  | getsOrder {pid} {p : Payment} {o} (hpc : t.pc = .getOrder pid p) (ha : t.aborted = false)
      (ho : getOrderByID i s p.orderID = some o) :
      Executes h i s t x s (t.goto (Webhook.afterOrder t ⟨pid, p, o⟩))
  | updatesOrder {l : Loaded} {s'} (hpc : t.pc = .updateOrder l)
      (hs : updateOrderStatusTx i s l.payment.orderID .paid = some s') :
      Executes h i s t x s' (t.goto (.listItems l))
  | listsItems {l : Loaded} (hpc : t.pc = .listItems l) :
      Executes h i s t x s (t.goto (h.afterItems l (listOrderItemsForStock s l.payment.orderID)))
  | decrements {l v q rest s'} (hpc : t.pc = .decrement l v q rest)
      (hs : decrementVariantStock i s v q = some s') :
      Executes h i s t x s' (t.goto (h.afterItems l rest))
  | settles {l pc pc' s'} (hpc : t.pc = .settle l pc)
      (hs : settleStep s (settleArgs l) pc x = some (s', pc')) :
      Executes h i s t x s' (t.goto (.settle l pc'))
  | settled {l} (hpc : t.pc = .settle l (.returned none)) :
      Executes h i s t x s (t.goto (.commit l))
  | cancelsOrder {l : Loaded} {s'} (hpc : t.pc = .cancelOrder l)
      (hs : updateOrderStatusTx i s l.payment.orderID .canceled = some s') :
      Executes h i s t x s' (t.goto (.commit l))
  | failsToCancel {l} (hpc : t.pc = .cancelOrder l) :
      Executes h i s t x s { t with aborted := true, pc := .commit l }
  /-- A commit rolls back if it fails, or if the transaction has been aborted. -/
  | aborts (r : Response) (hr : r.status ≠ 204)
      (hc : x = .ok → ∀ l, t.pc = .commit l → t.aborted = true) :
      Executes h i s t x (s.rollback i) (t.goto (.done r))
  | commits {l} (hpc : t.pc = .commit l) (hx : x = .ok) (ha : t.aborted = false) :
      Executes h i s t x (commitSettlement i s t l) (t.goto (.done noContent))

theorem abort_executes {r : Response} (hs : abort i s t r = some (s', t')) (hr : r.status ≠ 204)
    (hc : x = .ok → ∀ l, t.pc = .commit l → t.aborted = true) : Executes h i s t x s' t' := by
  cases hs
  exact .aborts r hr hc

theorem webhookStep_executes
    (hs : webhookStep h i s t x = some (s', t')) : Executes h i s t x s' t' := by
  cases hpc : t.pc
  case settle l pc =>
    cases pc with
    | returned err =>
      cases err <;> simp only [webhookStep, hpc] at hs
      · cases hs
        exact .settled hpc
      · exact abort_executes hs (by simp) (by simp [hpc])
    | _ =>
      simp only [webhookStep, hpc] at hs
      obtain ⟨⟨a, pc'⟩, ha, he⟩ := Option.map_eq_some_iff.mp hs
      cases he
      exact .settles hpc ha
  all_goals cases x <;> simp only [webhookStep, hpc] at hs
  case setNX.ok =>
    split at hs <;> cases hs
    · exact .refuses _ (.inl hpc)
    · exact .claims hpc (by assumption)
  case setNX.fail =>
    cases hs
    exact .refuses _ (.inl hpc)
  case beginTx.ok =>
    cases hs
    exact .begins hpc
  case beginTx.fail =>
    cases hs
    exact .refuses _ (.inr ⟨_, hpc⟩)
  case getPayment.ok =>
    split at hs
    · exact abort_executes hs (by decide) (by simp [hpc])
    · rename_i hg
      split at hs
      · exact abort_executes hs (by decide) (by simp [hpc])
      · rename_i hm
        cases hs
        exact .loads hpc hg (by simpa using hm)
  case updatePayment.ok =>
    obtain ⟨a, ha, he⟩ := Option.map_eq_some_iff.mp hs
    cases he
    exact .updatesPayment hpc ha
  case insertEvent.ok | insertEvent.fail =>
    cases hs
    exact .insertsEvent hpc rfl rfl rfl
  case getOrder.ok =>
    split at hs
    · exact abort_executes hs (by decide) (by simp [hpc])
    · rename_i ha
      split at hs
      · exact abort_executes hs (by decide) (by simp [hpc])
      · rename_i ho
        cases hs
        exact .getsOrder hpc (by simpa using ha) ho
  case updateOrder.ok =>
    obtain ⟨a, ha, he⟩ := Option.map_eq_some_iff.mp hs
    cases he
    exact .updatesOrder hpc ha
  case listItems.ok =>
    cases hs
    exact .listsItems hpc
  case decrement.ok =>
    obtain ⟨a, ha, he⟩ := Option.map_eq_some_iff.mp hs
    cases he
    exact .decrements hpc ha
  case cancelOrder.ok =>
    obtain ⟨a, ha, he⟩ := Option.map_eq_some_iff.mp hs
    cases he
    exact .cancelsOrder hpc ha
  case cancelOrder.fail =>
    cases hs
    exact .failsToCancel hpc
  case commit.ok =>
    split at hs
    · rename_i ha
      exact abort_executes hs (by decide) (fun _ _ _ => ha)
    · rename_i ha
      cases hs
      exact .commits hpc rfl (by simpa using ha)
  case done.ok | done.fail => cases hs
  all_goals exact abort_executes hs (by simp) (by simp)

theorem step_effect (hs : webhookStep h i s t x = some (s', t')) : Effect h i s t s' t' := by
  cases webhookStep_executes hs with
  | refuses r hpc =>
    obtain hpc | ⟨id, hpc⟩ := hpc <;>
      exact goto_effect (by rw [hpc]; rfl) (by simp) (by rw [hpc]; rfl) trivial
  | claims hpc hk => exact .claim hpc hk
  | begins hpc | settled hpc =>
    exact goto_effect (by rw [hpc]; rfl) (by simp) (by rw [hpc]; rfl) trivial
  | loads hpc hg =>
    obtain ⟨q, hq, he⟩ := Option.map_eq_some_iff.mp hg
    cases he
    exact .load hpc hq
  | updatesPayment hpc hw => exact .payment hpc hw
  | insertsEvent hpc hr hpc' _ =>
    refine .move hr (by rw [hpc, hpc']; rfl) (by simp [hpc']) ?_ ?_
    · rw [ordered_none (t := t) (by rw [hpc]; rfl), ordered_none (by rw [hpc']; rfl)]
    · simp only [Thread.Planned, hpc']
  | getsOrder hpc ha ho =>
    obtain ⟨r, hr, _⟩ := Option.map_eq_some_iff.mp ho
    exact afterOrder_effect hpc ha (Table.get?_eq_some.mp hr).1
  | updatesOrder hpc hw => exact .paid hpc hw
  | @listsItems l hpc =>
    have hw := afterItems_wrote h l (listOrderItemsForStock s l.payment.orderID)
    exact goto_effect (by rw [hpc]; exact hw) (ne_update_of_wrote hw)
      (by rw [hpc]; exact afterItems_passed l _) (afterItems_planned l _ _)
  | decrements hpc hw => exact .stock hpc hw
  | settles hpc hw => exact .voucher hpc hw
  | cancelsOrder hpc hw => exact .canceled hpc hw
  | failsToCancel hpc =>
    have hnone : t.ordered = none := ordered_none (by rw [hpc]; rfl)
    exact .move rfl (by rw [hpc]; rfl) (by simp) (by rw [hnone]; rfl) trivial
  | aborts r hr _ => exact .abort r hr
  | commits hpc _ ha => exact .commit hpc ha

theorem start_cases (h : Webhook) (r : Request) : (∃ a, (h.start r).pc = .done a) ∨
    (h.start r).pc = .setNX ∨ ∃ id, (h.start r).pc = .beginTx id := by
  unfold Webhook.start
  split
  · exact .inl ⟨_, rfl⟩
  · split
    · exact .inl ⟨_, rfl⟩
    · exact .inl ⟨_, rfl⟩
    · dsimp only
      split
      · exact .inr (.inl rfl)
      · unfold Webhook.afterReplay
        split
        · exact .inl ⟨_, rfl⟩
        · exact .inr (.inr ⟨_, rfl⟩)

theorem start_idle (r : Request) :
    (∀ pid p, (h.start r).pc ≠ .updatePayment pid p) ∧ (h.start r).pc.wrote = none := by
  obtain ⟨a, hpc⟩ | hpc | ⟨id, hpc⟩ := start_cases h r <;> rw [hpc] <;> exact ⟨by simp, rfl⟩

/-! ## What a step does to the payments -/

/-- The steps as far as the table of payments and the settlement log go. -/
inductive PaymentEffect (i : Nat) (s : Store) (t : Thread) (s' : Store) (t' : Thread) : Prop where
  | quiet (hp : s'.payments = s.payments) (hl : s'.settled = s.settled)
      (hr : t'.result = t.result) (hw : t'.pc.wrote = t.pc.wrote)
      (hu : ∀ pid p, t'.pc = .updatePayment pid p →
        ∃ id, latestPaymentID s id = some pid ∧ p = (s.payments.row pid).read i)
  | write {pid : Nat} {p : Payment} (hpc : t.pc = .updatePayment pid p)
      (hm : s.payments.modify pid (Row.update i (Payment.withStatus t.newStatus)) =
        some s'.payments)
      (hl : s'.settled = s.settled) (ht : t' = t.goto (.insertEvent pid p))
  | abort {r} (hs : s' = s.rollback i) (ht : t' = t.goto (.done r))
  | commit {l} (hpc : t.pc = .commit l) (hs : s' = commitSettlement i s t l)
      (ht : t' = t.goto (.done noContent))

theorem payment_effect (he : Effect h i s t s' t') : PaymentEffect i s t s' t' := by
  cases he with
  | move hr hw hu _ _ => exact .quiet rfl rfl hr hw fun pid p hpc => absurd hpc (hu pid p)
  | claim hpc _ =>
    refine .quiet rfl rfl rfl ?_ fun pid p h' => absurd h' (afterReplay_ne_update h _ pid p)
    rw [hpc]
    exact afterReplay_wrote h _
  | @load id pid hpc hl =>
    refine .quiet rfl rfl rfl (by rw [hpc]; rfl) fun pid' p' h' => ?_
    cases h'
    exact ⟨id, hl, rfl⟩
  | payment hpc hs =>
    obtain ⟨ps, hm, rfl⟩ := Option.map_eq_some_iff.mp hs
    exact .write hpc hm rfl rfl
  | paid hpc hs | canceled hpc hs =>
    obtain ⟨os, _, rfl⟩ := Option.map_eq_some_iff.mp hs
    exact .quiet rfl rfl rfl (by rw [hpc]; rfl) (by simp)
  | @stock l v q rest _ hpc hs =>
    obtain ⟨vs, _, rfl⟩ := Option.map_eq_some_iff.mp hs
    have hw := afterItems_wrote h l rest
    refine .quiet rfl rfl rfl (by rw [hpc]; exact hw) fun pid p h' => ?_
    exact absurd h' (ne_update_of_wrote hw pid p)
  | voucher hpc hs =>
    have hf := settleStep_frame hs
    rw [hf]
    exact .quiet rfl rfl rfl (by rw [hpc]; rfl) (by simp)
  | abort r _ => exact .abort rfl rfl
  | commit hpc _ => exact .commit hpc rfl rfl

/-- `UpdatePaymentStatus` is the only statement on a payment. -/
def StatusUpdate (f : Payment → Payment) : Prop := ∃ status, f = Payment.withStatus status

theorem PaymentEffect.access (he : PaymentEffect i s t s' t') (id : Nat) :
    Row.Access i StatusUpdate (s.payments.row id) (s'.payments.row id) := by
  cases he with
  | quiet hp => exact hp ▸ .same
  | write _ hm _ _ => exact Table.modify_access hm ⟨_, rfl⟩ id
  | abort hs _ => exact hs ▸ .rollback
  | commit _ hs _ => exact hs ▸ .commit

theorem PaymentEffect.ids (he : PaymentEffect i s t s' t') : s'.payments.ids = s.payments.ids := by
  cases he with
  | quiet hp => rw [hp]
  | write _ hm => exact Table.modify_ids hm
  | abort hs | commit _ hs => subst hs; rfl

/-! ## What a step does to the orders -/

/-- The steps as far as the table of orders goes. -/
inductive OrderEffect (i : Nat) (s : Store) (t : Thread) (s' : Store) (t' : Thread) : Prop where
  | quiet (hs : s'.orders = s.orders) (ho : t'.ordered = t.ordered)
      (hp : t'.Planned s.orders.ids)
  | write {id v} (hid : id ∈ s.orders.ids) (ht : t.ordered = none)
      (hm : s.orders.modify id (Row.update i (Order.withStatus v)) = some s'.orders)
      (ho : t'.ordered = some (id, v)) (hp : t'.Planned s.orders.ids)
  | abort {r} (hs : s' = s.rollback i) (ht : t' = t.goto (.done r))
  | commit {l} (hpc : t.pc = .commit l) (ha : t.aborted = false)
      (hs : s' = commitSettlement i s t l) (ht : t' = t.goto (.done noContent))

theorem order_effect
    (hplan : t.Planned s.orders.ids) (he : Effect h i s t s' t') : OrderEffect i s t s' t' := by
  cases he with
  | move _ _ _ ho hp => exact .quiet rfl ho hp
  | claim hpc _ =>
    exact .quiet rfl (goto_ordered (by rw [hpc]; exact afterReplay_passed _))
      (afterReplay_planned _ _)
  | load hpc _ => exact .quiet rfl (goto_ordered (by rw [hpc]; rfl)) trivial
  | payment hpc hs =>
    obtain ⟨ps, _, rfl⟩ := Option.map_eq_some_iff.mp hs
    exact .quiet rfl (goto_ordered (by rw [hpc]; rfl)) trivial
  | paid hpc hs | canceled hpc hs =>
    obtain ⟨os, hm, rfl⟩ := Option.map_eq_some_iff.mp hs
    simp only [Thread.Planned, hpc] at hplan
    obtain ⟨ha, hmark, hid⟩ := hplan
    exact .write hid (ordered_none (by rw [hpc]; rfl)) hm
      (by rw [ordered_some rfl ha, hmark, Option.map_some]) trivial
  | @stock l v q rest _ hpc hs =>
    obtain ⟨vs, _, rfl⟩ := Option.map_eq_some_iff.mp hs
    exact .quiet rfl (goto_ordered (by rw [hpc]; exact afterItems_passed l rest))
      (afterItems_planned l rest _)
  | voucher hpc hs =>
    rw [settleStep_frame hs]
    exact .quiet rfl (goto_ordered (by rw [hpc]; rfl)) trivial
  | abort r _ => exact .abort rfl rfl
  | commit hpc ha => exact .commit hpc ha rfl rfl

/-- A status is all that the statements on an order change. -/
def StatusChange (f : Order → Order) : Prop := ∃ status, f = Order.withStatus status

theorem Effect.orders_access (he : Effect h i s t s' t') (id : Nat) :
    Row.Access i StatusChange (s.orders.row id) (s'.orders.row id) := by
  cases he with
  | paid _ hs | canceled _ hs =>
    obtain ⟨os, hm, rfl⟩ := Option.map_eq_some_iff.mp hs
    exact Table.modify_access hm ⟨_, rfl⟩ id
  | payment _ hs | stock _ hs =>
    obtain ⟨_, _, rfl⟩ := Option.map_eq_some_iff.mp hs
    exact .same
  | voucher _ hs =>
    rw [settleStep_frame hs]
    exact .same
  | abort r _ => exact .rollback
  | commit _ _ => exact .commit
  | _ => exact .same

/-! ## What a step does to the rest -/

theorem Executes.key (he : Executes h i s t x s' t') : t'.key = t.key := by
  cases he with
  | insertsEvent _ _ _ hk => exact hk
  | failsToCancel _ => rfl
  | _ => exact t.goto_key _

/-- The clock stands still, keys are allocated by nobody here, and the replay keys change
where the handler claims one. The items and the tables of others stay as they are. -/
structure Framed (h : Webhook) (s : Store) (t : Thread) (s' : Store) : Prop where
  now : s'.now = s.now
  nextID : s'.nextID = s.nextID
  replay : s'.replay = s.replay ∨ s.replay.setNX s.now h.replayTTL t.key = (true, s'.replay)
  orderIDs : s'.orders.ids = s.orders.ids
  orderItems : s'.orderItems = s.orderItems
  carts : s'.carts = s.carts
  cartItems : s'.cartItems = s.cartItems
  products : s'.products = s.products
  shipments : s'.shipments = s.shipments

theorem Effect.frame (he : Effect h i s t s' t') : Framed h s t s' := by
  cases he with
  | claim _ hk => exact ⟨rfl, rfl, .inr hk, rfl, rfl, rfl, rfl, rfl, rfl⟩
  | payment _ hs | stock _ hs =>
    obtain ⟨_, _, rfl⟩ := Option.map_eq_some_iff.mp hs
    exact ⟨rfl, rfl, .inl rfl, rfl, rfl, rfl, rfl, rfl, rfl⟩
  | paid _ hs | canceled _ hs =>
    obtain ⟨_, hm, rfl⟩ := Option.map_eq_some_iff.mp hs
    exact ⟨rfl, rfl, .inl rfl, Table.modify_ids hm, rfl, rfl, rfl, rfl, rfl⟩
  | voucher _ hs =>
    rw [settleStep_frame hs]
    exact ⟨rfl, rfl, .inl rfl, rfl, rfl, rfl, rfl, rfl, rfl⟩
  | _ => exact ⟨rfl, rfl, .inl rfl, rfl, rfl, rfl, rfl, rfl, rfl⟩

end TokoApi.Payment
