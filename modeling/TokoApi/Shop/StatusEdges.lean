import TokoApi.Shop.Machine

/-!
# The status of an order moves along the edge table

Five kinds of requests write the status of an order. `PatchStatus` and the
shipping service go through `UpdateOrderStatusIfAllowed`, whose WHERE clause is
the edge table. The payment webhook and `Cancel` decide by a status they have
read and then overwrite whatever is there. So every change is an edge exactly when
the unguarded writes are published over a status from which the edge exists.

The invariant ties the uncommitted version of an order to the webhook that holds
its lock: what the commit publishes is what the handler has decided to write.
-/
namespace TokoApi.Shop

open Db Lib.Rows Lib.Threads Lib.Runs

/-- No transaction is open on an order, and new keys are new. -/
structure Ready (s : Store) : Prop where
  unlocked : ∀ id, (s.orders.row id).draft = none
  fresh : ∀ id ∈ s.orders.ids, id < s.nextID

/-- A step changes the status of an order along an edge or not at all. -/
def EdgeStep (cfg : Config) (c : State) (a : Label) : Prop :=
  ∀ d, (shopMachine cfg).step c a = some d → ∀ id, ∀ current ∈ c.shared.orderStatus id,
    ∃ next ∈ d.shared.orderStatus id, OrderEdge current next

/-- The order and the status that a statement publishes without the guard: the
commit of a webhook, and the update of `Cancel`. -/
def Thread.publishes : Thread → Call → Option (Nat × OrderStatus)
  | .payment t, .ok =>
    match t.pc with
    | .commit _ => t.ordered
    | _ => none
  | .cancel (.updateOrder id), .ok => some (id, .canceled)
  | _, _ => none

def publishes (c : State) : Label → Option (Nat × OrderStatus)
  | .act i x => c.threads[i]?.bind fun t => t.publishes x
  | _ => none

/-- PAID is written over PENDING_PAYMENT or PAID, and CANCELED over one of these or
CANCELED. -/
def unguardedFrom : OrderStatus → List OrderStatus
  | .paid => [.pendingPayment, .paid]
  | .canceled => [.pendingPayment, .paid, .canceled]
  | _ => []

abbrev Careful (c : State) (a : Label) : Prop :=
  ∀ p ∈ publishes c a, ∀ current ∈ c.shared.orderStatus p.1, current ∈ unguardedFrom p.2

variable {v : OrderStatus} {id : Nat} {o : Order} {u' : Payment.Thread} {c d : State}

theorem edge_iff_unguarded {current : OrderStatus} (hv : v = .paid ∨ v = .canceled) :
    OrderEdge current v ↔ current ∈ unguardedFrom v := by
  obtain rfl | rfl := hv <;> cases current <;> decide

/-! ## What a statement does to the rows of the orders -/

def Thread.ordered : Thread → Option (Nat × OrderStatus)
  | .payment t => t.ordered
  | _ => none

def Thread.Planned (ids : List Nat) : Thread → Prop
  | .payment t => t.Planned ids
  | _ => True

theorem planned_mono {t : Thread} {ids ids' : List Nat} (hsub : ids ⊆ ids')
    (h : t.Planned ids) : t.Planned ids' := by
  cases t with
  | payment t =>
    simp only [Thread.Planned, Payment.Thread.Planned] at h ⊢
    split at h
    · exact ⟨h.1, h.2.1, hsub h.2.2⟩
    · exact ⟨h.1, h.2.1, hsub h.2.2⟩
    · trivial
  | _ => trivial

theorem ordered_of_not_payment {t : Thread} (h : t.isPayment = false) : t.ordered = none := by
  cases t <;> first | rfl | cases h

/-- A statement of thread `i` keeps the orders and works on their rows, or it adds
one order. -/
inductive RowStep (i : Nat) (s s' : Store) : Prop where
  | kept (hids : s'.orders.ids = s.orders.ids) (hn : s.nextID ≤ s'.nextID)
      (hrow : ∀ id, Row.Access i Payment.StatusChange (s.orders.row id) (s'.orders.row id))
  | added {o : Order} (hs : s'.orders = s.orders.insert s.nextID (.free o))
      (hn : s'.nextID = s.nextID + 1)

variable {cfg : Config} {i j n : Nat} {s s' : Store} {t t' u : Thread} {x : Call}

theorem set_access (hget : s.orders.get? id = some (.free o)) (k : Nat) :
    Row.Access i Payment.StatusChange (s.orders.row k)
      ((s.orders.set id (.free (o.withStatus v))).row k) := by
  by_cases hk : k = id
  · subst k
    rw [Table.set_row_self, (Table.get?_eq_some.mp hget).2]
    exact .now ⟨v, rfl⟩ rfl
  · rw [Table.set_row_ne _ _ hk]
    exact .same

theorem rowStep_of_change (h : Change cfg s t x s') : RowStep i s s' := by
  cases h.touches with
  | beside hs hn =>
    rw [hs]
    exact .kept rfl hn fun _ => .same
  | status hget => exact .kept rfl le_rfl (set_access hget)
  | ordered => exact .added rfl rfl
  | claimed _ _ => exact .kept rfl le_rfl fun _ => .same

theorem draft_of_change {d : Nat × Order} (h : Change cfg s t x s')
    (hd : (s'.orders.row id).draft = some d) : (s.orders.row id).draft = some d := by
  have hset : ∀ k (o : Order), (((s.orders.set k (.free o)).row id).draft = some d) →
      (s.orders.row id).draft = some d := by
    intro k o hd
    by_cases hk : id = k
    · subst id
      rw [Table.set_row_self] at hd
      cases hd
    · rwa [Table.set_row_ne _ _ hk] at hd
  cases h.touches with
  | beside hs _ =>
    rw [hs] at hd
    exact hd
  | status | ordered => exact hset _ _ hd
  | claimed _ _ => exact hd

/-! ## The proof outline -/

structure Inv (n : Nat) (s : Store) : Prop where
  owners : ∀ id i o, (s.orders.row id).draft = some (i, o) → i < n
  fresh : ∀ id ∈ s.orders.ids, id < s.nextID

/-- A thread holds the lock on the order it has written, and no other. -/
structure Outline (i : Nat) (s : Store) (t : Thread) : Prop where
  planned : t.Planned s.orders.ids
  wrote : ∀ id v, t.ordered = some (id, v) →
    id ∈ s.orders.ids ∧ ∃ o, (s.orders.row id).draft = some (i, o) ∧ o.status = v
  owns : ∀ id o, (s.orders.row id).draft = some (i, o) → ∃ v, t.ordered = some (id, v)

theorem Inv.step (hi : Inv n s) (hin : i < n) (h : RowStep i s s') : Inv n s' := by
  cases h with
  | kept hids hn hrow =>
    refine ⟨fun id k o hd => ?_, fun id hid => ?_⟩
    · obtain rfl | hd' := (hrow id).owner hd
      · exact hin
      · exact hi.owners id k o hd'
    · rw [hids] at hid
      have := hi.fresh id hid
      omega
  | @added o hs hn =>
    refine ⟨fun id k o' hd => ?_, fun id hid => ?_⟩
    · by_cases hk : id = s.nextID
      · subst id
        simp [hs, Table.insert] at hd
      · rw [hs, Table.insert] at hd
        simp only [Function.update_of_ne hk] at hd
        exact hi.owners id k o' hd
    · simp only [hs, Table.insert, List.mem_append, List.mem_singleton] at hid
      obtain hid | rfl := hid
      · have := hi.fresh id hid
        omega
      · omega

theorem RowStep.subset (h : RowStep i s s') : s.orders.ids ⊆ s'.orders.ids := by
  cases h with
  | kept hids _ _ => rw [hids]; exact List.Subset.refl _
  | added hs _ =>
    intro id hid
    simp [hs, Table.insert, hid]

theorem RowStep.next (h : RowStep i s s') : s.nextID ≤ s'.nextID := by
  cases h with
  | kept _ hn _ => exact hn
  | added _ hn => omega

theorem Outline.other (hi : Inv n s) (ho : Outline j s u) (hj : j ≠ i) (h : RowStep i s s') :
    Outline j s' u := by
  have hsame : ∀ id o, id ∈ s.orders.ids ∨ (s'.orders.row id).draft = some (j, o) →
      ((s.orders.row id).draft = some (j, o) ∨ (s'.orders.row id).draft = some (j, o)) →
      s'.orders.row id = s.orders.row id := by
    intro id o hid hd
    cases h with
    | kept _ _ hrow => exact (hrow id).other hj hd
    | @added o' hs _ =>
      have hne : id ≠ s.nextID := by
        rintro rfl
        obtain hid | hid := hid
        · exact absurd (hi.fresh _ hid) (Nat.lt_irrefl _)
        · simp [hs, Table.insert] at hid
      simp [hs, Table.insert, hne]
  refine ⟨planned_mono h.subset ho.planned, fun id v hw => ?_, fun id o hd => ?_⟩
  · obtain ⟨hid, o, hd, hv⟩ := ho.wrote id v hw
    exact ⟨h.subset hid, o, by rw [hsame id o (.inl hid) (.inl hd)]; exact hd, hv⟩
  · have hrow := hsame id o (.inr hd) (.inr hd)
    exact ho.owns id o (hrow ▸ hd)

theorem outline_idle (hp : t.Planned s.orders.ids) (ho : t.ordered = none)
    (hd : ∀ id o, (s.orders.row id).draft ≠ some (i, o)) : Outline i s t where
  planned := hp
  wrote id v hw := by rw [ho] at hw; cases hw
  owns id o h := absurd h (hd id o)

theorem own_write {u : Payment.Thread}
    (ho : Outline i s (.payment u)) (hid : id ∈ s.orders.ids) (hu : u.ordered = none)
    (hm : s.orders.modify id (Row.update i (Order.withStatus v)) = some s'.orders)
    (hu' : u'.ordered = some (id, v)) (hp : u'.Planned s.orders.ids) :
    Outline i s' (.payment u') := by
  have hnone : ∀ k o, (s.orders.row k).draft ≠ some (i, o) := by
    intro k o hd
    obtain ⟨w, hw⟩ := ho.owns k o hd
    rw [Thread.ordered, hu] at hw
    cases hw
  have hids : s'.orders.ids = s.orders.ids := Table.modify_ids hm
  have hd := Table.modify_draft hm hid (hnone id)
  refine ⟨by rw [hids]; exact hp, fun k w hw => ?_, fun k o hk => ?_⟩
  · rw [Thread.ordered, hu', Option.some.injEq, Prod.mk.injEq] at hw
    obtain ⟨rfl, rfl⟩ := hw
    exact ⟨by rw [hids]; exact hid, _, hd, Order.withStatus_status _ _⟩
  · by_cases hk' : k = id
    · subst k
      exact ⟨v, hu'⟩
    · rw [Table.modify_row_ne hm hk'] at hk
      exact absurd hk (hnone k o)

theorem Outline.own (ho : Outline i s t) (h : shopStep cfg i s t x = some (s', t')) :
    Outline i s' t' := by
  obtain ⟨u, u', rfl, rfl, hs⟩ | ⟨hp, hp', hc⟩ := step_change h
  · have he := Payment.order_effect ho.planned (Payment.step_effect hs)
    cases he with
    | quiet hs hord hp =>
      refine ⟨by rw [hs]; exact hp, fun id v hw => ?_, fun id o hd => ?_⟩
      · rw [hs]
        rw [Thread.ordered, hord] at hw
        exact ho.wrote id v hw
      · rw [hs] at hd
        rw [Thread.ordered, hord]
        exact ho.owns id o hd
    | write hid hu hm hu' hp => exact own_write ho hid hu hm hu' hp
    | abort hs ht =>
      subst hs ht
      exact outline_idle trivial rfl fun _ _ => Row.rollback_free
    | commit _ _ hs ht =>
      subst hs ht
      exact outline_idle trivial rfl fun _ _ => Row.commit_free
  · refine outline_idle ?_ (ordered_of_not_payment hp') fun id o hd => ?_
    · cases t' <;> trivial
    · obtain ⟨v, hv⟩ := ho.owns id o (draft_of_change hc hd)
      rw [ordered_of_not_payment hp] at hv
      cases hv

theorem rowStep_of_step (h : shopStep cfg i s t x = some (s', t')) : RowStep i s s' := by
  obtain ⟨u, u', rfl, rfl, hs⟩ | ⟨_, _, hc⟩ := step_change h
  · have he := Payment.step_effect hs
    exact .kept he.frame.orderIDs (Nat.le_of_eq he.frame.nextID.symm) he.orders_access
  · exact rowStep_of_change hc

theorem start_outline (r : Request) (hd : ∀ id o, (s.orders.row id).draft ≠ some (i, o)) :
    Outline i s (start cfg r) := by
  cases r with
  | payment r =>
    have hstart : (cfg.payment.start r).pc.passed = none ∧
        (cfg.payment.start r).Planned s.orders.ids := by
      unfold Payment.Thread.Planned
      obtain ⟨a, hpc⟩ | hpc | ⟨id, hpc⟩ := Payment.start_cases cfg.payment r <;> rw [hpc] <;>
        exact ⟨rfl, trivial⟩
    exact outline_idle hstart.2 (Payment.ordered_none hstart.1) hd
  | _ => exact outline_idle trivial rfl hd

theorem guarded_orders {a : Label} (hg : Guarded Inv Outline c)
    (h : (shopMachine cfg).step c a = some d) : Guarded Inv Outline d := by
  refine guarded_step hg h ?_ ?_ ?_
  · intro r _
    refine ⟨⟨fun id i o hd => ?_, hg.1.fresh⟩, start_outline r fun id o hd => ?_⟩
    · have := hg.1.owners id i o hd
      omega
    · exact absurd (hg.1.owners id _ o hd) (Nat.lt_irrefl _)
  · intro i x t s' t' _ ht hl
    have hin : i < c.threads.length := (List.getElem?_eq_some_iff.mp ht).1
    have hrows := rowStep_of_step hl
    exact ⟨hg.1.step hin hrows, (hg.2 i t ht).own hl,
      fun j u hj hu => (hg.2 j u hu).other hg.1 hj hrows⟩
  · intro e s' he
    obtain rfl := Option.some.inj he
    exact ⟨⟨hg.1.owners, hg.1.fresh⟩, fun j u hu =>
      have ho := hg.2 j u hu
      ⟨ho.planned, ho.wrote, ho.owns⟩⟩

/-! ## What a statement does to the statuses -/

/-- Either every status stays or moves along an edge, and nothing is published
without the guard; or one status is overwritten. -/
inductive StatusStep (s s' : Store) (p : Option (Nat × OrderStatus)) : Prop where
  | edges (h : ∀ id, ∀ current ∈ s.orderStatus id, ∃ next ∈ s'.orderStatus id,
      OrderEdge current next) (hp : ∀ q ∈ p, s.orderStatus q.1 = none)
  | written {id : Nat} {v : OrderStatus} (hp : p = some (id, v)) (hv : v = .paid ∨ v = .canceled)
      (hid : s'.orderStatus id = some v)
      (hother : ∀ k, k ≠ id → s'.orderStatus k = s.orderStatus k)

theorem StatusStep.quiet {p : Option (Nat × OrderStatus)}
    (h : ∀ id, s'.orderStatus id = s.orderStatus id) (hp : ∀ q ∈ p, s.orderStatus q.1 = none) :
    StatusStep s s' p :=
  .edges (fun id current hc => ⟨current, by rw [h]; exact hc, .inl rfl⟩) hp

theorem StatusStep.iff {p : Option (Nat × OrderStatus)} (h : StatusStep s s' p) :
    (∀ id, ∀ current ∈ s.orderStatus id, ∃ next ∈ s'.orderStatus id, OrderEdge current next) ↔
      ∀ q ∈ p, ∀ current ∈ s.orderStatus q.1, current ∈ unguardedFrom q.2 := by
  cases h with
  | edges h hp =>
    refine ⟨fun _ q hq current hc => ?_, fun _ => h⟩
    rw [hp q hq] at hc
    cases hc
  | @written id v hp hv hid hother =>
    subst hp
    constructor
    · intro hedge q hq current hc
      cases hq
      obtain ⟨next, hn, he⟩ := hedge id current hc
      obtain rfl : v = next := Option.some.inj (hid.symm.trans hn)
      exact (edge_iff_unguarded hv).mp he
    · intro hfrom k current hc
      by_cases hk : k = id
      · subst k
        exact ⟨v, hid, (edge_iff_unguarded hv).mpr (hfrom _ rfl current hc)⟩
      · exact ⟨current, by rw [hother k hk]; exact hc, .inl rfl⟩

theorem orderStatus_of_rows (hids : s'.orders.ids = s.orders.ids)
    (hrow : (s'.orders.row id).committed.status = (s.orders.row id).committed.status) :
    s'.orderStatus id = s.orderStatus id := by
  simp only [Store.orderStatus, Table.get?, hids]
  split
  · simp only [Option.map_some, hrow]
  · rfl

theorem orderStatus_set_self (hid : id ∈ s.orders.ids) :
    { s with orders := s.orders.set id (.free (o.withStatus v)) }.orderStatus id = some v := by
  simp [Store.orderStatus, Table.get?, hid]

theorem orderStatus_set_ne {k : Nat} {r : Row Order} (hk : k ≠ id) :
    { s with orders := s.orders.set id r }.orderStatus k = s.orderStatus k := by
  simp [Store.orderStatus, Table.get?, Table.set_row_ne _ _ hk]

theorem guarded_status {status : OrderStatus} {b : Bool}
    (hu : updateOrderStatusIfAllowed s id status = some (s', b)) : StatusStep s s' none := by
  obtain ⟨rfl, _⟩ | ⟨o, hget, hedge, rfl⟩ := updateOrderStatusIfAllowed_inv hu
  · exact .quiet (fun _ => rfl) (by simp)
  · refine .edges (fun k current hc => ?_) (by simp)
    by_cases hk : k = id
    · subst k
      have hcur : o.status = current := by simpa [Store.orderStatus, hget] using hc
      refine ⟨status, orderStatus_set_self (Table.get?_eq_some.mp hget).1, .inr ?_⟩
      rw [← hcur]
      exact hedge
    · exact ⟨current, by rw [orderStatus_set_ne hk]; exact hc, .inl rfl⟩

theorem cancel_status (hu : updateOrderStatus s id .canceled = some s') :
    StatusStep s s' (some (id, .canceled)) := by
  obtain ⟨rfl, hout⟩ | ⟨o, hget, rfl⟩ := updateOrderStatus_inv hu
  · refine .quiet (fun _ => rfl) fun q hq => ?_
    cases hq
    simp [Store.orderStatus, Table.get?, hout]
  · exact .written rfl (.inr rfl) (orderStatus_set_self (Table.get?_eq_some.mp hget).1)
      fun k hk => orderStatus_set_ne hk

theorem ordered_status (hi : Inv n s) {items : List OrderItem} :
    StatusStep s (createOrder s o items) none := by
  refine .edges (fun id current hc => ⟨current, ?_, .inl rfl⟩) (by simp)
  obtain ⟨r, hr, hrc⟩ := Option.map_eq_some_iff.mp hc
  obtain ⟨hid, hrow⟩ := Table.get?_eq_some.mp hr
  have hne : id ≠ s.nextID := by
    have := hi.fresh id hid
    omega
  simp [Store.orderStatus, createOrder, Table.get?, Table.insert, hid, hne, hrow, hrc]

/-- What the commit of a webhook publishes is what the handler has written. -/
theorem commit_status {u : Payment.Thread} {l : Payment.Loaded} (ho : Outline i s (.payment u)) :
    StatusStep s (Payment.commitSettlement i s u l) u.ordered := by
  have hids : (Payment.commitSettlement i s u l).orders.ids = s.orders.ids := rfl
  have hother : ∀ k, (∀ o, (s.orders.row k).draft ≠ some (i, o)) →
      (Payment.commitSettlement i s u l).orderStatus k = s.orderStatus k := by
    intro k hk
    refine orderStatus_of_rows hids ?_
    exact congrArg (fun r : Row Order => r.committed.status) (Row.commit_other hk)
  cases hu : u.ordered with
  | none =>
    refine .quiet (fun id => hother id fun o hd => ?_) (by simp)
    obtain ⟨v, hv⟩ := ho.owns id o hd
    rw [Thread.ordered, hu] at hv
    cases hv
  | some p =>
    obtain ⟨id, v⟩ := p
    obtain ⟨hid, o, hd, rfl⟩ := ho.wrote id v hu
    have hv : o.status = .paid ∨ o.status = .canceled := by
      have hmark : ∀ l, ∀ w ∈ u.marks l, w = .paid ∨ w = .canceled := by
        intro l w hw
        simp only [Payment.Thread.marks, Option.mem_def] at hw
        unfold Payment.marking at hw
        split at hw
        · split at hw <;> simp_all
        · split at hw <;> simp_all
        · split at hw <;> simp_all
        · cases hw
      unfold Payment.Thread.ordered at hu
      obtain ⟨l', _, hl'⟩ := Option.bind_eq_some_iff.mp hu
      split at hl'
      · cases hl'
      · obtain ⟨w, hw, he⟩ := Option.map_eq_some_iff.mp hl'
        cases he
        exact hmark l' _ hw
    refine .written rfl hv ?_ fun k hk => hother k fun o' hd' => ?_
    · have hrow : ((Payment.commitSettlement i s u l).orders.row id) = ⟨o, none⟩ :=
        Row.commit_own hd
      simp only [Store.orderStatus, Table.get?, hids, if_pos hid, Option.map_some, hrow]
    · obtain ⟨w, hw⟩ := ho.owns k o' hd'
      rw [Thread.ordered, hu] at hw
      cases hw
      exact hk rfl

theorem rollback_status : StatusStep s (s.rollback i) none := by
  have hids : (s.rollback i).orders.ids = s.orders.ids := rfl
  refine .quiet (fun id => orderStatus_of_rows hids ?_) (by simp)
  exact congrArg Order.status Row.rollback_committed

theorem commit_step_status {u : Payment.Thread} {l : Payment.Loaded}
    (ho : Outline i s (.payment u)) (hpc : u.pc = .commit l)
    (h : Payment.webhookStep cfg.payment i s u x = some (s', u')) :
    StatusStep s s' (Thread.publishes (.payment u) x) := by
  cases x with
  | fail err =>
    simp only [Payment.webhookStep, hpc, Payment.abort] at h
    cases h
    exact rollback_status
  | ok =>
    simp only [Thread.publishes, hpc]
    simp only [Payment.webhookStep, hpc, Payment.abort] at h
    by_cases ha : u.aborted = true
    · have hnone : u.ordered = none := by
        simp [Payment.Thread.ordered, hpc, Payment.Pc.passed, ha]
      rw [if_pos ha] at h
      cases h
      rw [hnone]
      exact rollback_status
    · rw [if_neg ha] at h
      cases h
      exact commit_status ho

theorem payment_status {u : Payment.Thread} (ho : Outline i s (.payment u))
    (h : Payment.webhookStep cfg.payment i s u x = some (s', u')) :
    StatusStep s s' (Thread.publishes (.payment u) x) := by
  by_cases hc : ∃ l, u.pc = .commit l
  · obtain ⟨l, hpc⟩ := hc
    exact commit_step_status ho hpc h
  · have hp : Thread.publishes (.payment u) x = none := by
      cases x with
      | fail err => rfl
      | ok =>
        simp only [Thread.publishes]
        split
        · rename_i l hpc
          exact absurd ⟨l, hpc⟩ hc
        · rfl
    rw [hp]
    have he := Payment.order_effect ho.planned (Payment.step_effect h)
    cases he with
    | quiet hs _ _ => exact .quiet (fun id => by rw [Store.orderStatus, hs]; rfl) (by simp)
    | write _ _ hm _ _ =>
      refine .quiet (fun k => orderStatus_of_rows (Table.modify_ids hm) ?_) (by simp)
      rw [Table.modify_committed hm]
    | abort hs _ => exact hs ▸ rollback_status
    | commit hpc _ _ _ => exact absurd ⟨_, hpc⟩ hc

theorem step_status (hi : Inv n s) (ho : Outline i s t)
    (h : shopStep cfg i s t x = some (s', t')) : StatusStep s s' (t.publishes x) := by
  obtain ⟨u, u', rfl, rfl, hs⟩ | ⟨hp, _, hc⟩ := step_change h
  · exact payment_status ho hs
  · have hnone : (∀ id, t = .cancel (.updateOrder id) → x ≠ .ok) → t.publishes x = none := by
      intro hne
      cases t with
      | payment u => cases hp
      | cancel pc =>
        cases pc <;> cases x <;> first | rfl | exact absurd rfl (hne _ rfl)
      | _ => cases x <;> rfl
    by_cases hcan : ∃ id, t = .cancel (.updateOrder id) ∧ x = .ok
    · obtain ⟨id, rfl, rfl⟩ := hcan
      obtain ⟨pc', hs, rfl⟩ := lifted_inv h
      obtain ⟨s₂, hu, he⟩ := Option.map_eq_some_iff.mp hs
      cases he
      exact cancel_status hu
    · rw [hnone fun id ht hx => hcan ⟨id, ht, hx⟩]
      cases hc with
      | own hs _ => exact .quiet (fun id => by rw [hs]; rfl) (by simp)
      | carted ho => exact .quiet (fun id => by rw [ho.frame.1]; rfl) (by simp)
      | guarded hu => exact guarded_status hu
      | @canceled id _ ht hx hu => exact absurd ⟨id, ht, hx⟩ hcan
      | ordered => exact ordered_status hi
      | claimed _ _ => exact .quiet (fun _ => rfl) (by simp)

theorem edgeStep_iff_careful {a : Label} (hg : Guarded Inv Outline c)
    (h : (shopMachine cfg).step c a = some d) : EdgeStep cfg c a ↔ Careful c a := by
  have hd : EdgeStep cfg c a ↔ ∀ id, ∀ current ∈ c.shared.orderStatus id,
      ∃ next ∈ d.shared.orderStatus id, OrderEdge current next := by
    refine ⟨fun he => he d h, fun he e hstep => ?_⟩
    obtain rfl : d = e := Option.some.inj (h.symm.trans hstep)
    exact he
  rw [hd]
  suffices StatusStep c.shared d.shared (publishes c a) from this.iff
  cases Machine.step_effect h with
  | spawn r =>
    exact .quiet (fun _ => rfl) (by simp [publishes])
  | @act i _ t _ _ ht hl =>
    rw [publishes, ht]
    exact step_status hg.1 (hg.2 i t ht) hl
  | env he =>
    cases he
    exact .quiet (fun _ => rfl) (by simp [publishes])

/-! ## Runs -/

theorem ready_guarded {s₀ : Store} (hs : Ready s₀) : Guarded Inv Outline (⟨s₀, []⟩ : State) :=
  guarded_start ⟨fun id i o hd => absurd hd (by simp [hs.unlocked]), hs.fresh⟩

theorem stays_along_edges {Q : OrderStatus → Prop}
    (hQ : ∀ current next, Q current → OrderEdge current next → Q next)
    {acts : List Label} (hm : Meets (shopMachine cfg).step (EdgeStep cfg) c acts)
    (hr : run (shopMachine cfg).step c acts = some d)
    (hc : ∃ current ∈ c.shared.orderStatus id, Q current) :
    ∃ current ∈ d.shared.orderStatus id, Q current := by
  refine run_inv (I := fun c => ∃ current ∈ c.shared.orderStatus id, Q current) ?_ hc hm hr
  intro c a d hc hedge hstep
  obtain ⟨current, hcur, hq⟩ := hc
  obtain ⟨next, hn, he⟩ := hedge d hstep id current hcur
  exact ⟨next, hn, hQ current next hq he⟩

/-- The order has left the warehouse's desk: it is packed or further. -/
def Sent (status : OrderStatus) : Prop :=
  status = .packed ∨ status = .shipped ∨ status = .outForDelivery ∨ status = .delivered

theorem sent_edge (current next : OrderStatus) (h : Sent current) (he : OrderEdge current next) :
    Sent next := by
  revert h he
  unfold Sent
  cases current <;> cases next <;> decide

theorem canceled_edge (current next : OrderStatus) (h : current = .canceled)
    (he : OrderEdge current next) : next = .canceled := by
  subst h
  revert he
  cases next <;> decide

/-- In every run of the shop, every change of a status is an edge of the table
exactly when every unguarded write is published over a status that has the edge;
and along such a run a canceled order stays canceled and one that is packed or
further stays so. -/
theorem status_edges_iff (cfg : Config) (s₀ : Store) (hs : Ready s₀) (acts : List Label)
    (c : State) (hr : run (shopMachine cfg).step ⟨s₀, []⟩ acts = some c) :
    (Meets (shopMachine cfg).step (EdgeStep cfg) ⟨s₀, []⟩ acts ↔
      Meets (shopMachine cfg).step Careful ⟨s₀, []⟩ acts) ∧
    (Meets (shopMachine cfg).step Careful ⟨s₀, []⟩ acts →
      ∀ before after b, acts = before ++ after →
        run (shopMachine cfg).step ⟨s₀, []⟩ before = some b → ∀ id,
          (b.shared.orderStatus id = some .canceled → c.shared.orderStatus id = some .canceled) ∧
          ((∃ current ∈ b.shared.orderStatus id, Sent current) →
            ∃ current ∈ c.shared.orderStatus id, Sent current)) := by
  have hiff : Meets (shopMachine cfg).step (EdgeStep cfg) ⟨s₀, []⟩ acts ↔
      Meets (shopMachine cfg).step Careful ⟨s₀, []⟩ acts :=
    meets_congr (I := Guarded Inv Outline) (fun _ _ _ hg h => guarded_orders hg h)
      (fun _ _ _ hg h => edgeStep_iff_careful hg h) (ready_guarded hs) hr
  refine ⟨hiff, fun hcare before after b hsplit hb id => ?_⟩
  have hedge := hiff.mpr hcare
  subst hsplit
  obtain ⟨m, hm, hrest⟩ := run_append hr
  obtain rfl : m = b := Option.some.inj (hm.symm.trans hb)
  have hafter := (hedge.append hb).2
  refine ⟨fun hcan => ?_, fun hsent => stays_along_edges sent_edge hafter hrest hsent⟩
  obtain ⟨current, hcur, rfl⟩ := stays_along_edges canceled_edge hafter hrest ⟨_, hcan, rfl⟩
  exact hcur

/-! ## Runs on one order -/

def cancelRequest : Request := .cancel ⟨some "1", "7"⟩

/-- The order is paid, packed and shipped, while a cancellation comes too late. -/
def orderlyRun : List Label :=
  request 0 paidNotice 9 ++ request 1 cancelRequest 1 ++
    request 2 (.shipping (.create ⟨7, "jne", ""⟩)) 4 ++
    request 3 (.courier ⟨"jne", "", fun name => if name = "orderId" then "7" else "shipped"⟩) 6

theorem shipped_along_edges :
    ∃ c, run (shopMachine plainShop).step ⟨openOrder, []⟩ orderlyRun = some c ∧
      c.shared.orderStatus 7 = some .shipped ∧
      Meets (shopMachine plainShop).step (EdgeStep plainShop) ⟨openOrder, []⟩ orderlyRun := by
  have hready : Ready openOrder := ⟨fun _ => rfl, by simp [openOrder]⟩
  exact reaches_and (by decide +kernel) fun c hc _ =>
    (status_edges_iff plainShop openOrder hready orderlyRun c hc).1.mpr (by decide +kernel)

/-- A PAID notification after the cancellation makes the canceled order PAID. A
cancellation that has read PENDING_PAYMENT before the order was paid and packed
makes the packed order CANCELED. -/
theorem canceled_becomes_paid :
    ((run (shopMachine plainShop).step ⟨openOrder, []⟩ (request 0 cancelRequest 2)).map
      fun c => c.shared.orderStatus 7) = some (some .canceled) ∧
    ((run (shopMachine plainShop).step ⟨openOrder, []⟩
        (request 0 cancelRequest 2 ++ request 1 paidNotice 9)).map
      fun c => c.shared.orderStatus 7) = some (some .paid) ∧
    ((run (shopMachine plainShop).step ⟨openOrder, []⟩
        (request 0 cancelRequest 1 ++ request 1 paidNotice 9 ++
          request 2 (.shipping (.create ⟨7, "jne", ""⟩)) 4)).map
      fun c => c.shared.orderStatus 7) = some (some .packed) ∧
    ((run (shopMachine plainShop).step ⟨openOrder, []⟩
        (request 0 cancelRequest 1 ++ request 1 paidNotice 9 ++
          request 2 (.shipping (.create ⟨7, "jne", ""⟩)) 4 ++ [.act 0 .ok])).map
      fun c => c.shared.orderStatus 7) = some (some .canceled) := by
  decide +kernel

end TokoApi.Shop
