import TokoApi.Shipping.Service

/-!
# Shipment events and the status of the order

Calls to the service one after the other, with nobody else writing the order. A
call that returns no error should leave the order at least at the status the
event stands for. It does exactly when the order is at most one status behind
before the call: the edge table moves an order by one status, and a refused
update is not reported.
-/
namespace TokoApi.Shipping

open Db Lib.Rows Lib.Threads Lib.Runs

def Thread.finished : Thread → Bool
  | .create _ (.returned _) | .append _ (.returned _) => true
  | _ => false

/-- The calls to the service in the order they are made, each to its end. -/
def serial : Store → Turn Request Call Nat → Option Store := serviceMachine.serial Thread.finished

/-- The arguments and the outcome of an `AppendEvent` that returns no error. -/
def appended (s : Store) : Turn Request Call Nat → Option (EventArgs × Store)
  | .call (.append a) xs =>
    match serviceMachine.alone 0 (s, .append a .getShipment) xs with
    | some (s', .append _ (.returned (.ok _))) => some (a, s')
    | _ => none
  | _ => none

/-- An event that is recorded leaves the order at the status it stands for or
beyond; the order of a delivered shipment is delivered. -/
abbrev Synced (s : Store) (l : Turn Request Call Nat) : Prop :=
  ∀ p ∈ appended s l, ∀ target ∈ shipmentToOrderStatus p.1.status,
    ∃ status ∈ p.2.orderStatus p.1.orderID, orderStatusRank target ≤ orderStatusRank status ∧
      (p.1.status = .delivered → status = .delivered)

/-- An event is recorded only while the order is at most one status behind it. -/
abbrev OneBehind (s : Store) (l : Turn Request Call Nat) : Prop :=
  ∀ p ∈ appended s l, ∀ target ∈ shipmentToOrderStatus p.1.status,
    ∃ status ∈ s.orderStatus p.1.orderID, orderStatusRank target ≤ orderStatusRank status + 1

def Unlocked (s : Store) : Prop := ∀ id, (s.orders.row id).draft = none

/-! ## One call -/

/-- What an `AppendEvent` called in `s₀` has done by the time it is at a point. A
call that has returned has moved the order along an edge to its target, or has
left it alone because it is there already or because there is no edge. -/
def Outline (s₀ : Store) (a : EventArgs) (s : Store) : EventPc → Prop
  | .getShipment | .insertEvent _ _ | .updateShipment _ _ _ => s.orders = s₀.orders
  | .getOrderStatus target _ _ =>
    s.orders = s₀.orders ∧ shipmentToOrderStatus a.status = some target
  | .updateOrder target _ _ =>
    s.orders = s₀.orders ∧ shipmentToOrderStatus a.status = some target ∧
      ∃ current ∈ s₀.orderStatus a.orderID, orderStatusRank current < orderStatusRank target
  | .returned (.ok _) => ∀ target ∈ shipmentToOrderStatus a.status,
      ∃ current ∈ s₀.orderStatus a.orderID,
        (allowedOrderTransition current target = true ∧ s.orderStatus a.orderID = some target) ∨
        (s.orderStatus a.orderID = some current ∧
          (orderStatusRank target ≤ orderStatusRank current ∨
            allowedOrderTransition current target = false))
  | .returned (.error _) => True

variable {s s' : Store} {a : EventArgs}

theorem orderStatus_congr (h : s'.orders = s.orders) (id : Nat) :
    s'.orderStatus id = s.orderStatus id := by
  rw [Store.orderStatus, Store.orderStatus, h]

theorem getOrderStatus_unlocked (hs : Unlocked s) (i id : Nat) :
    getOrderStatus i s id = s.orderStatus id := by
  unfold getOrderStatus getOrderByID Store.orderStatus
  cases hr : s.orders.get? id with
  | none => rfl
  | some r =>
    obtain ⟨_, rfl⟩ := Table.get?_eq_some.mp hr
    have hd : ∀ a, (s.orders.row id).draft ≠ some (i, a) := by
      intro a ha
      rw [hs id] at ha
      cases ha
    simp only [Option.map_some, Row.read_of_draft hd]

theorem outline_updateOrder {s₀ : Store} {target : OrderStatus} {b : Bool}
    (ho : s.orders = s₀.orders) (ht : shipmentToOrderStatus a.status = some target)
    {current : OrderStatus} (hc : s₀.orderStatus a.orderID = some current)
    (hu : updateOrderStatusIfAllowed s a.orderID target = some (s', b))
    (r : ShipmentEvent × Shipment) : Outline s₀ a s' (.returned (.ok r)) := by
  intro target' ht'
  obtain rfl : target = target' := Option.some.inj (ht.symm.trans ht')
  refine ⟨current, hc, ?_⟩
  rw [← orderStatus_congr ho] at hc
  obtain ⟨rfl, hno⟩ | ⟨o, hget, hyes, rfl⟩ := updateOrderStatusIfAllowed_inv hu
  · exact .inr ⟨hc, .inr (hno current hc)⟩
  · have hcur : o.status = current := by simpa [Store.orderStatus, hget] using hc
    rw [hcur] at hyes
    refine .inl ⟨hyes, ?_⟩
    have hin : a.orderID ∈ s.orders.ids := (Table.get?_eq_some.mp hget).1
    simp [Store.orderStatus, Table.get?, hin]

theorem outline_step {i : Nat} {s₀ : Store} {pc pc' : EventPc} {x : Call}
    (hs : Unlocked s₀) (ho : Outline s₀ a s pc) (h : eventStep i s a pc x = some (s', pc')) :
    Outline s₀ a s' pc' := by
  cases pc <;> cases x <;> simp only [eventStep] at h
  case getShipment.ok =>
    split at h
    · cases h
      trivial
    · split at h <;> cases h
      · exact ho
      · trivial
  case insertEvent.ok id sh =>
    cases h
    exact ho
  case updateShipment.ok id sh e =>
    have hframe : (updateShipmentStatus s id a.status).1.orders = s.orders := by
      unfold updateShipmentStatus
      split <;> rfl
    split at h
    · cases h
      trivial
    · rename_i s₁ hup
      rw [hup] at hframe
      split at h <;> cases h
      · rename_i hnone
        intro target ht
        rw [hnone] at ht
        cases ht
      · rename_i target hsome
        exact ⟨hframe.trans ho, hsome⟩
  case getOrderStatus.ok target e sh =>
    obtain ⟨ho, ht⟩ := ho
    have hun : Unlocked s := fun id => by rw [ho]; exact hs id
    rw [getOrderStatus_unlocked hun, orderStatus_congr ho] at h
    split at h
    · cases h
      trivial
    · rename_i current hc
      split at h <;> cases h
      · rename_i hle
        intro target' ht'
        obtain rfl : target = target' := Option.some.inj (ht.symm.trans ht')
        exact ⟨current, hc, .inr ⟨by rw [orderStatus_congr ho, hc], .inl hle⟩⟩
      · rename_i hlt
        exact ⟨ho, ht, current, hc, by omega⟩
  case updateOrder.ok target e sh =>
    obtain ⟨ho, ht, current, hc, _⟩ := ho
    obtain ⟨⟨s₁, b⟩, hu, he⟩ := Option.map_eq_some_iff.mp h
    cases he
    exact outline_updateOrder ho ht hc hu (e, sh)
  all_goals cases h <;> trivial

theorem append_outline {xs : List Call} {t : Thread}
    (hs : Unlocked s) (h : serviceMachine.alone 0 (s, .append a .getShipment) xs = some (s', t)) :
    ∃ pc, t = .append a pc ∧ Outline s a s' pc := by
  have hstart : Outline s a s .getShipment := rfl
  refine Machine.alone_inv (J := fun p => ∃ pc, p.2 = .append a pc ∧ Outline s a p.1 pc)
    (fun p x q hp hl => ?_) ⟨.getShipment, rfl, hstart⟩ h
  obtain ⟨pc, hpc, ho⟩ := hp
  simp only [serviceMachine, hpc] at hl
  obtain ⟨⟨s₁, pc'⟩, hstep, rfl⟩ := Option.map_eq_some_iff.mp hl
  exact ⟨pc', rfl, outline_step hs ho hstep⟩

theorem reached_iff {status : ShipmentStatus} {target current after : OrderStatus}
    (ht : shipmentToOrderStatus status = some target)
    (h : (allowedOrderTransition current target = true ∧ after = target) ∨
      (after = current ∧ (orderStatusRank target ≤ orderStatusRank current ∨
        allowedOrderTransition current target = false))) :
    orderStatusRank target ≤ orderStatusRank after ↔
      orderStatusRank target ≤ orderStatusRank current + 1 := by
  have hedge := allowed_shipment_iff current ht
  obtain ⟨hyes, rfl⟩ | ⟨rfl, hle | hno⟩ := h
  · have := hedge.mp hyes
    omega
  · omega
  · have hne : ¬ orderStatusRank after + 1 = orderStatusRank target := by
      intro he
      rw [hedge.mpr he] at hno
      cases hno
    omega

theorem synced_iff_oneBehind (hs : Unlocked s) (l : Turn Request Call Nat) :
    Synced s l ↔ OneBehind s l := by
  refine forall₂_congr fun p hp => forall₂_congr fun target ht => ?_
  obtain ⟨a, s'⟩ := p
  have hout : ∃ current ∈ s.orderStatus a.orderID, ∃ after ∈ s'.orderStatus a.orderID,
      (allowedOrderTransition current target = true ∧ after = target) ∨
      (after = current ∧ (orderStatusRank target ≤ orderStatusRank current ∨
        allowedOrderTransition current target = false)) := by
    unfold appended at hp
    split at hp
    · rename_i a' xs
      split at hp
      · rename_i s₁ a₁ r halone
        cases hp
        obtain ⟨pc, hpc, ho⟩ := append_outline hs halone
        cases hpc
        obtain ⟨current, hc, hcase⟩ := ho target ht
        refine ⟨current, hc, ?_⟩
        obtain ⟨hyes, hafter⟩ | ⟨hafter, hno⟩ := hcase
        · exact ⟨target, hafter, .inl ⟨hyes, rfl⟩⟩
        · exact ⟨current, hafter, .inr ⟨rfl, hno⟩⟩
      · cases hp
    · cases hp
  obtain ⟨current, hc, after, ha, hcase⟩ := hout
  have hiff := reached_iff ht hcase
  have hdel : a.status = .delivered → orderStatusRank target ≤ orderStatusRank after →
      after = .delivered := by
    intro hd hle
    simp only [hd, shipmentToOrderStatus, Option.mem_def, Option.some.injEq] at ht
    subst ht
    exact eq_delivered_of_rank hle
  simp only [Option.mem_def] at hc ha
  simp only [hc, ha, Option.mem_def, Option.some.injEq, exists_eq_left']
  exact ⟨fun h => hiff.mp h.1, fun h => ⟨hiff.mpr h, fun hd => hdel hd (hiff.mpr h)⟩⟩

/-! ## Runs of calls -/

theorem unlocked_step {i : Nat} {t t' : Thread} {x : Call} (hs : Unlocked s)
    (h : serviceStep i s t x = some (s', t')) : Unlocked s' := by
  obtain ⟨hf, _⟩ | ⟨id, status, b, hu⟩ := serviceStep_inv h
  · rw [hf]
    exact hs
  · obtain ⟨rfl, _⟩ | ⟨o, _, _, rfl⟩ := updateOrderStatusIfAllowed_inv hu
    · exact hs
    · intro k
      by_cases hk : k = id
      · subst k
        simp
      · simp only [Table.set_row_ne _ _ hk]
        exact hs k

theorem unlocked_serial {l : Turn Request Call Nat} (hs : Unlocked s)
    (h : serial s l = some s') : Unlocked s' := by
  refine Machine.serial_inv (I := Unlocked) (fun s t x s' t' hs hl => unlocked_step hs hl) ?_ hs h
  intro s e s' hs he
  cases he
  exact hs

/-- Along every sequence of calls to the service, every `AppendEvent` that returns
no error leaves the order at its target or beyond, exactly when every one of them
is made while the order is at most one status behind. -/
theorem events_sync_order_iff (s₀ s : Store) (hs : Unlocked s₀)
    (calls : List (Turn Request Call Nat)) (hr : run serial s₀ calls = some s) :
    Meets serial Synced s₀ calls ↔ Meets serial OneBehind s₀ calls :=
  meets_congr (I := Unlocked) (fun _ _ _ hs h => unlocked_serial hs h)
    (fun _ l _ hs _ => synced_iff_oneBehind hs l) hs hr

/-! ## Runs on one order -/

def paidOrder : Store :=
  { emptyStore with
    orders := ⟨[7], fun _ => .free ⟨some 1, none, .paid, 0, 0, 0, 0, 0, none, 0⟩⟩ }

def created : Turn Request Call Nat := .call (.create ⟨7, "jne", "TRACK123"⟩) (.replicate 4 .ok)

def recorded (status : ShipmentStatus) (n : Nat) : Turn Request Call Nat :=
  .call (.append ⟨7, status, none, none, none, ""⟩) (.replicate n .ok)

/-- The path of the service's own test. -/
theorem delivered_by_steps :
    ∃ s, run serial paidOrder
        [created, recorded .shipped 5, recorded .outForDelivery 5, recorded .delivered 5] = some s ∧
      s.orderStatus 7 = some .delivered ∧
      Meets serial Synced paidOrder
        [created, recorded .shipped 5, recorded .outForDelivery 5, recorded .delivered 5] :=
  reaches_and (by decide) fun s hs _ =>
    (events_sync_order_iff paidOrder s (fun _ => rfl) _ hs).mpr (by decide)

/-- A shipment may be delivered right after it was shipped; its order then stays
SHIPPED, and no later event moves it. -/
theorem delivered_left_shipped :
    ((run serial paidOrder [created, recorded .shipped 5, recorded .delivered 5,
        recorded .delivered 5]).map fun s =>
      (s.orderStatus 7, (getShipmentByOrder s 7).map fun p => p.2.status)) =
        some (some .shipped, some .delivered) ∧
    ¬ Meets serial Synced paidOrder
      [created, recorded .shipped 5, recorded .delivered 5] := by
  decide

end TokoApi.Shipping
