import TokoApi.Lib.Threads
import TokoApi.Db.Tables

/-!
# The shipping service

`Create` and `AppendEvent` of shipping/service.go, one step for each statement.
None of them runs in a transaction: every statement is its own, and a call that
fails half way leaves what it has written. `notify` and `emit` come after the
last statement, report nothing back and change none of the tables; they are left
out.

Two tables of edges meet here. `allowedShipmentTransition` decides which event a
shipment accepts, and the WHERE clause of `UpdateOrderStatusIfAllowed` which
status the order may take; a refusal of the second is not reported.
-/
namespace TokoApi.Shipping

open Db Lib.Threads

inductive Error where
  | noRows
  | orderNotEligible
  | shipmentAlreadyExists
  | invalidShipmentTransition
  | store (err : String)
  deriving DecidableEq

def Error.text : Error → String
  | .noRows => "no rows in result set"
  | .orderNotEligible => "order status does not allow creating a shipment"
  | .shipmentAlreadyExists => "shipment already exists for order"
  | .invalidShipmentTransition => "invalid shipment status transition"
  | .store err => err

/-- The empty string is stored as NULL. -/
def optionalText (value : String) : Option String := if value = "" then none else some value

def optionalNullableText (value : Option String) : Option String := value.bind optionalText

/-! ## Create -/

structure CreateArgs where
  orderID : Nat
  courier : String
  tracking : String
  deriving DecidableEq

inductive CreatePc where
  | getOrder
  | getShipment
  | createShipment
  | updateOrder (shipment : Shipment)
  | returned (r : Except Error Shipment)
  deriving DecidableEq

/-- The row that `CreateShipment` inserts at time `now`. -/
def CreateArgs.shipment (a : CreateArgs) (now : Int) : Shipment where
  orderID := a.orderID
  status := .pending
  courier := optionalText a.courier
  trackingNumber := optionalText a.tracking
  lastStatus := some .pending
  lastEventAt := some now

def createStep (i : Nat) (s : Store) (a : CreateArgs) : CreatePc → Call → Option (Store × CreatePc)
  | .getOrder, .fail err => some (s, .returned (.error (.store err)))
  | .getOrder, .ok =>
    match getOrderByID i s a.orderID with
    | none => some (s, .returned (.error .noRows))
    | some o =>
      if o.status ≠ .paid ∧ o.status ≠ .packed then some (s, .returned (.error .orderNotEligible))
      else some (s, .getShipment)
  | .getShipment, .fail err => some (s, .returned (.error (.store err)))
  | .getShipment, .ok =>
    match getShipmentByOrder s a.orderID with
    | some _ => some (s, .returned (.error .shipmentAlreadyExists))
    | none => some (s, .createShipment)
  | .createShipment, .fail err => some (s, .returned (.error (.store err)))
  | .createShipment, .ok =>
    some (createShipment s (a.shipment s.now), .updateOrder (a.shipment s.now))
  | .updateOrder _, .fail err => some (s, .returned (.error (.store err)))
  -- no rows is not an error here
  | .updateOrder shipment, .ok =>
    (updateOrderStatusIfAllowed s a.orderID .packed).map fun (s', _) => (s', .returned (.ok shipment))
  | .returned _, _ => none

/-! ## AppendEvent and syncOrderStatus -/

structure EventArgs where
  orderID : Nat
  status : ShipmentStatus
  description : Option String
  location : Option String
  occurredAt : Option Int
  payload : String
  deriving DecidableEq

/-- The row that `InsertShipmentEvent` writes at time `now`. -/
def EventArgs.event (a : EventArgs) (shipmentID : Nat) (now : Int) : ShipmentEvent where
  shipmentID := shipmentID
  status := a.status
  description := optionalNullableText a.description
  location := optionalNullableText a.location
  occurredAt := a.occurredAt.getD now
  rawPayload := a.payload

/-- The shipment as `AppendEvent` returns it. -/
def EventArgs.updated (a : EventArgs) (shipment : Shipment) (event : ShipmentEvent) : Shipment :=
  { shipment with
    status := a.status
    lastStatus := some a.status
    lastEventAt := some (a.occurredAt.getD event.occurredAt) }

abbrev EventResult := Except Error (ShipmentEvent × Shipment)

/-- From `getOrderStatus` on the call works on a target status, with the values it
will return. What it returns next to an error nobody reads. -/
inductive EventPc where
  | getShipment
  | insertEvent (id : Nat) (shipment : Shipment)
  | updateShipment (id : Nat) (shipment : Shipment) (event : ShipmentEvent)
  | getOrderStatus (target : OrderStatus) (event : ShipmentEvent) (shipment : Shipment)
  | updateOrder (target : OrderStatus) (event : ShipmentEvent) (shipment : Shipment)
  | returned (r : EventResult)
  deriving DecidableEq

def eventStep (i : Nat) (s : Store) (a : EventArgs) : EventPc → Call → Option (Store × EventPc)
  | .getShipment, .fail err => some (s, .returned (.error (.store err)))
  | .getShipment, .ok =>
    match getShipmentByOrder s a.orderID with
    | none => some (s, .returned (.error .noRows))
    | some (id, shipment) =>
      if allowedShipmentTransition (shipment.lastStatus.getD shipment.status) a.status then
        some (s, .insertEvent id shipment)
      else some (s, .returned (.error .invalidShipmentTransition))
  | .insertEvent _ _, .fail err => some (s, .returned (.error (.store err)))
  | .insertEvent id shipment, .ok =>
    some (insertShipmentEvent s (a.event id s.now), .updateShipment id shipment (a.event id s.now))
  | .updateShipment _ _ _, .fail err => some (s, .returned (.error (.store err)))
  | .updateShipment id shipment event, .ok =>
    match updateShipmentStatus s id a.status with
    | (s', false) => some (s', .returned (.error .noRows))
    | (s', true) =>
      match shipmentToOrderStatus a.status with
      | none => some (s', .returned (.ok (event, a.updated shipment event)))
      | some target => some (s', .getOrderStatus target event (a.updated shipment event))
  | .getOrderStatus _ _ _, .fail err => some (s, .returned (.error (.store err)))
  | .getOrderStatus target event shipment, .ok =>
    match getOrderStatus i s a.orderID with
    | none => some (s, .returned (.error .noRows))
    | some current =>
      if orderStatusRank current ≥ orderStatusRank target then
        some (s, .returned (.ok (event, shipment)))
      else some (s, .updateOrder target event shipment)
  | .updateOrder _ _ _, .fail err => some (s, .returned (.error (.store err)))
  -- no rows is not an error here either
  | .updateOrder target event shipment, .ok =>
    (updateOrderStatusIfAllowed s a.orderID target).map fun (s', _) =>
      (s', .returned (.ok (event, shipment)))
  | .returned _, _ => none

variable {i : Nat} {s s' : Store} {x : Call}

theorem eventStep_inv {a : EventArgs} {pc pc' : EventPc}
    (h : eventStep i s a pc x = some (s', pc')) :
    s' = { s with shipments := s'.shipments, shipmentEvents := s'.shipmentEvents } ∨
      ∃ target b, updateOrderStatusIfAllowed s a.orderID target = some (s', b) := by
  cases pc <;> cases x <;> simp only [eventStep] at h
  case getShipment.ok =>
    split at h
    · cases h
      exact .inl rfl
    · split at h <;> cases h <;> exact .inl rfl
  case updateShipment.ok id sh e =>
    unfold updateShipmentStatus at h
    by_cases hid : id ∈ s.shipments.ids
    · simp only [hid, if_true] at h
      split at h <;> cases h <;> exact .inl rfl
    · simp only [hid, if_false] at h
      cases h
      exact .inl rfl
  case getOrderStatus.ok target e sh =>
    split at h
    · cases h
      exact .inl rfl
    · split at h <;> cases h <;> exact .inl rfl
  case updateOrder.ok target e sh =>
    obtain ⟨⟨s₁, b⟩, hu, he⟩ := Option.map_eq_some_iff.mp h
    cases he
    exact .inr ⟨target, b, hu⟩
  all_goals cases h <;> exact .inl rfl

theorem createStep_inv {a : CreateArgs} {pc pc' : CreatePc}
    (h : createStep i s a pc x = some (s', pc')) :
    (s' = { s with nextID := s'.nextID, shipments := s'.shipments } ∧ s.nextID ≤ s'.nextID) ∨
      ∃ b, updateOrderStatusIfAllowed s a.orderID .packed = some (s', b) := by
  cases pc <;> cases x <;> simp only [createStep] at h
  case getOrder.ok =>
    split at h
    · cases h
      exact .inl ⟨rfl, Nat.le_refl _⟩
    · split at h <;> cases h <;> exact .inl ⟨rfl, Nat.le_refl _⟩
  case getShipment.ok => split at h <;> cases h <;> exact .inl ⟨rfl, Nat.le_refl _⟩
  case createShipment.ok =>
    cases h
    exact .inl ⟨rfl, Nat.le_succ _⟩
  case updateOrder.ok sh =>
    obtain ⟨⟨s₁, b⟩, hu, he⟩ := Option.map_eq_some_iff.mp h
    cases he
    exact .inr ⟨b, hu⟩
  all_goals cases h <;> exact .inl ⟨rfl, Nat.le_refl _⟩

/-! ## The service -/

inductive Request where
  | create (a : CreateArgs)
  | append (a : EventArgs)

inductive Thread where
  | create (a : CreateArgs) (pc : CreatePc)
  | append (a : EventArgs) (pc : EventPc)
  deriving DecidableEq

def serviceStart : Request → Thread
  | .create a => .create a .getOrder
  | .append a => .append a .getShipment

def serviceStep (i : Nat) (s : Store) (t : Thread) (x : Call) : Option (Store × Thread) :=
  match t with
  | .create a pc => (createStep i s a pc x).map fun (s', pc') => (s', .create a pc')
  | .append a pc => (eventStep i s a pc x).map fun (s', pc') => (s', .append a pc')

def serviceMachine : Machine Store Thread Request Call Nat where
  start := serviceStart
  lstep := serviceStep
  estep := tick

theorem serviceStep_inv {t t' : Thread} (h : serviceStep i s t x = some (s', t')) : (s' = { s with
        nextID := s'.nextID, shipments := s'.shipments, shipmentEvents := s'.shipmentEvents } ∧
      s.nextID ≤ s'.nextID) ∨
      ∃ id status b, updateOrderStatusIfAllowed s id status = some (s', b) := by
  cases t with
  | create a pc =>
    obtain ⟨pc', hs, rfl⟩ := lifted_inv h
    obtain ⟨hf, hn⟩ | ⟨b, hu⟩ := createStep_inv hs
    · refine .inl ⟨?_, hn⟩
      rw [hf]
    · exact .inr ⟨a.orderID, .packed, b, hu⟩
  | append a pc =>
    obtain ⟨pc', hs, rfl⟩ := lifted_inv h
    obtain hf | ⟨target, b, hu⟩ := eventStep_inv hs
    · exact .inl ⟨by rw [hf], Nat.le_of_eq (by rw [hf])⟩
    · exact .inr ⟨a.orderID, target, b, hu⟩

end TokoApi.Shipping
