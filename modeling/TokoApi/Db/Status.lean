import Mathlib.Tactic.TypeStar
import TokoApi.Lib.Text

/-!
# Status enums and the tables that relate them

The enums of the schema, the edge table in the WHERE clause of
`UpdateOrderStatusIfAllowed` (orders_status.sql) and the Go functions that rank
and translate statuses. `orderStatusRank` stands, word for word, in both the
order and the shipping package.
-/
namespace TokoApi.Db

open Lib.Text

inductive OrderStatus where
  | pendingPayment | paid | packed | shipped | outForDelivery | delivered | canceled
  deriving DecidableEq, Repr

/-- The labels of the enum `order_status`. -/
def OrderStatus.label : OrderStatus → String
  | .pendingPayment => "PENDING_PAYMENT"
  | .paid => "PAID"
  | .packed => "PACKED"
  | .shipped => "SHIPPED"
  | .outForDelivery => "OUT_FOR_DELIVERY"
  | .delivered => "DELIVERED"
  | .canceled => "CANCELED"

def OrderStatus.all : List OrderStatus :=
  [.pendingPayment, .paid, .packed, .shipped, .outForDelivery, .delivered, .canceled]

inductive PaymentStatus where
  | pending | paid | failed | expired | refunded
  deriving DecidableEq, Repr

inductive ShipmentStatus where
  | pending | picked | inTransit | shipped | outForDelivery | delivered | returned
  deriving DecidableEq, Repr

/-- The edge table of `UpdateOrderStatusIfAllowed`. -/
def allowedOrderTransition (current next : OrderStatus) : Bool :=
  match current with
  | .pendingPayment => next = .paid || next = .canceled
  | .paid => next = .packed || next = .canceled
  | .packed => next = .shipped
  | .shipped => next = .outForDelivery
  | .outForDelivery => next = .delivered
  | .delivered => false
  | .canceled => false

def orderStatusRank : OrderStatus → Int
  | .pendingPayment => 0
  | .paid => 1
  | .packed => 2
  | .shipped => 3
  | .outForDelivery => 4
  | .delivered => 5
  | .canceled => -1

/-- shipping/service.go. -/
def allowedShipmentTransition (current next : ShipmentStatus) : Bool :=
  if current = next then true
  else
    match current with
    | .pending => next = .shipped
    | .shipped => next = .outForDelivery || next = .delivered
    | .outForDelivery => next = .delivered
    | _ => false

def shipmentToOrderStatus : ShipmentStatus → Option OrderStatus
  | .shipped => some .shipped
  | .outForDelivery => some .outForDelivery
  | .delivered => some .delivered
  | _ => none

/-- order/admin_handlers.go. -/
def isAllowedAdminTarget : OrderStatus → Bool
  | .packed | .shipped | .outForDelivery | .delivered | .canceled => true
  | _ => false

/-- payment/webhook.go; what is not known is pending. -/
def normaliseWebhookStatus (status : String) : PaymentStatus :=
  match toUpper (trimSpace status) with
  | "PAID" | "SUCCESS" | "SETTLED" => .paid
  | "FAILED" | "CANCELED" | "DENY" => .failed
  | "EXPIRED" => .expired
  | _ => .pending

/-- shipping/statusmap.go. -/
def mapExternalToStatus (external : String) : ShipmentStatus :=
  match toLower (trimSpace external) with
  | "picked" | "pickup" => .picked
  | "shipped" | "in_transit" | "in-transit" => .shipped
  | "out_for_delivery" | "out-for-delivery" => .outForDelivery
  | "delivered" => .delivered
  | _ => .pending

/-- A change of the status column that the edge table has, or no change. -/
abbrev OrderEdge (current next : OrderStatus) : Prop :=
  current = next ∨ allowedOrderTransition current next = true

theorem allowed_shipment_iff {target : OrderStatus} {status : ShipmentStatus}
    (current : OrderStatus) (h : shipmentToOrderStatus status = some target) :
    allowedOrderTransition current target = true ↔
      orderStatusRank current + 1 = orderStatusRank target := by
  cases status <;> simp [shipmentToOrderStatus] at h <;> subst h <;> cases current <;> decide

theorem eq_delivered_of_rank {status : OrderStatus}
    (h : orderStatusRank .delivered ≤ orderStatusRank status) : status = .delivered := by
  cases status <;> first | rfl | exact absurd h (by decide)

end TokoApi.Db
