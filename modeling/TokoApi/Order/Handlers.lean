import TokoApi.Lib.Threads
import TokoApi.Db.Tables

/-!
# The order handlers

`Handler.Cancel` (order/handlers.go) and `AdminHandler.PatchStatus`
(order/admin_handlers.go), one step for each statement. Both read the status,
decide in Go and then update. `Cancel` updates whatever status the order has by
then; `PatchStatus` leaves the last word to the WHERE clause.
-/
namespace TokoApi.Order

open Db Lib.Threads

/-- What the handlers take from other packages: parsing of a UUID, and the status
field of a JSON body. -/
structure Library where
  toUUID : String → Option Nat
  decodeStatus : String → Option String

/-! ## Cancel -/

structure CancelRequest where
  userID : Option String
  orderID : String

inductive CancelPc where
  | getOrder (orderID userID : Nat)
  | updateOrder (orderID : Nat)
  | done (r : Response)
  deriving DecidableEq

def cancelStart (lib : Library) (r : CancelRequest) : CancelPc :=
  if r.userID.getD "" = "" then .done ⟨401, "UNAUTHORIZED", "authentication required"⟩
  else
    match lib.toUUID r.orderID, lib.toUUID (r.userID.getD "") with
    | none, _ => .done ⟨400, "BAD_REQUEST", "invalid order id"⟩
    | some _, none => .done ⟨400, "BAD_REQUEST", "invalid user id"⟩
    | some o, some u => .getOrder o u

def cancelStep (i : Nat) (s : Store) : CancelPc → Call → Option (Store × CancelPc)
  | .getOrder _ _, .fail _ => some (s, .done ⟨500, "INTERNAL", "order lookup failed"⟩)
  | .getOrder o u, .ok =>
    match getOrderByIDForUser i s o u with
    | none => some (s, .done ⟨404, "NOT_FOUND", "order not found"⟩)
    | some ord =>
      if ord.status ≠ .pendingPayment then
        some (s, .done ⟨400, "INVALID_STATE", "only pending orders can be canceled"⟩)
      else some (s, .updateOrder o)
  | .updateOrder _, .fail _ => some (s, .done ⟨500, "INTERNAL", "failed to cancel order"⟩)
  | .updateOrder o, .ok => (updateOrderStatus s o .canceled).map fun s' => (s', .done ⟨200, "", ""⟩)
  | .done _, _ => none

/-! ## PatchStatus -/

structure PatchRequest where
  orderID : String
  body : String

inductive PatchPc where
  | getOrderStatus (orderID : Nat) (target : OrderStatus)
  | updateOrder (orderID : Nat) (target : OrderStatus)
  | done (r : Response)
  deriving DecidableEq

def patchStart (lib : Library) (r : PatchRequest) : PatchPc :=
  match lib.toUUID r.orderID with
  | none => .done ⟨400, "BAD_REQUEST", "invalid order id"⟩
  | some o =>
    match lib.decodeStatus r.body with
    | none => .done ⟨400, "BAD_REQUEST", "invalid payload"⟩
    | some "" => .done ⟨400, "BAD_REQUEST", "status is required"⟩
    | some status =>
      -- a text that is no label is none of the admitted targets either
      match OrderStatus.all.find? fun o => o.label = status && isAllowedAdminTarget o with
      | none => .done ⟨400, "BAD_REQUEST", "unsupported status"⟩
      | some target => .getOrderStatus o target

def patchStep (i : Nat) (s : Store) : PatchPc → Call → Option (Store × PatchPc)
  | .getOrderStatus _ _, .fail _ => some (s, .done ⟨500, "INTERNAL", "failed to load order"⟩)
  | .getOrderStatus o target, .ok =>
    match getOrderStatus i s o with
    | none => some (s, .done ⟨404, "NOT_FOUND", "order not found"⟩)
    | some current =>
      if orderStatusRank current ≥ orderStatusRank target then
        some (s, .done ⟨409, "INVALID_STATE", "cannot transition to equal or previous state"⟩)
      else some (s, .updateOrder o target)
  | .updateOrder _ _, .fail _ => some (s, .done ⟨500, "INTERNAL", "failed to update order status"⟩)
  | .updateOrder o target, .ok =>
    match updateOrderStatusIfAllowed s o target with
    | none => none
    | some (s', false) => some (s', .done ⟨409, "INVALID_STATE", "state transition not allowed"⟩)
    | some (s', true) => some (s', .done noContent)
  | .done _, _ => none

/-! ## What one statement can do -/

theorem cancelStep_inv {i : Nat} {s s' : Store} {pc pc' : CancelPc} {x : Call}
    (h : cancelStep i s pc x = some (s', pc')) :
    s' = s ∨ ∃ o, pc = .updateOrder o ∧ x = .ok ∧ updateOrderStatus s o .canceled = some s' := by
  cases pc <;> cases x <;> simp only [cancelStep] at h
  case getOrder.ok =>
    split at h
    · cases h
      exact .inl rfl
    · split at h <;> cases h <;> exact .inl rfl
  case updateOrder.ok o =>
    obtain ⟨s₁, hu, he⟩ := Option.map_eq_some_iff.mp h
    cases he
    exact .inr ⟨o, rfl, rfl, hu⟩
  all_goals cases h <;> exact .inl rfl

theorem patchStep_inv {i : Nat} {s s' : Store} {pc pc' : PatchPc} {x : Call}
    (h : patchStep i s pc x = some (s', pc')) :
    s' = s ∨ ∃ id status b, updateOrderStatusIfAllowed s id status = some (s', b) := by
  cases pc <;> cases x <;> simp only [patchStep] at h
  case getOrderStatus.ok =>
    split at h
    · cases h
      exact .inl rfl
    · split at h <;> cases h <;> exact .inl rfl
  case updateOrder.ok o target =>
    split at h
    · cases h
    · rename_i s₁ hu
      cases h
      exact .inr ⟨o, target, false, hu⟩
    · rename_i s₁ hu
      cases h
      exact .inr ⟨o, target, true, hu⟩
  all_goals cases h <;> exact .inl rfl

end TokoApi.Order
