import TokoApi.Lib.Threads
import TokoApi.Db.Tables

/-!
# Opening a payment

`payment.Service.CreateIntent` (payment/service.go), one step for each statement.
The provider only computes a token, so its call belongs to the statement before
it. Of the row that `CreatePayment` inserts, the columns stand here that another
handler reads. Whether the schema accepts the row belongs to the answer of the call.
-/
namespace TokoApi.Payment

open Db Lib.Threads

structure IntentRequest where
  orderID : String
  amount : Int
  channel : String
  expiresAtSec : Int
  callbackBaseURL : String
  deriving DecidableEq

/-- The service's fields. The provider answers with a time of expiry, where zero
or less means that it gives none. -/
structure Service where
  createIntent : IntentRequest → Int → Except String Int
  intentTTL : Int
  callbackBaseURL : String
  toUUID : String → Except String Nat

structure IntentArgs where
  orderID : String
  amount : Int
  channel : String
  cbBase : String
  deriving DecidableEq

inductive IntentPc where
  | getOrder (orderID : Nat)
  | getPayment (orderID : Nat) (expected : Int)
  | createPayment (orderID : Nat) (expected : Int) (expiresAt : Int)
  | insertEvent (payment : Payment) (paymentID : Nat)
  | returned (r : Except String Payment)
  deriving DecidableEq

def intentStart (svc : Service) (a : IntentArgs) : IntentPc :=
  match svc.toUUID a.orderID with
  | .error err => .returned (.error ("invalid order id: " ++ err))
  | .ok id => .getOrder id

/-- The default is a quarter of an hour. -/
def Service.ttl (svc : Service) : Int := if svc.intentTTL ≤ 0 then 900 else svc.intentTTL

def openIntent (svc : Service) (a : IntentArgs) (orderID : Nat) (expected now : Int) : IntentPc :=
  let base := if a.cbBase = "" then svc.callbackBaseURL else a.cbBase
  match svc.createIntent ⟨a.orderID, expected, a.channel, svc.ttl, base⟩ now with
  | .error err => .returned (.error err)
  | .ok at_ => .createPayment orderID expected (if 0 < at_ then at_ else now + svc.ttl)

/-- A payment that is still open is reused. -/
def reusable (p : Payment) (now : Int) : Bool :=
  p.status = .pending &&
    match p.expiresAt with
    | none => true
    | some e => now < e

def intentStep (svc : Service) (i : Nat) (s : Store) (a : IntentArgs) :
    IntentPc → Call → Option (Store × IntentPc)
  | .getOrder _, .fail err => some (s, .returned (.error err))
  | .getOrder id, .ok =>
    match getOrderByID i s id with
    | none => some (s, .returned (.error "no rows in result set"))
    | some o =>
      if o.status ≠ .pendingPayment then
        some (s, .returned (.error ("order status " ++ o.status.label ++
          " does not allow new intents")))
      else if 0 < a.amount ∧ a.amount ≠ o.pricingTotal then
        some (s, .returned (.error ("amount mismatch: got " ++ toString a.amount ++ " expected " ++
          toString o.pricingTotal)))
      else some (s, .getPayment id o.pricingTotal)
  | .getPayment _ _, .fail err => some (s, .returned (.error err))
  | .getPayment id expected, .ok =>
    match getLatestPaymentByOrder i s id with
    | none => some (s, openIntent svc a id expected s.now)
    | some (_, p) =>
      if p.status = .paid then some (s, .returned (.error "order already paid"))
      else if reusable p s.now then some (s, .returned (.ok p))
      else some (s, openIntent svc a id expected s.now)
  | .createPayment _ _ _, .fail err => some (s, .returned (.error err))
  | .createPayment id expected expiresAt, .ok =>
    let p : Payment := ⟨id, .pending, some expected, s.now, some expiresAt⟩
    some (createPayment s p, .insertEvent p s.nextID)
  -- the error of the event is discarded
  | .insertEvent p _, .fail _ => some (s, .returned (.ok p))
  | .insertEvent p pid, .ok => some (insertPaymentEvent s ⟨pid, .pending⟩, .returned (.ok p))
  | .returned _, _ => none

theorem intentStep_frame {svc : Service} {i : Nat} {s s' : Store} {a : IntentArgs}
    {pc pc' : IntentPc} {x : Call} (h : intentStep svc i s a pc x = some (s', pc')) :
    s' = { s with
        nextID := s'.nextID, payments := s'.payments, paymentEvents := s'.paymentEvents } ∧
      s.nextID ≤ s'.nextID := by
  cases pc <;> cases x <;> simp only [intentStep] at h
  case getOrder.ok | getPayment.ok =>
    split at h
    · cases h
      exact ⟨rfl, Nat.le_refl _⟩
    · split at h
      · cases h
        exact ⟨rfl, Nat.le_refl _⟩
      · split at h <;> cases h <;> exact ⟨rfl, Nat.le_refl _⟩
  case createPayment.ok id expected expiresAt =>
    cases h
    exact ⟨rfl, Nat.le_succ _⟩
  all_goals cases h <;> exact ⟨rfl, Nat.le_refl _⟩

end TokoApi.Payment
