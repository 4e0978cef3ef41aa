import TokoApi.Notify.Signature
import TokoApi.Lib.Threads
import TokoApi.Notify.Store
import TokoApi.Queue.Message
import TokoApi.Resilience.Client

/-!
# The webhook dispatcher

`Dispatcher`, `DeliveryWorker` and `AdminHandler.ReplayDelivery` (webhook.go,
dispatcher_enqueue.go, webhook_worker.go, admin_handlers.go). What each call to
the database, Redis, the lock or the endpoint gives is an argument. Every call of
`EnqueueDelivery` inside a delivery is the last thing that is done, so a delivery
ends either with what it returns or with the task it enqueues.

The content of the request, its headers and its signature are left out: they do
not influence what the dispatcher does with the answer.
-/
namespace TokoApi.Notify

open Lib.Durations Lib.Text Lib.Threads Lib.Wrap Resilience Queue

structure URL where
  scheme : String
  host : String
  hostname : String

/-- The dispatcher's fields, and the library functions it calls. `replay` says
that a replay protector is set. -/
structure Dispatcher where
  enabled : Bool
  backoffBaseSec : Int
  defaultMaxAttempts : Int
  replay : Bool
  replayTTL : Int
  httpMaxAttempts : Int
  parseURL : String → Except String URL
  marshalError : DomainEvent → Option String
  uuidString : Nat → String
  parseUUID : String → Except String Nat

/-- What the calls of one delivery give. -/
structure Answers where
  lock : Call
  getFirst : Call
  getDelivery : Call
  markDelivering : Call
  getEndpoint : Call
  getEvent : Call
  acquire : Call
  newRequest : Call
  http : Nat → Attempt
  markDelivered : Call
  moveToDLQ : Call
  insertDlq : Call
  markFailed : Call

/-- How a delivery ends. -/
inductive Next where
  | ret (err : Option String)
  | enqueue (t : Task)
  deriving DecidableEq

def webhookDeliveryTask : String := "webhook-delivery"

namespace Dispatcher

variable (d : Dispatcher)

/-- The text of a row's id, which is not null. -/
def uuidFrom (id : Nat) : String := Notify.uuidFrom d.uuidString ⟨id, true⟩

def maxAttempts : Int := if d.defaultMaxAttempts ≤ 0 then 6 else d.defaultMaxAttempts

def enqueueDelivery (deliveryID : String) (delay maxAttempts : Int) : Next :=
  if trimSpace deliveryID = "" then .ret none
  else .enqueue ⟨webhookDeliveryTask, deliveryID, deliveryID,
    if maxAttempts ≤ 0 then d.maxAttempts else maxAttempts, 0, delay⟩

/-- The delay in seconds after a failed attempt. -/
def nextDelay (attempt : Int) : Int :=
  let base := if d.backoffBaseSec ≤ 0 then 5 else d.backoffBaseSec
  let factor := int64 (2 ^ attempt.toNat)
  int64 (base * if factor < 1 then 1 else factor)

def replayKey (endpoint event : Nat) : String :=
  "wh:" ++ d.uuidFrom endpoint ++ ":" ++ d.uuidFrom event

def validateURL (raw : String) : Option String :=
  match d.parseURL raw with
  | .error err => some ("invalid endpoint url: " ++ err)
  | .ok u =>
    if u.scheme ≠ "https" ∧ u.scheme ≠ "http" then some "webhook url must be http or https"
    else if u.scheme = "http" ∧ u.hostname ≠ "localhost" ∧ u.hostname ≠ "127.0.0.1" then
      some "http webhook only allowed for localhost"
    else if u.host = "" then some "webhook url must include host"
    else none

/-- The part of `deliver` after the replay guard: status, body and error. -/
def send (s : Store) (del : WebhookDelivery) (a : Answers) :
    Store × Int × String × Option String :=
  match a.newRequest with
  | .fail err => (s, 0, "", some err)
  | .ok =>
    let (codes, result) := httpDo d.httpMaxAttempts a.http
    let s' := { s with
      log := codes.reverse.map (Log.answered del.endpointID del.eventID) ++ s.log }
    match result with
    | .error err => (s', 0, "", some err)
    | .ok r =>
      match r.body with
      | .error err => (s', r.status, "", some err)
      | .ok body => (s', r.status, body, none)

def deliver (now : Int) (s : Store) (ep : WebhookEndpoint) (ev : DomainEvent)
    (del : WebhookDelivery) (a : Answers) : Store × Int × String × Option String :=
  match d.validateURL ep.url, d.marshalError ev with
  | some err, _ => (s, 0, "", some err)
  | none, some err => (s, 0, "", some err)
  | none, none =>
    if d.replay ∧ 0 < d.replayTTL then
      match a.acquire with
      | .fail err => (s, 0, "", some err)
      | .ok =>
        match s.guard.setNX now d.replayTTL (d.replayKey del.endpointID del.eventID) with
        | (false, _) => (s, 200, "replay-suppressed", none)
        | (true, keys) => d.send { s with guard := keys } del a
    else d.send s del a

def exhausted (del : WebhookDelivery) : Bool := del.maxAttempt ≤ int32 (del.attempt + 1)

/-- The end of both failure paths: another attempt after a pause. -/
def retryLater (now : Int) (s : Store) (id : Nat) (del : WebhookDelivery) (reason : String)
    (a : Answers) : Store × Next :=
  let delay := d.nextDelay del.attempt
  match a.markFailed with
  | .fail err => (s, .ret (some err))
  | .ok => (markFailedWithBackoff s now (int32 delay * second) id reason,
      d.enqueueDelivery (d.uuidFrom id) (int64 (delay * second)) del.maxAttempt)

/-- The last attempt has failed. The caller decides whether an error of the
first call is reported. -/
def bury (s : Store) (id : Nat) (reason : String) (a : Answers) : Store :=
  let s' := match a.moveToDLQ with
    | .fail _ => s
    | .ok => moveToDLQ s id reason
  match a.insertDlq with
  | .fail _ => s'
  | .ok => insertWebhookDlq s' id reason

def failDelivery (now : Int) (s : Store) (id : Nat) (del : WebhookDelivery) (reason : String)
    (a : Answers) : Store × Next :=
  if exhausted del then
    match a.moveToDLQ with
    | .fail err => (s, .ret (some err))
    | .ok => (bury s id reason a, .ret none)
  else d.retryLater now s id del reason a

/-- A lookup that may fail or find no row. -/
def lookup {α : Type} (c : Call) (row : Option α) : Except String α :=
  match c, row with
  | .fail err, _ => .error err
  | .ok, none => .error "no rows in result set"
  | .ok, some r => .ok r

def conclude (now : Int) (s : Store) (id : Nat) (del : WebhookDelivery) (status : Int)
    (body : String) (err : Option String) (a : Answers) : Store × Next :=
  if err = none ∧ 200 ≤ status ∧ status < 300 then
    match a.markDelivered with
    | .fail e => (s, .ret (some e))
    | .ok => (markDelivered s id (if 0 < status then some status else none)
        (if body = "" then none else some body), .ret none)
  else
    let reason := "status=" ++ toString status ++ " err=" ++ err.getD "<nil>"
    if exhausted del then (bury s id reason a, .ret none)
    else d.retryLater now s id del reason a

/-- `del` is the row as the caller has read it. -/
def processDelivery (now : Int) (s : Store) (id : Nat) (del : WebhookDelivery) (a : Answers) :
    Store × Next :=
  match a.markDelivering with
  | .fail err => (s, .ret (some err))
  | .ok =>
    let s₁ := markDelivering s id
    match lookup a.getEndpoint (s₁.endpoints.get? del.endpointID) with
    | .error err => d.failDelivery now s₁ id del ("load endpoint: " ++ err) a
    | .ok ep =>
      match lookup a.getEvent (s₁.events.get? del.eventID) with
      | .error err => d.failDelivery now s₁ id del ("load event: " ++ err) a
      | .ok ev =>
        let (s₂, status, body, err) := d.deliver now s₁ ep ev del a
        d.conclude now s₂ id del status body err a

def settledStatus (status : DeliveryStatus) : Bool := status = .delivered || status = .dlq

/-- The delivery `DeliverByID` has to process, or what it returns without. -/
def eligible (now : Int) (s : Store) (deliveryID : String) (a : Answers) :
    Next ⊕ (Nat × WebhookDelivery) :=
  match d.parseUUID (trimSpace deliveryID) with
  | .error err => .inl (.ret (some ("invalid delivery id: " ++ err)))
  | .ok id =>
    match lookup a.getDelivery (getDeliveryByID s id) with
    | .error err => .inl (.ret (some err))
    | .ok del =>
      if settledStatus del.status then .inl (.ret none)
      else
        match del.nextAttemptAt with
        | some t =>
          if now < t then .inl (d.enqueueDelivery deliveryID (t - now) del.maxAttempt)
          else .inr (id, del)
        | none => .inr (id, del)

def deliverByID (now : Int) (s : Store) (deliveryID : String) (a : Answers) : Store × Next :=
  match d.eligible now s deliveryID a with
  | .inl next => (s, next)
  | .inr (id, del) => d.processDelivery now s id del a

/-- `DeliveryWorker.Handle` up to its call of `DeliverByID`: what it returns, or
the id it goes on with. -/
def unlock (s : Store) (payload : String) (a : Answers) : Next ⊕ String :=
  let deliveryID := trimSpace payload
  if deliveryID = "" then .inl (.ret none)
  else
    match a.lock with
    | .fail err => .inl (.ret (some err))
    | .ok =>
      match d.parseUUID deliveryID with
      | .error err => .inl (.ret (some ("invalid delivery id: " ++ err)))
      | .ok id =>
        match lookup a.getFirst (getDeliveryByID s id) with
        | .error err => .inl (.ret (some err))
        | .ok del => if settledStatus del.status then .inl (.ret none) else .inr deliveryID

def handle (now : Int) (s : Store) (payload : String) (a : Answers) : Store × Next :=
  match d.unlock s payload a with
  | .inl next => (s, next)
  | .inr deliveryID => d.deliverByID now s deliveryID a

/-- The loop of `Schedule` over the endpoints, with the outcome of each INSERT.
The list has the tasks that are enqueued. -/
def scheduleLoop (now : Int) (event : Nat) : Store → List Nat → List Call → Store × List Next
  | s, ep :: eps, .ok :: cs =>
    match enqueueDeliveryRow s now ep event (int32 d.maxAttempts) with
    | none => scheduleLoop now event s eps cs
    | some (s', id) =>
      let next := d.enqueueDelivery (d.uuidFrom id) 0 (int32 d.maxAttempts)
      let (s'', rest) := scheduleLoop now event s' eps cs
      (s'', next :: rest)
  | s, _ :: eps, .fail _ :: cs => scheduleLoop now event s eps cs
  | s, _, _ => (s, [])

def schedule (now : Int) (s : Store) (event : Nat) (cs : List Call) : Store × List Next :=
  let topic := (s.events.row event).topic
  if d.enabled = false ∨ trimSpace topic = "" then (s, [])
  else d.scheduleLoop now event s (listActiveEndpointsForTopic s topic) cs

/-- `AdminHandler.ReplayDelivery`; the errors of the last two calls are ignored. -/
def replayDelivery (now : Int) (s : Store) (id : Nat) (reset delete release : Call) : Store :=
  match lookup reset (resetDeliveryForReplay s now id) with
  | .error _ => s
  | .ok (s₁, del) =>
    let s₂ := match delete with
      | .fail _ => s₁
      | .ok => deleteDlqByDelivery s₁ id
    match d.replay, release with
    | true, .ok => { s₂ with guard := s₂.guard.del (d.replayKey del.endpointID del.eventID) }
    | _, _ => s₂

end Dispatcher

end TokoApi.Notify
