import Mathlib.Data.List.Sort
import TokoApi.Lib.Rows
import TokoApi.Lib.Keys

/-!
# Webhook endpoints, events and deliveries

The tables of the notify package with the columns its delivery code uses, the
queries on them (webhooks.sql) and the keys of the replay guard. `log` is not a
table: it records, newest first, when a delivery was created or reset and what
endpoints answered.
-/
namespace TokoApi.Notify

open Lib.Rows Lib.Redis

inductive DeliveryStatus where
  | pending | delivering | delivered | failed | dlq
  deriving DecidableEq, Repr

structure WebhookDelivery where
  endpointID : Nat
  eventID : Nat
  status : DeliveryStatus
  attempt : Int
  maxAttempt : Int
  nextAttemptAt : Option Int
  lastError : Option String
  responseStatus : Option Int
  responseBody : Option String
  createdAt : Int
  deriving DecidableEq

structure WebhookEndpoint where
  url : String
  active : Bool
  topics : List String
  deriving DecidableEq

structure DomainEvent where
  topic : String
  payload : String
  deriving DecidableEq

inductive Log where
  | started (delivery : Nat)
  | answered (endpoint event : Nat) (status : Int)
  deriving DecidableEq

structure Store where
  nextID : Nat
  endpoints : Table WebhookEndpoint
  events : Table DomainEvent
  deliveries : Table WebhookDelivery
  dlq : List (Nat × String)
  guard : Keys String
  log : List Log

/-- Some request for the endpoint and event was answered with a 2xx status since
the delivery was created or last reset. -/
def answeredSince (delivery endpoint event : Nat) : List Log → Bool
  | [] => false
  | .started d :: rest => if d = delivery then false else answeredSince delivery endpoint event rest
  | .answered ep ev status :: rest =>
    (ep = endpoint && ev = event && 200 ≤ status && status < 300) ||
      answeredSince delivery endpoint event rest

def WebhookDelivery.due (now : Int) (del : WebhookDelivery) : Bool :=
  (del.status = .pending || del.status = .failed) &&
    match del.nextAttemptAt with
    | none => true
    | some t => t ≤ now

/-- ORDER BY next_attempt_at NULLS FIRST, created_at. -/
def WebhookDelivery.before (a b : WebhookDelivery) : Bool :=
  match a.nextAttemptAt, b.nextAttemptAt with
  | none, none => a.createdAt ≤ b.createdAt
  | none, some _ => true
  | some _, none => false
  | some t, some u => t < u || (t = u && a.createdAt ≤ b.createdAt)

variable (s : Store)

/-! ## Queries -/

/-- The rows come in the order of their keys, which stands for created_at. -/
def listActiveEndpointsForTopic (topic : String) : List Nat :=
  s.endpoints.ids.filter fun id =>
    let ep := s.endpoints.row id
    ep.active && (ep.topics = [] || topic ∈ ep.topics)

/-- INSERT of a pending delivery; there is one row for an endpoint and event. -/
def enqueueDeliveryRow (now : Int) (endpoint event : Nat) (maxAttempt : Int) :
    Option (Store × Nat) :=
  if s.deliveries.ids.any fun id =>
      (s.deliveries.row id).endpointID = endpoint && (s.deliveries.row id).eventID = event then none
  else
    let row : WebhookDelivery :=
      ⟨endpoint, event, .pending, 0, maxAttempt, some now, none, none, none, now⟩
    some ({ s with
      nextID := s.nextID + 1
      deliveries := s.deliveries.insert s.nextID row
      log := .started s.nextID :: s.log }, s.nextID)

def dequeueDueDeliveries (now : Int) (limit : Nat) : List (Nat × WebhookDelivery) :=
  let due := s.deliveries.ids.filterMap fun id =>
    let del := s.deliveries.row id
    if del.due now then some (id, del) else none
  (due.insertionSort fun a b => a.2.before b.2).take limit

def getDeliveryByID (id : Nat) : Option WebhookDelivery := s.deliveries.get? id

def updateDelivery (id : Nat) (f : WebhookDelivery → WebhookDelivery) : Store :=
  if id ∈ s.deliveries.ids then
    { s with deliveries := s.deliveries.set id (f (s.deliveries.row id)) }
  else s

def markDelivering (id : Nat) : Store :=
  updateDelivery s id fun del => { del with status := .delivering }

def markDelivered (id : Nat) (status : Option Int) (body : Option String) : Store :=
  updateDelivery s id fun del =>
    { del with
      status := .delivered
      responseStatus := status
      responseBody := body
      lastError := none
      nextAttemptAt := none }

def markFailedWithBackoff (now delay : Int) (id : Nat) (reason : String) : Store :=
  updateDelivery s id fun del =>
    { del with
      status := .failed
      attempt := del.attempt + 1
      nextAttemptAt := some (now + delay)
      lastError := some reason }

def moveToDLQ (id : Nat) (reason : String) : Store :=
  updateDelivery s id fun del =>
    { del with status := .dlq, lastError := some reason, nextAttemptAt := none }

def insertWebhookDlq (id : Nat) (reason : String) : Store := { s with dlq := s.dlq ++ [(id, reason)] }

def resetDeliveryForReplay (now : Int) (id : Nat) : Option (Store × WebhookDelivery) :=
  if id ∈ s.deliveries.ids then
    let s' := updateDelivery s id fun del =>
      { del with
        status := .pending
        attempt := 0
        nextAttemptAt := some now
        lastError := none
        responseStatus := none
        responseBody := none }
    some ({ s' with log := .started id :: s'.log }, s'.deliveries.row id)
  else none

def deleteDlqByDelivery (id : Nat) : Store := { s with dlq := s.dlq.filter fun e => e.1 ≠ id }

/-! ## What an update leaves alone -/

variable {s} {f : WebhookDelivery → WebhookDelivery} {id k : Nat}

@[simp] theorem updateDelivery_ids : (updateDelivery s id f).deliveries.ids = s.deliveries.ids := by
  unfold updateDelivery
  split <;> rfl

@[simp] theorem updateDelivery_nextID : (updateDelivery s id f).nextID = s.nextID := by
  unfold updateDelivery
  split <;> rfl

@[simp] theorem updateDelivery_log : (updateDelivery s id f).log = s.log := by
  unfold updateDelivery
  split <;> rfl

@[simp] theorem updateDelivery_guard : (updateDelivery s id f).guard = s.guard := by
  unfold updateDelivery
  split <;> rfl

@[simp] theorem updateDelivery_endpoints : (updateDelivery s id f).endpoints = s.endpoints := by
  unfold updateDelivery
  split <;> rfl

@[simp] theorem updateDelivery_events : (updateDelivery s id f).events = s.events := by
  unfold updateDelivery
  split <;> rfl

@[simp] theorem updateDelivery_dlq : (updateDelivery s id f).dlq = s.dlq := by
  unfold updateDelivery
  split <;> rfl

theorem updateDelivery_self (h : id ∈ s.deliveries.ids) :
    (updateDelivery s id f).deliveries.row id = f (s.deliveries.row id) := by
  simp [updateDelivery, h]

theorem updateDelivery_other (h : k ≠ id) :
    (updateDelivery s id f).deliveries.row k = s.deliveries.row k := by
  unfold updateDelivery
  split
  · exact Table.set_row_ne _ _ h
  · rfl

theorem dequeued_row {now : Int} {limit : Nat} {p : Nat × WebhookDelivery}
    (h : p ∈ dequeueDueDeliveries s now limit) :
    p.1 ∈ s.deliveries.ids ∧ s.deliveries.row p.1 = p.2 ∧ p.2.due now = true := by
  have hm := List.mem_of_mem_take h
  rw [List.mem_insertionSort] at hm
  obtain ⟨k, hk, hif⟩ := List.mem_filterMap.mp hm
  dsimp only at hif
  split at hif <;> cases hif
  exact ⟨hk, rfl, by assumption⟩

theorem dequeued_nodup {now : Int} {limit : Nat} (h : s.deliveries.ids.Nodup) :
    ((dequeueDueDeliveries s now limit).map Prod.fst).Nodup := by
  refine (((List.take_sublist _ _).map Prod.fst).nodup ?_)
  rw [((List.perm_insertionSort _ _).map Prod.fst).nodup_iff, List.map_filterMap]
  refine h.filterMap fun k k' b hb hb' => ?_
  dsimp only at hb hb'
  split at hb <;> split at hb' <;> simp_all

theorem answeredSince_append {delivery endpoint event : Nat} {log : List Log} {codes : List Int}
    {ep ev : Nat} (h : answeredSince delivery endpoint event log = true) :
    answeredSince delivery endpoint event (codes.map (Log.answered ep ev) ++ log) = true := by
  induction codes with
  | nil => exact h
  | cons c codes ih => simp [answeredSince, ih]

theorem answeredSince_of_mem {delivery endpoint event : Nat} {log : List Log} {codes : List Int}
    {c : Int} (hc : c ∈ codes) (hlo : 200 ≤ c) (hhi : c < 300) :
    answeredSince delivery endpoint event
      (codes.map (Log.answered endpoint event) ++ log) = true := by
  induction codes with
  | nil => cases hc
  | cons a codes ih =>
    rcases List.mem_cons.mp hc with rfl | hc
    · simp [answeredSince, hlo, hhi]
    · simp [answeredSince, ih hc]

end TokoApi.Notify
