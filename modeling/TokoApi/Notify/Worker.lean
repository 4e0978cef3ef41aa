import TokoApi.Queue.Effects
import TokoApi.Notify.Dispatcher

/-!
# The delivery queue at work

The queue worker with `DeliveryWorker.Handle` as its handler, next to `Schedule`
and `ReplayDelivery`. The handler runs statement by statement: its own read of
the row, the read of `DeliverByID`, `MarkDelivering`, the request, the write that
ends the attempt, and the commands of the enqueueing that may follow. Other jobs
and `ReplayDelivery` may come in between; the lock on the delivery, which expires,
is not relied on. `Schedule` and `ReplayDelivery` are single steps.
-/
namespace TokoApi.Notify

open Lib.Threads Queue

/-- What an attempt has come to before its last write. -/
inductive Outcome where
  | unloaded (cause : String)
  | answered (status : Int) (body : String) (err : Option String)
  deriving DecidableEq

namespace Dispatcher

variable (d : Dispatcher)

/-- `processDelivery` between `MarkDelivering` and its last write. -/
def attempt (now : Int) (s : Store) (del : WebhookDelivery) (a : Answers) : Store × Outcome :=
  match lookup a.getEndpoint (s.endpoints.get? del.endpointID) with
  | .error err => (s, .unloaded ("load endpoint: " ++ err))
  | .ok ep =>
    match lookup a.getEvent (s.events.get? del.eventID) with
    | .error err => (s, .unloaded ("load event: " ++ err))
    | .ok ev =>
      let (s', status, body, err) := d.deliver now s ep ev del a
      (s', .answered status body err)

def settle (now : Int) (s : Store) (id : Nat) (del : WebhookDelivery) (a : Answers) :
    Outcome → Store × Next
  | .unloaded cause => d.failDelivery now s id del cause a
  | .answered status body err => d.conclude now s id del status body err a

end Dispatcher

/-- Where a running handler stands. -/
inductive HandlePc where
  | deliver (payload : String)
  | load (deliveryID : String)
  | process (id : Nat) (del : WebhookDelivery)
  | send (id : Nat) (del : WebhookDelivery)
  | settle (id : Nat) (del : WebhookDelivery) (o : Outcome)
  | enqueue (pc : EnqueuePc)
  deriving DecidableEq

/-- The statements of `DeliveryWorker.Handle` up to the enqueueing. -/
def deliverStep (d : Dispatcher) (now : Int) (s : Store) (a : Answers) :
    HandlePc → Option (Store × (HandlePc ⊕ Next))
  | .deliver payload =>
    match d.unlock s payload a with
    | .inl next => some (s, .inr next)
    | .inr deliveryID => some (s, .inl (.load deliveryID))
  | .load deliveryID =>
    match d.eligible now s deliveryID a with
    | .inl next => some (s, .inr next)
    | .inr (id, del) => some (s, .inl (.process id del))
  | .process id del =>
    match a.markDelivering with
    | .fail err => some (s, .inr (.ret (some err)))
    | .ok => some (markDelivering s id, .inl (.send id del))
  | .send id del =>
    let (s', o) := d.attempt now s del a
    some (s', .inl (.settle id del o))
  | .settle id del o =>
    let (s', next) := d.settle now s id del a o
    some (s', .inr next)
  | .enqueue _ => none

/-- The statements one after the other, with nothing in between. -/
def deliverRun (d : Dispatcher) (now : Int) (a : Answers) :
    Nat → Store → HandlePc → Option (Store × Next)
  | 0, _, _ => none
  | n + 1, s, pc =>
    match deliverStep d now s a pc with
    | none => none
    | some (s', .inl pc') => deliverRun d now a n s' pc'
    | some (s', .inr next) => some (s', next)

theorem processDelivery_eq {d : Dispatcher} {now : Int} {s : Store} {id : Nat}
    {del : WebhookDelivery} {a : Answers} (ha : a.markDelivering = .ok) :
    d.processDelivery now s id del a =
      d.settle now (d.attempt now (markDelivering s id) del a).1 id del a
        (d.attempt now (markDelivering s id) del a).2 := by
  simp only [Dispatcher.processDelivery, Dispatcher.attempt, ha]
  cases Dispatcher.lookup a.getEndpoint ((markDelivering s id).endpoints.get? del.endpointID) with
  | error err => rfl
  | ok ep =>
    cases Dispatcher.lookup a.getEvent ((markDelivering s id).events.get? del.eventID) with
    | error err | ok ev => rfl

theorem processDelivery_run (d : Dispatcher) (now : Int) (s : Store) (id : Nat)
    (del : WebhookDelivery) (a : Answers) :
    deliverRun d now a 3 s (.process id del) = some (d.processDelivery now s id del a) := by
  cases hm : a.markDelivering with
  | fail err => simp only [deliverRun, deliverStep, Dispatcher.processDelivery, hm]
  | ok => simp only [deliverRun, deliverStep, processDelivery_eq hm, hm]

theorem handle_run (d : Dispatcher) (now : Int) (s : Store) (payload : String) (a : Answers) :
    deliverRun d now a 5 s (.deliver payload) = some (d.handle now s payload a) := by
  unfold Dispatcher.handle
  rw [deliverRun, deliverStep]
  cases d.unlock s payload a with
  | inl next => rfl
  | inr deliveryID =>
    simp only
    unfold Dispatcher.deliverByID
    rw [deliverRun, deliverStep]
    cases d.eligible now s deliveryID a with
    | inl next => rfl
    | inr p => exact processDelivery_run d now s p.1 p.2 a

inductive HandleInput where
  | deliver (a : Answers)
  | enqueue (c : Call)

/-- The dispatcher with its enqueuer and the queue both use. -/
structure Setup where
  dispatcher : Dispatcher
  enqueuer : Enqueuer
  env : Env

def deliveryHandler (u : Setup) : Handler Store HandlePc HandleInput where
  start m := .deliver m.payload
  step q s pc x :=
    match pc, x with
    | .enqueue pc, .enqueue c =>
      match enqueueStep u.env q pc c with
      | none => none
      | some (q', .returned err) => some (q', s, .inr err)
      | some (q', pc') => some (q', s, .inl (.enqueue pc'))
    | pc, .deliver a =>
      match deliverStep u.dispatcher q.now s a pc with
      | none => none
      | some (s', .inl pc') => some (q, s', .inl pc')
      | some (s', .inr (.ret err)) => some (q, s', .inr err)
      | some (s', .inr (.enqueue t)) => some (q, s', .inl (.enqueue (.message u.enqueuer t)))
    | _, _ => none

/-- `Enqueue` from one program point on, without errors and in one go. -/
def runEnqueue (env : Env) : Nat → Broker → EnqueuePc → Broker
  | 0, q, _ => q
  | n + 1, q, pc =>
    match enqueueStep env q pc .ok with
    | none => q
    | some (q', pc') => runEnqueue env n q' pc'

def enqueueNexts (u : Setup) (q : Broker) (nexts : List Next) : Broker :=
  nexts.foldl (fun q next =>
    match next with
    | .ret _ => q
    | .enqueue t => runEnqueue u.env 3 q (.message u.enqueuer t)) q

inductive Admin where
  | tick (n : Nat)
  | schedule (event : Nat)
  | replayDelivery (id : Nat)
  deriving DecidableEq

def adminStep (u : Setup) (s : Shared Store) : Admin → Option (Shared Store)
  | .tick n => s.tick n
  | .schedule event =>
    let cs := s.store.endpoints.ids.map fun _ => Call.ok
    let (store, nexts) := u.dispatcher.schedule s.broker.now s.store event cs
    some ⟨enqueueNexts u s.broker nexts, store⟩
  | .replayDelivery id =>
    some { s with store := u.dispatcher.replayDelivery s.broker.now s.store id .ok .ok .ok }

def deliveryMachine (u : Setup) :
    Machine (Shared Store) (Proc HandlePc) Settings (Op HandleInput) Admin where
  start settings := Launch.proc (.worker settings)
  lstep _ s p o := procStep (deliveryHandler u) u.env s p (.worker o)
  estep := adminStep u

end TokoApi.Notify
