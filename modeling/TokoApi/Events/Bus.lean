import TokoApi.Lib.Json
import TokoApi.Notify.Schedule

/-!
# The event bus

`Bus.Emit` and `encodePayload` (events/bus.go). The event is stored first; then the
scheduler, which is the webhook dispatcher, and every notifier that is set are called in
turn, and their errors are joined. What a notifier does besides returning an error is
outside the tables.
-/
namespace TokoApi.Events

open Lib.Bytes Lib.Text Lib.Threads Notify

/-- The payload by its Go type: nil, `[]byte` or `json.RawMessage`, `string`, or a value
with what `json.Marshal` makes of it. -/
inductive Payload where
  | null
  | bytes (data : List UInt8)
  | text (data : String)
  | value (encoded : Except String (List UInt8))

def jsonValid (data : List UInt8) : Bool := (Lib.Json.parse data).isSome

def validated (data : List UInt8) : Except String (List UInt8) :=
  if jsonValid data then .ok data else .error "payload is not valid json"

def encodePayload : Payload → Except String (List UInt8)
  | .null => .ok (textBytes "\x7b\x7d")
  | .bytes data => if data = [] then .ok (textBytes "\x7b\x7d") else validated data
  | .text data =>
    if trimSpace data = "" then .ok (textBytes "\x7b\x7d") else validated (textBytes data)
  | .value encoded => encoded

/-- The fields of the bus. A notifier that is nil is `false`. `queue` says that the
dispatcher's queue has a client, and `jsonb` is the text that the database keeps of a
JSON document. -/
structure Bus where
  store : Bool
  scheduler : Option Dispatcher
  queue : Bool
  notifiers : List Bool
  jsonb : List UInt8 → String

/-- What the calls of one `Emit` give; the notifiers are numbered by their places. -/
structure EmitCalls where
  insert : Call
  schedule : ScheduleCalls
  notify : Nat → Call

inductive EmitStep where
  | store (err : Option String)
  | schedule (steps : List ScheduleStep) (err : Option String)
  | notify (place : Nat) (err : Option String)
  deriving DecidableEq

/-- Whom a step calls. -/
inductive Callee where
  | store
  | scheduler
  | notifier (place : Nat)
  deriving DecidableEq

def EmitStep.callee : EmitStep → Callee
  | .store _ => .store
  | .schedule _ _ => .scheduler
  | .notify k _ => .notifier k

/-- Nothing failed in the step, a duplicate delivery apart. -/
def EmitStep.Succeeded : EmitStep → Prop
  | .store err => err = none
  | .schedule steps _ => ∀ st ∈ steps, st.err = none
  | .notify _ err => err = none

/-- What `Emit` leaves, the steps it took, the key of the event it returns and its error. -/
structure Emitted where
  store : Store
  steps : List EmitStep
  event : Option Nat
  err : Option String

def insertDomainEvent (s : Store) (ev : DomainEvent) : Store :=
  { s with nextID := s.nextID + 1, events := s.events.insert s.nextID ev }

def notifyAll (notify : Nat → Call) : Nat → Option String → List Bool → List EmitStep × Option String
  | _, joined, [] => ([], joined)
  | k, joined, false :: ns => notifyAll notify (k + 1) joined ns
  | k, joined, true :: ns =>
    let joined' := match notify k with
      | .ok => joined
      | .fail err => joinErr joined ("events: notifier: " ++ err)
    match notifyAll notify (k + 1) joined' ns with
    | (steps, r) => (.notify k (callErr (notify k)) :: steps, r)

namespace Bus

variable (b : Bus)

/-- The checks before the event is stored; `aggregateID` is none where it is not valid. -/
def checked (topic : String) (aggregateID : Option Nat) (payload : Payload) :
    Except String DomainEvent :=
  if b.store = false then .error "events: store not configured"
  else if trimSpace topic = "" then .error "events: topic is required"
  else if aggregateID = none then .error "events: aggregate id is required"
  else
    match encodePayload payload with
    | .error err => .error ("events: encode payload: " ++ err)
    | .ok encoded => .ok ⟨trimSpace topic, b.jsonb encoded⟩

def fanOut (now : Int) (calls : ScheduleCalls) (s : Store) (event : Nat) :
    Store × List EmitStep × Option String :=
  match b.scheduler with
  | none => (s, [], none)
  | some d =>
    match d.scheduleEvent b.queue now calls s event with
    | (s', steps, err) => (s', [.schedule steps err], match err with
      | none => none
      | some e => joinErr none ("events: schedule deliveries: " ++ e))

def emit (now : Int) (calls : EmitCalls) (s : Store) (topic : String) (aggregateID : Option Nat)
    (payload : Payload) : Emitted :=
  match b.checked topic aggregateID payload with
  | .error err => ⟨s, [], none, some err⟩
  | .ok ev =>
    match calls.insert with
    | .fail err => ⟨s, [.store (some err)], none, some ("events: persist event: " ++ err)⟩
    | .ok =>
      match b.fanOut now calls.schedule (insertDomainEvent s ev) s.nextID with
      | (s', scheduled, joined) =>
        match notifyAll calls.notify 0 joined b.notifiers with
        | (notified, err) => ⟨s', .store none :: (scheduled ++ notified), some s.nextID, err⟩

def places : Nat → List Bool → List Nat
  | _, [] => []
  | k, false :: ns => places (k + 1) ns
  | k, true :: ns => k :: places (k + 1) ns

end Bus

/-! ## One emission -/

theorem notifyAll_callees (notify : Nat → Call) (ns : List Bool) (k : Nat) (joined : Option String) :
    (notifyAll notify k joined ns).1.map EmitStep.callee =
      (Bus.places k ns).map Callee.notifier := by
  induction ns generalizing k joined with
  | nil => rfl
  | cons n ns ih =>
    cases n with
    | false => exact ih (k + 1) joined
    | true => exact congrArg (Callee.notifier k :: ·) (ih (k + 1) _)

theorem notifyAll_err (notify : Nat → Call) (ns : List Bool) (k : Nat) (joined : Option String) :
    (notifyAll notify k joined ns).2 = none ↔
      joined = none ∧ ∀ st ∈ (notifyAll notify k joined ns).1, st.Succeeded := by
  induction ns generalizing k joined with
  | nil => simp [notifyAll]
  | cons n ns ih =>
    cases n with
    | false => exact ih (k + 1) joined
    | true =>
      simp only [notifyAll, List.mem_cons, forall_eq_or_imp]
      rw [ih]
      cases notify k with
      | ok => simp [EmitStep.Succeeded, callErr]
      | fail err => simp [EmitStep.Succeeded, callErr, joinErr_ne_none]

theorem schedule_not_mem_notifyAll {notify : Nat → Call} {ns : List Bool} {k : Nat}
    {joined err : Option String} {steps : List ScheduleStep} :
    .schedule steps err ∉ (notifyAll notify k joined ns).1 := by
  intro h
  have hcallee := List.mem_map_of_mem (f := EmitStep.callee) h
  rw [notifyAll_callees] at hcallee
  obtain ⟨j, _, hj⟩ := List.mem_map.mp hcallee
  cases hj

section

variable {b : Bus} {now : Int} {s : Store}

/-- The text of an id of the dispatcher is not blank. -/
def Bus.Texts (b : Bus) : Prop := ∀ d, b.scheduler = some d → ∀ id, trimSpace (d.uuidFrom id) ≠ ""

structure SchedulerCall (b : Bus) (calls : ScheduleCalls) (s : Store) (topic : String)
    (r : Store × List EmitStep × Option String) : Prop where
  callees : r.2.1.map EmitStep.callee = b.scheduler.toList.map fun _ => .scheduler
  events : r.1.events = s.events
  error : r.2.2 = none ↔ ∀ st ∈ r.2.1, st.Succeeded
  outcome : ∀ d, b.scheduler = some d → ∀ steps err, .schedule steps err ∈ r.2.1 →
    ScheduleOutcome d b.queue calls s topic (r.1, steps, err)

theorem fanOut_call (htexts : b.Texts) (calls : ScheduleCalls) (event : Nat) :
    SchedulerCall b calls s (s.events.row event).topic (b.fanOut now calls s event) := by
  unfold Bus.fanOut
  cases hsched : b.scheduler with
  | none => exact ⟨by rw [hsched]; rfl, rfl, by simp, by rw [hsched]; rintro d ⟨⟩⟩
  | some d =>
    have hout : ScheduleOutcome d b.queue calls s (s.events.row event).topic
        (d.scheduleEvent b.queue now calls s event) := scheduleEvent_outcome (htexts d hsched) s
    dsimp only
    generalize d.scheduleEvent b.queue now calls s event = r at hout ⊢
    obtain ⟨s', steps, err⟩ := r
    refine ⟨by rw [hsched]; rfl, hout.events, ?_, ?_⟩
    · have herr := hout.err_eq_none_iff
      dsimp only at herr ⊢
      rw [List.forall_mem_singleton, EmitStep.Succeeded, ← herr]
      cases err with
      | none => rfl
      | some e => simp [joinErr_ne_none]
    · intro d' hd' steps' err' hmem
      rw [hsched] at hd'
      cases hd'
      cases List.mem_singleton.mp hmem
      exact hout

theorem checked_topic {topic : String} {aggregateID : Option Nat} {payload : Payload}
    {ev : DomainEvent} (h : b.checked topic aggregateID payload = .ok ev) :
    trimSpace ev.topic ≠ "" := by
  unfold Bus.checked at h
  split at h
  · cases h
  · split at h
    · cases h
    · split at h
      · cases h
      · split at h
        · cases h
        · rename_i htopic _ _ _ _
          cases h
          rw [trimSpace_trimSpace]
          exact htopic

/-- What one `Emit` of an event does, once the checks have been made. -/
structure FansOut (b : Bus) (calls : EmitCalls) (s : Store) (event : Except String DomainEvent)
    (r : Emitted) : Prop where
  /-- The event is returned exactly where it was stored. -/
  stored : r.event ≠ none ↔ (∃ ev, event = .ok ev) ∧ calls.insert = .ok
  /-- Without it, nobody but the store is called and nothing changes. -/
  unstored : r.event = none → r.store = s ∧ ∀ st ∈ r.steps, st.callee = .store
  /-- With it, the scheduler and the notifiers that are set are called once each, after the
  store and in their order. -/
  once : ∀ id, r.event = some id → ∃ ev, event = .ok ev ∧
    r.store.events = s.events.insert id ev ∧
    r.steps.map EmitStep.callee = .store :: ((b.scheduler.toList.map fun _ => .scheduler) ++
      (Bus.places 0 b.notifiers).map .notifier)
  /-- A dispatcher that is enabled, and can list the endpoints, attempts a row for each of
  them and calls `EnqueueDelivery` for the rows it has inserted and for no other; with a
  queue, each of these calls hands it a task. -/
  schedules : ∀ d steps err, b.scheduler = some d → d.enabled = true →
    .schedule steps err ∈ r.steps → calls.schedule.list = .ok → ∃ ev rest, event = .ok ev ∧
      steps = .list none :: rest ∧
      rest.filterMap ScheduleStep.endpoint? = listActiveEndpointsForTopic s ev.topic ∧
      r.store.deliveries.ids = s.deliveries.ids ++ rest.filterMap ScheduleStep.inserted? ∧
      rest.filterMap ScheduleStep.enqueued? = rest.filterMap ScheduleStep.inserted? ∧
      (rest.filterMap ScheduleStep.task?).map Queue.Task.payload =
        if b.queue then (rest.filterMap ScheduleStep.inserted?).map d.uuidFrom else []
  /-- The error is nil exactly where every step succeeded; a duplicate row is no failure. -/
  error : r.err = none ↔ (∃ ev, event = .ok ev) ∧ ∀ st ∈ r.steps, st.Succeeded

theorem emit_fans_out (htexts : b.Texts) (calls : EmitCalls) (topic : String)
    (aggregateID : Option Nat) (payload : Payload) :
    FansOut b calls s (b.checked topic aggregateID payload)
      (b.emit now calls s topic aggregateID payload) := by
  unfold Bus.emit
  cases hchecked : b.checked topic aggregateID payload with
  | error err =>
    exact ⟨by simp, by simp, by simp, by simp, by simp⟩
  | ok ev =>
    cases hinsert : calls.insert with
    | fail err =>
      refine ⟨by simp [hinsert], by simp [EmitStep.callee], by simp, by simp, ?_⟩
      simp [EmitStep.Succeeded]
    | ok =>
      have hrow : ((insertDomainEvent s ev).events.row s.nextID) = ev := Function.update_self _ _ _
      have hcall : SchedulerCall b calls.schedule (insertDomainEvent s ev)
          ((insertDomainEvent s ev).events.row s.nextID).topic
          (b.fanOut now calls.schedule (insertDomainEvent s ev) s.nextID) :=
        fanOut_call htexts calls.schedule s.nextID
      rw [hrow] at hcall
      dsimp only
      generalize b.fanOut now calls.schedule (insertDomainEvent s ev) s.nextID = r at hcall ⊢
      obtain ⟨s', scheduled, joined⟩ := r
      have hcallees := notifyAll_callees calls.notify b.notifiers 0 joined
      have herr := notifyAll_err calls.notify b.notifiers 0 joined
      have hnotify (steps : List ScheduleStep) (err : Option String) :
          .schedule steps err ∉ (notifyAll calls.notify 0 joined b.notifiers).1 :=
        schedule_not_mem_notifyAll
      dsimp only
      generalize notifyAll calls.notify 0 joined b.notifiers = r at hcallees herr hnotify ⊢
      obtain ⟨notified, err⟩ := r
      refine ⟨by simp [hinsert], by simp, ?_, ?_, ?_⟩
      · intro id hid
        cases hid
        refine ⟨ev, rfl, hcall.events, ?_⟩
        dsimp only at hcallees
        rw [List.map_cons, List.map_append, hcall.callees, hcallees]
        rfl
      · intro d steps e hsched hen hmem hlist
        have hscheduled : .schedule steps e ∈ scheduled := by
          rcases List.mem_cons.mp hmem with h | h
          · cases h
          · exact (List.mem_append.mp h).resolve_right (hnotify steps e)
        obtain ⟨rest, hsteps, hrows⟩ :=
          (hcall.outcome d hsched steps e hscheduled).rows hen (checked_topic hchecked) hlist
        exact ⟨ev, rest, rfl, hsteps, hrows.attempted, hrows.rows, hrows.enqueued, hrows.tasks⟩
      · dsimp only at herr ⊢
        rw [herr, hcall.error]
        simp [EmitStep.Succeeded, or_imp, forall_and]

end

/-- A bus with a dispatcher and three places for notifiers, the second of which is nil. -/
def shopBus : Bus where
  store := true
  scheduler := some ⟨true, 0, 0, false, 0, 0, fun _ => .error "", fun _ => none,
    fun id => if id = 0 then "8c1b2d3e-4f50-4a61-9b72-c8d3e4f50a1b"
      else "0d9e8f7a-6b5c-4d3e-8f2a-1b0c9d8e7f6a", fun _ => .error ""⟩
  queue := true
  notifiers := [true, false, true]
  jsonb := fun _ => "null"

def twoEndpoints : Store :=
  ⟨2, ⟨[0, 1], fun _ => ⟨"https://shop.example/hook", true, []⟩⟩, ⟨[], fun _ => ⟨"", ""⟩⟩,
    ⟨[], fun _ => ⟨0, 0, .pending, 0, 0, none, none, none, none, 0⟩⟩, [], .empty, []⟩

/-- The first row cannot be inserted, and the first notifier fails. -/
def partlyFailing : EmitCalls :=
  ⟨.ok, ⟨.ok, fun k => if k = 0 then .fail "57014" "canceling statement" else .ok, fun _ => .ok⟩,
    fun k => if k = 0 then .fail "smtp: connection refused" else .ok⟩

/-- The endpoint behind the failure still gets its row and its task, and the notifier behind
the failure is called. -/
theorem failures_do_not_spread :
    FansOut shopBus partlyFailing twoEndpoints (shopBus.checked " order.paid" (some 7) .null)
        (shopBus.emit 0 partlyFailing twoEndpoints " order.paid" (some 7) .null) ∧
      (shopBus.emit 0 partlyFailing twoEndpoints " order.paid" (some 7) .null).steps =
        [.store none,
          .schedule [.list none, .row 0 (.failed "canceling statement"), .row 1 (.inserted 3),
            .enqueue 3 (some ⟨webhookDeliveryTask, "0d9e8f7a-6b5c-4d3e-8f2a-1b0c9d8e7f6a",
              "0d9e8f7a-6b5c-4d3e-8f2a-1b0c9d8e7f6a", 6, 0, 0⟩) none]
            (some ("enqueue delivery for 8c1b2d3e-4f50-4a61-9b72-c8d3e4f50a1b: " ++
              "canceling statement")),
          .notify 0 (some "smtp: connection refused"), .notify 2 none] ∧
      (shopBus.emit 0 partlyFailing twoEndpoints " order.paid" (some 7) .null).err =
        some ("events: schedule deliveries: enqueue delivery for " ++
          "8c1b2d3e-4f50-4a61-9b72-c8d3e4f50a1b: canceling statement\n" ++
          "events: notifier: smtp: connection refused") := by
  refine ⟨emit_fans_out ?_ partlyFailing " order.paid" (some 7) .null, by decide +kernel,
    by decide +kernel⟩
  intro d hd id
  cases hd
  simp only [Notify.Dispatcher.uuidFrom, Notify.uuidFrom, if_true]
  split <;> decide +kernel

end TokoApi.Events
