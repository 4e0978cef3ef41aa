import TokoApi.Notify.Dispatcher

/-!
# Scheduling the deliveries of an event

`Dispatcher.Schedule` with everything it returns. An endpoint whose row cannot be
inserted, or whose task cannot be enqueued, does not end the loop: its error is joined
to the others. `Dispatcher.schedule` is the same function without its errors
(`scheduleRows_scheduleLoop`).
-/
namespace TokoApi.Notify

open Lib.Text Lib.Threads Lib.Wrap Resilience Queue

/-- `errors.Join` of what has been collected and one more error. -/
def joinErr (joined : Option String) (err : String) : Option String :=
  match joined with
  | none => some err
  | some text => some (text ++ "\n" ++ err)

theorem joinErr_ne_none (joined : Option String) (err : String) : joinErr joined err ≠ none := by
  cases joined <;> exact Option.some_ne_none _

def callErr : Call → Option String
  | .ok => none
  | .fail err => some err

/-- How the INSERT of a row ends. An error that does not come from PostgreSQL has the
empty code. -/
inductive InsertCall where
  | ok
  | fail (code err : String)
  deriving DecidableEq

/-- What the calls of one `Schedule` give. Those for an endpoint are numbered by its
place in the list. -/
structure ScheduleCalls where
  list : Call
  row : Nat → InsertCall
  task : Nat → Call

inductive RowResult where
  | inserted (id : Nat)
  | duplicate
  | failed (err : String)
  deriving DecidableEq

/-- The calls of `Schedule` with what they returned. A call of `Dispatcher.EnqueueDelivery`
has the task that it handed to the queue, which is none where there is no queue. -/
inductive ScheduleStep where
  | list (err : Option String)
  | row (endpoint : Nat) (result : RowResult)
  | enqueue (delivery : Nat) (task : Option Task) (err : Option String)
  deriving DecidableEq

namespace ScheduleStep

def endpoint? : ScheduleStep → Option Nat
  | .row ep _ => some ep
  | _ => none

def inserted? : ScheduleStep → Option Nat
  | .row _ (.inserted id) => some id
  | _ => none

def enqueued? : ScheduleStep → Option Nat
  | .enqueue id _ _ => some id
  | _ => none

def task? : ScheduleStep → Option Task
  | .enqueue _ task _ => task
  | _ => none

/-- The error of a step; a duplicate row is none. -/
def err : ScheduleStep → Option String
  | .list e | .enqueue _ _ e => e
  | .row _ (.failed e) => some e
  | .row _ _ => none

end ScheduleStep

def uniqueViolation : String := "23505"

/-- The call of `Store.EnqueueDelivery`, whose error has a code and a text. -/
def insertRow (c : InsertCall) (s : Store) (now : Int) (endpoint event : Nat) (maxAttempt : Int) :
    Except (String × String) (Store × Nat) :=
  match c with
  | .fail code err => .error (code, err)
  | .ok =>
    match enqueueDeliveryRow s now endpoint event maxAttempt with
    | none => .error (uniqueViolation, "duplicate key value violates unique constraint")
    | some r => .ok r

abbrev Scheduling := Store × List ScheduleStep × Option String

namespace Dispatcher

variable (d : Dispatcher)

/-- The task that `EnqueueDelivery` hands to the queue; `queue` says that the queue has a
Redis client. -/
def deliveryTask (queue : Bool) (deliveryID : String) (delay maxAttempts : Int) : Option Task :=
  match d.enqueueDelivery deliveryID delay maxAttempts with
  | .ret _ => none
  | .enqueue t => if queue then some t else none

def scheduleRow (queue : Bool) (now : Int) (event : Nat) (calls : ScheduleCalls) (k : Nat)
    (s : Store) (joined : Option String) (ep : Nat) : Scheduling :=
  match insertRow (calls.row k) s now ep event (int32 d.maxAttempts) with
  | .error (code, err) =>
    if code = uniqueViolation then (s, [.row ep .duplicate], joined)
    else (s, [.row ep (.failed err)],
      joinErr joined ("enqueue delivery for " ++ d.uuidFrom ep ++ ": " ++ err))
  | .ok (s', id) =>
    match d.deliveryTask queue (d.uuidFrom id) 0 (int32 d.maxAttempts) with
    | none => (s', [.row ep (.inserted id), .enqueue id none none], joined)
    | some t => (s', [.row ep (.inserted id), .enqueue id (some t) (callErr (calls.task k))],
      match calls.task k with
      | .ok => joined
      | .fail err => joinErr joined ("queue delivery " ++ d.uuidFrom id ++ ": " ++ err))

def scheduleRows (queue : Bool) (now : Int) (event : Nat) (calls : ScheduleCalls) :
    Nat → Store → Option String → List Nat → Scheduling
  | _, s, joined, [] => (s, [], joined)
  | k, s, joined, ep :: eps =>
    match d.scheduleRow queue now event calls k s joined ep with
    | (s₁, steps, joined₁) =>
      match scheduleRows queue now event calls (k + 1) s₁ joined₁ eps with
      | (s₂, rest, joined₂) => (s₂, steps ++ rest, joined₂)

/-- `Schedule` of an event that is stored. -/
def scheduleEvent (queue : Bool) (now : Int) (calls : ScheduleCalls) (s : Store) (event : Nat) :
    Scheduling :=
  let topic := (s.events.row event).topic
  if d.enabled = false ∨ trimSpace topic = "" then (s, [], none)
  else
    match calls.list with
    | .fail err => (s, [.list (some err)], some err)
    | .ok =>
      match d.scheduleRows queue now event calls 0 s none (listActiveEndpointsForTopic s topic) with
      | (s', steps, joined) => (s', .list none :: steps, joined)

end Dispatcher

/-! ## What the loop does -/

variable {d : Dispatcher} {queue : Bool} {now : Int} {event : Nat} {calls : ScheduleCalls}

/-- The steps for some endpoints, from a store and what has been joined so far. -/
structure Scheduled (d : Dispatcher) (queue : Bool) (s : Store) (joined : Option String)
    (eps : List Nat) (r : Scheduling) : Prop where
  /-- A row was attempted for each of them, in their order. -/
  attempted : r.2.1.filterMap ScheduleStep.endpoint? = eps
  /-- The rows that were inserted are the new ones of the table. -/
  rows : r.1.deliveries.ids = s.deliveries.ids ++ r.2.1.filterMap ScheduleStep.inserted?
  /-- `EnqueueDelivery` was called for each of these rows and for no other. -/
  enqueued : r.2.1.filterMap ScheduleStep.enqueued? = r.2.1.filterMap ScheduleStep.inserted?
  /-- With a queue, each of these calls handed it a task. -/
  tasks : (r.2.1.filterMap ScheduleStep.task?).map Task.payload =
    if queue then (r.2.1.filterMap ScheduleStep.inserted?).map d.uuidFrom else []
  error : r.2.2 = none ↔ joined = none ∧ ∀ st ∈ r.2.1, st.err = none
  events : r.1.events = s.events

theorem Scheduled.done (s : Store) (joined : Option String) :
    Scheduled d queue s joined [] (s, [], joined) where
  attempted := rfl
  rows := (List.append_nil _).symm
  enqueued := rfl
  tasks := by cases queue <;> rfl
  error := by simp
  events := rfl

theorem Scheduled.append {s s₁ s₂ : Store} {joined joined₁ joined₂ : Option String}
    {eps eps' : List Nat} {steps rest : List ScheduleStep}
    (h : Scheduled d queue s joined eps (s₁, steps, joined₁))
    (h' : Scheduled d queue s₁ joined₁ eps' (s₂, rest, joined₂)) :
    Scheduled d queue s joined (eps ++ eps') (s₂, steps ++ rest, joined₂) where
  attempted := by rw [List.filterMap_append, h.attempted, h'.attempted]
  rows := by
    show s₂.deliveries.ids = _
    rw [h'.rows, h.rows, List.filterMap_append, List.append_assoc]
  enqueued := by rw [List.filterMap_append, h.enqueued, h'.enqueued, List.filterMap_append]
  tasks := by
    rw [List.filterMap_append, List.map_append, h.tasks, h'.tasks, List.filterMap_append,
      List.map_append]
    cases queue <;> rfl
  error := by
    rw [h'.error, h.error]
    simp only [List.mem_append, or_imp, forall_and, and_assoc]
  events := h'.events.trans h.events

theorem insertRow_inserted {c : InsertCall} {s s' : Store} {ep id : Nat} {maxAttempt : Int}
    (h : insertRow c s now ep event maxAttempt = .ok (s', id)) :
    s'.deliveries.ids = s.deliveries.ids ++ [id] ∧ s'.events = s.events := by
  cases c with
  | fail code err => cases h
  | ok =>
    simp only [insertRow, enqueueDeliveryRow] at h
    split at h
    · cases h
    · rename_i r hr
      cases h
      split at hr
      · cases hr
      · cases hr
        exact ⟨rfl, rfl⟩

theorem deliveryTask_eq {deliveryID : String} {delay maxAttempts : Int}
    (hid : trimSpace deliveryID ≠ "") :
    d.deliveryTask queue deliveryID delay maxAttempts =
      if queue then some ⟨webhookDeliveryTask, deliveryID, deliveryID,
        if maxAttempts ≤ 0 then d.maxAttempts else maxAttempts, 0, delay⟩ else none := by
  unfold Dispatcher.deliveryTask Dispatcher.enqueueDelivery
  rw [if_neg hid]

/-- The ways `Schedule` can go for an event with the given topic. -/
inductive ScheduleOutcome (d : Dispatcher) (queue : Bool) (calls : ScheduleCalls) (s : Store)
    (topic : String) : Scheduling → Prop where
  | skipped (hoff : d.enabled = false ∨ trimSpace topic = "") :
      ScheduleOutcome d queue calls s topic (s, [], none)
  | unlisted {err} (hlist : calls.list = .fail err) :
      ScheduleOutcome d queue calls s topic (s, [.list (some err)], some err)
  | listed {s' rest joined} (hlist : calls.list = .ok)
      (hrows : Scheduled d queue s none (listActiveEndpointsForTopic s topic) (s', rest, joined)) :
      ScheduleOutcome d queue calls s topic (s', .list none :: rest, joined)

namespace ScheduleOutcome

variable {s : Store} {topic : String} {r : Scheduling}
  (h : ScheduleOutcome d queue calls s topic r)
include h

theorem events : r.1.events = s.events := by
  cases h with
  | skipped _ | unlisted _ => rfl
  | listed _ hrows => exact hrows.events

theorem err_eq_none_iff :
    r.2.2 = none ↔ ∀ st ∈ r.2.1, st.err = none := by
  cases h with
  | skipped _ => simp
  | unlisted _ => simp [ScheduleStep.err]
  | listed _ hrows =>
    have herr := hrows.error
    dsimp only at herr
    simp [herr, ScheduleStep.err]

theorem rows (hen : d.enabled = true) (htopic : trimSpace topic ≠ "") (hlist : calls.list = .ok) :
    ∃ rest, r.2.1 = .list none :: rest ∧
      Scheduled d queue s none (listActiveEndpointsForTopic s topic) (r.1, rest, r.2.2) := by
  cases h with
  | skipped hoff =>
    rcases hoff with hoff | hblank
    · cases hen.symm.trans hoff
    · exact absurd hblank htopic
  | unlisted hfail => cases hlist.symm.trans hfail
  | listed _ hrows => exact ⟨_, rfl, hrows⟩

end ScheduleOutcome

variable (hid : ∀ id, trimSpace (d.uuidFrom id) ≠ "")
include hid

theorem scheduleRow_spec (k : Nat) (s : Store) (joined : Option String) (ep : Nat) :
    Scheduled d queue s joined [ep] (d.scheduleRow queue now event calls k s joined ep) := by
  unfold Dispatcher.scheduleRow
  split
  · split
    · refine ⟨rfl, (List.append_nil _).symm, rfl, by cases queue <;> rfl, ?_, rfl⟩
      simp [ScheduleStep.err]
    · refine ⟨rfl, (List.append_nil _).symm, rfl, by cases queue <;> rfl, ?_, rfl⟩
      simp [joinErr_ne_none, ScheduleStep.err]
  · rename_i s' id hrow
    obtain ⟨hids, hevents⟩ := insertRow_inserted hrow
    rw [deliveryTask_eq (hid id)]
    cases queue with
    | false => exact ⟨rfl, hids, rfl, rfl, by simp [ScheduleStep.err], hevents⟩
    | true =>
      refine ⟨rfl, hids, rfl, rfl, ?_, hevents⟩
      cases calls.task k <;> simp [joinErr_ne_none, ScheduleStep.err, callErr]

theorem scheduleRows_spec (eps : List Nat) (k : Nat) (s : Store) (joined : Option String) :
    Scheduled d queue s joined eps (d.scheduleRows queue now event calls k s joined eps) := by
  induction eps generalizing k s joined with
  | nil => exact .done s joined
  | cons ep eps ih =>
    have hrow : Scheduled d queue s joined [ep]
        (d.scheduleRow queue now event calls k s joined ep) := scheduleRow_spec hid k s joined ep
    exact hrow.append (ih (k + 1) _ _)

theorem scheduleEvent_outcome (s : Store) :
    ScheduleOutcome d queue calls s (s.events.row event).topic
      (d.scheduleEvent queue now calls s event) := by
  unfold Dispatcher.scheduleEvent
  dsimp only
  split
  · exact .skipped ‹_›
  · cases hlist : calls.list with
    | fail err => exact .unlisted hlist
    | ok => exact .listed hlist (scheduleRows_spec hid _ 0 s none)

/-! ## The function without its errors -/

def InsertCall.outcome : InsertCall → Call
  | .ok => .ok
  | .fail _ err => .fail err

/-- The outcomes of the insertions from place `k` on. -/
def ScheduleCalls.outcomes (calls : ScheduleCalls) (k n : Nat) : List Call :=
  (List.range' k n).map fun j => (calls.row j).outcome

theorem scheduleRow_scheduleLoop {k ep : Nat} {s s₁ : Store} {joined joined₁ : Option String}
    {steps : List ScheduleStep}
    (h : d.scheduleRow true now event calls k s joined ep = (s₁, steps, joined₁)) (eps : List Nat)
    (cs : List Call) :
    d.scheduleLoop now event s (ep :: eps) ((calls.row k).outcome :: cs) =
      ((d.scheduleLoop now event s₁ eps cs).1,
        (steps.filterMap ScheduleStep.task?).map .enqueue ++
          (d.scheduleLoop now event s₁ eps cs).2) := by
  unfold Dispatcher.scheduleRow insertRow at h
  cases hc : calls.row k with
  | fail code err =>
    rw [hc] at h
    dsimp only at h
    split at h <;> cases h <;> rfl
  | ok =>
    rw [hc] at h
    simp only [InsertCall.outcome, Dispatcher.scheduleLoop]
    cases hr : enqueueDeliveryRow s now ep event (int32 d.maxAttempts) with
    | none =>
      rw [hr] at h
      cases h
      rfl
    | some r =>
      rw [hr] at h
      simp only [deliveryTask_eq (hid r.2), if_true] at h
      cases h
      simp only [Dispatcher.enqueueDelivery, hid r.2, if_false]
      rfl

theorem scheduleRows_scheduleLoop (eps : List Nat) (k : Nat) (s : Store) (joined : Option String) :
    d.scheduleLoop now event s eps (calls.outcomes k eps.length) =
      ((d.scheduleRows true now event calls k s joined eps).1,
        ((d.scheduleRows true now event calls k s joined eps).2.1.filterMap
          ScheduleStep.task?).map .enqueue) := by
  induction eps generalizing k s joined with
  | nil => rfl
  | cons ep eps ih =>
    rcases hrow : d.scheduleRow true now event calls k s joined ep with ⟨s₁, steps, joined₁⟩
    simp only [Dispatcher.scheduleRows, hrow, List.filterMap_append, List.map_append]
    rw [List.length_cons, ScheduleCalls.outcomes, List.range'_succ, List.map_cons,
      scheduleRow_scheduleLoop hid hrow]
    have hrest := ih (k + 1) s₁ joined₁
    rw [ScheduleCalls.outcomes] at hrest
    rw [hrest]

theorem scheduleEvent_schedule (s : Store) (hlist : calls.list = .ok) :
    d.schedule now s event (calls.outcomes 0
        (listActiveEndpointsForTopic s (s.events.row event).topic).length) =
      ((d.scheduleEvent true now calls s event).1,
        ((d.scheduleEvent true now calls s event).2.1.filterMap ScheduleStep.task?).map
          .enqueue) := by
  unfold Dispatcher.schedule Dispatcher.scheduleEvent
  dsimp only
  split
  · rfl
  · rw [hlist, scheduleRows_scheduleLoop hid _ 0 s none]
    rfl

end TokoApi.Notify
