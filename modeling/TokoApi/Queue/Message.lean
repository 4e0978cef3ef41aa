import TokoApi.Lib.Durations
import TokoApi.Lib.Keys
import TokoApi.Lib.SortedSet

/-!
# Tasks, messages and the Redis state of one queue

The data of the queue package. A member of the sorted sets is the JSON text of a
`taskMessage`; encoding and decoding such a text gives the message back, so the
members here are the messages. Times are nanoseconds. They and the number of the attempt are
64-bit integers in the source and not bounded here: `UnixNano` wraps in the year 2262, and the
attempt, which counts executions one by one, not before 2^63 of them.

The model covers one queue, that is one key namespace and one task kind. Besides
the keys of that queue the state has three logs that no code reads. `accepted` lists the
messages whose `Enqueue` returned nil after adding them; the position in that
list is the number of the enqueueing, and the notes of the sorted sets and of
the dead letters carry these numbers. `starts` has one note for each start of the
handler, and `handled` the enqueueings for which it returned nil.
-/
namespace TokoApi.Queue

open Lib.Durations Lib.Redis

structure Task where
  kind : String
  payload : String
  idempotencyKey : String
  maxAttempts : Int
  attempt : Int
  delay : Int
  deriving DecidableEq

structure TaskMessage where
  kind : String
  key : String
  payload : String
  attempt : Int
  maxAttempts : Int
  availableAt : Int
  lastError : String
  deriving DecidableEq

def sanitizeKind (kind : String) : String :=
  if kind.toList.all fun c =>
      ('a' ≤ c && c ≤ 'z') || ('0' ≤ c && c ≤ '9') || c = '-' || c = '_' || c = ':'
  then kind else ""

def dedupKey (keyPrefix kind key : String) : String :=
  if keyPrefix = "" then "queue:dedup:" ++ kind ++ ":" ++ key
  else keyPrefix ++ ":dedup:" ++ kind ++ ":" ++ key

theorem dedupKey_inj {keyPrefix kind key key' : String}
    (h : dedupKey keyPrefix kind key = dedupKey keyPrefix kind key') : key = key' := by
  unfold dedupKey at h
  split at h <;> exact (String.append_right_inj _).mp h

structure Enqueuer where
  dedupTTL : Int
  maxAttempts : Int
  deriving DecidableEq

def Enqueuer.message (e : Enqueuer) (t : Task) (now : Int) : TaskMessage where
  kind := sanitizeKind t.kind
  key := t.idempotencyKey
  payload := t.payload
  attempt := if t.attempt < 0 then 0 else t.attempt
  maxAttempts :=
    if t.maxAttempts ≤ 0 then (if 0 < e.maxAttempts then e.maxAttempts else 10) else t.maxAttempts
  availableAt := now + t.delay
  lastError := ""

def Enqueuer.ttl (e : Enqueuer) : Int := if e.dedupTTL ≤ 0 then 24 * 3600 * second else e.dedupTTL

/-- The settings of one worker process. -/
structure Settings where
  concurrency : Int
  visibilityTimeout : Int
  softDeadline : Int
  retryBase : Int
  retryJitter : Bool
  deriving DecidableEq

namespace Settings

variable (w : Settings)

def slots : Nat := if w.concurrency ≤ 0 then 1 else w.concurrency.toNat

def visibility : Int := if w.visibilityTimeout ≤ 0 then 30 * second else w.visibilityTimeout

/-- The time a job gets. A soft deadline that is unset or not below the
visibility timeout is replaced by three quarters of that timeout; durations
divide towards zero. -/
def jobTimeout : Int :=
  if w.softDeadline ≤ 0 ∨ w.visibility ≤ w.softDeadline then
    let quarter := w.visibility.tdiv 4
    let margin := if quarter ≤ 0 then second else quarter
    if w.visibility - margin ≤ 0 then
      if w.visibility.tdiv 2 ≤ 0 then w.visibility else w.visibility.tdiv 2
    else w.visibility - margin
  else w.softDeadline

def base : Int := if w.retryBase ≤ 0 then 200 * millisecond else w.retryBase

end Settings

/-- A row of `queue_dlq`. The payload column has the text of the message as the
processing set had it. -/
structure DLQEntry where
  kind : String
  idempotencyKey : String
  payload : TaskMessage
  attempts : Int
  lastError : Option String
  note : List Nat
  deriving DecidableEq

/-- Redis and the DLQ store, as far as the queue goes. -/
structure Broker where
  now : Int
  queue : ZSet TaskMessage
  processing : ZSet TaskMessage
  dedup : Keys String
  dlq : List DLQEntry
  accepted : List TaskMessage
  starts : List (List Nat)
  handled : List Nat

/-- What the processes of one queue have in common; `float64` is the rounding of
a time to the score of a sorted set. -/
structure Env where
  keyPrefix : String
  kind : String
  float64 : Int → Int

def Env.dedupKey (env : Env) (m : TaskMessage) : String :=
  Queue.dedupKey env.keyPrefix m.kind m.key

namespace Broker

variable (q : Broker)

def pushQueue (env : Env) (m : TaskMessage) (note : List Nat) : Broker :=
  { q with queue := q.queue.add m (env.float64 m.availableAt) note }

/-- The task stands in the queue, in the processing set or in the DLQ, or its
handler has returned nil. -/
def Located (i : Nat) : Prop :=
  q.queue.Carries i ∨ q.processing.Carries i ∨ (∃ e ∈ q.dlq, i ∈ e.note) ∨ i ∈ q.handled

instance (i : Nat) : Decidable (q.Located i) := inferInstanceAs (Decidable (_ ∨ _ ∨ _ ∨ _))

def empty : Broker := ⟨0, .empty, .empty, .empty, [], [], [], []⟩

end Broker

end TokoApi.Queue
