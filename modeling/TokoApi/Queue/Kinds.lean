import TokoApi.Queue.Dedup

/-!
# The queues of all kinds

Enqueuers and workers of any kinds share one Redis. A queue, a processing set and
a dedup marker are found under names made of the kind, and a kind may contain
colons, so that the names of two kinds can coincide: the queue of kind
`mail:processing` is the processing set of kind `mail`, and the marker of kind
`mail` and key `a:b` is that of kind `mail:a` and key `b`.
-/
namespace TokoApi.Queue

open Lib.Redis Lib.Threads Lib.Runs

def queueKey (keyPrefix kind : String) : String :=
  if keyPrefix = "" then "queue:" ++ kind else keyPrefix ++ ":queue:" ++ kind

def processingKey (keyPrefix kind : String) : String :=
  if keyPrefix = "" then "queue:" ++ kind ++ ":processing"
  else keyPrefix ++ ":" ++ kind ++ ":processing"

/-- The sorted sets and markers by name, and the processes of each kind. What the
queue of a kind records for itself is kept there; its sets, markers and clock are
the common ones. -/
structure Kinds where
  now : Int
  dedup : Keys String
  sets : String → ZSet TaskMessage
  queues : String → System

namespace Kinds

variable (keyPrefix : String) (r : Kinds) (kind : String)

/-- What the processes of one kind see. -/
def system : System where
  shared.broker := { (r.queues kind).shared.broker with
    now := r.now
    dedup := r.dedup
    queue := r.sets (queueKey keyPrefix kind)
    processing := r.sets (processingKey keyPrefix kind) }
  shared.store := ()
  threads := (r.queues kind).threads

def put (c : System) : Kinds where
  now := c.shared.broker.now
  dedup := c.shared.broker.dedup
  sets := Function.update (Function.update r.sets (queueKey keyPrefix kind) c.shared.broker.queue)
    (processingKey keyPrefix kind) c.shared.broker.processing
  queues := Function.update r.queues kind c

def unused (now : Int) (dedup : Keys String) : Kinds where
  now := now
  dedup := dedup
  sets _ := .empty
  queues _ := Queue.unused now dedup

end Kinds

/-- A step of some process of one kind, or the passing of time. -/
def kindsStep (keyPrefix : String) (float64 : Int → Int) (r : Kinds) (l : String × Event) :
    Option Kinds :=
  ((queueMachine arbitraryHandler ⟨keyPrefix, l.1, float64⟩).step (r.system keyPrefix l.1) l.2).map
    (r.put keyPrefix l.1)

section

variable {keyPrefix kind kind' : String}

theorem queueKey_ne_processingKey : queueKey keyPrefix kind ≠ processingKey keyPrefix kind := by
  intro h
  have hlen := congrArg String.length h
  unfold queueKey processingKey at hlen
  split at hlen
  · simp only [String.length_append, show ":processing".length = 11 from rfl] at hlen
    omega
  · simp only [String.length_append, show ":processing".length = 11 from rfl,
      show ":queue:".length = 7 from rfl, show ":".length = 1 from rfl] at hlen
    omega

/-- The two kinds have no set in common. -/
structure Apart (keyPrefix kind kind' : String) : Prop where
  queues : queueKey keyPrefix kind ≠ queueKey keyPrefix kind'
  queue : queueKey keyPrefix kind ≠ processingKey keyPrefix kind'
  processing : processingKey keyPrefix kind ≠ queueKey keyPrefix kind'
  processings : processingKey keyPrefix kind ≠ processingKey keyPrefix kind'

instance : Decidable (Apart keyPrefix kind kind') :=
  decidable_of_iff (queueKey keyPrefix kind ≠ queueKey keyPrefix kind' ∧
      queueKey keyPrefix kind ≠ processingKey keyPrefix kind' ∧
      processingKey keyPrefix kind ≠ queueKey keyPrefix kind' ∧
      processingKey keyPrefix kind ≠ processingKey keyPrefix kind')
    ⟨fun h => ⟨h.1, h.2.1, h.2.2.1, h.2.2.2⟩, fun h => ⟨h.1, h.2, h.3, h.4⟩⟩

theorem system_put (r : Kinds) (c : System) : (r.put keyPrefix kind c).system keyPrefix kind = c := by
  have hq : queueKey keyPrefix kind ≠ processingKey keyPrefix kind := queueKey_ne_processingKey
  simp [Kinds.system, Kinds.put, Function.update_of_ne hq]

end

/-! ## Steps of other kinds -/

/-- The step does not delete the marker, and it does not expire. -/
def sparesMarker (env : Env) (d : String) (c : System) : Event → Bool
  | .act k (.worker (.job j (.command _))) =>
    ((workerOf c k).bind fun w => w.jobs[j]?).all fun job => !job.releases env d
  | .env n => !(c.shared.broker.dedup d).held c.shared.broker.now ||
      (c.shared.broker.dedup d).held (c.shared.broker.now + n)
  | _ => true

/-- The steps of the kind itself spare the key; the other kinds have no set in
common with it and spare its marker. -/
abbrev orderlyKey (keyPrefix : String) (float64 : Int → Int) (kind key : String) (r : Kinds)
    (l : String × Event) : Prop :=
  if l.1 = kind then
    sparingKey ⟨keyPrefix, kind, float64⟩ (dedupKey keyPrefix kind key) (r.system keyPrefix kind) l.2 =
      true
  else
    Apart keyPrefix kind l.1 ∧ sparesMarker ⟨keyPrefix, l.1, float64⟩ (dedupKey keyPrefix kind key)
      (r.system keyPrefix l.1) l.2 = true

section

variable {env : Env} {d : String} {c c' : System} {l : Event}

theorem held_step (hl : sparesMarker env d c l = true)
    (hs : (queueMachine arbitraryHandler env).step c l = some c')
    (hheld : (c.shared.broker.dedup d).held c.shared.broker.now = true) :
    (c'.shared.broker.dedup d).held c'.shared.broker.now = true := by
  cases Machine.step_effect hs with
  | spawn r => exact hheld
  | env he =>
    cases he
    simpa [sparesMarker, hheld] using hl
  | act ht hstep =>
    cases proc_effect hstep with
    | enqueue he =>
      cases enqueue_effect he with
      | claimed _ hset => exact (congrArg _ (setNX_kept hset hheld)).trans hheld
      | _ => exact hheld
    | worker hw =>
      cases worker_key hw with
      | quiet hq => rwa [hq.dedup, hq.now]
      | take _ _ _ _ _ _ hd | remove _ _ _ _ hd | lift _ _ _ _ _ _ _ hd => rwa [hd.1, hd.2]
      | release ho hj hr =>
        subst ho
        simp [sparesMarker, workerOf, ht, hj, hr] at hl

variable {keyPrefix : String} {float64 : Int → Int} {kind key : String} {r r' : Kinds}
  {e : String × Event}

def SingleAt (keyPrefix : String) (float64 : Int → Int) (kind key : String) (r : Kinds) : Prop :=
  Single ⟨keyPrefix, kind, float64⟩ (dedupKey keyPrefix kind key)
    (r.system keyPrefix kind).shared.broker (r.system keyPrefix kind).threads

theorem singleAt_step (hkey : key ≠ "") (h : SingleAt keyPrefix float64 kind key r)
    (hl : orderlyKey keyPrefix float64 kind key r e)
    (hs : kindsStep keyPrefix float64 r e = some r') : SingleAt keyPrefix float64 kind key r' := by
  obtain ⟨kind', a⟩ := e
  obtain ⟨c, hc, rfl⟩ := Option.map_eq_some_iff.mp hs
  unfold orderlyKey at hl
  split at hl
  · next heq =>
    simp only at heq
    subst heq
    unfold SingleAt
    rw [system_put]
    refine single_step h (fun m hm hempty hmarks => ?_) hl hc
    unfold Marks Env.dedupKey at hmarks
    rw [show m.kind = kind' from hm, hempty] at hmarks
    exact hkey (dedupKey_inj hmarks).symm
  · next hne =>
    obtain ⟨hapart, hspare⟩ := hl
    have hqueue : (r.put keyPrefix kind' c).sets (queueKey keyPrefix kind) =
        r.sets (queueKey keyPrefix kind) := by
      simp only [Kinds.put, Function.update_of_ne hapart.queue, Function.update_of_ne hapart.queues]
    have hproc : (r.put keyPrefix kind' c).sets (processingKey keyPrefix kind) =
        r.sets (processingKey keyPrefix kind) := by
      simp only [Kinds.put, Function.update_of_ne hapart.processings,
        Function.update_of_ne hapart.processing]
    have hprocs : ((r.put keyPrefix kind' c).queues kind).threads = (r.queues kind).threads := by
      simp only [Kinds.put, Function.update_of_ne (Ne.symm hne)]
    obtain ⟨hone, htended, hpresent, hmarked⟩ := h
    unfold SingleAt
    simp only [Kinds.system, Broker.queued, Broker.underway, hqueue, hproc, hprocs] at *
    exact ⟨hone, htended, hpresent, fun hpos => held_step hspare hc (hmarked hpos)⟩

end

theorem singleAt_unused (keyPrefix : String) (float64 : Int → Int) (kind key : String) (now : Int)
    (dedup : Keys String) : SingleAt keyPrefix float64 kind key (.unused now dedup) := by
  have hthreads : ((Kinds.unused now dedup).system keyPrefix kind).threads = [] := rfl
  have hqueue : ((Kinds.unused now dedup).system keyPrefix kind).shared.broker.queue = .empty := rfl
  have hproc : ((Kinds.unused now dedup).system keyPrefix kind).shared.broker.processing = .empty :=
    rfl
  unfold SingleAt
  rw [hthreads]
  constructor <;> simp [Broker.queued, Broker.underway, hqueue, hproc, ZSet.size_empty]

/-- At most one message with a given kind and key is in the queue and the
processing set of the kind, in every run in which `requeueExpired` takes back only
what is still there and what nobody waits with or works on, and in which no other
kind uses the same names. -/
theorem one_message_per_key (keyPrefix : String) (float64 : Int → Int) (now : Int)
    (dedup : Keys String) (kind key : String) (hkey : key ≠ "") (events : List (String × Event))
    (r : Kinds)
    (hmeets : Meets (kindsStep keyPrefix float64) (orderlyKey keyPrefix float64 kind key)
      (.unused now dedup) events)
    (hrun : run (kindsStep keyPrefix float64) (.unused now dedup) events = some r) :
    (r.sets (queueKey keyPrefix kind)).size (fun m => m.kind = kind ∧ m.key = key) +
      (r.sets (processingKey keyPrefix kind)).size (fun m => m.kind = kind ∧ m.key = key) ≤ 1 := by
  have hsingle : SingleAt keyPrefix float64 kind key r :=
    run_inv (fun _ _ _ h hl hs => singleAt_step hkey h hl hs)
      (singleAt_unused keyPrefix float64 kind key now dedup) hmeets hrun
  have hmarks : ∀ m : TaskMessage, m.kind = kind ∧ m.key = key →
      Marks ⟨keyPrefix, kind, float64⟩ (dedupKey keyPrefix kind key) m := by
    rintro m ⟨rfl, rfl⟩
    rfl
  have hone := hsingle.one
  have hqueue := ZSet.size_mono hmarks (r.sets (queueKey keyPrefix kind))
  have hproc := ZSet.size_mono hmarks (r.sets (processingKey keyPrefix kind))
  change (r.sets (queueKey keyPrefix kind)).size _ + (r.sets (processingKey keyPrefix kind)).size _ +
    _ ≤ 1 at hone
  omega

/-! ## A handler that is overtaken by its own redelivery -/

def keyedTask : Task := { mailTask with idempotencyKey := "k" }

def keyedMessage : TaskMessage := { mailMessage with key := "k" }

def ofMail (events : List Event) : List (String × Event) := events.map fun e => ("mail", e)

def enqueueKeyed (e : Nat) : List Event :=
  [.spawn (.enqueue ⟨0, 0⟩ keyedTask), .act e (.enqueue .ok), .act e (.enqueue .ok),
    .act e (.enqueue .ok)]

def keyedMessages (r : Kinds) : Nat :=
  (r.sets (queueKey "" "mail")).size (fun m => m.kind = "mail" ∧ m.key = "k") +
    (r.sets (processingKey "" "mail")).size (fun m => m.kind = "mail" ∧ m.key = "k")

def handledAndEnqueued : List (String × Event) :=
  ofMail ([.spawn (.worker plainSettings)] ++ enqueueKeyed 1 ++
    [.act 0 (.worker .poll), .act 0 (.worker (.pop keyedMessage))] ++ takeAndStart 0 ++
    [.act 0 (.worker (.job 0 (.handler none))), .act 0 (.worker (.job 0 (.command .ok))),
      .act 0 (.worker (.job 0 (.command .ok)))] ++ enqueueKeyed 2)

theorem keyed_once_again :
    ∃ r, run (kindsStep "" id) (.unused 0 .empty) handledAndEnqueued = some r ∧
      0 < keyedMessages r ∧ keyedMessages r ≤ 1 :=
  reaches_and (by decide +kernel) fun r hr _ =>
    one_message_per_key "" id 0 .empty "mail" "k" (by decide) _ r (by decide +kernel) hr

/-- The only slot is taken for 20 s by another task, and the keyed one waits. Its
handler is still running when `requeueExpired` takes the message back after 30 s;
5 s later it succeeds, deletes the marker, and the key is enqueued again. -/
def overtaken : List (String × Event) :=
  ofMail ([.spawn (.worker plainSettings)] ++ enqueueAndPop 1 0 ++ takeAndStart 0 ++
    enqueueKeyed 2 ++ [.act 0 (.worker .poll), .act 0 (.worker (.pop keyedMessage)),
      .act 0 (.worker .clock), .act 0 (.worker .clock), .act 0 (.worker .command),
      .env 20000000000, .act 0 (.worker (.job 0 (.handler none))),
      .act 0 (.worker (.job 0 (.command .ok))), .act 0 (.worker .start), .env 10000000000,
      .act 0 (.worker .scan), .act 0 (.worker .command), .act 0 (.worker .command),
      .act 0 (.worker .clock), .act 0 (.worker .command), .env 5000000000,
      .act 0 (.worker (.job 1 (.handler none))), .act 0 (.worker (.job 1 (.command .ok))),
      .act 0 (.worker (.job 1 (.command .ok)))] ++ enqueueKeyed 3)

theorem keyed_twice :
    ∃ r, run (kindsStep "" id) (.unused 0 .empty) overtaken = some r ∧ keyedMessages r = 2 :=
  reaches (P := fun r : Kinds => keyedMessages r = 2) (by decide +kernel)

end TokoApi.Queue
