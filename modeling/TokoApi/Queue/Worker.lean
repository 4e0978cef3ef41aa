import TokoApi.Lib.Threads
import TokoApi.Queue.Message
import TokoApi.Resilience.Client

/-!
# Enqueuers and workers

`Enqueuer.Enqueue` and `Worker.Run` (queue.go) as threads over the broker. A step
is one Redis command, one reading of the clock, or one of the events the code
waits for. A command whose context is done fails and has no effect; no other
command fails, but the insertion into the DLQ may. A crashed worker stays where
it was and takes no further step.

The handler is a parameter: a thread of its own that may use the broker and a
store, and that returns nil or an error. The commands that only feed metrics are
left out.
-/
namespace TokoApi.Queue

open Lib.Threads Resilience

/-- How a task is handled: its program points `θ`, over a store `η`, with inputs
`χ`. A step goes on to another point or returns. -/
structure Handler (η θ χ : Type) where
  start : TaskMessage → θ
  step : Broker → η → θ → χ → Option (Broker × η × (θ ⊕ Option String))

structure Shared (η : Type) where
  broker : Broker
  store : η

/-! ## Enqueue -/

inductive EnqueuePc where
  | message (e : Enqueuer) (t : Task)
  | setNX (e : Enqueuer) (m : TaskMessage)
  | zadd (m : TaskMessage)
  | returned (err : Option String)
  deriving DecidableEq

/-- The ZADD of `Enqueue`; the enqueueing gets the next number. -/
def Broker.accept (env : Env) (q : Broker) (m : TaskMessage) : Broker :=
  { q.pushQueue env m [q.accepted.length] with accepted := q.accepted ++ [m] }

def enqueueStep (env : Env) (q : Broker) : EnqueuePc → Call → Option (Broker × EnqueuePc)
  | .message e t, _ =>
    let m := e.message t q.now
    if m.kind = "" then some (q, .returned (some "queue: task kind is required"))
    else if m.kind ≠ env.kind then none
    else if m.key ≠ "" then some (q, .setNX e m)
    else some (q, .zadd m)
  | .setNX e m, .ok =>
    match q.dedup.setNX q.now e.ttl (env.dedupKey m) with
    | (false, _) => some (q, .returned none)
    | (true, keys) => some ({ q with dedup := keys }, .zadd m)
  | .zadd m, .ok => some (q.accept env m, .returned none)
  | .setNX _ _, .fail err => some (q, .returned (some err))
  | .zadd _, .fail err => some (q, .returned (some err))
  | .returned _, _ => none

/-! ## Jobs -/

/-- Where the goroutine of a job stands. `executed` says that its ZREM was sent
with a live context. -/
inductive JobPc (θ : Type) where
  | running (h : θ)
  | acking
  | failing (cause : String)
  | failed (executed : Bool) (m : TaskMessage)
  | retrying (executed : Bool) (m : TaskMessage)
  | burying (executed : Bool) (m : TaskMessage)
  | releasing
  | ended
  deriving DecidableEq

/-- A job. No code reads `start`, the place of its start in the broker's log, nor
`result`, what its handler has returned. -/
structure Job (θ : Type) where
  msg : TaskMessage
  note : List Nat
  start : Nat
  result : Option (Option String)
  deadline : Int
  ctxDone : Bool
  pc : JobPc θ
  deriving DecidableEq

inductive JobOp (χ : Type) where
  | handler (x : χ)
  | clock (delta : Int)
  | command (c : Call)
  | expire

/-- The loop of `Run`. `final` marks the scan after shutdown, which runs on a
context of its own. -/
inductive Main where
  | select
  | polling
  | scanning (now : Int) (final : Bool)
  | requeue (due : List (TaskMessage × List Nat)) (final : Bool)
  | lifted (m : TaskMessage) (note : List Nat) (due : List (TaskMessage × List Nat)) (final : Bool)
  | moving (m : TaskMessage) (note : List Nat) (due : List (TaskMessage × List Nat)) (final : Bool)
  | popped (m : TaskMessage) (note : List Nat)
  | pushBack (m : TaskMessage) (note : List Nat)
  | due (m : TaskMessage) (note : List Nat)
  | taking (m : TaskMessage) (note : List Nat) (deadline : Int)
  | waiting (m : TaskMessage) (note : List Nat)
  | draining
  | stopped
  deriving DecidableEq

/-- A worker process. `dropped` is a record of the enqueueings whose entry was
removed and whose re-insertion failed. -/
structure Worker (θ : Type) where
  settings : Settings
  alive : Bool
  ctxDone : Bool
  main : Main
  jobs : List (Job θ)
  dropped : List Nat
  deriving DecidableEq

inductive Op (χ : Type) where
  | poll
  | scan
  | shutdown
  | pop (m : TaskMessage)
  | popEmpty
  | clock
  | command
  | start
  | cancel
  | crash
  | job (j : Nat) (x : JobOp χ)

section

variable {η θ χ : Type}

def Job.goto (job : Job θ) (pc : JobPc θ) : Job θ := { job with pc := pc }

def Worker.goto (w : Worker θ) (pc : Main) : Worker θ := { w with main := pc }

/-- The handler returns: an acknowledgement or `handleFailure` follows. -/
def Job.returns (job : Job θ) : Option String → Job θ
  | none => { job with result := some none, pc := .acking }
  | some err => { job with result := some (some err), pc := .failing err }

/-- After the last command but one, the dedup key is deleted if there is one. -/
def Job.release (job : Job θ) : Job θ :=
  job.goto (if job.msg.key = "" then .ended else .releasing)

/-- `handleFailure` decides between the DLQ and another attempt. -/
def afterRemoval (executed : Bool) (m : TaskMessage) : JobPc θ :=
  if 0 < m.maxAttempts ∧ m.maxAttempts ≤ m.attempt then .burying executed m
  else .failed executed m

def dlqEntry (job : Job θ) (m : TaskMessage) : DLQEntry where
  kind := m.kind
  idempotencyKey := m.key
  payload := job.msg
  attempts := m.attempt
  lastError := if m.lastError = "" then none else some m.lastError
  note := job.note

/-- A step of a job: the shared state, the job, and what a failed re-insertion
has dropped. -/
def jobStep (H : Handler η θ χ) (env : Env) (w : Worker θ) (s : Shared η) (job : Job θ) :
    JobOp χ → Option (Shared η × Job θ × List Nat)
  | .expire =>
    if job.deadline ≤ s.broker.now ∨ w.ctxDone then some (s, { job with ctxDone := true }, [])
    else none
  | .handler x =>
    match job.pc with
    | .running h =>
      match H.step s.broker s.store h x with
      | none => none
      | some (q, e, .inl h') => some (⟨q, e⟩, job.goto (.running h'), [])
      | some (q, e, .inr none) =>
        some (⟨{ q with handled := q.handled ++ job.note }, e⟩, job.returns none, [])
      | some (q, e, .inr (some err)) => some (⟨q, e⟩, job.returns (some err), [])
    | _ => none
  | .clock delta =>
    match job.pc with
    | .failed executed m =>
      let delay := backoff w.settings.base m.attempt w.settings.retryJitter delta
      some (s, job.goto (.retrying executed { m with availableAt := s.broker.now + delay }), [])
    | _ => none
  | .command c =>
    let q := s.broker
    match job.pc with
    | .acking =>
      if job.ctxDone then some (s, job.release, [])
      else some ({ s with broker := { q with processing := q.processing.rem job.msg } },
        job.release, [])
    | .failing cause =>
      let m := { job.msg with lastError := cause }
      if job.ctxDone then some (s, job.goto (afterRemoval false m), [])
      else some ({ s with broker := { q with processing := q.processing.rem job.msg } },
        job.goto (afterRemoval true m), [])
    | .retrying executed m =>
      if job.ctxDone then some (s, job.goto .ended, if executed then job.note else [])
      else some ({ s with broker := q.pushQueue env m job.note }, job.goto .ended, [])
    | .burying executed m =>
      if job.ctxDone ∨ c ≠ .ok then some (s, job.release, if executed then job.note else [])
      else some ({ s with broker := { q with dlq := q.dlq ++ [dlqEntry job m] } },
        job.release, [])
    | .releasing =>
      if job.ctxDone then some (s, job.goto .ended, [])
      else some ({ s with broker := { q with dedup := q.dedup.del (env.dedupKey job.msg) } },
        job.goto .ended, [])
    | _ => none

def Job.finished (job : Job θ) : Bool :=
  match job.pc with
  | .ended => true
  | _ => false

def Worker.active (w : Worker θ) : Nat := w.jobs.countP fun job => !job.finished

/-- The next entry of `requeueExpired`, or the end of its loop. -/
def afterRequeue (due : List (TaskMessage × List Nat)) (final : Bool) : Main :=
  match due with
  | [] => if final then .stopped else .polling
  | _ :: _ => .requeue due final

def newJob (H : Handler η θ χ) (w : Worker θ) (q : Broker) (m : TaskMessage) (note : List Nat) :
    Job θ where
  msg := m
  note := note
  start := q.starts.length
  result := none
  deadline := q.now + w.settings.jobTimeout
  ctxDone := w.ctxDone
  pc := .running (H.start m)

def mainStep (H : Handler η θ χ) (env : Env) (q : Broker) (w : Worker θ) :
    Op χ → Option (Broker × Worker θ)
  | .poll => if w.main = .select then some (q, w.goto .polling) else none
  | .scan => if w.main = .select then some (q, w.goto (.scanning q.now false)) else none
  | .shutdown => if w.main = .select ∧ w.ctxDone then some (q, w.goto .draining) else none
  | .pop m =>
    if w.main = .polling ∧ w.ctxDone = false then
      match q.queue.popMin m with
      | none => none
      | some (e, rest) => some ({ q with queue := rest }, w.goto (.popped m e.note))
    else none
  | .popEmpty =>
    if w.main = .polling ∧ q.queue.entries = [] ∧ w.ctxDone = false then
      some (q, w.goto .select)
    else if w.main = .polling ∧ w.ctxDone then some (q, w.goto .stopped)
    else none
  | .clock =>
    match w.main with
    | .popped m note =>
      if q.now < m.availableAt then some (q, w.goto (.pushBack m note))
      else some (q, w.goto (.due { m with attempt := m.attempt + 1 } note))
    | .due m note => some (q, w.goto (.taking m note (q.now + w.settings.visibility)))
    | .lifted m note due final =>
      some (q, w.goto (.moving { m with availableAt := q.now } note due final))
    | .draining =>
      if w.jobs.all Job.finished then some (q, w.goto (.scanning q.now true)) else none
    | _ => none
  | .command =>
    match w.main with
    | .scanning now final =>
      if w.ctxDone ∧ final = false then some (q, w.goto .select)
      else
        let due := (q.processing.upTo (env.float64 now)).map fun e => (e.member, e.note)
        some (q, w.goto (afterRequeue due final))
    | .requeue ((m, note) :: due) final =>
      if w.ctxDone ∧ final = false then some (q, w.goto (.lifted m [] due final))
      else some ({ q with processing := q.processing.rem m },
        w.goto (.lifted m (note ++ q.processing.noteOf m) due final))
    | .moving m note due final =>
      if w.ctxDone ∧ final = false then
        some (q, { w with main := afterRequeue due final, dropped := w.dropped ++ note })
      else some (q.pushQueue env m note, w.goto (afterRequeue due final))
    | .pushBack m note =>
      if w.ctxDone then some (q, { w with main := .select, dropped := w.dropped ++ note })
      else some (q.pushQueue env m note, w.goto .select)
    | .taking m note deadline =>
      if w.ctxDone then some (q, { w with main := .stopped, dropped := w.dropped ++ note })
      else some ({ q with processing := q.processing.add m (env.float64 deadline) note },
        w.goto (.waiting m note))
    | _ => none
  | .start =>
    match w.main with
    | .waiting m note =>
      if w.active < w.settings.slots then
        some ({ q with starts := q.starts ++ [note] },
          { w with main := .select, jobs := w.jobs ++ [newJob H w q m note] })
      else none
    | _ => none
  | .cancel => some (q, { w with ctxDone := true })
  | .crash => some (q, { w with alive := false })
  | .job _ _ => none

def workerStep (H : Handler η θ χ) (env : Env) (s : Shared η) (w : Worker θ) (o : Op χ) :
    Option (Shared η × Worker θ) :=
  if w.alive then
    match o with
    | .job j x =>
      match w.jobs[j]? with
      | none => none
      | some job => (jobStep H env w s job x).map fun (s', job', lost) =>
          (s', { w with jobs := w.jobs.set j job', dropped := w.dropped ++ lost })
    | o => (mainStep H env s.broker w o).map fun (q, w') => ({ s with broker := q }, w')
  else none

/-! ## The machine -/

inductive Proc (θ : Type) where
  | enqueue (pc : EnqueuePc)
  | worker (w : Worker θ)

inductive Launch where
  | enqueue (e : Enqueuer) (t : Task)
  | worker (settings : Settings)

inductive Input (χ : Type) where
  | enqueue (c : Call)
  | worker (o : Op χ)

def Launch.proc : Launch → Proc θ
  | .enqueue e t => .enqueue (.message e t)
  | .worker settings => .worker ⟨settings, true, false, .select, [], []⟩

def procStep (H : Handler η θ χ) (env : Env) (s : Shared η) :
    Proc θ → Input χ → Option (Shared η × Proc θ)
  | .enqueue pc, .enqueue c =>
    (enqueueStep env s.broker pc c).map fun (q, pc') => ({ s with broker := q }, .enqueue pc')
  | .worker w, .worker o => (workerStep H env s w o).map fun (s', w') => (s', .worker w')
  | _, _ => none

def Shared.tick (s : Shared η) (d : Nat) : Option (Shared η) :=
  some { s with broker := { s.broker with now := s.broker.now + d } }

def queueMachine (H : Handler η θ χ) (env : Env) :
    Machine (Shared η) (Proc θ) Launch (Input χ) Nat where
  start := Launch.proc
  lstep _ := procStep H env
  estep := Shared.tick

end

/-- A handler of which nothing is known but that it returns, with nil or with an
error, at some time. -/
def arbitraryHandler : Handler Unit Unit (Option String) where
  start _ := ()
  step q _ _ result := some (q, (), .inr result)

abbrev System := Sys (Shared Unit) (Proc Unit)
abbrev Event := Act Launch (Input (Option String)) Nat

end TokoApi.Queue
