import TokoApi.Queue.MaxAttempts

/-!
# Replaying dead letters

`AdminHandler.requeueEntry` (admin_handlers.go) enqueues the task of a row of
`queue_dlq` and then deletes the row. `Enqueue` also returns nil where it adds nothing:
another task with the same key may hold the dedup marker. So the call conserves the task
exactly where SETNX finds no marker and ZADD no equal member.

The first part says what `pushToDLQ` writes: a message that has been popped at least
once, under its own kind and key, with the counter it had.
-/
namespace TokoApi.Queue

open Lib.Redis Lib.Threads Lib.Runs

/-! ## What is buried -/

/-- A message of the queue, wherever it is: `Enqueue` has built it, and no worker changes
its kind or its limit. -/
structure Proper (env : Env) (m : TaskMessage) : Prop extends Built m where
  kind : m.kind = env.kind

structure Tried (env : Env) (m : TaskMessage) : Prop extends Proper env m where
  popped : 1 ≤ m.attempt

structure Written (env : Env) (e : DLQEntry) : Prop where
  kind : e.kind = e.payload.kind
  key : e.idempotencyKey = e.payload.key
  attempts : e.attempts = e.payload.attempt
  payload : Tried env e.payload

structure Broker.Bears (env : Env) (q : Broker) : Prop where
  queue : ∀ e ∈ q.queue.entries, Proper env e.member
  processing : ∀ e ∈ q.processing.entries, Tried env e.member
  dlq : ∀ e ∈ q.dlq, Written env e

def Main.Bears (env : Env) : Main → Prop
  | .popped m _ | .pushBack m _ | .lifted m _ _ _ | .moving m _ _ _ => Proper env m
  | .due m _ | .taking m _ _ | .waiting m _ => Tried env m
  | _ => True

def JobPc.Bears {θ : Type} (env : Env) (msg : TaskMessage) : JobPc θ → Prop
  | .failed _ m | .retrying _ m => Proper env m
  | .burying _ m => ∃ cause, m = { msg with lastError := cause }
  | _ => True

structure Job.Bears {θ : Type} (env : Env) (job : Job θ) : Prop where
  msg : Tried env job.msg
  pc : job.pc.Bears env job.msg

structure Worker.Bears {θ : Type} (env : Env) (w : Worker θ) : Prop where
  main : w.main.Bears env
  due : ∀ p ∈ w.main.dueList, Proper env p.1
  jobs : ∀ job ∈ w.jobs, job.Bears env

def Proc.Bears {θ : Type} (env : Env) : Proc θ → Prop
  | .enqueue (.setNX _ m) | .enqueue (.zadd m) => Proper env m
  | .enqueue _ => True
  | .worker w => w.Bears env

section

variable {env : Env} {q q' : Broker} {m : TaskMessage} {score : Int} {note : List Nat}

theorem Tried.of_lastError (h : Tried env m) (cause : String) :
    Proper env { m with lastError := cause } := ⟨⟨h.attempt, h.max⟩, h.kind⟩

theorem Proper.of_availableAt (h : Proper env m) (t : Int) :
    Proper env { m with availableAt := t } := ⟨⟨h.attempt, h.max⟩, h.kind⟩

theorem Proper.next (h : Proper env m) : Tried env { m with attempt := m.attempt + 1 } := by
  have hattempt := h.attempt
  refine ⟨⟨⟨?_, h.max⟩, h.kind⟩, ?_⟩
  · show 0 ≤ m.attempt + 1
    omega
  · show 1 ≤ m.attempt + 1
    omega

theorem proper_add {z : ZSet TaskMessage} (hz : ∀ e ∈ z.entries, Proper env e.member)
    (hm : Proper env m) : ∀ e ∈ (z.add m score note).entries, Proper env e.member :=
  ZSet.notes_add (P := fun m _ => Proper env m) (fun _ _ h _ => h) hz hm

theorem Broker.Bears.pushQueue (h : q.Bears env) (hm : Proper env m) :
    (q.pushQueue env m note).Bears env := ⟨proper_add h.queue hm, h.processing, h.dlq⟩

theorem Broker.Bears.remProcessing (h : q.Bears env) :
    Broker.Bears env { q with processing := q.processing.rem m } :=
  ⟨h.queue, fun e he => h.processing e (ZSet.mem_rem.mp he).1, h.dlq⟩

theorem enqueue_bears {pc pc' : EnqueuePc} (he : EnqueueEffect env q pc q' pc')
    (hq : q.Bears env) (hpc : Proc.Bears (θ := Unit) env (.enqueue pc)) :
    q'.Bears env ∧ Proc.Bears (θ := Unit) env (.enqueue pc') := by
  cases he with
  | built hp hk hn =>
    have hm : Proper env _ := ⟨message_built _ _ _, hk⟩
    constructor
    · exact hq
    · rcases hn with rfl | ⟨_, rfl⟩ <;> exact hm
  | suppressed | failed => exact ⟨hq, trivial⟩
  | claimed hp =>
    subst hp
    exact ⟨{ hq with }, hpc⟩
  | accepted hp =>
    subst hp
    exact ⟨⟨proper_add hq.queue hpc, hq.processing, hq.dlq⟩, trivial⟩

variable {H : Handler Unit Unit (Option String)} {w w' : Worker Unit} {o : Op (Option String)}

theorem bears_iff_holds {pc : Main} :
    pc.Bears env ↔ pc.Holds (fun m _ => Proper env m) fun m _ => Tried env m := by
  cases pc <;> rfl

theorem main_bears (he : MainEffect H env q w o q' w') (hq : q.Bears env) (hw : w.Bears env) :
    q'.Bears env ∧ w'.Bears env := by
  have hport : Portable (fun m _ => Proper env m) fun m _ => Tried env m :=
    ⟨fun _ _ h => h.toProper, fun _ _ h => h.next, fun _ _ t h => h.of_availableAt t,
      fun _ _ _ h _ => h, fun _ _ _ h _ => h, fun _ _ h => h⟩
  obtain ⟨h, hjobs⟩ :=
    main_moves hport he ⟨hq.queue, hq.processing, bears_iff_holds.mp hw.main, hw.due⟩
  refine ⟨⟨h.queue, h.processing, (main_rest he).2.1 ▸ hq.dlq⟩, bears_iff_holds.mpr h.hand, h.due, ?_⟩
  rcases hjobs with ⟨hj, _⟩ | ⟨m, note, hm, hj, _⟩
  · exact hj ▸ hw.jobs
  · rw [hj]
    exact forall_mem_concat ⟨hm, trivial⟩ hw.jobs

variable {job : Job Unit}

section

variable (h : job.Bears env)
include h

theorem Job.Bears.goto {pc : JobPc Unit} (hpc : pc.Bears env job.msg) :
    (job.goto pc).Bears env := ⟨h.msg, hpc⟩

theorem Job.Bears.returns (r : Option String) : (job.returns r).Bears env := by
  cases r <;> exact ⟨h.msg, trivial⟩

theorem Job.Bears.release : job.release.Bears env := by
  unfold Job.release
  split <;> exact h.goto trivial

theorem Job.Bears.afterRemoval (executed : Bool) (cause : String) :
    (job.goto (afterRemoval executed { job.msg with lastError := cause })).Bears env := by
  apply h.goto
  unfold Queue.afterRemoval
  split
  · exact ⟨cause, rfl⟩
  · exact h.msg.of_lastError cause

theorem dlqEntry_written {executed : Bool} (hpc : job.pc = .burying executed m) :
    Written env (dlqEntry job m) := by
  have hm := h.pc
  rw [hpc] at hm
  obtain ⟨cause, rfl⟩ := hm
  exact ⟨rfl, rfl, rfl, h.msg⟩

end

theorem job_bears {s s' : Shared Unit} {job' : Job Unit} {x : JobOp (Option String)}
    {lost : List Nat} (he : JobEffect arbitraryHandler env s job x s' job' lost)
    (hq : s.broker.Bears env) (hj : job.Bears env) : s'.broker.Bears env ∧ job'.Bears env := by
  have hpc := hj.pc
  cases he with
  | expire => exact ⟨hq, hj.msg, hpc⟩
  | ran _ hs => cases hs
  | succeeded _ hs =>
    cases hs
    exact ⟨{ hq with }, hj.returns none⟩
  | erred _ hs =>
    cases hs
    exact ⟨hq, hj.returns _⟩
  | stamp hp =>
    rw [hp] at hpc
    exact ⟨hq, hj.goto (Proper.of_availableAt hpc _)⟩
  | acked => exact ⟨hq.remProcessing, hj.release⟩
  | removed => exact ⟨hq.remProcessing, hj.afterRemoval _ _⟩
  | unremoved => exact ⟨hq, hj.afterRemoval _ _⟩
  | retried hp =>
    rw [hp] at hpc
    exact ⟨hq.pushQueue hpc, hj.goto trivial⟩
  | buried hp =>
    have hrow := dlqEntry_written hj hp
    exact ⟨{ hq with dlq := forall_mem_concat hrow hq.dlq }, hj.release⟩
  | released => exact ⟨{ hq with }, hj.goto trivial⟩
  | unacked | unburied => exact ⟨hq, hj.release⟩
  | unretried | unreleased => exact ⟨hq, hj.goto trivial⟩

theorem proc_bears {i : Nat} {s s' : Shared Unit} {t t' : Proc Unit}
    {x : Input (Option String)} (h : (queueMachine arbitraryHandler env).lstep i s t x = some (s', t'))
    (hq : s.broker.Bears env) (ht : t.Bears env) : s'.broker.Bears env ∧ t'.Bears env := by
  cases proc_effect h with
  | enqueue he => exact enqueue_bears (enqueue_effect he) hq ht
  | worker hw =>
    obtain ⟨_, ⟨q, hmain, rfl⟩ | ⟨j, x, job, job', lost, _, hj, hjob, rfl⟩⟩ := worker_effect hw
    · exact main_bears hmain hq ht
    · obtain ⟨hq', hjob'⟩ := job_bears hjob hq (ht.jobs job (List.mem_of_getElem? hj))
      exact ⟨hq', ht.main, ht.due, forall_mem_set hjob' ht.jobs⟩

end

theorem dlq_written {env : Env} {now : Int} {dedup : Keys String} {events : List Event} {c : System}
    (hrun : run (queueMachine arbitraryHandler env).step (unused now dedup) events = some c)
    {e : DLQEntry} (he : e ∈ c.shared.broker.dlq) : Written env e := by
  have hguard : Guarded (fun _ s => s.broker.Bears env) (fun _ _ t => t.Bears env) c := by
    refine run_inv (fun _ _ _ hg (_ : True) hs => ?_) (guarded_start ?_) (meets_true _ events) hrun
    · refine guarded_step hg hs ?_ ?_ ?_
      · intro r _
        refine ⟨hg.1, ?_⟩
        cases r with
        | enqueue e t => trivial
        | worker settings => exact ⟨trivial, List.forall_mem_nil _, List.forall_mem_nil _⟩
      · intro i x t s' t' _ ht hl
        obtain ⟨hq, hown⟩ := proc_bears hl hg.1 (hg.2 i t ht)
        exact ⟨hq, hown, fun j u _ hu => hg.2 j u hu⟩
      · intro d s' hs
        cases hs
        exact ⟨{ hg.1 with }, hg.2⟩
    · exact ⟨List.forall_mem_nil _, List.forall_mem_nil _, List.forall_mem_nil _⟩
  exact hguard.1.dlq e he

/-! ## requeueEntry -/

/-- The broker, with the rows that were deleted from `queue_dlq`. The id of a row is its
place in the order of insertion. -/
structure Desk where
  broker : Broker
  deleted : List Nat

def Desk.row (s : Desk) (id : Nat) : Option DLQEntry :=
  if id ∈ s.deleted then none else s.broker.dlq[id]?

/-- A call with the row that was read, and the enqueuer of the handler. -/
structure Replay where
  enqueuer : Enqueuer
  id : Nat
  entry : DLQEntry

inductive RequeuePc where
  | enqueue (id : Nat) (pc : EnqueuePc)
  | delete (id : Nat)
  | returned (err : Option String)
  deriving DecidableEq

/-- The task of a decoded payload, with the last attempt taken back. -/
def replayTask (msg : TaskMessage) : Task where
  kind := msg.kind
  payload := msg.payload
  idempotencyKey := msg.key
  maxAttempts := msg.maxAttempts
  attempt := if 0 < msg.attempt then msg.attempt - 1 else msg.attempt
  delay := 0

def requeueEntry (r : Replay) : RequeuePc :=
  .enqueue r.id (.message r.enqueuer (replayTask r.entry.payload))

def afterEnqueue (id : Nat) : EnqueuePc → RequeuePc
  | .returned none => .delete id
  | .returned (some err) => .returned (some err)
  | pc => .enqueue id pc

def requeueStep (env : Env) (s : Desk) : RequeuePc → Call → Option (Desk × RequeuePc)
  | .enqueue id pc, c =>
    (enqueueStep env s.broker pc c).map fun (q, pc') => ({ s with broker := q }, afterEnqueue id pc')
  | .delete id, .ok => some ({ s with deleted := id :: s.deleted }, .returned none)
  | .delete _, .fail err => some (s, .returned (some err))
  | .returned _, _ => none

def Desk.tick (s : Desk) (d : Nat) : Desk :=
  { s with broker := { s.broker with now := s.broker.now + d } }

def requeueMachine (env : Env) : Machine Desk RequeuePc Replay Call Nat where
  start := requeueEntry
  lstep _ := requeueStep env
  estep s d := some (s.tick d)

/-- A call on its own; time passes before each of its commands. -/
def requeueing (env : Env) (s : Desk) (pc : RequeuePc) (xs : List (Nat × Call)) :
    Option (Desk × RequeuePc) :=
  (requeueMachine env).paced.alone 0 (s, pc) xs

/-- SETNX finds no marker, and ZADD finds no equal member. -/
def admits (env : Env) (p : Desk × RequeuePc) (x : Nat × Call) : Bool :=
  match p.2 with
  | .enqueue _ (.setNX _ m) =>
    !((p.1.broker.dedup (env.dedupKey m)).held (p.1.broker.now + x.1))
  | .enqueue _ (.zadd m) => !decide (p.1.broker.queue.Mem m)
  | _ => true

/-- Every command of the call from `pc` on finds its way free. -/
abbrev Admitted (env : Env) (s : Desk) (pc : RequeuePc) (xs : List (Nat × Call)) : Prop :=
  Meets (fun p x => (requeueMachine env).paced.lstep 0 p.1 p.2 x)
    (fun p x => admits env p x = true) (s, pc) xs

/-- The queue set has one more message, that of the row with one attempt less. -/
def Gained (e : DLQEntry) (s s' : Desk) : Prop :=
  ∃ m : TaskMessage, m.kind = e.kind ∧ m.key = e.idempotencyKey ∧ m.payload = e.payload.payload ∧
    m.maxAttempts = e.payload.maxAttempts ∧ m.attempt = e.attempts - 1 ∧
    ¬ s.broker.queue.Mem m ∧ s'.broker.queue.Mem m

instance (e : DLQEntry) (s s' : Desk) : Decidable (Gained e s s') :=
  decidable_of_iff (∃ x ∈ s'.broker.queue.entries, x.member.kind = e.kind ∧
      x.member.key = e.idempotencyKey ∧ x.member.payload = e.payload.payload ∧
      x.member.maxAttempts = e.payload.maxAttempts ∧ x.member.attempt = e.attempts - 1 ∧
      ¬ s.broker.queue.Mem x.member)
    ⟨fun ⟨x, hx, hkind, hkey, hpayload, hmax, hattempt, hout⟩ =>
        ⟨x.member, hkind, hkey, hpayload, hmax, hattempt, hout, x, hx, rfl⟩,
      fun ⟨_, hkind, hkey, hpayload, hmax, hattempt, hout, x, hx, hm⟩ =>
        ⟨x, hx, hm ▸ hkind, hm ▸ hkey, hm ▸ hpayload, hm ▸ hmax, hm ▸ hattempt, hm ▸ hout⟩⟩

section

variable {env : Env} {s s' : Desk} {id : Nat} {xs : List (Nat × Call)} {err : Option String}
  {m : TaskMessage} {a : Enqueuer}

/-- The rows stay as they are until the call deletes its own and returns nil. -/
def KeepsRows (id : Nat) (s₀ : Desk) (p : Desk × RequeuePc) : Prop :=
  p.1.broker.dlq = s₀.broker.dlq ∧
    match p.2 with
    | .enqueue i _ | .delete i => i = id ∧ p.1.deleted = s₀.deleted
    | .returned none => p.1.deleted = id :: s₀.deleted
    | .returned (some _) => p.1.deleted = s₀.deleted

theorem enqueueStep_dlq {q q' : Broker} {pc pc' : EnqueuePc} {c : Call}
    (h : enqueueStep env q pc c = some (q', pc')) : q'.dlq = q.dlq := by
  cases enqueue_effect h <;> rfl

theorem keepsRows_step {s₀ : Desk} {p p' : Desk × RequeuePc} {x : Nat × Call}
    (h : KeepsRows id s₀ p) (hs : (requeueMachine env).paced.lstep 0 p.1 p.2 x = some p') :
    KeepsRows id s₀ p' := by
  obtain ⟨s, pc⟩ := p
  obtain ⟨d, c⟩ := x
  obtain ⟨hdlq, hpc⟩ := h
  change requeueStep env (s.tick d) pc c = some p' at hs
  cases pc with
  | enqueue i pc =>
    obtain ⟨⟨q, pc'⟩, hstep, rfl⟩ := Option.map_eq_some_iff.mp hs
    obtain ⟨rfl, hdel⟩ := hpc
    refine ⟨(enqueueStep_dlq hstep).trans hdlq, ?_⟩
    cases pc' with
    | returned r => cases r <;> first | exact hdel | exact ⟨rfl, hdel⟩
    | _ => exact ⟨rfl, hdel⟩
  | delete i =>
    obtain ⟨rfl, hdel⟩ := hpc
    cases c <;> cases hs
    · exact ⟨hdlq, congrArg (i :: ·) hdel⟩
    · exact ⟨hdlq, hdel⟩
  | returned r => cases hs

variable {e : DLQEntry}

theorem row_returned {r : Replay} (hrow : s.row r.id = some e)
    (h : requeueing env s (requeueEntry r) xs = some (s', .returned err)) :
    s'.row r.id = if err = none then none else some e := by
  have hstart : KeepsRows r.id s (s, requeueEntry r) := ⟨rfl, rfl, rfl⟩
  have hkeeps : KeepsRows r.id s (s', .returned err) :=
    Machine.alone_inv (fun _ _ _ hp hs => keepsRows_step hp hs) hstart h
  obtain ⟨hdlq, hdel⟩ := hkeeps
  unfold Desk.row at hrow ⊢
  cases err with
  | none => simp [show s'.deleted = _ from hdel]
  | some err => rw [show s'.deleted = _ from hdel, show s'.broker.dlq = _ from hdlq, hrow]; rfl

/-! ### Calls that return nil -/

theorem requeueing_cons {pc : RequeuePc} {x : Nat × Call} {p : Desk × RequeuePc}
    (h : requeueing env s pc (x :: xs) = some p) :
    ∃ s₁ pc₁, requeueStep env (s.tick x.1) pc x.2 = some (s₁, pc₁) ∧
      requeueing env s₁ pc₁ xs = some p ∧
      (Admitted env s pc (x :: xs) ↔ admits env (s, pc) x = true ∧ Admitted env s₁ pc₁ xs) := by
  unfold requeueing Machine.alone at h
  obtain ⟨⟨s₁, pc₁⟩, hs, hrest⟩ := run_cons h
  exact ⟨s₁, pc₁, hs, hrest, meets_cons hs⟩

theorem requeueing_open {pc : RequeuePc} (h : requeueing env s pc xs = some (s', .returned none))
    (hpc : pc ≠ .returned none) :
    ∃ d c ys s₁ pc₁, xs = (d, c) :: ys ∧ requeueStep env (s.tick d) pc c = some (s₁, pc₁) ∧
      requeueing env s₁ pc₁ ys = some (s', .returned none) ∧
      (Admitted env s pc xs ↔ admits env (s, pc) (d, c) = true ∧ Admitted env s₁ pc₁ ys) := by
  cases xs with
  | nil =>
    cases h
    exact absurd rfl hpc
  | cons x ys =>
    obtain ⟨s₁, pc₁, hs, hrest, hiff⟩ := requeueing_cons h
    exact ⟨x.1, x.2, ys, s₁, pc₁, rfl, hs, hrest, hiff⟩

theorem requeueing_returned (h : requeueing env s (.returned err) xs = some (s', .returned none)) :
    err = none ∧ s' = s ∧ Admitted env s (.returned err) xs := by
  cases xs with
  | nil =>
    cases h
    exact ⟨rfl, rfl, trivial⟩
  | cons x ys =>
    obtain ⟨_, _, hs, _⟩ := requeueing_cons h
    cases hs

theorem requeueing_delete (h : requeueing env s (.delete id) xs = some (s', .returned none)) :
    s'.broker.queue = s.broker.queue ∧ Admitted env s (.delete id) xs := by
  obtain ⟨d, c, ys, s₁, pc₁, rfl, hs, hrest, hiff⟩ := requeueing_open h (by simp)
  cases c <;> cases hs
  · obtain ⟨_, rfl, hadm⟩ := requeueing_returned hrest
    exact ⟨rfl, hiff.mpr ⟨rfl, hadm⟩⟩
  · cases (requeueing_returned hrest).1

theorem requeueing_zadd
    (h : requeueing env s (.enqueue id (.zadd m)) xs = some (s', .returned none)) :
    (∃ score note, s'.broker.queue = s.broker.queue.add m score note) ∧
      (Admitted env s (.enqueue id (.zadd m)) xs ↔ ¬ s.broker.queue.Mem m) := by
  obtain ⟨d, c, ys, s₁, pc₁, rfl, hs, hrest, hiff⟩ := requeueing_open h (by simp)
  cases c <;> cases hs
  · obtain ⟨hqueue, hadm⟩ := requeueing_delete hrest
    refine ⟨⟨_, _, hqueue⟩, hiff.trans ((and_iff_left hadm).trans ?_)⟩
    simp [admits]
  · cases (requeueing_returned hrest).1

/-- What a call that returns nil has done with its message. -/
inductive Enqueued (z z' : ZSet TaskMessage) (m : TaskMessage) (admitted : Prop) : Prop where
  | added (hz : ∃ score note, z' = z.add m score note) (hm : admitted ↔ ¬ z.Mem m)
  | suppressed (hz : z' = z) (hm : ¬ admitted)

theorem requeueing_setNX
    (h : requeueing env s (.enqueue id (.setNX a m)) xs = some (s', .returned none)) :
    Enqueued s.broker.queue s'.broker.queue m
      (Admitted env s (.enqueue id (.setNX a m)) xs) := by
  obtain ⟨d, c, ys, s₁, pc₁, rfl, hs, hrest, hiff⟩ := requeueing_open h (by simp)
  obtain ⟨⟨q, pc'⟩, hstep, heq⟩ := Option.map_eq_some_iff.mp hs
  cases c with
  | ok =>
    simp only [enqueueStep] at hstep
    split at hstep <;> rename_i keys hset <;> cases hstep <;> cases heq
    · have hheld := held_of_refused hset
      refine .suppressed (requeueing_delete hrest).1 fun hadm => ?_
      have hfree := (hiff.mp hadm).1
      simp only [admits, Bool.not_eq_true'] at hfree
      exact Bool.false_ne_true (hfree.symm.trans hheld)
    · obtain ⟨hqueue, hadm⟩ := requeueing_zadd hrest
      have hfree : admits env (s, .enqueue id (.setNX a m)) (d, .ok) = true := by
        simpa [admits, Desk.tick] using (taken_inv hset).1
      exact .added hqueue (hiff.trans ((and_iff_right hfree).trans hadm))
  | fail e =>
    cases hstep
    cases heq
    cases (requeueing_returned hrest).1

theorem requeueing_message {t : Task}
    (h : requeueing env s (.enqueue id (.message a t)) xs = some (s', .returned none)) :
    ∃ now, (a.message t now).kind = env.kind ∧
      Enqueued s.broker.queue s'.broker.queue (a.message t now)
        (Admitted env s (.enqueue id (.message a t)) xs) := by
  obtain ⟨d, c, ys, s₁, pc₁, rfl, hs, hrest, hiff⟩ := requeueing_open h (by simp)
  obtain ⟨⟨q, pc'⟩, hstep, heq⟩ := Option.map_eq_some_iff.mp hs
  refine ⟨s.broker.now + d, ?_⟩
  rw [hiff, and_iff_right (show admits env _ _ = true from rfl)]
  cases enqueue_effect hstep with
  | built hpc hk hn =>
    cases hpc
    refine ⟨hk, ?_⟩
    rcases hn with rfl | ⟨_, rfl⟩ <;> cases heq
    · exact requeueing_setNX hrest
    · obtain ⟨hqueue, hadm⟩ := requeueing_zadd hrest
      exact .added hqueue hadm
  | suppressed hpc | claimed hpc | accepted hpc => cases hpc
  | failed =>
    cases heq
    cases (requeueing_returned hrest).1

theorem replay_message {now : Int} (hw : Written env e)
    (hkind : (a.message (replayTask e.payload) now).kind = env.kind) :
    let m := a.message (replayTask e.payload) now
    m.kind = e.kind ∧ m.key = e.idempotencyKey ∧ m.payload = e.payload.payload ∧
      m.maxAttempts = e.payload.maxAttempts ∧ m.attempt = e.attempts - 1 := by
  have hmax := hw.payload.max
  have hpopped := hw.payload.popped
  have hattempts := hw.attempts
  refine ⟨?_, hw.key.symm, rfl, ?_, ?_⟩
  · rw [hkind, hw.kind, hw.payload.kind]
  · exact if_neg (show ¬ e.payload.maxAttempts ≤ 0 by omega)
  · have hless : (replayTask e.payload).attempt = e.attempts - 1 := by
      rw [hattempts]
      exact if_pos (show 0 < e.payload.attempt by omega)
    show (if (replayTask e.payload).attempt < 0 then 0 else (replayTask e.payload).attempt) = _
    rw [if_neg (by omega), hless]

theorem Enqueued.gained_iff {admitted : Prop}
    (h : Enqueued s.broker.queue s'.broker.queue m admitted)
    (hm : m.kind = e.kind ∧ m.key = e.idempotencyKey ∧ m.payload = e.payload.payload ∧
      m.maxAttempts = e.payload.maxAttempts ∧ m.attempt = e.attempts - 1) :
    Gained e s s' ↔ admitted := by
  obtain ⟨hkind, hkey, hpayload, hmax, hattempt⟩ := hm
  cases h with
  | added hz hfree =>
    obtain ⟨score, note, hz⟩ := hz
    rw [hfree]
    constructor
    · rintro ⟨m', _, _, _, _, _, hout, hin⟩ hold
      rw [hz] at hin
      obtain ⟨x, hx, rfl⟩ := hin
      rcases ZSet.mem_add.mp hx with rfl | ⟨hx, _⟩
      · exact hout hold
      · exact hout ⟨x, hx, rfl⟩
    · intro hout
      refine ⟨m, hkind, hkey, hpayload, hmax, hattempt, hout, ?_⟩
      rw [hz]
      exact ⟨_, ZSet.mem_add.mpr (.inl rfl), rfl⟩
  | suppressed hz hrefused =>
    refine iff_of_false ?_ hrefused
    rintro ⟨m', _, _, _, _, _, hout, hin⟩
    rw [hz] at hin
    exact hout hin

end

/-- A call of `requeueEntry` for a row that `pushToDLQ` has written, from any state of the
queue and with any command failing. If it returns nil, the row is gone, and the queue set
has gained the message exactly when SETNX found no marker and ZADD no equal member; if it
returns an error, the row is still there. -/
theorem requeueEntry_conserves_iff (env : Env) (now : Int) (dedup : Keys String)
    (events : List Event) (c : System) (r : Replay) (s s' : Desk) (xs : List (Nat × Call))
    (err : Option String)
    (hrun : run (queueMachine arbitraryHandler env).step (unused now dedup) events = some c)
    (hentry : r.entry ∈ c.shared.broker.dlq) (hrow : s.row r.id = some r.entry)
    (hcall : requeueing env s (requeueEntry r) xs = some (s', .returned err)) :
    (err = none → s'.row r.id = none ∧ (Gained r.entry s s' ↔ Admitted env s (requeueEntry r) xs)) ∧
      (err ≠ none → s'.row r.id = some r.entry) := by
  have hafter := row_returned hrow hcall
  constructor
  · rintro rfl
    obtain ⟨at_, hkind, henqueued⟩ := requeueing_message hcall
    have hmessage := replay_message (dlq_written hrun hentry) hkind
    exact ⟨hafter, henqueued.gained_iff hmessage⟩
  · intro herr
    rwa [if_neg herr] at hafter

/-! ## A key that is in use again -/

/-- A keyed task with a single attempt is enqueued by thread 1 and fails in worker 0,
which buries it and deletes its marker. -/
def buryKeyed : List Event :=
  [.spawn (.worker plainSettings),
    .spawn (.enqueue ⟨0, 0⟩ { mailTask with idempotencyKey := "k", maxAttempts := 1 }),
    .act 1 (.enqueue .ok), .act 1 (.enqueue .ok), .act 1 (.enqueue .ok), .act 0 (.worker .poll),
    .act 0 (.worker (.pop ⟨"mail", "k", "hello", 0, 1, 0, ""⟩))] ++ takeAndStart 0 ++
  [.act 0 (.worker (.job 0 (.handler (some "refused")))),
    .act 0 (.worker (.job 0 (.command .ok))), .act 0 (.worker (.job 0 (.command .ok))),
    .act 0 (.worker (.job 0 (.command .ok)))]

def reuseKey : List Event :=
  [.spawn (.enqueue ⟨0, 0⟩ { mailTask with idempotencyKey := "k", payload := "again" }),
    .act 2 (.enqueue .ok), .act 2 (.enqueue .ok), .act 2 (.enqueue .ok)]

def deadLetter : Replay :=
  ⟨⟨0, 0⟩, 0, ⟨"mail", "k", ⟨"mail", "k", "hello", 1, 1, 0, ""⟩, 1, some "refused", [0]⟩⟩

theorem dead_letter_replayed :
    ∃ c s', run (queueMachine arbitraryHandler mailEnv).step (unused 0 .empty) buryKeyed = some c ∧
      requeueing mailEnv ⟨c.shared.broker, []⟩ (requeueEntry deadLetter) (List.replicate 4 (1, .ok)) =
        some (s', .returned none) ∧
      s'.row 0 = none ∧ Gained deadLetter.entry ⟨c.shared.broker, []⟩ s' := by
  obtain ⟨c, ⟨s', pc⟩, hrun, hcall, rfl, hin, hrow, hadm⟩ := reaches_then
    (P := fun (c : System) (p : Desk × RequeuePc) => p.2 = .returned none ∧
      deadLetter.entry ∈ c.shared.broker.dlq ∧
      Desk.row ⟨c.shared.broker, []⟩ 0 = some deadLetter.entry ∧
      Admitted mailEnv ⟨c.shared.broker, []⟩ (requeueEntry deadLetter) (List.replicate 4 (1, .ok)))
    (o := run (queueMachine arbitraryHandler mailEnv).step (unused 0 .empty) buryKeyed)
    (f := fun c => requeueing mailEnv ⟨c.shared.broker, []⟩ (requeueEntry deadLetter)
      (List.replicate 4 (1, .ok))) (by decide +kernel)
  obtain ⟨hgone, hgained⟩ := (requeueEntry_conserves_iff mailEnv 0 .empty buryKeyed c deadLetter
    ⟨c.shared.broker, []⟩ s' _ none hrun hin hrow hcall).1 rfl
  exact ⟨c, s', hrun, hcall, hgone, hgained.mpr hadm⟩

/-- The key is in use again when the dead letter is replayed: SETNX finds the marker of the
other task, `Enqueue` returns nil, and the row is deleted. -/
theorem dead_letter_dropped :
    ∃ c s', run (queueMachine arbitraryHandler mailEnv).step (unused 0 .empty)
        (buryKeyed ++ reuseKey) = some c ∧
      deadLetter.entry ∈ c.shared.broker.dlq ∧
      Desk.row ⟨c.shared.broker, []⟩ 0 = some deadLetter.entry ∧
      requeueing mailEnv ⟨c.shared.broker, []⟩ (requeueEntry deadLetter) (List.replicate 3 (1, .ok)) =
        some (s', .returned none) ∧
      s'.row 0 = none ∧ ¬ Gained deadLetter.entry ⟨c.shared.broker, []⟩ s' := by
  obtain ⟨c, ⟨s', pc⟩, hrun, hcall, rfl, hin, hrow, hgone, hlost⟩ := reaches_then
    (P := fun (c : System) (p : Desk × RequeuePc) => p.2 = .returned none ∧
      deadLetter.entry ∈ c.shared.broker.dlq ∧
      Desk.row ⟨c.shared.broker, []⟩ 0 = some deadLetter.entry ∧
      p.1.row 0 = none ∧ ¬ Gained deadLetter.entry ⟨c.shared.broker, []⟩ p.1)
    (o := run (queueMachine arbitraryHandler mailEnv).step (unused 0 .empty)
      (buryKeyed ++ reuseKey))
    (f := fun c => requeueing mailEnv ⟨c.shared.broker, []⟩ (requeueEntry deadLetter)
      (List.replicate 3 (1, .ok))) (by decide +kernel)
  exact ⟨c, s', hrun, hin, hrow, hcall, hgone, hlost⟩

/-! ## Nothing is given up early -/

def Job.Spent (job : Job Unit) : Prop :=
  ∀ executed m, job.pc = .burying executed m → job.msg.maxAttempts ≤ job.msg.attempt

/-- No dead letter has an attempt left. -/
def Broker.Spent (q : Broker) : Prop :=
  ∀ e ∈ q.dlq, e.payload.maxAttempts ≤ e.payload.attempt

section

variable {env : Env}

theorem job_spent {s s' : Shared Unit} {job job' : Job Unit} {x : JobOp (Option String)}
    {lost : List Nat} (he : JobEffect arbitraryHandler env s job x s' job' lost)
    (hq : s.broker.Spent) (hj : job.Spent) : s'.broker.Spent ∧ job'.Spent := by
  have hrelease : job.release.Spent := by
    unfold Job.release
    split <;> exact fun _ _ hpc => by cases hpc
  -- `handleFailure` buries only where the counter has reached the limit
  have hremoval : ∀ executed cause,
      (job.goto (afterRemoval executed { job.msg with lastError := cause })).Spent := by
    intro executed cause
    unfold afterRemoval
    split
    · rename_i hspent
      exact fun _ _ _ => hspent.2
    · exact fun _ _ hpc => by cases hpc
  cases he with
  | expire => exact ⟨hq, hj⟩
  | ran _ hs => cases hs
  | succeeded _ hs | erred _ hs =>
    cases hs
    exact ⟨hq, nofun⟩
  | removed | unremoved => exact ⟨hq, hremoval _ _⟩
  | acked | unacked | unburied => exact ⟨hq, hrelease⟩
  | buried hp => exact ⟨forall_mem_concat (hj _ _ hp) hq, hrelease⟩
  | _ => exact ⟨hq, nofun⟩

def AllSpent (c : System) : Prop :=
  Guarded (fun _ s => s.broker.Spent) (fun _ _ t => ∀ job ∈ t.jobs, job.Spent) c

theorem allSpent_step {c d : System} {l : Event} (hg : AllSpent c)
    (hs : (queueMachine arbitraryHandler env).step c l = some d) : AllSpent d := by
  refine guarded_step hg hs ?_ ?_ ?_
  · intro r _
    cases r <;> exact ⟨hg.1, List.forall_mem_nil _⟩
  · intro i x t s' t' _ ht hl
    refine and_assoc.mp ⟨?_, fun j u _ hu => hg.2 j u hu⟩
    have hjobs := hg.2 i t ht
    cases proc_effect hl with
    | enqueue he =>
      unfold Broker.Spent
      exact ⟨enqueueStep_dlq he ▸ hg.1, List.forall_mem_nil _⟩
    | worker hw =>
      obtain ⟨_, ⟨q, hmain, rfl⟩ | ⟨j, x, job, job', lost, _, hj, hjob, rfl⟩⟩ := worker_effect hw
      · cases hmain with
        | started => exact ⟨hg.1, forall_mem_concat nofun hjobs⟩
        | _ => exact ⟨hg.1, hjobs⟩
      · obtain ⟨hq, hjob'⟩ := job_spent hjob hg.1 (hjobs job (List.mem_of_getElem? hj))
        exact ⟨hq, forall_mem_set hjob' hjobs⟩
  · intro n s' he
    cases he
    exact hg

end

/-- Along every run each dead letter is a message of its kind that has used all of its
attempts: nothing is given up early. -/
theorem dead_letters_spent (env : Env) (now : Int) (dedup : Keys String) (events : List Event)
    (c : System)
    (hrun : run (queueMachine arbitraryHandler env).step (unused now dedup) events = some c) :
    ∀ e ∈ c.shared.broker.dlq, Written env e ∧ e.payload.maxAttempts ≤ e.attempts := by
  intro e he
  have hwritten := dlq_written hrun he
  have hstart : (unused now dedup).shared.broker.Spent := List.forall_mem_nil _
  have hspent : AllSpent c := run_inv (fun _ _ _ hg (_ : True) hs => allSpent_step hg hs)
    (guarded_start hstart) (meets_true _ events) hrun
  exact ⟨hwritten, hwritten.attempts ▸ hspent.1 e he⟩

theorem one_attempt_spent :
    ∃ c, run (queueMachine arbitraryHandler mailEnv).step (unused 0 .empty) buryKeyed = some c ∧
      c.shared.broker.dlq = [deadLetter.entry] ∧
      ∀ e ∈ c.shared.broker.dlq, Written mailEnv e ∧ e.payload.maxAttempts ≤ e.attempts :=
  reaches_and (by decide +kernel) fun c hc _ => dead_letters_spent mailEnv 0 .empty buryKeyed c hc

end TokoApi.Queue
