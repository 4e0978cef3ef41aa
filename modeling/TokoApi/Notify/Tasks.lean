import TokoApi.Notify.Effects

/-!
# The tasks of unfinished deliveries

A row that is PENDING, DELIVERING or FAILED needs a task that carries its id. This
module says where such a task can be (in the queue, in the hands of a worker's
loop, or with a job whose handler is running) and shows step by step what the
loop and a job do to it, as long as no call fails.
-/
namespace TokoApi.Notify

open Lib.Rows Lib.Redis Lib.Text Lib.Threads Resilience Queue

/-- `uuidFrom` and `uuid.Parse` fit together: the text of an id is not blank, has
no space around it, and is parsed to that id. -/
structure UUIDText (d : Dispatcher) : Prop where
  parse : ∀ id, d.parseUUID (d.uuidFrom id) = .ok id
  trim : ∀ id, trimSpace (d.uuidFrom id) = d.uuidFrom id
  nonempty : ∀ id, d.uuidFrom id ≠ ""

def DeliveryStatus.unfinished (status : DeliveryStatus) : Bool :=
  status = .pending || status = .delivering || status = .failed

/-! ## Where the tasks are -/

section

variable (u : Setup)

/-- The delivery a handler works on, before it enqueues. -/
def HandlePc.atWork : HandlePc → Option String
  | .deliver p | .load p => some p
  | .process id _ | .send id _ | .settle id _ _ => some (u.dispatcher.uuidFrom id)
  | .enqueue _ => none

/-- The delivery a handler works on or is about to enqueue. -/
def HandlePc.subject : HandlePc → Option String
  | .enqueue (.message _ t) => some t.payload
  | .enqueue (.setNX _ m) | .enqueue (.zadd m) => some m.payload
  | pc => pc.atWork u

/-- What `f` says about the handler of a job that runs. -/
def running (f : HandlePc → Option String) (job : Job HandlePc) : Option String :=
  match job.pc with
  | .running pc => f pc
  | _ => none

/-- A worker has the delivery in hand: in its loop, or in a job as `f` has it. -/
abbrev HasTask (f : HandlePc → Option String) (p : String) (w : Worker HandlePc) : Prop :=
  (∃ m ∈ w.main.carried, m.1.payload = p) ∨ ∃ job ∈ w.jobs, running f job = some p

def ProcHasTask (f : HandlePc → Option String) (p : String) : Proc HandlePc → Prop
  | .worker w => HasTask f p w
  | .enqueue _ => False

instance (f : HandlePc → Option String) (p : String) : DecidablePred (ProcHasTask f p)
  | .worker w => inferInstanceAs (Decidable (HasTask f p w))
  | .enqueue _ => inferInstanceAs (Decidable False)

abbrev Queued (p : String) (z : ZSet TaskMessage) : Prop := ∃ e ∈ z.entries, e.member.payload = p

abbrev Deliveries := Sys (Shared Store) (Proc HandlePc)

abbrev Step := Act Settings (Op HandleInput) Admin

abbrev Waiting (c : Deliveries) (p : String) : Prop :=
  Queued p c.shared.broker.queue ∨ ∃ t ∈ c.threads, ProcHasTask (HandlePc.atWork u) p t

end

/-! ## Calls that succeed, and tasks that are dropped -/

/-- No call to the store, to Redis or to the lock fails; the endpoint may do
anything. -/
def Answers.calm (a : Answers) : Bool :=
  a.lock = .ok && a.getFirst = .ok && a.getDelivery = .ok && a.markDelivering = .ok &&
    a.getEndpoint = .ok && a.getEvent = .ok && a.acquire = .ok && a.markDelivered = .ok &&
    a.moveToDLQ = .ok && a.insertDlq = .ok && a.markFailed = .ok

def HandleInput.calm : HandleInput → Bool
  | .deliver a => a.calm
  | .enqueue c => c = .ok

/-- The delivery whose enqueueing finds the dedup key held. -/
def suppressing (env : Env) (q : Broker) (job : Job HandlePc) : Option String :=
  match job.pc with
  | .running (.enqueue (.setNX _ m)) =>
    if (q.dedup (env.dedupKey m)).held q.now then some m.payload else none
  | _ => none

/-! ## The invariant -/

section

variable (u : Setup)

def Known (s : Store) (p : String) : Prop := ∃ id ∈ s.deliveries.ids, p = u.dispatcher.uuidFrom id

structure Genuine (s : Store) (m : TaskMessage) : Prop where
  kind : m.kind = webhookDeliveryTask
  key : m.key = m.payload
  known : Known u s m.payload

def Sane (s : Store) : HandlePc → Prop
  | .deliver p | .load p => Known u s p
  | .process id _ | .send id _ | .settle id _ _ => id ∈ s.deliveries.ids
  | .enqueue (.message _ t) =>
    t.kind = webhookDeliveryTask ∧ t.idempotencyKey = t.payload ∧ Known u s t.payload
  | .enqueue (.setNX _ m) | .enqueue (.zadd m) => Genuine u s m
  | .enqueue (.returned _) => False

/-- The handler has not returned an error. -/
def JobSane (s : Store) (job : Job HandlePc) : Prop :=
  match job.pc with
  | .running pc => Sane u s pc
  | .acking | .releasing | .ended => True
  | _ => False

structure WorkerSane (s : Store) (w : Worker HandlePc) : Prop where
  carried : ∀ m ∈ w.main.carried, Genuine u s m.1
  due : ∀ p ∈ w.main.dueList, Genuine u s p.1
  jobs : ∀ job ∈ w.jobs, JobSane u s job

def ProcSane (s : Store) : Proc HandlePc → Prop
  | .worker w => WorkerSane u s w
  | .enqueue _ => True

def rowKey (id : Nat) : String :=
  dedupKey u.env.keyPrefix webhookDeliveryTask (u.dispatcher.uuidFrom id)

/-- The shared state, where `O` says which deliveries the workers have in hand:
dedup keys are taken for known rows only, the sets have messages about known rows
only, and every unfinished delivery is queued or in hand. -/
structure Stock (s : Shared Store) (O : String → Prop) : Prop where
  fresh : s.store.Fresh
  keys : ∀ id, id ∉ s.store.deliveries.ids → s.broker.dedup (rowKey u id) = .absent
  queue : ∀ e ∈ s.broker.queue.entries, Genuine u s.store e.member
  processing : ∀ e ∈ s.broker.processing.entries, Genuine u s.store e.member
  covered : ∀ id ∈ s.store.deliveries.ids,
    (s.store.deliveries.row id).status.unfinished = true →
    Queued (u.dispatcher.uuidFrom id) s.broker.queue ∨ O (u.dispatcher.uuidFrom id)

end

section

variable {u : Setup} {s s' : Store}

theorem Genuine.congr {m m' : TaskMessage} (h : Genuine u s m) (hk : m'.kind = m.kind)
    (hkey : m'.key = m.key) (hp : m'.payload = m.payload) : Genuine u s m' :=
  ⟨hk.trans h.kind, by rw [hkey, hp, h.key], by rw [hp]; exact h.known⟩

theorem Stock.weaken {s : Shared Store} {O O' : String → Prop} (h : Stock u s O)
    (hO : ∀ p, O p → O' p) : Stock u s O' :=
  { h with covered := fun id hid hun => (h.covered id hid hun).imp_right (hO _) }

variable (hs : s.deliveries.ids ⊆ s'.deliveries.ids)
include hs

theorem Known.mono {p : String} (h : Known u s p) :
    Known u s' p := by
  obtain ⟨id, hid, hp⟩ := h
  exact ⟨id, hs hid, hp⟩

theorem Genuine.mono {m : TaskMessage} (h : Genuine u s m) : Genuine u s' m :=
  ⟨h.kind, h.key, h.known.mono hs⟩

theorem Sane.mono {pc : HandlePc} (h : Sane u s pc) : Sane u s' pc := by
  cases pc with
  | deliver p | load p => exact Known.mono hs h
  | process id del | send id del | settle id del o => exact hs h
  | enqueue pc =>
    cases pc with
    | message e t => exact ⟨h.1, h.2.1, h.2.2.mono hs⟩
    | setNX e m | zadd m => exact Genuine.mono hs h
    | returned err => exact h

theorem JobSane.mono {job : Job HandlePc} (h : JobSane u s job) : JobSane u s' job := by
  unfold JobSane at h ⊢
  cases hpc : job.pc <;> simp only [hpc] at h ⊢
  case running pc => exact h.mono hs

theorem WorkerSane.mono {w : Worker HandlePc} (h : WorkerSane u s w) : WorkerSane u s' w :=
  ⟨fun m hm => (h.carried m hm).mono hs, fun p hp => (h.due p hp).mono hs,
    fun job hj => (h.jobs job hj).mono hs⟩

theorem ProcSane.mono {t : Proc HandlePc} (h : ProcSane u s t) : ProcSane u s' t := by
  cases t with
  | worker w => exact WorkerSane.mono hs h
  | enqueue pc => trivial

end

/-! ## Steps of the loop -/

section

variable {p : String} {m : TaskMessage} {z : ZSet TaskMessage} {note : List Nat} {score : Int}

theorem queued_add : Queued p (z.add m score note) ↔ Queued p z ∨ m.payload = p := by
  constructor
  · rintro ⟨e, he, hp⟩
    rcases ZSet.mem_add.mp he with rfl | ⟨he, _⟩
    · exact .inr hp
    · exact .inl ⟨e, he, hp⟩
  · rintro (⟨e, he, hp⟩ | hp)
    · by_cases hm : e.member = m
      · exact ⟨_, ZSet.mem_add.mpr (.inl rfl), hm ▸ hp⟩
      · exact ⟨e, ZSet.mem_add.mpr (.inr ⟨he, hm⟩), hp⟩
    · exact ⟨_, ZSet.mem_add.mpr (.inl rfl), hp⟩

theorem queued_rem (h : Queued p z) : Queued p (z.rem m) ∨ m.payload = p := by
  obtain ⟨e, he, hp⟩ := h
  by_cases hm : e.member = m
  · exact .inr (hm ▸ hp)
  · exact .inl ⟨e, ZSet.mem_rem.mpr ⟨he, hm⟩, hp⟩

variable {u : Setup} {env : Env} {q q' : Broker} {w w' : Worker HandlePc} {o : Op HandleInput}
  {st : Store}

theorem hasTask_some {f : HandlePc → Option String} (h : w.main.carried = some (m, note)) :
    HasTask f p w ↔ m.payload = p ∨ ∃ job ∈ w.jobs, running f job = some p := by
  simp [HasTask, h]

theorem hasTask_none {f : HandlePc → Option String} (h : w.main.carried = none) :
    HasTask f p w ↔ ∃ job ∈ w.jobs, running f job = some p := by
  simp [HasTask, h]

/-- What the loop has in hand or takes from the queue it keeps in hand, hands to a
job or puts back. -/
theorem main_keeps (h : MainEffect (deliveryHandler u) env q w o q' w')
    (hc : o = .command → w.ctxDone = false ∨ w.main.final = true)
    (hp : Queued p q.queue ∨ HasTask (HandlePc.subject u) p w) :
    Queued p q'.queue ∨ HasTask (HandlePc.subject u) p w' := by
  cases h with
  | idle hw hpc _ _ =>
    rw [hasTask_none hw.carried] at hp
    rw [hasTask_none hpc.carried]
    exact hp
  | @pop e hw _ he =>
    rw [hasTask_none (by rw [hw]; rfl)] at hp
    rw [hasTask_some rfl]
    rcases hp with hq | hj
    · exact (queued_rem hq).imp_right .inl
    · exact .inr (.inr hj)
  | notDue hw | due hw | stamp hw _ | restamp hw | taken hw =>
    rw [hasTask_some (by rw [hw]; rfl)] at hp
    rw [hasTask_some rfl]
    exact hp
  | lift hw _ =>
    rw [hasTask_none (by rw [hw]; rfl)] at hp
    rw [hasTask_some rfl]
    exact hp.imp_right .inr
  | miss hw hd hf =>
    have hok := hc rfl
    rw [hw, hd, hf] at hok
    simp [Main.final] at hok
  | @moved m note due final hw _ =>
    rw [hasTask_some (by rw [hw]; rfl)] at hp
    rw [hasTask_none (afterRequeue_empty due final).carried, Broker.pushQueue, queued_add]
    exact or_assoc.mpr hp
  | pushed hw =>
    rw [hasTask_some (by rw [hw]; rfl)] at hp
    rw [hasTask_none rfl, Broker.pushQueue, queued_add]
    exact or_assoc.mpr hp
  | lost hdone _ _ _ =>
    have hok := hc rfl
    simp [hdone] at hok
  | @started m note hw =>
    rw [hasTask_some (by rw [hw]; rfl)] at hp
    rw [hasTask_none rfl]
    rcases hp with hq | rfl | ⟨job, hj, hs⟩
    · exact .inl hq
    · exact .inr ⟨_, List.mem_append_right _ (List.mem_singleton_self _), rfl⟩
    · exact .inr ⟨job, List.mem_append_left _ hj, hs⟩
  | cancel | crash => exact hp

theorem genuine_add (hz : ∀ e ∈ z.entries, Genuine u st e.member) (hm : Genuine u st m) :
    ∀ e ∈ (z.add m score note).entries, Genuine u st e.member :=
  ZSet.notes_add (P := fun m _ => Genuine u st m) (fun _ _ h _ => h) hz hm

theorem main_sane (h : MainEffect (deliveryHandler u) env q w o q' w') (hs : WorkerSane u st w)
    (hq : ∀ e ∈ q.queue.entries, Genuine u st e.member)
    (hp : ∀ e ∈ q.processing.entries, Genuine u st e.member) :
    WorkerSane u st w' ∧ (∀ e ∈ q'.queue.entries, Genuine u st e.member) ∧
      (∀ e ∈ q'.processing.entries, Genuine u st e.member) ∧ q'.dedup = q.dedup := by
  have hport : Portable (fun m _ => Genuine u st m) fun m _ => Genuine u st m :=
    ⟨fun _ _ h => h, fun _ _ h => h.congr rfl rfl rfl, fun _ _ _ h => h.congr rfl rfl rfl,
      fun _ _ _ h _ => h, fun _ _ _ h _ => h, fun _ _ h => h⟩
  obtain ⟨hmoves, hjobs⟩ :=
    main_moves hport h ⟨hq, hp, holds_iff_carried.mpr hs.carried, hs.due⟩
  refine ⟨⟨holds_iff_carried.mp hmoves.hand, hmoves.due, ?_⟩, hmoves.queue, hmoves.processing, ?_⟩
  · rcases hjobs with ⟨hj, _⟩ | ⟨m, note, hm, hj, _⟩
    · exact hj ▸ hs.jobs
    · rw [hj]
      exact forall_mem_concat hm.known hs.jobs
  · cases h <;> rfl

end

/-! ## Statements of the handler -/

section

variable {u : Setup} {now : Int} {s s' : Store} {a : Answers} {id : Nat} {del : WebhookDelivery}
  {pc : HandlePc}

theorem unfinished_eq (status : DeliveryStatus) :
    status.unfinished = !Dispatcher.settledStatus status := by
  cases status <;> rfl

/-- What a statement at `pc` goes on with: the handler stays with its delivery, ends
when that is finished, or enqueues it. -/
def Goes (u : Setup) (s : Store) (pc : HandlePc) : HandlePc ⊕ Next → Prop
  | .inl pc' => Sane u s pc' ∧ pc'.subject u = pc.atWork u
  | .inr (.enqueue t) => t.kind = webhookDeliveryTask ∧ t.idempotencyKey = t.payload ∧
      Known u s t.payload ∧ some t.payload = pc.atWork u
  | .inr (.ret none) => ∀ k, pc.atWork u = some (u.dispatcher.uuidFrom k) →
      (s.deliveries.row k).status.unfinished = false
  | .inr (.ret (some _)) => False

/-- A statement writes no row but the one its delivery has. -/
structure Leads (u : Setup) (s s' : Store) (pc : HandlePc) (r : HandlePc ⊕ Next) : Prop where
  nextID : s'.nextID = s.nextID
  ids : s'.deliveries.ids = s.deliveries.ids
  other : ∀ k, pc.atWork u ≠ some (u.dispatcher.uuidFrom k) →
    s'.deliveries.row k = s.deliveries.row k
  goes : Goes u s' pc r

theorem lookup_row (hid : id ∈ s.deliveries.ids) :
    Dispatcher.lookup .ok (getDeliveryByID s id) = .ok (s.deliveries.row id) := by
  have hrow : s.deliveries.get? id = some (s.deliveries.row id) :=
    Table.get?_eq_some.mpr ⟨hid, rfl⟩
  simp only [Dispatcher.lookup, getDeliveryByID, hrow]

theorem bury_calm (ha : a.calm = true) (hid : id ∈ s.deliveries.ids) (reason : String) :
    ((Dispatcher.bury s id reason a).deliveries.row id).status.unfinished = false := by
  simp only [Answers.calm, Bool.and_eq_true, decide_eq_true_eq] at ha
  obtain ⟨⟨⟨-, hmove⟩, hinsert⟩, -⟩ := ha
  simp only [Dispatcher.bury, hmove, hinsert, insertWebhookDlq, moveToDLQ, updateDelivery_self hid]
  rfl

theorem frame_settle {o : Outcome} :
    Frame id del s (u.dispatcher.settle now s id del a o).1 := by
  cases o with
  | unloaded cause => exact fails_failDelivery.1
  | answered status body err =>
    obtain hf | ⟨_, _, _, _, hframe, _⟩ := @conclude_spec u.dispatcher now s id del a status body err
    · exact hf.1
    · exact hframe

theorem attempt_rows :
    (u.dispatcher.attempt now s del a).1.deliveries = s.deliveries ∧
      (u.dispatcher.attempt now s del a).1.nextID = s.nextID := by
  obtain ⟨guard, log, hframe⟩ := attempt_frame u.dispatcher now s del a
  rw [hframe]
  exact ⟨rfl, rfl⟩

theorem Frame.leads {r : HandlePc ⊕ Next} (hf : Frame id del s s')
    (hpc : pc.atWork u = some (u.dispatcher.uuidFrom id)) (hg : Goes u s' pc r) :
    Leads u s s' pc r := by
  refine ⟨hf.nextID, hf.ids, fun k hk => hf.other k fun hki => hk ?_, hg⟩
  rw [hpc, hki]

theorem goes_enqueue {t : Task} (hid : id ∈ s.deliveries.ids)
    (hpc : pc.atWork u = some (u.dispatcher.uuidFrom id))
    (ht : t.kind = webhookDeliveryTask ∧ t.payload = u.dispatcher.uuidFrom id ∧
      t.idempotencyKey = u.dispatcher.uuidFrom id) : Goes u s pc (.inr (.enqueue t)) :=
  ⟨ht.1, by rw [ht.2.1, ht.2.2], ⟨id, hid, ht.2.1⟩, by rw [hpc, ht.2.1]⟩

variable (hU : UUIDText u.dispatcher)
include hU

theorem UUIDText.inj {j k : Nat} (h : u.dispatcher.uuidFrom j = u.dispatcher.uuidFrom k) :
    j = k := by
  have hj := hU.parse j
  rw [h, hU.parse k] at hj
  exact (Except.ok.inj hj).symm

theorem enqueueDelivery_task (id : Nat) (delay maxAttempts : Int) :
    ∃ t, u.dispatcher.enqueueDelivery (u.dispatcher.uuidFrom id) delay maxAttempts = .enqueue t ∧
      t.kind = webhookDeliveryTask ∧ t.payload = u.dispatcher.uuidFrom id ∧
      t.idempotencyKey = u.dispatcher.uuidFrom id := by
  unfold Dispatcher.enqueueDelivery
  rw [hU.trim, if_neg (hU.nonempty id)]
  exact ⟨_, rfl, rfl, rfl, rfl⟩

theorem goes_finished (hpc : pc.atWork u = some (u.dispatcher.uuidFrom id))
    (hf : (s.deliveries.row id).status.unfinished = false) : Goes u s pc (.inr (.ret none)) := by
  intro k hk
  rw [hpc] at hk
  rw [← hU.inj (Option.some.inj hk)]
  exact hf

variable (ha : a.calm = true)
include ha

theorem unlock_calm (hid : id ∈ s.deliveries.ids) :
    u.dispatcher.unlock s (u.dispatcher.uuidFrom id) a =
      if Dispatcher.settledStatus (s.deliveries.row id).status then .inl (.ret none)
      else .inr (u.dispatcher.uuidFrom id) := by
  simp only [Answers.calm, Bool.and_eq_true, decide_eq_true_eq] at ha
  obtain ⟨⟨⟨⟨⟨⟨⟨⟨⟨⟨hlock, hfirst⟩, -⟩, -⟩, -⟩, -⟩, -⟩, -⟩, -⟩, -⟩, -⟩ := ha
  simp only [Dispatcher.unlock, hU.trim, hU.nonempty, hlock, hU.parse, hfirst, lookup_row hid,
    if_false]

theorem eligible_calm (hid : id ∈ s.deliveries.ids) :
    u.dispatcher.eligible now s (u.dispatcher.uuidFrom id) a = .inr (id, s.deliveries.row id) ∨
      (∃ delay maxAttempts, u.dispatcher.eligible now s (u.dispatcher.uuidFrom id) a =
        .inl (u.dispatcher.enqueueDelivery (u.dispatcher.uuidFrom id) delay maxAttempts)) ∨
      (s.deliveries.row id).status.unfinished = false ∧
        u.dispatcher.eligible now s (u.dispatcher.uuidFrom id) a = .inl (.ret none) := by
  simp only [Answers.calm, Bool.and_eq_true, decide_eq_true_eq] at ha
  obtain ⟨⟨⟨⟨⟨⟨⟨⟨⟨⟨-, -⟩, hget⟩, -⟩, -⟩, -⟩, -⟩, -⟩, -⟩, -⟩, -⟩ := ha
  simp only [Dispatcher.eligible, hU.trim, hU.parse, hget, lookup_row hid]
  split
  · rename_i hs
    exact .inr (.inr ⟨by rw [unfinished_eq, hs]; rfl, rfl⟩)
  · split
    · split
      · exact .inr (.inl ⟨_, _, rfl⟩)
      · exact .inl rfl
    · exact .inl rfl

theorem retryLater_calm (reason : String) :
    ∃ t, (u.dispatcher.retryLater now s id del reason a).2 = .enqueue t ∧
      t.kind = webhookDeliveryTask ∧ t.payload = u.dispatcher.uuidFrom id ∧
      t.idempotencyKey = u.dispatcher.uuidFrom id := by
  simp only [Answers.calm, Bool.and_eq_true, decide_eq_true_eq] at ha
  obtain ⟨-, hfail⟩ := ha
  simp only [Dispatcher.retryLater, hfail]
  exact enqueueDelivery_task hU id _ _

theorem settle_calm (hid : id ∈ s.deliveries.ids) (o : Outcome) :
    (∃ t, (u.dispatcher.settle now s id del a o).2 = .enqueue t ∧
        t.kind = webhookDeliveryTask ∧ t.payload = u.dispatcher.uuidFrom id ∧
        t.idempotencyKey = u.dispatcher.uuidFrom id) ∨
      (u.dispatcher.settle now s id del a o).2 = .ret none ∧
        ((u.dispatcher.settle now s id del a o).1.deliveries.row id).status.unfinished = false := by
  have hcalls := ha
  simp only [Answers.calm, Bool.and_eq_true, decide_eq_true_eq] at hcalls
  obtain ⟨⟨⟨⟨-, hdone⟩, hmove⟩, -⟩, -⟩ := hcalls
  cases o with
  | unloaded cause =>
    simp only [Dispatcher.settle, Dispatcher.failDelivery]
    split
    · rw [hmove]
      exact .inr ⟨rfl, bury_calm ha hid cause⟩
    · exact .inl (retryLater_calm hU ha cause)
  | answered status body err =>
    simp only [Dispatcher.settle, Dispatcher.conclude]
    split
    · rw [hdone]
      refine .inr ⟨rfl, ?_⟩
      rw [markDelivered, updateDelivery_self hid]
      rfl
    · split
      · exact .inr ⟨rfl, bury_calm ha hid _⟩
      · exact .inl (retryLater_calm hU ha _)

theorem deliverStep_calm {r : HandlePc ⊕ Next} (hs : Sane u s pc)
    (h : deliverStep u.dispatcher now s a pc = some (s', r)) : Leads u s s' pc r := by
  have hsame : ∀ id, Frame id (s.deliveries.row id) s s := fun _ => Frame.refl
  cases pc with
  | deliver p =>
    obtain ⟨id, hid, rfl⟩ := hs
    simp only [deliverStep, unlock_calm hU ha hid] at h
    by_cases hset : Dispatcher.settledStatus (s.deliveries.row id).status = true
    · simp only [hset, if_true] at h
      cases h
      refine (hsame id).leads rfl (goes_finished hU rfl ?_)
      rw [unfinished_eq, hset]
      rfl
    · simp only [hset] at h
      cases h
      exact (hsame id).leads rfl ⟨⟨id, hid, rfl⟩, rfl⟩
  | load p =>
    obtain ⟨id, hid, rfl⟩ := hs
    simp only [deliverStep] at h
    obtain hadm | ⟨delay, maxAttempts, hadm⟩ | ⟨hfin, hadm⟩ := @eligible_calm u now s a id hU ha hid
    · rw [hadm] at h
      cases h
      exact (hsame id).leads rfl ⟨hid, rfl⟩
    · obtain ⟨t, ht, hspec⟩ := enqueueDelivery_task hU id delay maxAttempts
      rw [hadm, ht] at h
      cases h
      exact (hsame id).leads rfl (goes_enqueue hid rfl hspec)
    · rw [hadm] at h
      cases h
      exact (hsame id).leads rfl (goes_finished hU rfl hfin)
  | process id del =>
    have hmark : a.markDelivering = .ok := by
      simp only [Answers.calm, Bool.and_eq_true, decide_eq_true_eq] at ha
      exact ha.1.1.1.1.1.1.1.2
    simp only [deliverStep, hmark] at h
    cases h
    have hframe : Frame id del s (markDelivering s id) := frame_update fun _ => ⟨rfl, rfl⟩
    refine hframe.leads rfl ⟨?_, rfl⟩
    rw [Sane, hframe.ids]
    exact hs
  | send id del =>
    simp only [deliverStep] at h
    cases h
    obtain ⟨hrows, hnext⟩ := @attempt_rows u now s a del
    refine ⟨hnext, by rw [hrows], fun k _ => by rw [hrows], ?_, rfl⟩
    rw [Sane, hrows]
    exact hs
  | settle id del o =>
    simp only [deliverStep] at h
    cases h
    have hframe := @frame_settle u now s a id del o
    obtain ⟨t, ht, hspec⟩ | ⟨hret, hfin⟩ := @settle_calm u now s a id del hU ha hs o
    · refine hframe.leads rfl ?_
      rw [ht]
      exact goes_enqueue (by rw [hframe.ids]; exact hs) rfl hspec
    · refine hframe.leads rfl ?_
      rw [hret]
      exact goes_finished hU rfl hfin
  | enqueue pc => cases h

end

/-! ## Steps of a job -/

section

variable {u : Setup} {q q' : Broker} {st st' : Store} {pc : HandlePc} {x : HandleInput}
  {r : HandlePc ⊕ Option String} {O : String → Prop} {m : TaskMessage}

theorem Genuine.dedupKey {id : Nat} (h : Genuine u st m) (hp : m.payload = u.dispatcher.uuidFrom id) :
    u.env.dedupKey m = rowKey u id := by
  rw [Env.dedupKey, rowKey, h.kind, h.key, hp]

def Kept (u : Setup) (q : Broker) (st : Store) (O : String → Prop) :
    HandlePc ⊕ Option String → Prop
  | .inl pc => Sane u st pc ∧ Stock u ⟨q, st⟩ fun p => pc.subject u = some p ∨ O p
  | .inr none => Stock u ⟨q, st⟩ O
  | .inr (some _) => False

theorem Leads.stock {n : HandlePc ⊕ Next} {O' : String → Prop} (h : Leads u st st' pc n)
    (hst : Stock u ⟨q, st⟩ fun p => pc.atWork u = some p ∨ O p)
    (hnew : ∀ k, pc.atWork u = some (u.dispatcher.uuidFrom k) →
      (st'.deliveries.row k).status.unfinished = true → O' (u.dispatcher.uuidFrom k))
    (hO : ∀ p, O p → O' p) : Stock u ⟨q, st'⟩ O' := by
  have hids : st.deliveries.ids ⊆ st'.deliveries.ids := by rw [h.ids]; exact fun _ => id
  refine ⟨fun id hid => ?_, fun id hid => hst.keys id ?_, fun e he => (hst.queue e he).mono hids,
    fun e he => (hst.processing e he).mono hids, fun id hid hun => ?_⟩
  · rw [h.nextID]
    exact hst.fresh id (h.ids ▸ hid)
  · rw [← h.ids]
    exact hid
  · by_cases hk : pc.atWork u = some (u.dispatcher.uuidFrom id)
    · exact .inr (hnew id hk hun)
    · have hid' : id ∈ st.deliveries.ids := h.ids ▸ hid
      rw [h.other id hk] at hun
      rcases hst.covered id hid' hun with hq | hw | ho
      · exact .inl hq
      · exact absurd hw hk
      · exact .inr (hO _ ho)

theorem Stock.accept (h : Stock u ⟨q, st⟩ fun p => some m.payload = some p ∨ O p)
    (hm : Genuine u st m) : Stock u ⟨q.accept u.env m, st⟩ O := by
  refine { h with queue := genuine_add h.queue hm, covered := fun id hid hun => ?_ }
  simp only [Broker.accept, Broker.pushQueue, queued_add]
  rcases h.covered id hid hun with hq | hp | ho
  · exact .inl (.inl hq)
  · exact .inl (.inr (Option.some.inj hp))
  · exact .inr ho

theorem message_genuine {e : Enqueuer} {t : Task} {now : Int}
    (h : t.kind = webhookDeliveryTask ∧ t.idempotencyKey = t.payload ∧ Known u st t.payload) :
    Genuine u st (e.message t now) := by
  refine ⟨?_, h.2.1, h.2.2⟩
  show sanitizeKind t.kind = webhookDeliveryTask
  rw [h.1]
  decide

variable {s s' : Shared Store} {job job' : Job HandlePc} {lost : List Nat} {y : JobOp HandleInput}

theorem release_sane : JobSane u st job.release := by
  unfold Job.release
  split <;> trivial

variable (hU : UUIDText u.dispatcher)
include hU

theorem rowKey_inj {j k : Nat} (h : rowKey u j = rowKey u k) :
    j = k :=
  hU.inj (dedupKey_inj h)

theorem deliver_keeps {a : Answers} (ha : a.calm = true) (hs : Sane u st pc)
    (h : (deliveryHandler u).step q st pc (.deliver a) = some (q', st', r))
    (hst : Stock u ⟨q, st⟩ fun p => pc.subject u = some p ∨ O p) :
    st'.deliveries.ids = st.deliveries.ids ∧ Kept u q' st' O r := by
  have hsub : ∀ {n}, deliverStep u.dispatcher q.now st a pc = some n → pc.subject u = pc.atWork u := by
    intro n hn
    cases pc <;> first | rfl | cases hn
  simp only [deliveryHandler] at h
  cases hd : deliverStep u.dispatcher q.now st a pc with
  | none => simp [hd] at h
  | some n =>
    obtain ⟨s₁, n⟩ := n
    have hl := deliverStep_calm hU ha hs hd
    rw [hsub hd] at hst
    simp only [hd] at h
    have hg := hl.goes
    cases n with
    | inl pc' =>
      cases h
      refine ⟨hl.ids, hg.1, hl.stock hst (fun k hk _ => .inl ?_) fun p hp => .inr hp⟩
      rw [hg.2, hk]
    | inr next =>
      cases next with
      | enqueue t =>
        cases h
        refine ⟨hl.ids, ⟨hg.1, hg.2.1, hg.2.2.1⟩,
          hl.stock hst (fun k hk _ => .inl ?_) fun p hp => .inr hp⟩
        exact hg.2.2.2.trans hk
      | ret err =>
        cases err with
        | some err => exact hg.elim
        | none =>
          cases h
          refine ⟨hl.ids, hl.stock hst (fun k hk hun => ?_) fun p hp => hp⟩
          rw [hg k hk] at hun
          cases hun

theorem Stock.claim (h : Stock u ⟨q, st⟩ O) (hm : Genuine u st m) {lease : Lease} :
    Stock u ⟨{ q with dedup := Function.update q.dedup (u.env.dedupKey m) lease }, st⟩ O := by
  refine { h with keys := fun id hid => ?_ }
  obtain ⟨k, hk, hp⟩ := hm.known
  have hne : rowKey u id ≠ u.env.dedupKey m := by
    rw [hm.dedupKey hp]
    intro he
    exact hid (rowKey_inj hU he ▸ hk)
  show Function.update q.dedup (u.env.dedupKey m) lease (rowKey u id) = .absent
  rw [Function.update_of_ne hne]
  exact h.keys id hid

theorem enqueue_keeps {epc : EnqueuePc} (hs : Sane u st (.enqueue epc))
    (hfree : ∀ e m, epc = .setNX e m → (q.dedup (u.env.dedupKey m)).held q.now = true →
      Queued m.payload q.queue ∨ O m.payload)
    (h : (deliveryHandler u).step q st (.enqueue epc) (.enqueue .ok) = some (q', st', r))
    (hst : Stock u ⟨q, st⟩ fun p => (HandlePc.enqueue epc).subject u = some p ∨ O p) :
    st' = st ∧ Kept u q' st' O r := by
  simp only [deliveryHandler] at h
  cases epc with
  | message e t =>
    obtain ⟨id, hid, hp⟩ := hs.2.2
    have hm : Genuine u st (e.message t q.now) := message_genuine hs
    have hkind : (e.message t q.now).kind ≠ "" := by rw [hm.kind]; decide
    have hkey : (e.message t q.now).key ≠ "" := by
      rw [hm.key]
      show t.payload ≠ ""
      rw [hp]
      exact hU.nonempty id
    simp only [enqueueStep, hkind, hkey, if_false, if_true, ne_eq, not_false_eq_true] at h
    split at h
    · cases h
    · rename_i hs'
      split at hs' <;> cases hs'
    · rename_i hs'
      split at hs' <;> cases hs'
      cases h
      exact ⟨rfl, hm, hst⟩
  | setNX e m =>
    have hm : Genuine u st m := hs
    by_cases hheld : (q.dedup (u.env.dedupKey m)).held q.now = true
    · simp only [enqueueStep, setNX_refused hheld] at h
      cases h
      refine ⟨rfl, { hst with covered := fun id hid hun => ?_ }⟩
      rcases hst.covered id hid hun with hq | hp | ho
      · exact .inl hq
      · exact Option.some.inj hp ▸ hfree e m rfl hheld
      · exact .inr ho
    · have hfree' : (q.dedup (u.env.dedupKey m)).held q.now = false := by simpa using hheld
      simp only [enqueueStep, setNX_taken hfree'] at h
      cases h
      exact ⟨rfl, hm, hst.claim hU hm⟩
  | zadd m =>
    simp only [enqueueStep] at h
    cases h
    exact ⟨rfl, hst.accept hs⟩
  | returned err => exact hs.elim

theorem handler_keeps (hx : x.calm = true) (hs : Sane u st pc)
    (hfree : ∀ e m, pc = .enqueue (.setNX e m) → (q.dedup (u.env.dedupKey m)).held q.now = true →
      Queued m.payload q.queue ∨ O m.payload)
    (h : (deliveryHandler u).step q st pc x = some (q', st', r))
    (hst : Stock u ⟨q, st⟩ fun p => pc.subject u = some p ∨ O p) :
    st'.deliveries.ids = st.deliveries.ids ∧ Kept u q' st' O r := by
  cases x with
  | deliver a => exact deliver_keeps hU hx hs h hst
  | enqueue c =>
    obtain rfl : c = .ok := by simpa [HandleInput.calm] using hx
    cases pc with
    | enqueue epc =>
      obtain ⟨rfl, hk⟩ := enqueue_keeps hU hs (fun e m he => hfree e m (by rw [he])) h hst
      exact ⟨rfl, hk⟩
    | _ => cases h

/-- A step of a job keeps every delivery covered, unless it drops the task of one
that nobody else has. -/
theorem job_keeps (hy : ∀ x, y = .handler x → x.calm = true)
    (h : JobEffect (deliveryHandler u) u.env s job y s' job' lost) (hs : JobSane u s.store job)
    (hfree : ∀ x, y = .handler x → ∀ p ∈ suppressing u.env s.broker job, Queued p s.broker.queue ∨ O p)
    (hst : Stock u s fun p => running (HandlePc.subject u) job = some p ∨ O p) :
    s'.store.deliveries.ids = s.store.deliveries.ids ∧ JobSane u s'.store job' ∧
      Stock u s' fun p => running (HandlePc.subject u) job' = some p ∨ O p := by
  have hkept : ∀ {pc x q' st' r}, job.pc = .running pc → y = .handler x →
      (deliveryHandler u).step s.broker s.store pc x = some (q', st', r) →
      st'.deliveries.ids = s.store.deliveries.ids ∧ Kept u q' st' O r := by
    intro pc x q' st' r hpc hyx hstep
    simp only [JobSane, hpc] at hs
    simp only [running, hpc] at hst
    refine handler_keeps hU (hy x hyx) hs (fun e m he hheld => hfree x hyx m.payload ?_) hstep hst
    simp [suppressing, hpc, he, hheld]
  have hidle : ∀ {pc}, job.pc = pc → (∀ h, pc ≠ .running h) → Stock u s O := by
    intro pc hpc hne
    refine hst.weaken fun p hp => hp.resolve_left ?_
    cases pc with
    | running h => exact absurd rfl (hne h)
    | _ => simp [running, hpc]
  cases h with
  | expire => exact ⟨rfl, hs, hst⟩
  | ran hpc hstep =>
    obtain ⟨hids, hsane, hst'⟩ := hkept hpc rfl hstep
    exact ⟨hids, hsane, hst'⟩
  | succeeded hpc hstep =>
    obtain ⟨hids, hst'⟩ := hkept hpc rfl hstep
    exact ⟨hids, trivial,
      { hst' with covered := fun id hid hun => (hst'.covered id hid hun).imp_right .inr }⟩
  | erred hpc hstep => exact (hkept hpc rfl hstep).2.elim
  | @acked c hpc _ =>
    have hst' := hidle hpc (by simp)
    have hrem : Stock u ⟨{ s.broker with processing := s.broker.processing.rem job.msg }, s.store⟩ O :=
      { hst' with processing := fun e he => hst'.processing e (ZSet.mem_rem.mp he).1 }
    exact ⟨rfl, release_sane, hrem.weaken fun p => .inr⟩
  | unacked hpc _ => exact ⟨rfl, release_sane, (hidle hpc (by simp)).weaken fun p => .inr⟩
  | released hpc _ =>
    have hst' := hidle hpc (by simp)
    have hdel : Stock u
        ⟨{ s.broker with dedup := s.broker.dedup.del (u.env.dedupKey job.msg) }, s.store⟩ O := by
      refine { hst' with keys := fun id hid => ?_ }
      simp only [Keys.del, Function.update_apply]
      split
      · rfl
      · exact hst'.keys id hid
    exact ⟨rfl, trivial, hdel.weaken fun p => .inr⟩
  | unreleased hpc _ => exact ⟨rfl, trivial, (hidle hpc (by simp)).weaken fun p => .inr⟩
  | stamp hpc | removed hpc _ | unremoved hpc _ | retried hpc _ | unretried hpc _ | buried hpc _
  | unburied hpc _ =>
    rw [JobSane, hpc] at hs
    exact hs.elim

end

end TokoApi.Notify
