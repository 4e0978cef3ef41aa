import TokoApi.Notify.Tasks

/-!
# Deliveries that nobody works on

The tasks of a delivery come from `Schedule` and from the handler itself, which
enqueues the delivery again when it has failed or is not due. The queue drops what
it is asked to enqueue while the dedup key is held, and the key of the task that
is running is held until that task has been acknowledged; so the new task is
dropped and the row is left behind. `ReplayDelivery` resets a row and enqueues
nothing. In every run in which neither happens, no delivery is left without its
task.
-/
namespace TokoApi.Notify

open Lib.Rows Lib.Redis Lib.Text Lib.Threads Lib.Runs Lib.Wrap Resilience Queue

/-! ## The runs that are considered -/

def workerAt (c : Deliveries) (k : Nat) : Option (Worker HandlePc) :=
  match c.threads[k]? with
  | some (.worker w) => some w
  | _ => none

/-- No worker crashes and no call fails. A command of the loop fails when the
worker's context is done, outside the scan after shutdown. -/
def faultless (c : Deliveries) : Step → Bool
  | .act _ .crash => false
  | .act k .command => (workerAt c k).all fun w => !w.ctxDone || w.main.final
  | .act _ (.job _ (.handler x)) => x.calm
  | _ => true

/-- Where a handler's task is dropped because of the dedup key, and where a row is
reset, another task of the delivery is waiting. -/
def keepsTask (u : Setup) (c : Deliveries) : Step → Bool
  | .act k (.job j (.handler _)) =>
    ((workerAt c k).bind fun w => w.jobs[j]?).all fun job =>
      (suppressing u.env c.shared.broker job).all fun p => Waiting u c p
  | .env (.replayDelivery id) =>
    id ∉ c.shared.store.deliveries.ids || Waiting u c (u.dispatcher.uuidFrom id)
  | _ => true

/-- The loop has no task in hand and no handler is running. -/
def atRest : Proc HandlePc → Bool
  | .worker w => w.main.carried.isNone && w.jobs.all fun job =>
      match job.pc with
      | .running _ => false
      | _ => true
  | .enqueue _ => true

abbrev Quiescent (c : Deliveries) : Prop := ∀ t ∈ c.threads, atRest t = true

abbrev NoneStuck (u : Setup) (c : Deliveries) : Prop :=
  ∀ id ∈ c.shared.store.deliveries.ids,
    (c.shared.store.deliveries.row id).status.unfinished = true →
    Queued (u.dispatcher.uuidFrom id) c.shared.broker.queue ∨
      Queued (u.dispatcher.uuidFrom id) c.shared.broker.processing

structure Sound (u : Setup) (c : Deliveries) : Prop where
  stock : Stock u c.shared fun p => ∃ t ∈ c.threads, ProcHasTask (HandlePc.subject u) p t
  threads : ∀ t ∈ c.threads, ProcSane u c.shared.store t

/-! ## Steps of the system -/

section

variable {u : Setup} {s s' : Shared Store} {w w' : Worker HandlePc} {o : Op HandleInput}
  {O : String → Prop} {p : String} {job job' : Job HandlePc}

/-- The worker has the delivery in hand elsewhere than in job `j`. -/
def Besides (f : HandlePc → Option String) (p : String) (j : Nat) (w : Worker HandlePc) : Prop :=
  (∃ m ∈ w.main.carried, m.1.payload = p) ∨ Others j w.jobs fun job => running f job = some p

theorem hasTask_iff {f : HandlePc → Option String} {j : Nat}
    (hj : w.jobs[j]? = some job) : HasTask f p w ↔ running f job = some p ∨ Besides f p j w := by
  rw [HasTask, exists_mem_iff_others hj]
  exact or_left_comm

theorem hasTask_set {f : HandlePc → Option String} {j : Nat}
    {lost : List Nat} (hj : w.jobs[j]? = some job) :
    HasTask f p (w.withJob j job' (w.dropped ++ lost)) ↔
      running f job' = some p ∨ Besides f p j w := by
  rw [HasTask, exists_mem_set_iff_others hj]
  exact or_left_comm

theorem subject_of_atWork (h : running (HandlePc.atWork u) job = some p) :
    running (HandlePc.subject u) job = some p := by
  unfold running at h ⊢
  split at h
  · rename_i pc _
    cases pc <;> first | exact h | cases h
  · cases h

theorem Besides.subject {j : Nat} (h : Besides (HandlePc.atWork u) p j w) :
    Besides (HandlePc.subject u) p j w := by
  refine h.imp_right ?_
  rintro ⟨k, job, hk, hj, hp⟩
  exact ⟨k, job, hk, hj, subject_of_atWork hp⟩

theorem suppressing_not_atWork {env : Env} {q : Broker}
    (h : p ∈ suppressing env q job) : running (HandlePc.atWork u) job ≠ some p := by
  unfold suppressing at h
  split at h
  · rename_i hpc
    simp [running, hpc, HandlePc.atWork]
  · cases h

/-- The worker's own view of the side conditions: `O` has the deliveries that the
other processes have in hand. -/
structure Careful (u : Setup) (s : Shared Store) (w : Worker HandlePc) (o : Op HandleInput)
    (O : String → Prop) : Prop where
  command : o = .command → w.ctxDone = false ∨ w.main.final = true
  calm : ∀ j x, o = .job j (.handler x) → x.calm = true
  free : ∀ j x job, o = .job j (.handler x) → w.jobs[j]? = some job →
    ∀ p ∈ suppressing u.env s.broker job,
      Queued p s.broker.queue ∨ HasTask (HandlePc.atWork u) p w ∨ O p

theorem worker_keeps (hU : UUIDText u.dispatcher)
    (h : workerStep (deliveryHandler u) u.env s w o = some (s', w')) (hc : Careful u s w o O)
    (hs : WorkerSane u s.store w)
    (hst : Stock u s fun p => HasTask (HandlePc.subject u) p w ∨ O p) :
    s'.store.deliveries.ids = s.store.deliveries.ids ∧ WorkerSane u s'.store w' ∧
      Stock u s' fun p => HasTask (HandlePc.subject u) p w' ∨ O p := by
  obtain ⟨_, ⟨q, he, rfl⟩ | ⟨j, x, job, job', lost, rfl, hj, he, rfl⟩⟩ := worker_effect h
  · obtain ⟨hs', hq, hp, hkeys⟩ := main_sane he hs hst.queue hst.processing
    refine ⟨rfl, hs', hst.fresh, fun id hid => ?_, hq, hp, fun id hid hun => ?_⟩
    · rw [hkeys]
      exact hst.keys id hid
    · rcases or_assoc.mpr (hst.covered id hid hun) with hin | ho
      · exact or_assoc.mp (.inl (main_keeps he hc.command hin))
      · exact .inr (.inr ho)
  · -- everything but job `j` counts as held by others
    have hst' : Stock u s fun p =>
        running (HandlePc.subject u) job = some p ∨ Besides (HandlePc.subject u) p j w ∨ O p := by
      refine hst.weaken fun p hp => ?_
      rw [hasTask_iff hj] at hp
      exact or_assoc.mp hp
    have hfree : ∀ y, x = .handler y → ∀ p ∈ suppressing u.env s.broker job,
        Queued p s.broker.queue ∨ Besides (HandlePc.subject u) p j w ∨ O p := by
      intro y hy p hp
      rcases hc.free j y job (by rw [hy]) hj p hp with hq | hw | ho
      · exact .inl hq
      · rw [hasTask_iff hj] at hw
        exact .inr (.inl (hw.resolve_left (suppressing_not_atWork hp)).subject)
      · exact .inr (.inr ho)
    obtain ⟨hids, hsane, hst''⟩ := job_keeps hU (fun y hy => hc.calm j y (by rw [hy])) he
      (hs.jobs job (List.mem_of_getElem? hj)) hfree hst'
    have hmono : s.store.deliveries.ids ⊆ s'.store.deliveries.ids := by rw [hids]; exact fun _ => id
    have hs' := hs.mono hmono
    refine ⟨hids, ⟨hs'.carried, hs'.due, forall_mem_set hsane hs'.jobs⟩, hst''.weaken fun p hp => ?_⟩
    rw [hasTask_set hj]
    exact or_assoc.mpr hp

end

/-! ## `Schedule` and `ReplayDelivery` -/

section

variable {u : Setup} {q : Broker} {st st' : Store} {O : String → Prop} {now : Int} {id : Nat}

/-- A task for a row whose dedup key is free gets into the queue. -/
theorem runEnqueue_keeps (hU : UUIDText u.dispatcher) (hkind : u.env.kind = webhookDeliveryTask)
    {t : Task} (hid : id ∈ st.deliveries.ids)
    (ht : t.kind = webhookDeliveryTask ∧ t.payload = u.dispatcher.uuidFrom id ∧
      t.idempotencyKey = u.dispatcher.uuidFrom id)
    (hfree : q.dedup (rowKey u id) = .absent)
    (hst : Stock u ⟨q, st⟩ fun p => u.dispatcher.uuidFrom id = p ∨ O p) :
    Stock u ⟨runEnqueue u.env 3 q (.message u.enqueuer t), st⟩ O := by
  have hm : Genuine u st (u.enqueuer.message t q.now) :=
    message_genuine ⟨ht.1, by rw [ht.2.1, ht.2.2], id, hid, ht.2.1⟩
  have hk : (u.enqueuer.message t q.now).kind = u.env.kind := hm.kind.trans hkind.symm
  have hne : u.env.kind ≠ "" := by rw [hkind]; decide
  have hkey : (u.enqueuer.message t q.now).key ≠ "" := by
    show t.idempotencyKey ≠ ""
    rw [ht.2.2]
    exact hU.nonempty id
  have hlease : (q.dedup (u.env.dedupKey (u.enqueuer.message t q.now))).held q.now = false := by
    rw [hm.dedupKey ht.2.1, hfree]
    rfl
  have hrun : runEnqueue u.env 3 q (.message u.enqueuer t) =
      Broker.accept u.env { q with
        dedup := Function.update q.dedup (u.env.dedupKey (u.enqueuer.message t q.now))
          (Lease.starting q.now u.enqueuer.ttl) } (u.enqueuer.message t q.now) := by
    simp only [runEnqueue, enqueueStep, hne, hk, hkey, setNX_taken hlease, if_false, if_true,
      ne_eq, not_true_eq_false, not_false_eq_true]
  rw [hrun]
  refine Stock.accept ?_ hm
  refine (hst.claim hU hm).weaken fun p hp => hp.imp_left fun he => ?_
  rw [← he]
  exact congrArg some ht.2.1

/-- A new row has the next key, and its dedup key is free. -/
theorem insert_keeps {endpoint event : Nat} {maxAttempt : Int} (hst : Stock u ⟨q, st⟩ O)
    (h : enqueueDeliveryRow st now endpoint event maxAttempt = some (st', id)) :
    st.deliveries.ids ⊆ st'.deliveries.ids ∧ id ∈ st'.deliveries.ids ∧
      q.dedup (rowKey u id) = .absent ∧
      Stock u ⟨q, st'⟩ fun p => u.dispatcher.uuidFrom id = p ∨ O p := by
  have hfresh := (insert_spec hst.fresh h).fresh
  unfold enqueueDeliveryRow at h
  split at h
  · cases h
  cases h
  have hnew : st.nextID ∉ st.deliveries.ids := fun hin => (hst.fresh _ hin).false
  have hsub : st.deliveries.ids ⊆ st.deliveries.ids ++ [st.nextID] :=
    List.subset_append_left _ _
  refine ⟨hsub, List.mem_append_right _ (List.mem_singleton_self _), hst.keys _ hnew, hfresh,
    fun k hk => hst.keys k fun hin => hk (hsub hin), fun e he => (hst.queue e he).mono hsub,
    fun e he => (hst.processing e he).mono hsub, fun k hk hun => ?_⟩
  rcases List.mem_append.mp hk with hk | hk
  · have hne : k ≠ st.nextID := fun he => hnew (he ▸ hk)
    have hrow : ∀ r, (st.deliveries.insert st.nextID r).row k = st.deliveries.row k := by
      intro r
      simp [Table.insert, hne]
    simp only [hrow] at hun
    exact (hst.covered k hk hun).imp_right .inr
  · rw [List.mem_singleton.mp hk]
    exact .inr (.inl rfl)

theorem scheduleLoop_keeps (hU : UUIDText u.dispatcher) (hkind : u.env.kind = webhookDeliveryTask)
    {event : Nat} {eps : List Nat} {cs : List Call} (hst : Stock u ⟨q, st⟩ O) :
    st.deliveries.ids ⊆ (u.dispatcher.scheduleLoop now event st eps cs).1.deliveries.ids ∧
      Stock u ⟨enqueueNexts u q (u.dispatcher.scheduleLoop now event st eps cs).2,
        (u.dispatcher.scheduleLoop now event st eps cs).1⟩ O := by
  induction eps generalizing st q cs with
  | nil => cases cs <;> exact ⟨fun _ => id, hst⟩
  | cons ep eps ih =>
    cases cs with
    | nil => exact ⟨fun _ => id, hst⟩
    | cons c cs =>
      cases c with
      | fail e =>
        simp only [Dispatcher.scheduleLoop]
        exact ih hst
      | ok =>
        simp only [Dispatcher.scheduleLoop]
        split
        · exact ih hst
        · rename_i s₁ new hi
          obtain ⟨hsub, hid, hfree, hst₁⟩ := insert_keeps hst hi
          obtain ⟨t, ht, hspec⟩ := enqueueDelivery_task hU new 0 (int32 u.dispatcher.maxAttempts)
          rw [ht]
          obtain ⟨hsub', hst₂⟩ := @ih (runEnqueue u.env 3 q (.message u.enqueuer t)) s₁ cs
            (runEnqueue_keeps hU hkind hid hspec hfree hst₁)
          exact ⟨fun k hk => hsub' (hsub hk), hst₂⟩

theorem replay_rows (d : Dispatcher) (now : Int) (st : Store) (id : Nat) :
    (d.replayDelivery now st id .ok .ok .ok).nextID = st.nextID ∧
      (d.replayDelivery now st id .ok .ok .ok).deliveries.ids = st.deliveries.ids ∧
      ∀ k, (k = id → k ∉ st.deliveries.ids) →
        (d.replayDelivery now st id .ok .ok .ok).deliveries.row k = st.deliveries.row k := by
  have hrep := replayDelivery_replayed d now st id .ok .ok .ok
  generalize d.replayDelivery now st id .ok .ok .ok = store at hrep
  cases hrep with
  | unchanged _ => exact ⟨rfl, rfl, fun _ _ => rfl⟩
  | reset hid _ _ _ =>
    refine ⟨updateDelivery_nextID, updateDelivery_ids, fun k hk => updateDelivery_other ?_⟩
    exact fun he => hk he (he ▸ hid)

theorem admin_keeps (hU : UUIDText u.dispatcher) (hkind : u.env.kind = webhookDeliveryTask)
    {s s' : Shared Store} {e : Admin} (h : adminStep u s e = some s') (hst : Stock u s O)
    (hreset : ∀ id, e = .replayDelivery id → id ∈ s.store.deliveries.ids →
      Queued (u.dispatcher.uuidFrom id) s.broker.queue ∨ O (u.dispatcher.uuidFrom id)) :
    s.store.deliveries.ids ⊆ s'.store.deliveries.ids ∧ Stock u s' O := by
  cases e with
  | tick n =>
    cases h
    exact ⟨fun _ => id, { hst with }⟩
  | schedule event =>
    simp only [adminStep, Option.some.injEq] at h
    subst h
    unfold Dispatcher.schedule
    simp only
    split
    · exact ⟨fun _ => id, hst⟩
    · exact scheduleLoop_keeps hU hkind hst
  | replayDelivery id =>
    cases h
    obtain ⟨hnext, hids, hrow⟩ := replay_rows u.dispatcher s.broker.now s.store id
    have hsub : s.store.deliveries.ids ⊆
        (u.dispatcher.replayDelivery s.broker.now s.store id .ok .ok .ok).deliveries.ids := by
      rw [hids]
      exact fun _ hk => hk
    refine ⟨hsub, fun k hk => ?_, fun k hk => hst.keys k (hids ▸ hk),
      fun e he => (hst.queue e he).mono hsub, fun e he => (hst.processing e he).mono hsub,
      fun k hk hun => ?_⟩
    · rw [hnext]
      exact hst.fresh k (hids ▸ hk)
    · have hk' : k ∈ s.store.deliveries.ids := hids ▸ hk
      by_cases hki : k = id
      · subst k
        exact hreset id rfl hk'
      · rw [hrow k fun he => absurd he hki] at hun
        exact hst.covered k hk' hun

end

/-! ## Whole runs -/

section

variable {u : Setup} {c d : Deliveries} {l : Step}

abbrev Orderly (u : Setup) (c : Deliveries) (l : Step) : Prop :=
  faultless c l = true ∧ keepsTask u c l = true

theorem ProcHasTask.subject {p : String} {t : Proc HandlePc}
    (h : ProcHasTask (HandlePc.atWork u) p t) : ProcHasTask (HandlePc.subject u) p t := by
  cases t with
  | worker w =>
    refine Or.imp_right ?_ h
    rintro ⟨job, hj, hp⟩
    exact ⟨job, hj, subject_of_atWork hp⟩
  | enqueue pc => exact h

theorem careful_of_orderly {k : Nat} {w : Worker HandlePc} {o : Op HandleInput}
    (hw : c.threads[k]? = some (.worker w)) (h : Orderly u c (.act k o)) :
    Careful u c.shared w o fun p =>
      Others k c.threads fun t => ProcHasTask (HandlePc.subject u) p t := by
  have hat : workerAt c k = some w := by rw [workerAt, hw]
  refine ⟨fun ho => ?_, fun j x ho => ?_, fun j x job ho hj p hp => ?_⟩
  · subst ho
    simpa [faultless, hat] using h.1
  · subst ho
    exact h.1
  · subst ho
    have hwait : Waiting u c p := by
      have hkeep := h.2
      simp only [keepsTask, hat, Option.bind_some, hj, Option.all_some] at hkeep
      rw [hp, Option.all_some] at hkeep
      exact of_decide_eq_true hkeep
    rcases hwait with hq | ht
    · exact .inl hq
    · rw [exists_mem_iff_others hw] at ht
      refine .inr (ht.imp_right ?_)
      rintro ⟨i, t, hi, ht, hp⟩
      exact ⟨i, t, hi, ht, hp.subject⟩

theorem sound_step (hU : UUIDText u.dispatcher) (hkind : u.env.kind = webhookDeliveryTask)
    (hc : Sound u c) (hl : Orderly u c l) (h : (deliveryMachine u).step c l = some d) :
    Sound u d := by
  cases Machine.step_effect h with
  | spawn settings =>
    refine ⟨hc.stock.weaken ?_, forall_mem_concat ?_ hc.threads⟩
    · rintro p ⟨t, ht, hp⟩
      exact ⟨t, List.mem_append_left _ ht, hp⟩
    · exact ⟨by simp [Main.carried], by simp [Main.dueList], by simp⟩
  | @env e _ hs =>
    have hreset : ∀ id, e = .replayDelivery id → id ∈ c.shared.store.deliveries.ids →
        Queued (u.dispatcher.uuidFrom id) c.shared.broker.queue ∨
          ∃ t ∈ c.threads, ProcHasTask (HandlePc.subject u) (u.dispatcher.uuidFrom id) t := by
      intro id he hid
      subst he
      have hwait : Waiting u c (u.dispatcher.uuidFrom id) := by
        simpa [keepsTask, hid] using hl.2
      refine hwait.imp_right ?_
      rintro ⟨t, ht, hp⟩
      exact ⟨t, ht, hp.subject⟩
    obtain ⟨hsub, hst⟩ := admin_keeps hU hkind hs hc.stock hreset
    exact ⟨hst, fun t ht => (hc.threads t ht).mono hsub⟩
  | @act k _ t s' _ ht hs =>
    cases t with
    | enqueue pc => cases hs
    | worker w =>
      obtain ⟨w', hw, rfl⟩ := lifted_inv hs
      have hst : Stock u c.shared fun p => HasTask (HandlePc.subject u) p w ∨
          Others k c.threads fun t => ProcHasTask (HandlePc.subject u) p t :=
        hc.stock.weaken fun p hp => (exists_mem_iff_others ht).mp hp
      obtain ⟨hids, hsane, hst'⟩ := worker_keeps hU hw (careful_of_orderly ht hl)
        (hc.threads _ (List.mem_of_getElem? ht)) hst
      have hsub : c.shared.store.deliveries.ids ⊆ s'.store.deliveries.ids := by
        rw [hids]
        exact fun _ hk => hk
      refine ⟨hst'.weaken fun p hp => (exists_mem_set_iff_others ht).mpr hp, ?_⟩
      exact forall_mem_set hsane fun t ht => (hc.threads t ht).mono hsub

theorem sound_start {st : Store} (h : st.deliveries.ids = []) :
    Sound u ⟨⟨Broker.empty, st⟩, []⟩ := by
  refine ⟨⟨?_, fun _ _ => rfl, ?_, ?_, ?_⟩, by simp⟩
  · intro id hid
    simp [h] at hid
  · intro e he
    cases he
  · intro e he
    cases he
  · intro id hid
    simp [h] at hid

theorem Sound.none_stuck (h : Sound u c) (hq : Quiescent c) : NoneStuck u c := by
  intro id hid hun
  rcases h.stock.covered id hid hun with hin | ⟨t, ht, hp⟩
  · exact .inl hin
  · cases t with
    | enqueue pc => exact hp.elim
    | worker w =>
      obtain ⟨hmain, hjobs⟩ := Bool.and_eq_true_iff.mp (hq _ ht)
      rcases hp with ⟨m, hm, _⟩ | ⟨job, hj, hp⟩
      · rw [Option.isNone_iff_eq_none.mp hmain] at hm
        cases hm
      · have hrest := List.all_eq_true.mp hjobs job hj
        unfold running at hp
        split at hp
        · rename_i pc hpc
          simp [hpc] at hrest
        · cases hp

/-- In every run in which no call fails, no worker crashes, and no task is dropped
or row reset while no other task of the delivery is waiting: when the workers come
to rest, every unfinished delivery has its task. -/
theorem unfinished_has_task (hU : UUIDText u.dispatcher)
    (hkind : u.env.kind = webhookDeliveryTask) {st : Store} (hst : st.deliveries.ids = [])
    {ls : List Step} {c : Deliveries}
    (hrun : run (deliveryMachine u).step ⟨⟨Broker.empty, st⟩, []⟩ ls = some c)
    (hls : Meets (deliveryMachine u).step (Orderly u) ⟨⟨Broker.empty, st⟩, []⟩ ls)
    (hq : Quiescent c) : NoneStuck u c := by
  have hsound : Sound u c := run_inv (fun _ _ _ hc hl hs => sound_step hU hkind hc hl hs)
    (sound_start hst) hls hrun
  exact hsound.none_stuck hq

end

/-! ## One delivery that fails -/

def uuidText (id : Nat) : String := String.ofList (List.replicate (id + 1) '1')

theorem trimSpace_uuidText (id : Nat) : trimSpace (uuidText id) = uuidText id := by
  refine trimSpace_of_no_space fun c hc => ?_
  rw [uuidText, String.toList_ofList] at hc
  rw [List.eq_of_mem_replicate hc]
  decide

def shop (dedupTTL : Int) : Setup where
  dispatcher :=
    { guarded with
      uuidString := uuidText
      parseUUID := fun s =>
        if s = "" then .error "invalid UUID length: 0" else .ok (s.toList.length - 1) }
  enqueuer := ⟨dedupTTL, 0⟩
  env := ⟨"", webhookDeliveryTask, id⟩

theorem shop_uuidText (dedupTTL : Int) : UUIDText (shop dedupTTL).dispatcher := by
  have hne : ∀ id, uuidText id ≠ "" := by
    intro id h
    have := congrArg String.toList h
    simp [uuidText] at this
  refine ⟨fun id => ?_, trimSpace_uuidText, hne⟩
  show (if uuidText id = "" then _ else Except.ok ((uuidText id).toList.length - 1)) = .ok id
  rw [if_neg (hne id)]
  simp [uuidText]

/-- A delivery is scheduled, taken from the queue after `wait`, fails, and is about
to be enqueued again. -/
def failedAttempt (wait : Nat) : List Step :=
  let refused := HandleInput.deliver (reply (.transport "connection refused" none))
  [.spawn ⟨1, 0, 0, 0, false⟩, .env (.schedule 2), .env (.tick wait), .act 0 .poll,
    .act 0 (.pop ⟨webhookDeliveryTask, uuidText 0, uuidText 0, 0, 6, 0, ""⟩), .act 0 .clock,
    .act 0 .clock, .act 0 .command, .act 0 .start, .act 0 (.job 0 (.handler refused)),
    .act 0 (.job 0 (.handler refused)), .act 0 (.job 0 (.handler refused)),
    .act 0 (.job 0 (.handler refused)), .act 0 (.job 0 (.handler refused)),
    .act 0 (.job 0 (.handler (.enqueue .ok))), .act 0 (.job 0 (.handler (.enqueue .ok)))]

def acknowledge : List Step := [.act 0 (.job 0 (.command .ok)), .act 0 (.job 0 (.command .ok))]

/-- The dedup key of the running task is held, the new task is dropped, and the
failed delivery is left without a task. -/
theorem failed_left_behind :
    ∃ c, run (deliveryMachine (shop 0)).step ⟨⟨.empty, oneEndpoint.store⟩, []⟩
        (failedAttempt 0 ++ acknowledge) = some c ∧
      Meets (deliveryMachine (shop 0)).step (fun c l => faultless c l = true)
        ⟨⟨.empty, oneEndpoint.store⟩, []⟩ (failedAttempt 0 ++ acknowledge) ∧
      Quiescent c ∧ (c.shared.store.deliveries.row 0).status = .failed ∧
      ¬ NoneStuck (shop 0) c :=
  reaches (by decide +kernel)

/-- The dedup key has expired when the task is started, so the failed delivery is
back in the queue. -/
theorem failed_enqueued_again :
    ∃ c, run (deliveryMachine (shop 5)).step ⟨⟨.empty, oneEndpoint.store⟩, []⟩
        (failedAttempt 10 ++ .act 0 (.job 0 (.handler (.enqueue .ok))) :: acknowledge) = some c ∧
      Quiescent c ∧ (c.shared.store.deliveries.row 0).status = .failed ∧ NoneStuck (shop 5) c :=
  reaches_imp (P := fun c : Deliveries =>
      Quiescent c ∧ (c.shared.store.deliveries.row 0).status = .failed) (by decide +kernel)
    fun _ hc ⟨hq, hf⟩ => ⟨hq, hf, unfinished_has_task (shop_uuidText 5) rfl rfl hc (by decide +kernel) hq⟩

end TokoApi.Notify
