import TokoApi.Queue.MaxAttempts

/-!
# One message per idempotency key

The dedup marker of a key should keep a second message with that key out of the
queue and of the processing set. The marker is set before the message is added
and deleted after it has been removed for good; in between, the message is in one
place at a time, as long as `requeueExpired` takes back only what is still in the
processing set and what nobody waits for a slot with or works on.

`share` counts what a process has in hand outside the sets, and the right to
delete the marker; `tending` counts the entries of the processing set a process is
still to remove.
-/
namespace TokoApi.Queue

open Lib.Redis Lib.Threads

/-! ## Shares -/

section

variable (env : Env) (d : String)

def Marks (m : TaskMessage) : Prop := env.dedupKey m = d

instance : DecidablePred (Marks env d) := fun _ => inferInstanceAs (Decidable (_ = _))

def TaskMessage.share (m : TaskMessage) : Nat := if Marks env d m then 1 else 0

def EnqueuePc.share : EnqueuePc → Nat
  | .zadd m => m.share env d
  | _ => 0

/-- A scan whose context is done has removed nothing and adds nothing. -/
def Main.share (ctxDone : Bool) : Main → Nat
  | .popped m _ | .pushBack m _ | .due m _ | .taking m _ _ => m.share env d
  | .lifted m _ _ final | .moving m _ _ final =>
    if ctxDone = true ∧ final = false then 0 else m.share env d
  | _ => 0

variable {θ : Type}

def JobPc.share (msg : TaskMessage) : JobPc θ → Nat
  | .failed _ m | .retrying _ m => m.share env d
  | .burying _ _ | .releasing => msg.share env d
  | _ => 0

def Job.share (job : Job θ) : Nat := if job.ctxDone then 0 else job.pc.share env d job.msg

def Worker.share (w : Worker θ) : Nat :=
  w.main.share env d w.ctxDone + (w.jobs.map (Job.share env d)).sum

def Proc.share : Proc θ → Nat
  | .enqueue pc => pc.share env d
  | .worker w => w.share env d

/-- The message whose entry a loop that waits for a slot has put there. -/
def Main.awaited : Main → Option TaskMessage
  | .waiting m _ => some m
  | _ => none

def optionShare (m : Option TaskMessage) : Nat := m.elim 0 (TaskMessage.share env d)

def Job.tended (job : Job θ) : Option TaskMessage := if job.ctxDone then none else job.owned

def Worker.tending (w : Worker θ) : Nat :=
  if w.alive then
    optionShare env d w.main.awaited + (w.jobs.map fun job => optionShare env d job.tended).sum
  else 0

def Proc.tending : Proc θ → Nat
  | .enqueue _ => 0
  | .worker w => w.tending env d

/-- The entries a worker is still to remove are there. -/
structure Worker.Present (z : ZSet TaskMessage) (w : Worker θ) : Prop where
  awaited : w.alive = true → ∀ m ∈ w.main.awaited, Marks env d m → z.Mem m
  jobs : w.alive = true → ∀ job ∈ w.jobs, ∀ m ∈ job.tended, Marks env d m → z.Mem m

def Proc.Present (z : ZSet TaskMessage) : Proc θ → Prop
  | .enqueue _ => True
  | .worker w => w.Present env d z

def Broker.queued (q : Broker) : Nat := q.queue.size (Marks env d)

def Broker.underway (q : Broker) : Nat := q.processing.size (Marks env d)

end

def Job.releases (env : Env) (d : String) (job : Job Unit) : Bool :=
  job.pc = .releasing && !job.ctxDone && Marks env d job.msg

/-- The message for which `requeueExpired` executes its ZREM next. -/
def Worker.takesBack {θ : Type} (w : Worker θ) : Option TaskMessage :=
  match w.main with
  | .requeue ((m, _) :: _) final => if w.ctxDone = true ∧ final = false then none else some m
  | _ => none

/-- What `requeueExpired` takes back is still in the processing set, and nobody
waits for a slot with it or has still to remove its entry; and the marker does not
expire. -/
def sparingKey (env : Env) (d : String) (c : System) : Event → Bool
  | .act k (.worker .command) =>
    ((workerOf c k).bind Worker.takesBack).all fun m =>
      ¬ Marks env d m ∨ (c.shared.broker.processing.Mem m ∧
        ∀ t ∈ c.threads, t.tending env d = 0)
  | .env n => !(c.shared.broker.dedup d).held c.shared.broker.now ||
      (c.shared.broker.dedup d).held (c.shared.broker.now + n)
  | _ => true

/-- What is kept from state to state: at most one message of the marker in the two
sets and in hand, its entry of the processing set is what the one process that
tends it has put there, and the marker is held. -/
structure Single (env : Env) (d : String) (q : Broker) (ts : List (Proc Unit)) : Prop where
  one : q.queued env d + q.underway env d + (ts.map (Proc.share env d)).sum ≤ 1
  tended : (ts.map (Proc.tending env d)).sum ≤ q.underway env d
  present : ∀ t ∈ ts, t.Present env d q.processing
  marked : 0 < q.queued env d + q.underway env d + (ts.map (Proc.share env d)).sum →
    (q.dedup d).held q.now = true

/-! ## The sets -/

section

variable {env : Env} {d : String} {q : Broker} {m : TaskMessage} {note : List Nat} {score : Int}

theorem share_of_marks (h : Marks env d m) : m.share env d = 1 := if_pos h

theorem share_of_not (h : ¬ Marks env d m) : m.share env d = 0 := if_neg h

theorem queued_push_le :
    (q.pushQueue env m note).queued env d ≤ q.queued env d + m.share env d := by
  show (q.queue.add m _ note).size (Marks env d) ≤ _
  rw [ZSet.size_add]
  have := @ZSet.size_rem _ _ (Marks env d) _ m q.queue
  show _ + m.share env d ≤ q.queue.size _ + m.share env d
  omega

theorem queued_pop (h : q.queue.Mem m) :
    (q.queue.rem m).size (Marks env d) + m.share env d = q.queued env d := by
  rw [Broker.queued, ← @ZSet.size_rem _ _ (Marks env d) _ m q.queue, TaskMessage.share]
  simp only [h, true_and]

theorem underway_rem (h : q.processing.Mem m) (hm : Marks env d m) :
    (q.processing.rem m).size (Marks env d) + 1 = q.underway env d := by
  rw [Broker.underway, ← @ZSet.size_rem _ _ (Marks env d) _ m q.processing, if_pos ⟨h, hm⟩]

theorem underway_rem_other (hm : ¬ Marks env d m) :
    (q.processing.rem m).size (Marks env d) = q.underway env d := by
  rw [Broker.underway, ← @ZSet.size_rem _ _ (Marks env d) _ m q.processing,
    if_neg (fun h => hm h.2), Nat.add_zero]

theorem underway_add (hm : Marks env d m) :
    (q.processing.add m score note).size (Marks env d) ≤ q.underway env d + 1 ∧
      0 < (q.processing.add m score note).size (Marks env d) := by
  have := @ZSet.size_rem _ _ (Marks env d) _ m q.processing
  rw [ZSet.size_add, if_pos hm, Broker.underway]
  omega

theorem underway_add_other (hm : ¬ Marks env d m) :
    (q.processing.add m score note).size (Marks env d) = q.underway env d := by
  rw [ZSet.size_add, if_neg hm, Nat.add_zero, underway_rem_other hm]

variable {z : ZSet TaskMessage}

theorem mem_rem_other {m' : TaskMessage} (hm : ¬ Marks env d m)
    (hm' : Marks env d m') (h : z.Mem m') : (z.rem m).Mem m' := by
  obtain ⟨e, he, rfl⟩ := h
  exact ⟨e, ZSet.mem_rem.mpr ⟨he, fun heq => hm (heq ▸ hm')⟩, rfl⟩

theorem mem_add_of_mem {m' : TaskMessage} (h : z.Mem m') : (z.add m score note).Mem m' := by
  obtain ⟨e, he, rfl⟩ := h
  by_cases hm : e.member = m
  · exact ⟨_, ZSet.mem_add.mpr (.inl rfl), hm.symm⟩
  · exact ⟨e, ZSet.mem_add.mpr (.inr ⟨he, hm⟩), rfl⟩

theorem mem_add_self : (z.add m score note).Mem m :=
  ⟨_, ZSet.mem_add.mpr (.inl rfl), rfl⟩

end

/-! ## What a step does to the messages of the marker -/

/-- Nothing is added to the sets but what was in hand, and no entry of the marker
goes. -/
structure Quiet (env : Env) (d : String) (q q' : Broker) (w w' : Worker Unit) : Prop where
  share : q'.queued env d + w'.share env d ≤ q.queued env d + w.share env d
  underway : q'.underway env d = q.underway env d
  kept : ∀ m, Marks env d m → q.processing.Mem m → q'.processing.Mem m
  tending : w'.tending env d ≤ w.tending env d
  present : w.Present env d q.processing → w'.Present env d q'.processing
  dedup : q'.dedup d = q.dedup d
  now : q'.now = q.now

inductive KeyStep (env : Env) (d : String) (o : Op (Option String)) (q q' : Broker)
    (w w' : Worker Unit) : Prop where
  | quiet (h : Quiet env d q q' w w')
  | take (hs : w'.share env d + 1 = w.share env d) (ht : w'.tending env d ≤ w.tending env d + 1)
      (hq : q'.queued env d = q.queued env d)
      (hu : q'.underway env d ≤ q.underway env d + 1 ∧ 0 < q'.underway env d)
      (hk : ∀ m, Marks env d m → q.processing.Mem m → q'.processing.Mem m)
      (hp : w.Present env d q.processing → w'.Present env d q'.processing)
      (hd : q'.dedup d = q.dedup d ∧ q'.now = q.now)
  | remove (hs : w'.share env d ≤ w.share env d + 1)
      (ht : w'.tending env d + 1 ≤ w.tending env d) (hq : q'.queued env d = q.queued env d)
      (hu : w.Present env d q.processing → q'.underway env d + 1 = q.underway env d)
      (hd : q'.dedup d = q.dedup d ∧ q'.now = q.now)
  | lift {m} (ho : o = .command) (hm : Marks env d m) (hw : w.takesBack = some m)
      (hs : w'.share env d ≤ w.share env d + 1) (ht : w'.tending env d = w.tending env d)
      (hq : q'.queued env d = q.queued env d)
      (hu : q.processing.Mem m → q'.underway env d + 1 = q.underway env d)
      (hd : q'.dedup d = q.dedup d ∧ q'.now = q.now)
  | release {j c} {job : Job Unit} (ho : o = .job j (.command c)) (hj : w.jobs[j]? = some job)
      (hr : job.releases env d = true) (hs : w'.share env d + 1 ≤ w.share env d)
      (ht : w'.tending env d ≤ w.tending env d) (hq : q'.queued env d = q.queued env d)
      (hu : q'.underway env d = q.underway env d)
      (hk : ∀ m, Marks env d m → q.processing.Mem m → q'.processing.Mem m)
      (hp : w.Present env d q.processing → w'.Present env d q'.processing)

section

variable {env : Env} {d : String} {q q' : Broker} {w w' : Worker Unit} {o : Op (Option String)}
  {m : TaskMessage} {note : List Nat}

variable {pc : Main}

theorem empty_share {ctxDone : Bool} (h : pc.Empty) : pc.share env d ctxDone = 0 := by
  cases pc <;> first | rfl | cases h

theorem empty_awaited (h : pc.Empty) : pc.awaited = none := by
  cases pc <;> first | rfl | cases h

theorem optionShare_none {m : Option TaskMessage} (h : ∀ m' ∈ m, ¬ Marks env d m') :
    optionShare env d m = 0 := by
  cases m with
  | none => rfl
  | some m => exact share_of_not (h m rfl)

variable (ha : w.alive = true)
include ha

theorem worker_tending : w.tending env d = optionShare env d w.main.awaited +
    (w.jobs.map fun job => optionShare env d job.tended).sum :=
  if_pos ha

theorem tending_with (pc : Main) (jobs : List (Job Unit)) (lost : List Nat) :
    ({ w with main := pc, jobs := jobs, dropped := lost } : Worker Unit).tending env d =
      optionShare env d pc.awaited + (jobs.map fun job => optionShare env d job.tended).sum :=
  worker_tending ha

theorem quiet_goto
    (hs : q'.queued env d + pc.share env d w.ctxDone ≤ q.queued env d + w.main.share env d w.ctxDone)
    (hu : q'.underway env d = q.underway env d)
    (hk : ∀ m, Marks env d m → q.processing.Mem m → q'.processing.Mem m)
    (hw : ∀ m ∈ pc.awaited, ¬ Marks env d m) (hd : q'.dedup d = q.dedup d) (hn : q'.now = q.now) :
    Quiet env d q q' w (w.goto pc) where
  share := by
    show _ + (pc.share env d w.ctxDone + (w.jobs.map (Job.share env d)).sum) ≤
      _ + (w.main.share env d w.ctxDone + (w.jobs.map (Job.share env d)).sum)
    omega
  underway := hu
  kept := hk
  tending := by
    rw [worker_tending ha, Worker.goto, tending_with ha, optionShare_none hw]
    exact Nat.add_le_add_right (Nat.zero_le _) _
  present h := ⟨fun _ m hm hmk => absurd hmk (hw m hm),
    fun ha job hj m hm hmk => hk m hmk (h.jobs ha job hj m hm hmk)⟩
  dedup := hd
  now := hn

theorem quiet_move (hs : pc.share env d w.ctxDone ≤ w.main.share env d w.ctxDone)
    (hw : pc.awaited = none) :
    Quiet env d q q w (w.goto pc) :=
  quiet_goto ha (by omega) rfl (fun _ _ h => h) (by simp [hw]) rfl rfl

theorem quiet_empty (hpc : pc.Empty) : Quiet env d q q w (w.goto pc) := by
  refine quiet_move ha ?_ (empty_awaited hpc)
  rw [empty_share hpc]
  exact Nat.zero_le _

theorem quiet_push (hs : m.share env d = w.main.share env d w.ctxDone) (hpc : pc.Empty) :
    Quiet env d q (q.pushQueue env m note) w (w.goto pc) := by
  refine quiet_goto ha ?_ rfl (fun _ _ h => h) (by simp [empty_awaited hpc]) rfl rfl
  rw [empty_share hpc, ← hs]
  exact queued_push_le

theorem key_lift {due : List (TaskMessage × List Nat)} {final : Bool}
    (hw : w.main = .requeue ((m, note) :: due) final) (hd : w.ctxDone = false ∨ final = true) :
    KeyStep env d .command q { q with processing := q.processing.rem m } w
      (w.goto (.lifted m (note ++ q.processing.noteOf m) due final)) := by
  have hlive := live_iff.mp hd
  by_cases hm : Marks env d m
  · refine .lift rfl hm (by rw [Worker.takesBack, hw]; exact if_neg hlive) ?_ ?_ rfl
      (fun hin => underway_rem hin hm) ⟨rfl, rfl⟩
    · show (if w.ctxDone = true ∧ final = false then 0 else m.share env d) + _ ≤
        w.main.share env d w.ctxDone + _ + 1
      rw [if_neg hlive, share_of_marks hm, Nat.add_comm 1]
      exact Nat.add_le_add_right (Nat.le_add_left _ _) 1
    · rw [worker_tending ha, Worker.goto, tending_with ha, hw]
      rfl
  · refine .quiet (quiet_goto ha ?_ (underway_rem_other hm) (fun _ hk => mem_rem_other hm hk)
      (by simp [Main.awaited]) rfl rfl)
    show _ + (if w.ctxDone = true ∧ final = false then 0 else m.share env d) ≤ _
    rw [share_of_not hm, ite_self]
    exact Nat.le_add_right _ _

theorem key_take {t : Int} (hw : w.main = .taking m note t) :
    KeyStep env d .command q { q with processing := q.processing.add m (env.float64 t) note } w
      (w.goto (.waiting m note)) := by
  by_cases hm : Marks env d m
  · refine .take ?_ ?_ rfl (underway_add hm) (fun _ _ => mem_add_of_mem)
      (fun hp => ⟨fun _ m' hm' _ => ?_, fun ha job hj m' hm' hk => ?_⟩) ⟨rfl, rfl⟩
    · show 0 + (w.jobs.map _).sum + 1 = w.main.share env d w.ctxDone + (w.jobs.map _).sum
      rw [hw, show (Main.taking m note t).share env d w.ctxDone = 1 from share_of_marks hm]
      omega
    · rw [worker_tending ha, Worker.goto, tending_with ha, hw]
      show m.share env d + (w.jobs.map _).sum ≤ 0 + (w.jobs.map _).sum + 1
      rw [share_of_marks hm]
      omega
    · cases hm'
      exact mem_add_self
    · exact mem_add_of_mem (hp.jobs ha job hj m' hm' hk)
  · refine .quiet (quiet_goto ha ?_ (underway_add_other hm) (fun _ _ => mem_add_of_mem) ?_ rfl rfl)
    · exact Nat.add_le_add_left (Nat.zero_le _) _
    · intro m' hm'
      cases hm'
      exact hm

/-- The new job has no share of its own, and tends the message that has waited. -/
theorem quiet_start {H : Handler Unit Unit (Option String)} (hw : w.main = .waiting m note) :
    Quiet env d q { q with starts := q.starts ++ [note] } w
      { w with main := .select, jobs := w.jobs ++ [newJob H w q m note] } := by
  have hjob : ∀ m' ∈ (newJob H w q m note).tended, m' = m := by
    intro m' hm'
    unfold Job.tended newJob at hm'
    split at hm'
    · cases hm'
    · exact (Option.some.inj hm').symm
  refine ⟨?_, rfl, fun _ _ h => h, ?_, fun hp => ⟨?_, fun _ job hj m' hm' hk => ?_⟩, rfl, rfl⟩
  · show _ + (0 + ((w.jobs ++ [newJob H w q m note]).map _).sum) ≤
      _ + (w.main.share env d w.ctxDone + (w.jobs.map _).sum)
    have hnew : (newJob H w q m note).share env d = 0 := by
      unfold Job.share newJob
      split <;> rfl
    rw [hw, List.map_append, List.sum_append, List.map_singleton, List.sum_singleton, hnew]
    exact Nat.le_of_eq (by rfl)
  · rw [worker_tending ha, tending_with ha, hw, List.map_append, List.sum_append,
      List.map_singleton, List.sum_singleton]
    have hle : optionShare env d (newJob H w q m note).tended ≤ m.share env d := by
      cases ht : (newJob H w q m note).tended with
      | none => exact Nat.zero_le _
      | some m' => exact Nat.le_of_eq (by rw [hjob m' ht]; rfl)
    show 0 + ((w.jobs.map _).sum + _) ≤ m.share env d + (w.jobs.map _).sum
    omega
  · intro _ m' hm'
    cases hm'
  · rcases List.mem_append.mp hj with hj | hj
    · exact hp.jobs ha job hj m' hm' hk
    · rw [List.mem_singleton.mp hj] at hm'
      rw [hjob m' hm'] at hk ⊢
      exact hp.awaited ha m (by rw [hw]; rfl) hk

theorem main_key {H : Handler Unit Unit (Option String)} (he : MainEffect H env q w o q' w') :
    KeyStep env d o q q' w w' := by
  cases he with
  | idle _ hpc _ _ => exact .quiet (quiet_empty ha hpc)
  | @pop e hw _ he =>
    refine .quiet (quiet_goto ha ?_ rfl (fun _ _ h => h) (by simp [Main.awaited]) rfl rfl)
    rw [hw]
    exact Nat.le_of_eq (queued_pop ⟨e, he, rfl⟩)
  | notDue hw | due hw | stamp hw _ | restamp hw =>
    exact .quiet (quiet_move ha (by rw [hw]; exact Nat.le_refl _) rfl)
  | lift hw hd => exact key_lift ha hw hd
  | @miss m note due final hw hd hf =>
    refine .quiet (quiet_move ha ?_ rfl)
    show (if w.ctxDone = true ∧ final = false then 0 else m.share env d) ≤ _
    rw [if_pos ⟨hd, hf⟩]
    exact Nat.zero_le _
  | @moved m note due final hw hd =>
    refine .quiet (quiet_push ha ?_ (afterRequeue_empty due final))
    rw [hw]
    exact (if_neg (live_iff.mp hd)).symm
  | pushed hw => exact .quiet (quiet_push ha (by rw [hw]; rfl) trivial)
  | @lost pc note _ hpc _ hw =>
    have h : Quiet env d q q w (w.goto pc) := quiet_empty ha hpc
    exact .quiet { h with present := fun hp => { h.present hp with } }
  | taken hw => exact key_take ha hw
  | started hw => exact .quiet (quiet_start ha hw)
  | cancel =>
    refine .quiet ⟨?_, rfl, fun _ _ h => h, Nat.le_refl _, fun hp => { hp with }, rfl, rfl⟩
    refine Nat.add_le_add_left (Nat.add_le_add_right ?_ _) _
    show w.main.share env d true ≤ w.main.share env d w.ctxDone
    cases w.main <;> simp only [Main.share, Nat.le_refl]
    all_goals
      cases w.ctxDone <;> split <;> simp_all
  | crash =>
    exact .quiet ⟨Nat.le_refl _, rfl, fun _ _ h => h, Nat.zero_le _, fun _ => ⟨nofun, nofun⟩, rfl, rfl⟩

end

section

variable {env : Env} {d : String} {q q' : Broker} {w : Worker Unit} {j : Nat} {job job' : Job Unit}
  {lost : List Nat} {o : Op (Option String)}

theorem share_set (hj : w.jobs[j]? = some job) : (w.withJob j job' lost).share env d +
      job.share env d = w.share env d + job'.share env d := by
  have hsum := sum_map_set (f := Job.share env d) (y := job') hj
  show w.main.share env d w.ctxDone + ((w.jobs.set j job').map (Job.share env d)).sum + _ =
    w.main.share env d w.ctxDone + (w.jobs.map (Job.share env d)).sum + _
  omega

variable {n : Nat}

theorem goto_share_le {pc : JobPc Unit} (h : pc.share env d job.msg ≤ n) :
    (job.goto pc).share env d ≤ n := by
  unfold Job.share
  split
  · exact Nat.zero_le _
  · exact h

theorem release_share_le : job.release.share env d ≤ job.msg.share env d := by
  unfold Job.release
  split
  · exact goto_share_le (Nat.zero_le _)
  · exact goto_share_le (Nat.le_refl _)

theorem release_tended : job.release.tended = none := by
  unfold Job.tended Job.release Job.goto Job.owned
  by_cases hk : job.msg.key = "" <;> simp [hk]

theorem afterRemoval_share_le {executed : Bool} {cause : String} :
    (job.goto (afterRemoval executed { job.msg with lastError := cause })).share env d ≤
      job.msg.share env d := by
  unfold afterRemoval
  split
  · exact goto_share_le (Nat.le_refl _)
  · exact goto_share_le (Nat.le_refl _)

theorem afterRemoval_tended {executed : Bool} {m : TaskMessage} :
    (job.goto (afterRemoval executed m)).tended = none := by
  unfold Job.tended Job.goto afterRemoval Job.owned
  by_cases h : 0 < m.maxAttempts ∧ m.maxAttempts ≤ m.attempt <;> simp [h]

theorem share_done_le (h : job.ctxDone = true) : job.share env d ≤ n := by
  rw [Job.share, if_pos h]
  exact Nat.zero_le n

theorem tended_none (h : job.owned = none) : job.tended = none := by
  unfold Job.tended
  split
  · rfl
  · exact h

theorem returns_tended {pt : Unit} {r : Option String} (hpc : job.pc = .running pt) :
    (job.returns r).tended = job.tended := by
  have hown : job.owned = some job.msg := by rw [Job.owned, hpc]
  unfold Job.tended
  rw [hown]
  cases r <;> rfl

theorem returns_share_le {r : Option String} : (job.returns r).share env d ≤ n := by
  cases r <;> exact goto_share_le (Nat.zero_le n)

theorem share_live (h : job.ctxDone = false) : job.share env d = job.pc.share env d job.msg :=
  if_neg (by simp [h])

section

variable (ha : w.alive = true) (hj : w.jobs[j]? = some job)
include ha hj

theorem tending_set : (w.withJob j job' lost).tending env d +
      optionShare env d job.tended = w.tending env d + optionShare env d job'.tended := by
  have hsum := sum_map_set (f := fun job : Job Unit => optionShare env d job.tended) (y := job') hj
  rw [tending_with ha, worker_tending ha]
  omega

theorem quiet_job (hs : q'.queued env d + job'.share env d ≤ q.queued env d + job.share env d)
    (hu : q'.underway env d = q.underway env d)
    (hk : ∀ m, Marks env d m → q.processing.Mem m → q'.processing.Mem m)
    (ht : ∀ m ∈ job'.tended, m ∈ job.tended) (hd : q'.dedup d = q.dedup d) (hn : q'.now = q.now) :
    Quiet env d q q' w (w.withJob j job' lost) where
  share := by
    have := @share_set env d w j job job' lost hj
    omega
  underway := hu
  kept := hk
  tending := by
    have hle : optionShare env d job'.tended ≤ optionShare env d job.tended := by
      cases h : job'.tended with
      | none => exact Nat.zero_le _
      | some m => exact Nat.le_of_eq (by rw [ht m h])
    have := @tending_set env d w j job job' lost ha hj
    omega
  present h := by
    refine ⟨fun ha m hm hmk => hk m hmk (h.awaited ha m hm hmk), fun ha => ?_⟩
    refine forall_mem_set (fun m hm hmk => ?_) fun job hj m hm hmk => hk m hmk (h.jobs ha job hj m hm hmk)
    exact hk m hmk (h.jobs ha job (List.mem_of_getElem? hj) m (ht m hm) hmk)
  dedup := hd
  now := hn

theorem quiet_job_move (hs : job'.share env d ≤ job.share env d)
    (ht : ∀ m ∈ job'.tended, m ∈ job.tended) :
    Quiet env d q q w (w.withJob j job' lost) :=
  quiet_job ha hj (by omega) rfl (fun _ _ h => h) ht rfl rfl

theorem key_remove (hown : job.tended = some job.msg) (hnext : job'.tended = none)
    (hs : job'.share env d ≤ job.msg.share env d) (hz : job.share env d = 0) :
    KeyStep env d o q { q with processing := q.processing.rem job.msg } w
      (w.withJob j job' lost) := by
  have hshare := @share_set env d w j job job' lost hj
  by_cases hm : Marks env d job.msg
  · refine .remove ?_ ?_ rfl (fun hp => underway_rem ?_ hm) ⟨rfl, rfl⟩
    · rw [share_of_marks hm] at hs
      omega
    · have htend := @tending_set env d w j job job' lost ha hj
      have hone : optionShare env d job.tended = 1 := by
        rw [hown]
        exact share_of_marks hm
      have hzero : optionShare env d job'.tended = 0 := by rw [hnext]; rfl
      omega
    · exact hp.jobs ha job (List.mem_of_getElem? hj) _ hown hm
  · refine .quiet (quiet_job ha hj ?_ (underway_rem_other hm) (fun _ hk => mem_rem_other hm hk)
      (by simp [hnext]) rfl rfl)
    rw [share_of_not hm] at hs
    exact Nat.add_le_add_left (by omega) _

theorem job_key {s s' : Shared Unit} {x : JobOp (Option String)} {dropped : List Nat}
    (he : JobEffect arbitraryHandler env s job x s' job' lost) :
    KeyStep env d (.job j x) s.broker s'.broker w (w.withJob j job' dropped) := by
  have hfree : ∀ {job' : Job Unit}, job'.tended = none → ∀ m ∈ job'.tended, m ∈ job.tended := by
    intro job' h
    rw [h]
    exact forall_mem_none
  cases he with
  | expire => exact .quiet (quiet_job_move ha hj (share_done_le rfl) (hfree (if_pos rfl)))
  | ran _ hs => cases hs
  | succeeded hpc hs | erred hpc hs =>
    cases hs
    exact .quiet (quiet_job ha hj (Nat.add_le_add_left returns_share_le _) rfl (fun _ _ h => h)
      (by simp [returns_tended hpc]) rfl rfl)
  | stamp hpc =>
    refine .quiet (quiet_job_move ha hj ?_ (hfree (tended_none rfl)))
    rw [Job.share, Job.share, hpc]
    exact Nat.le_refl _
  | acked hpc hd =>
    exact key_remove ha hj (by simp [Job.tended, Job.owned, hpc, hd]) release_tended
      release_share_le (by rw [share_live hd, hpc]; rfl)
  | unacked hpc hd => exact .quiet (quiet_job_move ha hj (share_done_le hd) (hfree release_tended))
  | removed hpc hd =>
    exact key_remove ha hj (by simp [Job.tended, Job.owned, hpc, hd]) afterRemoval_tended
      afterRemoval_share_le (by rw [share_live hd, hpc]; rfl)
  | unremoved hpc hd =>
    exact .quiet (quiet_job_move ha hj (share_done_le hd) (hfree afterRemoval_tended))
  | @retried _ _ m hpc hd =>
    refine .quiet (quiet_job ha hj ?_ rfl (fun _ _ h => h) (hfree (tended_none rfl)) rfl rfl)
    rw [share_live hd, hpc]
    exact (Nat.add_le_add_left (goto_share_le (Nat.le_refl 0)) _).trans queued_push_le
  | unretried hpc hd | unreleased hpc hd =>
    exact .quiet (quiet_job_move ha hj (share_done_le hd) (hfree (tended_none rfl)))
  | buried hpc hd =>
    refine .quiet (quiet_job ha hj (Nat.add_le_add_left ?_ _) rfl (fun _ _ h => h)
      (hfree release_tended) rfl rfl)
    rw [share_live hd, hpc]
    exact release_share_le
  | unburied hpc hd =>
    refine .quiet (quiet_job_move ha hj ?_ (hfree release_tended))
    cases hc : job.ctxDone with
    | true => exact share_done_le hc
    | false =>
      rw [share_live hc, hpc]
      exact release_share_le
  | released hpc hd =>
    by_cases hm : Marks env d job.msg
    · have hshare := @share_set env d w j job (job.goto .ended) dropped hj
      have htend := @tending_set env d w j job (job.goto .ended) dropped ha hj
      refine .release rfl hj (by simp [Job.releases, hpc, hd, hm]) ?_ ?_ rfl rfl (fun _ _ h => h)
        fun hp => ⟨hp.awaited, fun ha => ?_⟩
      · have hzero : (job.goto .ended).share env d = 0 :=
          Nat.le_zero.mp (goto_share_le (Nat.le_refl 0))
        have hone : job.share env d = 1 := by
          rw [share_live hd, hpc]
          exact share_of_marks hm
        omega
      · rw [tended_none (rfl : (job.goto .ended).owned = none)] at htend
        exact Nat.le_of_add_right_le htend.le
      · exact forall_mem_set (forall_mem_of_none (tended_none rfl)) (hp.jobs ha)
    · refine .quiet (quiet_job ha hj (Nat.add_le_add_left (goto_share_le (Nat.zero_le _)) _) rfl
        (fun _ _ h => h) (hfree (tended_none rfl)) ?_ rfl)
      exact Function.update_of_ne (Ne.symm hm) _ _

end

theorem worker_key {s s' : Shared Unit} {w' : Worker Unit}
    (h : workerStep arbitraryHandler env s w o = some (s', w')) :
    KeyStep env d o s.broker s'.broker w w' := by
  obtain ⟨ha, ⟨q, he, rfl⟩ | ⟨j, x, job, job', lost, rfl, hj, he, rfl⟩⟩ := worker_effect h
  · exact main_key ha he
  · exact job_key ha hj he

end

/-! ## Steps of the system -/

section

variable {env : Env} {d : String} {q q' : Broker} {ts : List (Proc Unit)} {k : Nat}
  {t : Proc Unit} {w w' : Worker Unit} {o : Op (Option String)} {z z' : ZSet TaskMessage}

theorem Proc.Present.mono (h : t.Present env d z)
    (hk : ∀ m, Marks env d m → z.Mem m → z'.Mem m) : t.Present env d z' := by
  cases t with
  | enqueue pc => trivial
  | worker w =>
    exact ⟨fun ha m hm hmk => hk m hmk (h.awaited ha m hm hmk),
      fun ha job hj m hm hmk => hk m hmk (h.jobs ha job hj m hm hmk)⟩

theorem present_of_zero (h : t.tending env d = 0) : t.Present env d z := by
  cases t with
  | enqueue pc => trivial
  | worker w =>
    have hsum : w.alive = true → optionShare env d w.main.awaited = 0 ∧
        ∀ job ∈ w.jobs, optionShare env d job.tended = 0 := by
      intro ha
      rw [Proc.tending, worker_tending ha, Nat.add_eq_zero_iff] at h
      refine ⟨h.1, fun job hj => ?_⟩
      exact List.sum_eq_zero_iff_forall_eq_nat.mp h.2 _ (List.mem_map_of_mem hj)
    have hnot : ∀ {o : Option TaskMessage} {m}, optionShare env d o = 0 → m ∈ o → ¬ Marks env d m := by
      intro o m ho hm hmk
      rw [Option.mem_def.mp hm, show optionShare env d (some m) = 1 from share_of_marks hmk] at ho
      cases ho
    exact ⟨fun ha m hm hmk => absurd hmk (hnot (hsum ha).1 hm),
      fun ha job hj m hm hmk => absurd hmk (hnot ((hsum ha).2 job hj) hm)⟩

theorem present_of_sum_zero (h : (ts.map (Proc.tending env d)).sum = 0) :
    ∀ t ∈ ts, t.Present env d z := fun _ ht =>
  present_of_zero (List.sum_eq_zero_iff_forall_eq_nat.mp h _ (List.mem_map_of_mem ht))

theorem single_worker (h : Single env d q ts) (ht : ts[k]? = some (.worker w))
    (hs : KeyStep env d o q q' w w')
    (hl : ∀ m, o = .command → w.takesBack = some m → Marks env d m →
      q.processing.Mem m ∧ ∀ t ∈ ts, t.tending env d = 0) :
    Single env d q' (ts.set k (.worker w')) := by
  have hshare : _ + w.share env d = _ + w'.share env d :=
    sum_map_set (f := Proc.share env d) (y := .worker w') ht
  have htend : _ + w.tending env d = _ + w'.tending env d :=
    sum_map_set (f := Proc.tending env d) (y := .worker w') ht
  have hpres : w.Present env d q.processing := h.present _ (List.mem_of_getElem? ht)
  have hone := h.one
  have htended := h.tended
  have hheld : q'.dedup d = q.dedup d ∧ q'.now = q.now → _ → (q'.dedup d).held q'.now = true :=
    fun hd hpos => hd.1 ▸ hd.2 ▸ h.marked hpos
  cases hs with
  | quiet hq =>
    obtain ⟨hqs, hu, hkept, hqt, hp, hd, hn⟩ := hq
    exact ⟨by omega, by omega, forall_mem_set (hp hpres) fun t ht => (h.present t ht).mono hkept,
      fun _ => hheld ⟨hd, hn⟩ (by omega)⟩
  | take hsh hte hq hu hkept hp hd =>
    exact ⟨by omega, by omega, forall_mem_set (hp hpres) fun t ht => (h.present t ht).mono hkept,
      fun _ => hheld hd (by omega)⟩
  | remove hsh hte hq hu hd =>
    have hu := hu hpres
    exact ⟨by omega, by omega, present_of_sum_zero (by omega), fun _ => hheld hd (by omega)⟩
  | @lift m ho hm hw hsh hte hq hu hd =>
    obtain ⟨hin, hidle⟩ := hl m ho hw hm
    have hu := hu hin
    have hzero : (ts.map (Proc.tending env d)).sum = 0 := by
      refine List.sum_eq_zero_iff_forall_eq_nat.mpr fun n hn => ?_
      obtain ⟨t, ht, rfl⟩ := List.mem_map.mp hn
      exact hidle t ht
    exact ⟨by omega, by omega, present_of_sum_zero (by omega), fun _ => hheld hd (by omega)⟩
  | release _ _ _ hsh hte hq hu hkept hp =>
    exact ⟨by omega, by omega, forall_mem_set (hp hpres) fun t ht => (h.present t ht).mono hkept,
      fun hpos => by omega⟩

variable {pc pc' : EnqueuePc}

theorem tending_enqueue (ht : ts[k]? = some (.enqueue pc)) :
    ((ts.set k (.enqueue pc')).map (Proc.tending env d)).sum =
      (ts.map (Proc.tending env d)).sum := by
  have hsum := sum_map_set (f := Proc.tending env d) (y := .enqueue pc') ht
  rwa [Proc.tending, Proc.tending, Nat.add_zero, Nat.add_zero] at hsum

theorem single_enqueue_quiet (h : Single env d q ts) (ht : ts[k]? = some (.enqueue pc))
    (hs : q'.queued env d + pc'.share env d ≤ q.queued env d + pc.share env d)
    (hp : q'.processing = q.processing) (hd : q'.dedup d = q.dedup d) (hn : q'.now = q.now) :
    Single env d q' (ts.set k (.enqueue pc')) := by
  have hshare : _ + pc.share env d = _ + pc'.share env d :=
    sum_map_set (f := Proc.share env d) (y := .enqueue pc') ht
  have htend := @tending_enqueue env d ts k pc pc' ht
  have hu : q'.underway env d = q.underway env d := by rw [Broker.underway, hp]; rfl
  have hone := h.one
  have htended := h.tended
  refine ⟨by omega, by omega, forall_mem_set trivial fun t ht => ?_, fun _ => ?_⟩
  · rw [hp]
    exact h.present t ht
  · rw [hd, hn]
    exact h.marked (by omega)

theorem single_enqueue (h : Single env d q ts)
    (hkey : ∀ m : TaskMessage, m.kind = env.kind → m.key = "" → ¬ Marks env d m)
    (ht : ts[k]? = some (.enqueue pc)) (he : EnqueueEffect env q pc q' pc') :
    Single env d q' (ts.set k (.enqueue pc')) := by
  cases he with
  | built hpc hkind hn =>
    refine single_enqueue_quiet h ht (Nat.add_le_add_left ?_ _) rfl rfl rfl
    rcases hn with rfl | ⟨hempty, rfl⟩
    · exact Nat.zero_le _
    · rw [EnqueuePc.share, share_of_not (hkey _ hkind hempty)]
      exact Nat.zero_le _
  | suppressed _ _ | failed =>
    exact single_enqueue_quiet h ht (Nat.add_le_add_left (Nat.zero_le _) _) rfl rfl rfl
  | @claimed e m keys hpc hset =>
    obtain ⟨hfree, rfl⟩ := taken_inv hset
    by_cases hm : Marks env d m
    · -- the marker was free, so nobody had anything
      rw [show env.dedupKey m = d from hm] at hfree ⊢
      have hnone : q.queued env d + q.underway env d + (ts.map (Proc.share env d)).sum = 0 := by
        by_contra hpos
        rw [h.marked (Nat.pos_of_ne_zero hpos)] at hfree
        cases hfree
      have hshare : _ + pc.share env d = _ + (EnqueuePc.zadd m).share env d :=
        sum_map_set (f := Proc.share env d) (y := .enqueue (.zadd m)) ht
      have htend := @tending_enqueue env d ts k pc (.zadd m) ht
      have hone : (EnqueuePc.zadd m).share env d = 1 := share_of_marks hm
      have htended := h.tended
      refine ⟨?_, ?_, forall_mem_set trivial h.present, fun _ => ?_⟩
      · show q.queued env d + q.underway env d + _ ≤ 1
        omega
      · show _ ≤ q.underway env d
        omega
      · show (Function.update q.dedup d _ d).held q.now = true
        rw [Function.update_self]
        refine starting_held ?_
        omega
    · refine single_enqueue_quiet h ht (Nat.add_le_add_left ?_ _) rfl ?_ rfl
      · rw [EnqueuePc.share, share_of_not hm]
        exact Nat.zero_le _
      · exact Function.update_of_ne (Ne.symm hm) _ _
  | @accepted m hpc =>
    subst hpc
    exact single_enqueue_quiet h ht queued_push_le rfl rfl rfl

theorem single_spawn (h : Single env d q ts) (r : Launch) : Single env d q (ts ++ [r.proc]) := by
  have hnew : (r.proc : Proc Unit).share env d = 0 ∧ (r.proc : Proc Unit).tending env d = 0 := by
    cases r <;> exact ⟨rfl, rfl⟩
  have hshare : ((ts ++ [r.proc]).map (Proc.share env d)).sum = (ts.map (Proc.share env d)).sum := by
    simp [hnew.1]
  refine ⟨?_, ?_, forall_mem_concat (present_of_zero hnew.2) h.present, fun hpos => h.marked ?_⟩
  · rw [hshare]
    exact h.one
  · simpa [hnew.2] using h.tended
  · rwa [hshare] at hpos

theorem single_step {c c' : System} {l : Event} (h : Single env d c.shared.broker c.threads)
    (hkey : ∀ m : TaskMessage, m.kind = env.kind → m.key = "" → ¬ Marks env d m)
    (hl : sparingKey env d c l = true)
    (hs : (queueMachine arbitraryHandler env).step c l = some c') :
    Single env d c'.shared.broker c'.threads := by
  cases Machine.step_effect hs with
  | spawn r => exact single_spawn h r
  | env he =>
    cases he
    refine ⟨h.one, h.tended, h.present, fun hpos => ?_⟩
    have hheld := h.marked hpos
    simpa [sparingKey, hheld] using hl
  | act ht hstep =>
    cases proc_effect hstep with
    | enqueue he => exact single_enqueue h hkey ht (enqueue_effect he)
    | worker hw =>
      refine single_worker h ht (worker_key hw) fun m ho hm hmk => ?_
      subst ho
      simpa [sparingKey, workerOf, ht, hm, hmk] using hl

end

end TokoApi.Queue
