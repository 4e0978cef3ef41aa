import TokoApi.Lib.Float64
import TokoApi.Queue.Dedup

/-!
# Deadlines of the processing set

An entry of the processing set is stamped with the visibility timeout before its
message waits for a slot, and a handler has its soft deadline from its start on.
`requeueExpired` should find nothing to take back as long as nothing crashes, no
command fails and every handler returns in time; but the wait for the slot is
counted by the first deadline and not by the second. Where every handler is started
early enough for its soft deadline to end before the deadline of its entry, and a
message is neither waiting nor done but still in the set when that deadline comes,
no entry is ever taken back, and a task that has succeeded is not started again.
-/
namespace TokoApi.Queue

open Lib.Redis Lib.Threads Lib.Runs

/-! ## Messages that have an entry -/

def Job.isRunning {θ : Type} (job : Job θ) : Bool :=
  match job.pc with
  | .running _ => true
  | _ => false

/-- A message that waits for a slot, or whose handler has returned and whose entry
the job is to remove. -/
def Worker.lingering (w : Worker Unit) : List TaskMessage :=
  w.main.awaited.toList ++ (w.jobs.filter fun job => !job.isRunning).filterMap Job.owned

def Proc.lingering : Proc Unit → List TaskMessage
  | .worker w => w.lingering
  | .enqueue _ => []

/-- The worker waits for a slot with the message, runs its handler, or has still to
remove its entry. -/
def Worker.Keeps (m : TaskMessage) (w : Worker Unit) : Prop :=
  m ∈ w.main.awaited ∨ ∃ job ∈ w.jobs, job.owned = some m

def Proc.Keeps (m : TaskMessage) : Proc Unit → Prop
  | .worker w => w.Keeps m
  | .enqueue _ => False

/-! ## The conditions -/

/-- Nothing crashes, no command is sent on a context that is done, and no handler
runs beyond its soft deadline. -/
def faultless (c : System) : Event → Bool
  | .act _ (.worker .crash) => false
  | .act k (.worker .command) => (workerOf c k).all fun w => !w.ctxDone || w.main.final
  | .act k (.worker (.job j (.command _))) =>
    ((workerOf c k).bind fun w => w.jobs[j]?).all fun job => !job.ctxDone
  | .env n => c.threads.all fun t => t.jobs.all fun job =>
      !job.isRunning || c.shared.broker.now + n ≤ job.deadline
  | _ => true

/-- An entry is put there before its deadline and after that of any handler that
runs on the same message; a handler is started early enough; and no message is
waiting, or done and not yet removed, at the deadline of its entry. -/
def timely (env : Env) (c : System) : Event → Bool
  | .act k (.worker .command) => (workerOf c k).all fun w =>
      match w.main with
      | .taking m _ t => env.float64 c.shared.broker.now < env.float64 t &&
          c.threads.all fun u => u.jobs.all fun job =>
            !job.isRunning || job.msg ≠ m || env.float64 job.deadline < env.float64 t
      | _ => true
  | .act k (.worker .start) => (workerOf c k).all fun w =>
      w.main.awaited.all fun m => c.shared.broker.processing.entries.all fun e =>
        e.member ≠ m || env.float64 (c.shared.broker.now + w.settings.jobTimeout) < e.score
  | .env n => c.threads.all fun t => t.lingering.all fun m =>
      c.shared.broker.processing.entries.all fun e =>
        e.member ≠ m || env.float64 (c.shared.broker.now + n) < e.score
  | _ => true

/-! ## The entries and their deadlines -/

/-- The loop has nothing that `requeueExpired` has listed. -/
def Main.Calm (now : Int) : Main → Prop
  | .scanning t _ => t ≤ now
  | .requeue rest _ => rest = []
  | .lifted _ _ _ _ | .moving _ _ _ _ => False
  | _ => True

def Proc.Calm (now : Int) : Proc Unit → Prop
  | .worker w => w.alive = true ∧ w.main.Calm now
  | .enqueue _ => True

structure Covered (env : Env) (q : Broker) (ts : List (Proc Unit)) : Prop where
  kept : ∀ e ∈ q.processing.entries, ∃ t ∈ ts, t.Keeps e.member
  future : ∀ e ∈ q.processing.entries, env.float64 q.now < e.score
  running : ∀ t ∈ ts, ∀ job ∈ t.jobs, job.isRunning = true →
    ∀ e ∈ q.processing.entries, e.member = job.msg → env.float64 job.deadline < e.score
  calm : ∀ t ∈ ts, t.Calm q.now

/-- What a step of a worker can do to the entries: it adds one that it has stamped,
and removes none but its own. -/
structure EntryStep (env : Env) (o : Op (Option String)) (q q' : Broker) (w w' : Worker Unit) :
    Prop where
  now : q'.now = q.now
  entries : ∀ e ∈ q'.processing.entries,
    w'.Keeps e.member ∨ (e ∈ q.processing.entries ∧ ¬ w.Keeps e.member)
  stamped : ∀ e ∈ q'.processing.entries, e ∈ q.processing.entries ∨
    ∃ note t, o = .command ∧ w.main = .taking e.member note t ∧ e.score = env.float64 t
  jobs : ∀ job ∈ w'.jobs, job.isRunning = true →
    (∃ old ∈ w.jobs, old.isRunning = true ∧ old.msg = job.msg ∧ old.deadline = job.deadline) ∨
    (o = .start ∧ job.msg ∈ w.main.awaited ∧ job.deadline = q.now + w.settings.jobTimeout)
  calm : w'.alive = true ∧ w'.main.Calm q.now

section

variable {env : Env} {q q' : Broker} {w w' : Worker Unit} {o : Op (Option String)}

theorem entry_goto {pc : Main} (hq : q'.processing = q.processing) (hn : q'.now = q.now)
    (hw : ∀ m ∈ w.main.awaited, m ∈ pc.awaited) (ha : w.alive = true) (hc : pc.Calm q.now) :
    EntryStep env o q q' w (w.goto pc) where
  now := hn
  entries e he := by
    rw [hq] at he
    by_cases hk : w.Keeps e.member
    · exact .inl (hk.imp (hw _) id)
    · exact .inr ⟨he, hk⟩
  stamped e he := .inl (hq ▸ he)
  jobs job hj hr := .inl ⟨job, hj, hr, rfl, rfl⟩
  calm := ⟨ha, hc⟩

theorem empty_calm {pc : Main} {now : Int} (h : pc.Empty) (hd : pc.dueList = [])
    (ht : ∀ t final, pc = .scanning t final → t ≤ now) : pc.Calm now := by
  cases pc with
  | scanning t final => exact ht t final rfl
  | requeue rest final => exact hd
  | _ => trivial

theorem main_entry {H : Handler Unit Unit (Option String)} (he : MainEffect H env q w o q' w')
    (hmono : ∀ {m n : Int}, m ≤ n → env.float64 m ≤ env.float64 n) (ha : w.alive = true)
    (hc : w.main.Calm q.now)
    (hfuture : ∀ e ∈ q.processing.entries, env.float64 q.now < e.score)
    (hcrash : o ≠ .crash) (hlive : o = .command → w.ctxDone = false ∨ w.main.final = true) :
    EntryStep env o q q' w w' := by
  cases he with
  | @idle _ pc hw hpc ht hd =>
    refine entry_goto rfl rfl (by simp [empty_awaited hw]) ha (empty_calm hpc ?_ fun t final h => ?_)
    · -- a scan that came to its end would have listed an entry of the past
      refine List.eq_nil_iff_forall_not_mem.mpr fun p hp => ?_
      obtain ⟨e, he, rfl, t, final, hscan, hscore⟩ := hd p hp
      rw [hscan] at hc
      exact absurd (hscore.trans (hmono hc)) (not_le.mpr (hfuture e he))
    · exact (ht t final h).le
  | pop hw _ _ | notDue hw | due hw | stamp hw _ | pushed hw =>
    exact entry_goto rfl rfl (by simp [hw, Main.awaited]) ha trivial
  | lift hw _ | miss hw _ _ =>
    rw [hw] at hc
    cases hc
  | restamp hw | moved hw _ =>
    rw [hw] at hc
    exact hc.elim
  | lost hdone _ _ _ =>
    have := hlive rfl
    rw [hdone.1, hdone.2] at this
    simp at this
  | @taken m note t hw =>
    refine ⟨rfl, fun e he => ?_, fun e he => ?_, fun job hj hr => .inl ⟨job, hj, hr, rfl, rfl⟩,
      ha, trivial⟩
    · rcases ZSet.mem_add.mp he with rfl | ⟨he, _⟩
      · exact .inl (.inl rfl)
      · by_cases hk : ∃ job ∈ w.jobs, job.owned = some e.member
        · exact .inl (.inr hk)
        · refine .inr ⟨he, fun h => ?_⟩
          rcases h with h | h
          · simp [hw, Main.awaited] at h
          · exact hk h
    · rcases ZSet.mem_add.mp he with rfl | ⟨he, _⟩
      · exact .inr ⟨note, t, rfl, hw, rfl⟩
      · exact .inl he
  | @started m note hw =>
    have hown : (newJob H w q m note).owned = some m := rfl
    refine ⟨rfl, fun e he => ?_, fun e he => .inl he, forall_mem_concat (fun _ => ?_) fun job hj hr =>
      .inl ⟨job, hj, hr, rfl, rfl⟩, ha, trivial⟩
    · by_cases hk : w.Keeps e.member
      · refine .inl (.inr ?_)
        rcases hk with hk | ⟨job, hj, ho⟩
        · simp only [hw, Main.awaited, Option.mem_def, Option.some.injEq] at hk
          exact ⟨_, List.mem_append_right _ List.mem_cons_self, hk ▸ hown⟩
        · exact ⟨job, List.mem_append_left _ hj, ho⟩
      · exact .inr ⟨he, hk⟩
    · exact .inr ⟨rfl, by simp [hw, Main.awaited, newJob], rfl⟩
  | cancel =>
    have h : EntryStep env .cancel q q w (w.goto w.main) := entry_goto rfl rfl (fun _ => id) ha hc
    exact { h with }
  | crash => exact absurd rfl hcrash

end

section

variable {env : Env} {s s' : Shared Unit} {w : Worker Unit} {j : Nat} {job job' : Job Unit}
  {x : JobOp (Option String)} {lost dropped : List Nat}

theorem entry_set {q q' : Broker} (hj : w.jobs[j]? = some job)
    (hn : q'.now = q.now) (ha : w.alive = true) (hc : w.main.Calm q.now)
    (hq : ∀ e ∈ q'.processing.entries, e ∈ q.processing.entries ∧
      (job.owned = some e.member → job'.owned = some e.member))
    (hrun : job'.isRunning = true →
      job.isRunning = true ∧ job'.msg = job.msg ∧ job'.deadline = job.deadline) :
    EntryStep env (.job j x) q q' w (w.withJob j job' dropped) where
  now := hn
  entries e he := by
    obtain ⟨hin, hown⟩ := hq e he
    by_cases hk : w.Keeps e.member
    · exact .inl (hk.imp id (exists_mem_set hj hown))
    · exact .inr ⟨hin, hk⟩
  stamped e he := .inl (hq e he).1
  jobs := by
    refine forall_mem_set (fun hr => ?_) fun old hold hr => .inl ⟨old, hold, hr, rfl, rfl⟩
    obtain ⟨hr, hm, hd⟩ := hrun hr
    exact .inl ⟨job, List.mem_of_getElem? hj, hr, hm.symm, hd.symm⟩
  calm := ⟨ha, hc⟩

theorem running_inv (h : job.isRunning = true) : ∃ pt, job.pc = .running pt := by
  unfold Job.isRunning at h
  split at h
  · next pt hpc => exact ⟨pt, hpc⟩
  · cases h

theorem release_not_running : job.release.isRunning = false := by
  unfold Job.release
  split <;> rfl

theorem afterRemoval_not_running {executed : Bool} {m : TaskMessage} :
    (job.goto (afterRemoval executed m)).isRunning = false := by
  unfold afterRemoval
  split <;> rfl

theorem job_entry (he : JobEffect arbitraryHandler env s job x s' job' lost)
    (hj : w.jobs[j]? = some job) (ha : w.alive = true) (hc : w.main.Calm s.broker.now)
    (hlive : ∀ r, x = .command r → job.ctxDone = false) :
    EntryStep env (.job j x) s.broker s'.broker w (w.withJob j job' dropped) := by
  -- the entries stay, and an entry of the job's is still its own
  have hkeep : ∀ {q' : Broker} {job' : Job Unit}, job.owned = none ∨ job'.owned = job.owned →
      (job'.isRunning = true → job.isRunning = true ∧ job'.msg = job.msg ∧
        job'.deadline = job.deadline) →
      q'.processing = s.broker.processing → q'.now = s.broker.now →
      EntryStep env (.job j x) s.broker q' w (w.withJob j job' dropped) := by
    intro q' job' ho hr hq hn
    refine entry_set hj hn ha hc (fun e he => ⟨hq ▸ he, ?_⟩) hr
    rcases ho with ho | ho <;> simp [ho]
  have hremove : ∀ {job' : Job Unit}, job.owned = some job.msg → job'.isRunning = false →
      EntryStep env (.job j x) s.broker
        { s.broker with processing := s.broker.processing.rem job.msg } w
        (w.withJob j job' dropped) := by
    intro job' ho hr
    refine entry_set hj rfl ha hc (fun e he => ?_) (by simp [hr])
    obtain ⟨hin, hne⟩ := ZSet.mem_rem.mp he
    refine ⟨hin, fun h => ?_⟩
    rw [ho] at h
    exact absurd (Option.some.inj h).symm hne
  have hdone : ∀ {r : Call}, x = .command r → job.ctxDone = true → False := by
    intro r hx hd
    have := hlive r hx
    rw [hd] at this
    cases this
  cases he with
  | expire => exact hkeep (.inr rfl) (fun h => ⟨h, rfl, rfl⟩) rfl rfl
  | ran _ hs => cases hs
  | succeeded hpc hs | erred hpc hs =>
    cases hs
    exact hkeep (.inr (by simp [Job.owned, Job.returns, hpc])) (by rintro ⟨⟩) rfl rfl
  | stamp hpc | retried hpc _ | released hpc _ =>
    exact hkeep (.inl (by rw [Job.owned, hpc])) (by rintro ⟨⟩) rfl rfl
  | acked hpc _ => exact hremove (by rw [Job.owned, hpc]) release_not_running
  | removed hpc _ => exact hremove (by rw [Job.owned, hpc]) afterRemoval_not_running
  | buried hpc _ | unburied hpc _ =>
    exact hkeep (.inl (by rw [Job.owned, hpc])) (by simp [release_not_running]) rfl rfl
  | unacked _ hd | unremoved _ hd | unretried _ hd | unreleased _ hd => exact (hdone rfl hd).elim

end

section

variable {env : Env} {q q' : Broker} {ts : List (Proc Unit)} {k : Nat} {w w' : Worker Unit}
  {o : Op (Option String)}

theorem covered_worker (h : Covered env q ts) (ht : ts[k]? = some (.worker w))
    (hs : EntryStep env o q q' w w')
    (htake : ∀ m note t, o = .command → w.main = .taking m note t →
      env.float64 q.now < env.float64 t ∧ ∀ u ∈ ts, ∀ job ∈ u.jobs, job.isRunning = true →
        job.msg = m → env.float64 job.deadline < env.float64 t)
    (hstart : o = .start → ∀ m ∈ w.main.awaited, ∀ e ∈ q.processing.entries, e.member = m →
      env.float64 (q.now + w.settings.jobTimeout) < e.score) :
    Covered env q' (ts.set k (.worker w')) := by
  have hmem := List.mem_of_getElem? ht
  -- a handler that ran before ends before the deadline of every entry of its message
  have hrunning : ∀ u ∈ ts, ∀ job ∈ u.jobs, job.isRunning = true →
      ∀ e ∈ q'.processing.entries, e.member = job.msg → env.float64 job.deadline < e.score := by
    intro u hu job hj hr e he hm
    rcases hs.stamped e he with hin | ⟨note, t, ho, hw, hscore⟩
    · exact h.running u hu job hj hr e hin hm
    · rw [hscore]
      exact (htake _ note t ho hw).2 u hu job hj hr hm.symm
  refine ⟨fun e he => ?_, fun e he => ?_, forall_mem_set ?_ hrunning, ?_⟩
  · rcases hs.entries e he with hk | ⟨hin, hk⟩
    · exact (exists_mem_set_iff_others ht).mpr (.inl hk)
    · exact exists_mem_set ht (absurd · hk) (h.kept e hin)
  · rw [hs.now]
    rcases hs.stamped e he with hin | ⟨note, t, ho, hw, hscore⟩
    · exact h.future e hin
    · rw [hscore]
      exact (htake _ note t ho hw).1
  · intro job hj hr e he hm
    rcases hs.jobs job hj hr with ⟨old, hold, hr, hmsg, hdl⟩ | ⟨ho, haw, hdl⟩
    · rw [← hdl]
      exact hrunning _ hmem old hold hr e he (hm.trans hmsg.symm)
    · rcases hs.stamped e he with hin | ⟨_, _, ho', _, _⟩
      · rw [hdl]
        exact hstart ho _ haw e hin hm
      · rw [ho] at ho'
        cases ho'
  · rw [hs.now]
    exact forall_mem_set hs.calm h.calm

theorem Main.Calm.mono {pc : Main} {now later : Int} (h : pc.Calm now) (hle : now ≤ later) :
    pc.Calm later := by
  cases pc with
  | scanning t final => exact le_trans h hle
  | _ => exact h

theorem covered_tick {n : Nat} (hmono : ∀ {m n : Int}, m ≤ n → env.float64 m ≤ env.float64 n)
    (h : Covered env q ts)
    (hrun : ∀ t ∈ ts, ∀ job ∈ t.jobs, job.isRunning = true → q.now + n ≤ job.deadline)
    (hlinger : ∀ t ∈ ts, ∀ m ∈ t.lingering, ∀ e ∈ q.processing.entries, e.member = m →
      env.float64 (q.now + n) < e.score) :
    Covered env { q with now := q.now + n } ts := by
  refine ⟨h.kept, fun e he => ?_, h.running, fun t ht => ?_⟩
  · obtain ⟨t, ht, hkeep⟩ := h.kept e he
    cases t with
    | enqueue pc => exact hkeep.elim
    | worker w =>
      rcases hkeep with haw | ⟨job, hj, ho⟩
      · refine hlinger _ ht e.member ?_ e he rfl
        exact List.mem_append_left _ (Option.mem_toList.mpr haw)
      · by_cases hr : job.isRunning = true
        · have hm : e.member = job.msg := by
            obtain ⟨pt, hpc⟩ := running_inv hr
            rw [Job.owned, hpc] at ho
            exact (Option.some.inj ho).symm
          exact (hmono (hrun _ ht job hj hr)).trans_lt (h.running _ ht job hj hr e he hm)
        · refine hlinger _ ht e.member (List.mem_append_right _ ?_) e he rfl
          exact List.mem_filterMap.mpr ⟨job, List.mem_filter.mpr ⟨hj, by simpa using hr⟩, ho⟩
  · have hc := h.calm t ht
    cases t with
    | enqueue pc => trivial
    | worker w => exact ⟨hc.1, hc.2.mono (by show q.now ≤ q.now + n; omega)⟩

theorem covered_enqueue {pc pc' : EnqueuePc} (h : Covered env q ts)
    (ht : ts[k]? = some (.enqueue pc)) (hp : q'.processing = q.processing) (hn : q'.now = q.now) :
    Covered env q' (ts.set k (.enqueue pc')) := by
  refine ⟨fun e he => ?_, fun e he => ?_, ?_, ?_⟩
  · exact exists_mem_set ht False.elim (h.kept e (hp ▸ he))
  · rw [hn]
    exact h.future e (hp ▸ he)
  · rw [hp]
    exact forall_mem_set (by simp [Proc.jobs]) h.running
  · rw [hn]
    exact forall_mem_set trivial h.calm

theorem covered_spawn (h : Covered env q ts) (r : Launch) : Covered env q (ts ++ [r.proc]) := by
  refine ⟨fun e he => ?_, h.future, forall_mem_concat ?_ h.running, forall_mem_concat ?_ h.calm⟩
  · obtain ⟨t, ht, hk⟩ := h.kept e he
    exact ⟨t, List.mem_append_left _ ht, hk⟩
  · cases r <;> simp [Launch.proc, Proc.jobs]
  · cases r with
    | enqueue e t => trivial
    | worker settings => exact ⟨rfl, trivial⟩

end

/-! ## One execution at a time -/

section

variable (i : Nat)

/-- The job has not come to an end that its task may not be started again after. -/
def Job.pends (job : Job Unit) : Bool :=
  match job.pc with
  | .running _ | .failing _ | .failed _ _ | .retrying _ _ => true
  | _ => false

def Job.pending (job : Job Unit) : Nat := if job.pends = true ∧ i ∈ job.note then 1 else 0

def Worker.pending (w : Worker Unit) : Nat := w.main.load i + (w.jobs.map (Job.pending i)).sum

def Proc.pending : Proc Unit → Nat
  | .worker w => w.pending i
  | .enqueue _ => 0

end

/-- The job's place in the log, and what its result says: without an error, its task
has not been started again. -/
structure Job.Last (q : Broker) (job : Job Unit) : Prop where
  start : job.start < q.starts.length
  running : job.isRunning = true ↔ job.result = none
  done : job.result = some none → ∀ i ∈ job.note, i ∈ q.handled
  last : (job.result = none ∨ job.result = some none) → ∀ i ∈ job.note, ∀ n note,
    job.start < n → q.starts[n]? = some note → i ∉ note

/-- The places from which a task can still be started. -/
def placed (i : Nat) (q : Broker) (ts : List (Proc Unit)) : Nat :=
  q.queue.copies i + (ts.map (Proc.pending i)).sum

structure Once (q : Broker) (ts : List (Proc Unit)) : Prop where
  one : ∀ i, placed i q ts ≤ 1
  fresh : ∀ i, q.accepted.length ≤ i → placed i q ts = 0
  gone : ∀ i ∈ q.handled, i < q.accepted.length ∧ placed i q ts = 0
  jobs : ∀ t ∈ ts, ∀ job ∈ t.jobs, job.Last q

/-- What a step of a worker does to the places of a task: none is added, and where a
handler succeeds or is started it had the task. -/
structure CountStep (q q' : Broker) (w w' : Worker Unit) : Prop where
  one : ∀ i, q'.queue.copies i + w'.pending i ≤ q.queue.copies i + w.pending i
  handled : q.handled ⊆ q'.handled ∧ ∀ i ∈ q'.handled, i ∈ q.handled ∨
    q'.queue.copies i + w'.pending i < q.queue.copies i + w.pending i
  starts : q'.starts = q.starts ∨
    ∃ note, q'.starts = q.starts ++ [note] ∧ ∀ i ∈ note, 0 < w.main.load i
  jobs : ∀ job ∈ w'.jobs, job ∈ w.jobs ∨ ((∀ old ∈ w.jobs, old.Last q) → job.Last q')

section

variable {env : Env} {q q' : Broker} {w w' : Worker Unit} {o : Op (Option String)} {i : Nat}

theorem count_goto {pc : Main} {z : ZSet TaskMessage}
    (h : ∀ i, z.copies i + pc.load i ≤ q.queue.copies i + w.main.load i) (p : ZSet TaskMessage) :
    CountStep q { q with queue := z, processing := p } w (w.goto pc) where
  one i := by
    have := h i
    show z.copies i + (pc.load i + (w.jobs.map (Job.pending i)).sum) ≤
      q.queue.copies i + (w.main.load i + (w.jobs.map (Job.pending i)).sum)
    omega
  handled := ⟨fun _ => id, fun i hi => .inl hi⟩
  starts := .inl rfl
  jobs job hj := .inl hj

theorem main_count {H : Handler Unit Unit (Option String)} (he : MainEffect H env q w o q' w')
    (hc : w.main.Calm q.now) (hcrash : o ≠ .crash)
    (hlive : o = .command → w.ctxDone = false ∨ w.main.final = true) : CountStep q q' w w' := by
  cases he with
  | idle hw hpc _ _ =>
    exact count_goto (fun i => by rw [main_load_none hpc.carried]; exact Nat.le_add_right _ _) _
  | @pop e hw _ he =>
    refine count_goto (fun i => ?_) _
    have hcopies := @ZSet.copies_rem _ _ e.member q.queue i
    rw [ZSet.noteOf_eq he] at hcopies
    rw [main_load_some rfl]
    omega
  | @notDue m note hw | @due m note hw | @stamp m note t hw _ | @taken m note t hw =>
    exact count_goto (fun i => by rw [hw]; exact le_rfl) _
  | @pushed m note hw =>
    refine count_goto (fun i => ?_) _
    have hload : w.main.load i = if i ∈ note then 1 else 0 := main_load_some (by rw [hw]; rfl)
    rw [hload]
    exact ZSet.copies_add_le
  | lift hw _ | miss hw _ _ =>
    rw [hw] at hc
    cases hc
  | restamp hw | moved hw _ =>
    rw [hw] at hc
    exact hc.elim
  | lost hdone _ _ _ =>
    have := hlive rfl
    rw [hdone.1, hdone.2] at this
    simp at this
  | @started m note hw =>
    have hload : ∀ i, w.main.load i = if i ∈ note then 1 else 0 :=
      fun i => main_load_some (by rw [hw]; rfl)
    refine ⟨fun i => ?_, ⟨fun _ => id, fun i hi => .inl hi⟩,
      .inr ⟨note, rfl, fun i hi => ?_⟩, forall_mem_concat ?_ fun job hj => .inl hj⟩
    · have hnew : (newJob H w q m note).pending i = if i ∈ note then 1 else 0 := by
        simp [Job.pending, Job.pends, newJob]
      show q.queue.copies i + (0 + ((w.jobs ++ [newJob H w q m note]).map (Job.pending i)).sum) ≤
        q.queue.copies i + (w.main.load i + (w.jobs.map (Job.pending i)).sum)
      rw [hload, List.map_append, List.sum_append, List.map_singleton, List.sum_singleton, hnew]
      omega
    · rw [hload, if_pos hi]
      exact Nat.one_pos
    · refine .inr fun _ => ⟨by simp [newJob], by simp [Job.isRunning, newJob], by rintro ⟨⟩, ?_⟩
      intro _ i hi n note' hn hs
      have hlt := (List.getElem?_eq_some_iff.mp hs).1
      simp only [newJob, List.length_append, List.length_singleton] at hn hlt
      omega
  | cancel =>
    exact ⟨fun i => Nat.le_refl _, ⟨fun _ => id, fun i hi => .inl hi⟩, .inl rfl,
      fun job hj => .inl hj⟩
  | crash => exact absurd rfl hcrash

variable {s s' : Shared Unit} {j : Nat} {job job' : Job Unit} {x : JobOp (Option String)}
  {lost dropped : List Nat}

theorem count_set (hj : w.jobs[j]? = some job)
    (hone : ∀ i, q'.queue.copies i + job'.pending i ≤ q.queue.copies i + job.pending i)
    (hh : q.handled ⊆ q'.handled ∧ ∀ i ∈ q'.handled, i ∈ q.handled ∨
      q'.queue.copies i + job'.pending i < q.queue.copies i + job.pending i)
    (hs : q'.starts = q.starts) (hl : job.Last q → job'.Last q') :
    CountStep q q' w (w.withJob j job' dropped) := by
  have hsum : ∀ i, _ := fun i => sum_map_set (f := Job.pending i) (y := job') hj
  have hpending : ∀ i, (w.withJob j job' dropped).pending i
      + job.pending i = w.pending i + job'.pending i := by
    intro i
    have := hsum i
    simp only [Worker.pending]
    omega
  refine ⟨fun i => ?_, ⟨hh.1, fun i hi => (hh.2 i hi).imp id fun hlt => ?_⟩, .inl hs,
    forall_mem_set (.inr fun h => hl (h job (List.mem_of_getElem? hj))) fun old hold => .inl hold⟩
  · have := hpending i
    have := hone i
    omega
  · have := hpending i
    omega

theorem Job.Last.moved (hl : job.Last q) (hr : job.isRunning = false) (hr' : job'.isRunning = false)
    (hres : job'.result = job.result) (hnote : job'.note = job.note) (hstart : job'.start = job.start)
    (hh : q'.handled = q.handled) (hs : q'.starts = q.starts) : job'.Last q' := by
  have hne : job.result ≠ none := fun h => by
    rw [hl.running.mpr h] at hr
    cases hr
  refine ⟨?_, ?_, ?_, ?_⟩
  · rw [hs, hstart]
    exact hl.start
  · rw [hr', hres]
    exact ⟨nofun, fun h => absurd h hne⟩
  · rw [hres, hnote, hh]
    exact hl.done
  · rw [hres, hnote, hstart, hs]
    exact hl.last

theorem pending_of_pends (h : job.pends = true) : job.pending i = if i ∈ job.note then 1 else 0 := by
  simp [Job.pending, h]

theorem pending_of_not (h : job.pends = false) : job.pending i = 0 := by
  simp [Job.pending, h]

theorem pending_le (h : job.pends = true) (hn : job'.note = job.note) :
    job'.pending i ≤ job.pending i := by
  rw [pending_of_pends h, Job.pending, hn]
  split
  · next hp => rw [if_pos hp.2]
  · exact Nat.zero_le _

theorem release_pends : job.release.pends = false := by
  unfold Job.release
  split <;> rfl

theorem job_count (he : JobEffect arbitraryHandler env s job x s' job' lost)
    (hj : w.jobs[j]? = some job) :
    CountStep s.broker s'.broker w (w.withJob j job' dropped) := by
  -- the handler has returned, and the queue stays
  have hquiet : ∀ {q' : Broker} {pc : JobPc Unit}, job.isRunning = false →
      (∀ i, (job.goto pc).pending i ≤ job.pending i) → (job.goto pc).isRunning = false →
      q'.queue = s.broker.queue → q'.handled = s.broker.handled → q'.starts = s.broker.starts →
      CountStep s.broker q' w (w.withJob j (job.goto pc) dropped) := by
    intro q' pc hr hle hr' hq hh hs
    refine count_set hj (fun i => ?_) ⟨by rw [hh]; exact fun _ => id, fun i hi => .inl (hh ▸ hi)⟩ hs
      fun hl => hl.moved hr hr' rfl rfl rfl hh hs
    rw [hq]
    exact Nat.add_le_add_left (hle i) _
  have hrelease : ∀ {q' : Broker}, job.isRunning = false →
      q'.queue = s.broker.queue → q'.handled = s.broker.handled → q'.starts = s.broker.starts →
      CountStep s.broker q' w (w.withJob j job.release dropped) := by
    intro q' hr
    refine hquiet hr (fun i => ?_) release_not_running
    exact (pending_of_not release_pends).trans_le (Nat.zero_le _)
  -- the job had the task and has it at most
  have hpends : ∀ {pc : JobPc Unit}, job.pends = true →
      ∀ i, (job.goto pc).pending i ≤ job.pending i := fun hp i => pending_le hp rfl
  cases he with
  | expire =>
    exact count_set hj (fun i => le_rfl) ⟨fun _ => id, fun i hi => .inl hi⟩ rfl fun hl => { hl with }
  | ran _ hs => cases hs
  | @succeeded _ _ _ _ hpc hs =>
    cases hs
    have hold : ∀ i, job.pending i = if i ∈ job.note then 1 else 0 :=
      fun i => pending_of_pends (by rw [Job.pends, hpc])
    have hnew : ∀ i, (job.returns none).pending i = 0 := fun i => pending_of_not rfl
    have hrun : job.isRunning = true := by rw [Job.isRunning, hpc]
    refine count_set hj (fun i => ?_) ⟨List.subset_append_left _ _, fun i hi => ?_⟩ rfl fun hl => ?_
    · rw [hnew]
      exact Nat.add_le_add_left (Nat.zero_le _) _
    · refine (List.mem_append.mp hi).imp id fun hi => ?_
      rw [hnew, hold, if_pos hi]
      exact Nat.lt_succ_self _
    · exact ⟨hl.start, ⟨nofun, nofun⟩, fun _ i hi => List.mem_append_right _ hi,
        fun _ => hl.last (.inl (hl.running.mp hrun))⟩
  | @erred _ _ _ _ err hpc hs =>
    cases hs
    have hle : ∀ i, (job.returns (some err)).pending i ≤ job.pending i :=
      fun i => pending_le (by rw [Job.pends, hpc]) rfl
    refine count_set hj (fun i => Nat.add_le_add_left (hle i) _)
      ⟨fun _ => id, fun i hi => .inl hi⟩ rfl fun hl => ?_
    exact ⟨hl.start, ⟨nofun, nofun⟩, nofun, fun h => by simp [Job.returns] at h⟩
  | stamp hpc | unretried hpc _ =>
    exact hquiet (by rw [Job.isRunning, hpc]) (hpends (by rw [Job.pends, hpc])) rfl rfl rfl rfl
  | acked hpc _ | unacked hpc _ | buried hpc _ | unburied hpc _ =>
    exact hrelease (by rw [Job.isRunning, hpc]) rfl rfl rfl
  | removed hpc _ | unremoved hpc _ =>
    exact hquiet (by rw [Job.isRunning, hpc]) (hpends (by rw [Job.pends, hpc]))
      afterRemoval_not_running rfl rfl rfl
  | @retried _ _ m hpc _ =>
    have hold : ∀ i, job.pending i = if i ∈ job.note then 1 else 0 :=
      fun i => pending_of_pends (by rw [Job.pends, hpc])
    refine count_set hj (fun i => ?_) ⟨fun _ => id, fun i hi => .inl hi⟩ rfl
      fun hl => hl.moved (by rw [Job.isRunning, hpc]) rfl rfl rfl rfl rfl rfl
    rw [hold, pending_of_not rfl]
    exact ZSet.copies_add_le
  | released hpc _ | unreleased hpc _ =>
    exact hquiet (by rw [Job.isRunning, hpc]) (fun i => by rw [pending_of_not rfl]; exact Nat.zero_le _)
      rfl rfl rfl rfl

end

section

variable {env : Env} {q q' : Broker} {ts : List (Proc Unit)} {k : Nat} {w w' : Worker Unit}
  {i : Nat}

theorem load_add_pending_le {t : Proc Unit} {job : Job Unit} (ht : ts[k]? = some (.worker w))
    (htm : t ∈ ts) (hj : job ∈ t.jobs) :
    w.main.load i + job.pending i ≤ (ts.map (Proc.pending i)).sum := by
  have hperm := cons_eraseIdx_perm ht
  have hsum : _ = (ts.map (Proc.pending i)).sum := (hperm.map (Proc.pending i)).sum_eq
  have hle : ∀ {u : Worker Unit}, job ∈ u.jobs → job.pending i ≤ (u.jobs.map (Job.pending i)).sum :=
    fun h => List.le_sum_of_mem (List.mem_map_of_mem h)
  rw [← hsum, List.map_cons, List.sum_cons]
  change _ ≤ w.main.load i + (w.jobs.map (Job.pending i)).sum + _
  rcases List.mem_cons.mp (hperm.mem_iff.mpr htm) with rfl | hin
  · have := hle hj
    omega
  · have hpart : t.pending i ≤ ((ts.eraseIdx k).map (Proc.pending i)).sum :=
      List.le_sum_of_mem (List.mem_map_of_mem hin)
    cases t with
    | enqueue pc => cases hj
    | worker u =>
      have := hle hj
      change u.main.load i + _ ≤ _ at hpart
      omega

theorem once_worker (h : Once q ts) (ht : ts[k]? = some (.worker w)) (hs : CountStep q q' w w')
    (hacc : q'.accepted = q.accepted) : Once q' (ts.set k (.worker w')) := by
  have hsum : ∀ i, _ + w.pending i = _ + w'.pending i :=
    fun i => sum_map_set (f := Proc.pending i) (y := .worker w') ht
  have hplaced : ∀ i, placed i q' (ts.set k (.worker w')) + (q.queue.copies i + w.pending i) =
      placed i q ts + (q'.queue.copies i + w'.pending i) := by
    intro i
    have := hsum i
    unfold placed
    omega
  have hle : ∀ i, placed i q' (ts.set k (.worker w')) ≤ placed i q ts := by
    intro i
    have := hplaced i
    have := hs.one i
    omega
  -- what is started was in hand, so no job of another start had it
  have hlast : ∀ t ∈ ts, ∀ job ∈ t.jobs, job.Last q' := by
    intro t htm job hj
    have hl := h.jobs t htm job hj
    refine ⟨?_, hl.running, fun hr i hi => hs.handled.1 (hl.done hr i hi), fun hr i hi n note hn hnote => ?_⟩
    · rcases hs.starts with heq | ⟨note, heq, _⟩
      · rw [heq]
        exact hl.start
      · rw [heq, List.length_append]
        exact hl.start.trans_le (Nat.le_add_right _ _)
    · rcases hs.starts with heq | ⟨new, heq, hnew⟩
      · exact hl.last hr i hi n note hn (heq ▸ hnote)
      · rw [heq] at hnote
        by_cases hlt : n < q.starts.length
        · rw [List.getElem?_append_left hlt] at hnote
          exact hl.last hr i hi n note hn hnote
        · rw [List.getElem?_append_right (by omega)] at hnote
          obtain rfl := List.mem_singleton.mp (List.mem_of_getElem? hnote)
          intro hin
          have hload := hnew i hin
          have hboth := @load_add_pending_le ts k w i t job ht htm hj
          rcases hr with hr | hr
          · have hpend : job.pending i = 1 := by
              obtain ⟨pt, hpc⟩ := running_inv (hl.running.mpr hr)
              rw [pending_of_pends (by rw [Job.pends, hpc]), if_pos hi]
            have hone := h.one i
            unfold placed at hone
            omega
          · have hgone := (h.gone i (hl.done hr i hi)).2
            unfold placed at hgone
            omega
  refine ⟨fun i => (hle i).trans (h.one i), fun i hi => ?_, fun i hi => ?_, ?_⟩
  · rw [hacc] at hi
    exact Nat.le_zero.mp ((hle i).trans_eq (h.fresh i hi))
  · rw [hacc]
    rcases hs.handled.2 i hi with hi | hlt
    · exact ⟨(h.gone i hi).1, Nat.le_zero.mp ((hle i).trans_eq (h.gone i hi).2)⟩
    · have hp := hplaced i
      have hone := h.one i
      refine ⟨?_, by omega⟩
      by_contra hge
      have := h.fresh i (Nat.le_of_not_lt hge)
      omega
  · refine forall_mem_set (fun job hj => ?_) hlast
    have hmem := List.mem_of_getElem? ht
    rcases hs.jobs job hj with hj | hl
    · exact hlast _ hmem job hj
    · exact hl (h.jobs _ hmem)

theorem once_enqueue {pc pc' : EnqueuePc} (h : Once q ts) (ht : ts[k]? = some (.enqueue pc))
    (he : EnqueueEffect env q pc q' pc') : Once q' (ts.set k (.enqueue pc')) := by
  have hpending : ∀ i, ((ts.set k (.enqueue pc')).map (Proc.pending i)).sum =
      (ts.map (Proc.pending i)).sum := by
    intro i
    have hsum := sum_map_set (f := Proc.pending i) (y := .enqueue pc') ht
    rwa [Proc.pending, Proc.pending, Nat.add_zero, Nat.add_zero] at hsum
  have hkeep : ∀ keys, Once { q with dedup := keys } (ts.set k (.enqueue pc')) := by
    intro keys
    have hplaced : ∀ i, placed i { q with dedup := keys } (ts.set k (.enqueue pc')) = placed i q ts :=
      fun i => by rw [placed, placed, hpending]
    refine ⟨fun i => ?_, fun i hi => ?_, fun i hi => ?_,
      forall_mem_set (by simp [Proc.jobs]) fun t ht job hj => { h.jobs t ht job hj with }⟩
    · exact (hplaced i).trans_le (h.one i)
    · exact (hplaced i).trans (h.fresh i hi)
    · rw [hplaced]
      exact h.gone i hi
  cases he with
  | built _ _ _ | suppressed _ _ | claimed _ _ | failed => exact hkeep _
  | @accepted m hpc =>
    have hplaced : ∀ i, placed i (q.accept env m) (ts.set k (.enqueue (.returned none))) ≤
        placed i q ts + if i ∈ [q.accepted.length] then 1 else 0 := by
      intro i
      have hadd := @ZSet.copies_add_le _ _ m q.queue i (env.float64 m.availableAt) [q.accepted.length]
      rw [placed, placed, hpending]
      change (q.queue.add m _ _).copies i + _ ≤ _
      omega
    have hold : ∀ i, i ≠ q.accepted.length →
        placed i (q.accept env m) (ts.set k (.enqueue (.returned none))) ≤ placed i q ts := by
      intro i hi
      have := hplaced i
      rwa [if_neg (by simpa using hi)] at this
    have hlen : (q.accept env m).accepted.length = q.accepted.length + 1 := by simp [Broker.accept]
    refine ⟨fun i => ?_, fun i hi => ?_, fun i hi => ?_,
      forall_mem_set (by simp [Proc.jobs]) fun t ht job hj => { h.jobs t ht job hj with }⟩
    · by_cases hi : i = q.accepted.length
      · -- the number is new
        have hnew := hplaced i
        rwa [h.fresh i hi.ge, if_pos (by simp [hi])] at hnew
      · exact (hold i hi).trans (h.one i)
    · rw [hlen] at hi
      exact Nat.le_zero.mp ((hold i (by omega)).trans_eq (h.fresh i (by omega)))
    · obtain ⟨hlt, hzero⟩ := h.gone i hi
      exact ⟨by omega, Nat.le_zero.mp ((hold i (by omega)).trans_eq hzero)⟩

theorem once_spawn (h : Once q ts) (r : Launch) : Once q (ts ++ [r.proc]) := by
  have hplaced : ∀ i, placed i q (ts ++ [r.proc]) = placed i q ts := by
    intro i
    have hnew : (r.proc : Proc Unit).pending i = 0 := by cases r <;> rfl
    simp [placed, hnew]
  refine ⟨fun i => (hplaced i).trans_le (h.one i), fun i hi => (hplaced i).trans (h.fresh i hi),
    fun i hi => ⟨(h.gone i hi).1, (hplaced i).trans (h.gone i hi).2⟩, forall_mem_concat ?_ h.jobs⟩
  cases r <;> simp [Launch.proc, Proc.jobs]

end

/-! ## Whole runs -/

section

variable {env : Env} {c c' : System} {l : Event} {k : Nat} {w : Worker Unit}

theorem timely_taking (ht : c.threads[k]? = some (.worker w))
    (h : timely env c (.act k (.worker .command)) = true) {m : TaskMessage} {note : List Nat}
    {t : Int} (hw : w.main = .taking m note t) :
    env.float64 c.shared.broker.now < env.float64 t ∧ ∀ u ∈ c.threads, ∀ job ∈ u.jobs,
      job.isRunning = true → job.msg = m → env.float64 job.deadline < env.float64 t := by
  simp only [timely, workerOf, ht, hw, Option.all_some, Bool.and_eq_true, decide_eq_true_eq,
    List.all_eq_true] at h
  refine ⟨h.1, fun u hu job hj hr hm => ?_⟩
  simpa [hr, hm] using h.2 u hu job hj

theorem timely_start (ht : c.threads[k]? = some (.worker w))
    (h : timely env c (.act k (.worker .start)) = true) :
    ∀ m ∈ w.main.awaited, ∀ e ∈ c.shared.broker.processing.entries, e.member = m →
      env.float64 (c.shared.broker.now + w.settings.jobTimeout) < e.score := by
  intro m hm e he hem
  simp only [timely, workerOf, ht, Option.all_some, Option.all_eq_true, List.all_eq_true] at h
  simpa [hem] using h m hm e he

/-- The two invariants, which need each other's step. -/
theorem covered_once_step (hmono : ∀ {m n : Int}, m ≤ n → env.float64 m ≤ env.float64 n)
    (h : Covered env c.shared.broker c.threads ∧ Once c.shared.broker c.threads)
    (hl : faultless c l = true ∧ timely env c l = true)
    (hs : (queueMachine arbitraryHandler env).step c l = some c') :
    Covered env c'.shared.broker c'.threads ∧ Once c'.shared.broker c'.threads := by
  obtain ⟨hcov, honce⟩ := h
  obtain ⟨hf, htm⟩ := hl
  cases Machine.step_effect hs with
  | spawn r => exact ⟨covered_spawn hcov r, once_spawn honce r⟩
  | env he =>
    cases he
    refine ⟨covered_tick hmono hcov (fun t ht job hj hr => ?_) fun t ht m hm e he hem => ?_, ?_⟩
    · simp only [faultless, List.all_eq_true] at hf
      simpa [hr] using hf t ht job hj
    · simp only [timely, List.all_eq_true] at htm
      simpa [hem] using htm t ht m hm e he
    · exact ⟨honce.one, honce.fresh, honce.gone,
        fun t ht job hj => { honce.jobs t ht job hj with }⟩
  | act ht hstep =>
    cases proc_effect hstep with
    | enqueue he =>
      have heff := enqueue_effect he
      refine ⟨covered_enqueue hcov ht ?_ ?_, once_enqueue honce ht heff⟩
      · cases heff <;> rfl
      · cases heff <;> rfl
    | @worker w _ o _ hw =>
      obtain ⟨ha, hcalm⟩ : w.alive = true ∧ w.main.Calm c.shared.broker.now :=
        hcov.calm _ (List.mem_of_getElem? ht)
      have htake : ∀ m note t, o = .command → w.main = .taking m note t → _ :=
        fun m note t ho hmain => timely_taking ht (ho ▸ htm) hmain
      have hstart : o = .start → _ := fun ho => timely_start ht (ho ▸ htm)
      obtain ⟨_, ⟨q, he, rfl⟩ | ⟨j, x, job, job', lost, rfl, hj, he, rfl⟩⟩ := worker_effect hw
      · have hcrash : o ≠ .crash := by
          rintro rfl
          simp [faultless] at hf
        have hlive : o = .command → w.ctxDone = false ∨ w.main.final = true := by
          rintro rfl
          simpa [faultless, workerOf, ht] using hf
        refine ⟨covered_worker hcov ht
          (main_entry he hmono ha hcalm hcov.future hcrash hlive) htake hstart, ?_⟩
        exact once_worker honce ht (main_count he hcalm hcrash hlive) (main_rest he).1
      · have hlive : ∀ r, x = .command r → job.ctxDone = false := by
          rintro r rfl
          simpa [faultless, workerOf, ht, hj] using hf
        exact ⟨covered_worker hcov ht (job_entry he hj ha hcalm hlive) htake hstart,
          once_worker honce ht (job_count he hj) (job_rest he).1⟩

theorem covered_once_unused (now : Int) (dedup : Keys String) :
    Covered env (unused now dedup).shared.broker (unused now dedup).threads ∧
      Once (unused now dedup).shared.broker (unused now dedup).threads := by
  constructor
  · constructor <;> intro x hx <;> cases hx
  · refine ⟨fun i => Nat.zero_le 1, fun _ _ => rfl, ?_, ?_⟩ <;> intro x hx <;> cases hx

theorem Main.Calm.takesBack {now : Int} (h : w.main.Calm now) : w.takesBack = none := by
  unfold Worker.takesBack
  split
  · next hw =>
    rw [hw] at h
    cases h
  · rfl

end

/-- Scores are float64. -/
def redisEnv (keyPrefix kind : String) : Env := ⟨keyPrefix, kind, Lib.Float64.ofInt⟩

/-- In every run without crashes and failing commands in which the handlers return
in time, and in which they are started and acknowledged in time as `timely` says,
`requeueExpired` takes nothing back, and a task whose handler has returned without
an error is not started again. -/
theorem nothing_taken_back (keyPrefix kind : String) (now : Int) (dedup : Keys String)
    (events : List Event) (c : System)
    (hmeets : Meets (queueMachine arbitraryHandler (redisEnv keyPrefix kind)).step
      (fun c l => faultless c l = true ∧ timely (redisEnv keyPrefix kind) c l = true)
      (unused now dedup) events)
    (hrun : run (queueMachine arbitraryHandler (redisEnv keyPrefix kind)).step (unused now dedup)
      events = some c) :
    ∀ w, .worker w ∈ c.threads → w.takesBack = none ∧
      ∀ job ∈ w.jobs, job.result = some none → ∀ i ∈ job.note, ∀ n note, job.start < n →
        c.shared.broker.starts[n]? = some note → i ∉ note := by
  obtain ⟨hcov, honce⟩ := run_inv
    (fun _ _ _ h hl hs => covered_once_step Lib.Float64.ofInt_mono h hl hs)
    (covered_once_unused now dedup) hmeets hrun
  intro w hw
  refine ⟨(hcov.calm _ hw).2.takesBack, fun job hj hr => ?_⟩
  exact (honce.jobs _ hw job hj).last (.inr hr)

/-- A task whose handler returns after 20 s and is acknowledged. -/
def handledInTime : List Event :=
  [.spawn (.worker plainSettings)] ++ enqueueAndPop 1 0 ++ takeAndStart 0 ++
    [.env 20000000000, .act 0 (.worker (.job 0 (.handler none))),
      .act 0 (.worker (.job 0 (.command .ok))), .env 20000000000, .act 0 (.worker .scan),
      .act 0 (.worker .command)]

theorem handled_not_taken_back :
    ∃ c, run (queueMachine arbitraryHandler (redisEnv "" "mail")).step (unused 0 .empty)
        handledInTime = some c ∧ c.shared.broker.handled = [0] ∧
      ∀ w, .worker w ∈ c.threads → w.takesBack = none ∧
        ∀ job ∈ w.jobs, job.result = some none → ∀ i ∈ job.note, ∀ n note, job.start < n →
          c.shared.broker.starts[n]? = some note → i ∉ note :=
  reaches_and (by decide +kernel) fun c hc _ =>
    nothing_taken_back "" "mail" 0 .empty handledInTime c (by decide +kernel) hc

def laterTask : Task := { mailTask with payload := "later" }

def laterMessage : TaskMessage := { mailMessage with payload := "later" }

/-- The only slot is taken for 20 s, and a second task waits for it. 10 s after the
start of its handler `requeueExpired` lists its message. -/
def slotTaken : List Event :=
  [.spawn (.worker plainSettings)] ++ enqueueAndPop 1 0 ++ takeAndStart 0 ++
    [.spawn (.enqueue ⟨0, 0⟩ laterTask), .act 2 (.enqueue .ok), .act 2 (.enqueue .ok),
      .act 0 (.worker .poll), .act 0 (.worker (.pop laterMessage)), .act 0 (.worker .clock),
      .act 0 (.worker .clock), .act 0 (.worker .command), .env 20000000000,
      .act 0 (.worker (.job 0 (.handler none))), .act 0 (.worker (.job 0 (.command .ok))),
      .act 0 (.worker .start), .env 10000000000, .act 0 (.worker .scan), .act 0 (.worker .command)]

/-- The message goes back to the queue, and when its handler has returned without an
error it is started again. -/
def startedAgain : List Event :=
  slotTaken ++ [.act 0 (.worker .command), .act 0 (.worker .clock), .act 0 (.worker .command),
    .act 0 (.worker (.job 1 (.handler none))), .act 0 (.worker (.job 1 (.command .ok))),
    .act 0 (.worker (.pop { laterMessage with attempt := 1, availableAt := 30000000000 }))] ++
    takeAndStart 0

/-- The loop is about to take back a message whose handler is running. -/
def Worker.overtakes (w : Worker Unit) : Bool :=
  w.jobs.any fun job => job.isRunning && w.takesBack = some job.msg

/-- A handler has returned without an error, and its task has been started after it. -/
def Worker.repeats (starts : List (List Nat)) (w : Worker Unit) : Bool :=
  w.jobs.any fun job => job.result = some none &&
    job.note.any fun i => (starts.drop (job.start + 1)).any fun note => i ∈ note

theorem running_taken_back :
    Meets (queueMachine arbitraryHandler (redisEnv "" "mail")).step
      (fun c l => faultless c l = true) (unused 0 .empty) startedAgain ∧
    (∃ c, run (queueMachine arbitraryHandler (redisEnv "" "mail")).step (unused 0 .empty)
      slotTaken = some c ∧ ∃ w, .worker w ∈ c.threads ∧ w.overtakes = true) ∧
    ∃ c, run (queueMachine arbitraryHandler (redisEnv "" "mail")).step (unused 0 .empty)
      startedAgain = some c ∧
        ∃ w, .worker w ∈ c.threads ∧ w.repeats c.shared.broker.starts = true := by
  have hworker : ∀ {c : System} {p : Worker Unit → Bool}, ((workerOf c 0).any p) = true →
      ∃ w, .worker w ∈ c.threads ∧ p w = true := by
    intro c p h
    obtain ⟨w, hw, hp⟩ := Option.any_eq_true _ _ |>.mp h
    exact ⟨w, workerOf_mem hw, hp⟩
  refine ⟨by decide +kernel, ?_, ?_⟩
  · exact reaches_imp (P := fun c : System => (workerOf c 0).any Worker.overtakes = true)
      (by decide +kernel) fun _ _ => hworker
  · exact reaches_imp
      (P := fun c : System => (workerOf c 0).any (Worker.repeats c.shared.broker.starts) = true)
      (by decide +kernel) fun _ _ => hworker

end TokoApi.Queue
