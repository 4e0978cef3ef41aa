import TokoApi.Queue.Effects

/-!
# Accepted tasks are not lost outside the gaps

A task moves between the queue, the processing set and the DLQ by one command
that removes its entry and a later one that inserts it again. Between the two it
stands nowhere in Redis; a worker that stops there, for a moment or for good,
holds it. The invariant follows every enqueueing through these moves. It also
needs that a job, when it removes its entry, does not remove one that stands for
another enqueueing as well: entries with equal bytes are one entry.
-/
namespace TokoApi.Queue

open Lib.Redis Lib.Threads Lib.Runs

section

variable {θ : Type}

/-- The enqueueings the loop has taken out of one set and not yet put into the
other. -/
def Main.held : Main → List Nat
  | .lifted _ note _ _ | .moving _ note _ _ | .popped _ note | .pushBack _ note | .due _ note
  | .taking _ note _ => note
  | _ => []

/-- The same for a job that has failed. -/
def Job.held (job : Job θ) : List Nat :=
  match job.pc with
  | .failed executed _ | .retrying executed _ | .burying executed _ =>
    if executed then job.note else []
  | _ => []

/-- The worker, running or not, stands in a gap with the enqueueing, or has lost
it there. -/
def Worker.Holds (w : Worker θ) (i : Nat) : Prop :=
  i ∈ w.dropped ∨ i ∈ w.main.held ∨ ∃ job ∈ w.jobs, i ∈ job.held

def Proc.Holds : Proc θ → Nat → Prop
  | .enqueue _, _ => False
  | .worker w, i => w.Holds i

instance (p : Proc θ) (i : Nat) : Decidable (p.Holds i) := by
  unfold Proc.Holds Worker.Holds
  split <;> infer_instance

end

abbrev InGap (c : System) (i : Nat) : Prop := ∃ p ∈ c.threads, p.Holds i

def Proc.job? : Proc Unit → Nat → Option (Job Unit)
  | .enqueue _, _ => none
  | .worker w, j => w.jobs[j]?

/-- The next command of the job is the ZREM of its entry. -/
def Job.removing (job : Job Unit) : Bool :=
  match job.pc with
  | .acking | .failing _ => true
  | _ => false

/-- A job that removes its entry from the processing set removes no other
enqueueing's. -/
def OwnRemoval (c : System) : Event → Prop
  | .act k (.worker (.job j _)) =>
    ∀ p ∈ c.threads[k]?, ∀ job ∈ p.job? j, job.removing = true →
      ∀ i ∈ c.shared.broker.processing.noteOf job.msg, i ∈ job.note
  | _ => True

instance (c : System) (a) : Decidable (OwnRemoval c a) := by
  unfold OwnRemoval
  split <;> infer_instance

/-! ## One step -/

section

variable {env : Env} {q q' : Broker} {w w' : Worker Unit} {i : Nat} {o : Op (Option String)}
  {x : JobOp (Option String)}

theorem located_pushQueue {m : TaskMessage} {note : List Nat} :
    (q.pushQueue env m note).Located i ↔ q.Located i ∨ i ∈ note := by
  simp only [Broker.Located, Broker.pushQueue, ZSet.carries_add]
  exact or_right_comm

theorem located_take {m : TaskMessage} {score : Int} {note : List Nat} :
    ({ q with processing := q.processing.add m score note } : Broker).Located i ↔
      q.Located i ∨ i ∈ note := by
  simp only [Broker.Located, ZSet.carries_add]
  rw [or_right_comm, ← or_assoc]

theorem held_of_empty {pc : Main} (h : pc.Empty) : pc.held = [] := by
  cases pc <;> first | rfl | cases h

/-- Whatever the loop takes out of a set it holds, and whatever it holds it puts
back or has dropped. -/
theorem main_tracked (h : MainEffect arbitraryHandler env q w o q' w')
    (hi : q.Located i ∨ w.Holds i) : q'.Located i ∨ w'.Holds i := by
  cases h with
  | idle hw hpc _ _ =>
    simpa only [Worker.Holds, Worker.goto, held_of_empty hw, held_of_empty hpc] using hi
  | @pop e hw _ he =>
    have hn := ZSet.noteOf_eq he
    rcases hi with (hq | hp) | hw'
    · rcases ZSet.carries_rem (m := e.member) hq with hr | hr
      · exact .inl (.inl hr)
      · exact .inr (.inr (.inl (hn ▸ hr)))
    · exact .inl (.inr hp)
    · simp only [Worker.Holds, hw, Main.held, List.not_mem_nil, false_or] at hw'
      exact .inr (hw'.imp id .inr)
  | notDue hw | due hw | stamp hw _ | miss hw | restamp hw =>
    simpa only [Worker.Holds, Worker.goto, hw, Main.held] using hi
  | @lift m note due final hw _ =>
    rcases hi with (hq | hp | hd) | hw'
    · exact .inl (.inl hq)
    · rcases ZSet.carries_rem (m := m) hp with hr | hr
      · exact .inl (.inr (.inl hr))
      · exact .inr (.inr (.inl (List.mem_append_right _ hr)))
    · exact .inl (.inr (.inr hd))
    · simp only [Worker.Holds, hw, Main.held, List.not_mem_nil, false_or] at hw'
      exact .inr (hw'.imp id .inr)
  | @moved m note due final hw _ | pushed hw =>
    simp only [Worker.Holds, Worker.goto, hw, Main.held, located_pushQueue] at hi ⊢
    tauto
  | @lost pc note _ hpc _ hw =>
    have hheld : w.main.held = note := by
      rcases hw with ⟨m, due, final, hw⟩ | ⟨m, hw⟩ | ⟨m, t, hw⟩ <;> rw [hw] <;> rfl
    simp only [Worker.Holds, hheld, List.mem_append] at hi ⊢
    tauto
  | taken hw =>
    simp only [Worker.Holds, Worker.goto, hw, Main.held, located_take] at hi ⊢
    tauto
  | started hw =>
    simp only [Worker.Holds, hw, Main.held, Broker.Located, List.mem_append] at hi ⊢
    rcases hi with hl | hd | hm | ⟨job, hj, hh⟩
    · exact .inl hl
    · exact .inr (.inl hd)
    · cases hm
    · exact .inr (.inr (.inr ⟨job, .inl hj, hh⟩))
  | cancel | crash => exact hi

variable {s s' : Shared Unit} {job job' : Job Unit} {lost : List Nat}

theorem mem_note_of_held (h : i ∈ job.held) : i ∈ job.note := by
  unfold Job.held at h
  split at h <;> simp_all

theorem removal_held (job : Job Unit) (m : TaskMessage) :
    (job.goto (afterRemoval true m)).held = job.note := by
  unfold afterRemoval
  split <;> rfl

theorem located_removal
    (hown : ∀ i ∈ s.broker.processing.noteOf job.msg, i ∈ job.note) (hl : s.broker.Located i) :
    ({ s.broker with processing := s.broker.processing.rem job.msg } : Broker).Located i ∨
      i ∈ job.note := by
  rcases hl with hq | hp | hd
  · exact .inl (.inl hq)
  · rcases ZSet.carries_rem (m := job.msg) hp with hr | hr
    · exact .inl (.inr (.inl hr))
    · exact .inr (hown i hr)
  · exact .inl (.inr (.inr hd))

theorem job_tracked (h : JobEffect arbitraryHandler env s job x s' job' lost)
    (hown : job.removing = true → ∀ i ∈ s.broker.processing.noteOf job.msg, i ∈ job.note)
    (hack : job.pc = .acking → ∀ i ∈ job.note, i ∈ s.broker.handled)
    (hi : s.broker.Located i ∨ i ∈ job.held) :
    s'.broker.Located i ∨ i ∈ job'.held ∨ i ∈ lost := by
  cases h with
  | expire => exact hi.imp id .inl
  | ran hpc hs => cases hs
  | succeeded hpc hs =>
    cases hs
    simp only [Job.held, hpc, List.not_mem_nil, or_false] at hi
    exact .inl (hi.imp id (.imp id (.imp id (List.mem_append_left _))))
  | erred hpc hs =>
    cases hs
    simp only [Job.held, hpc, List.not_mem_nil, or_false] at hi
    exact .inl hi
  | @stamp _ executed m t hpc =>
    simp only [Job.held, hpc] at hi
    exact hi.imp id .inl
  | acked hpc _ =>
    simp only [Job.held, hpc, List.not_mem_nil, or_false] at hi
    rcases located_removal (hown (by simp [Job.removing, hpc])) hi with hl | hn
    · exact .inl hl
    · exact .inl (.inr (.inr (.inr (hack hpc i hn))))
  | unacked hpc _ | unremoved hpc _ | released hpc _ | unreleased hpc _ =>
    simp only [Job.held, hpc, List.not_mem_nil, or_false] at hi
    exact .inl hi
  | removed hpc _ =>
    simp only [Job.held, hpc, List.not_mem_nil, or_false] at hi
    rcases located_removal (hown (by simp [Job.removing, hpc])) hi with hl | hn
    · exact .inl hl
    · exact .inr (.inl (removal_held job _ ▸ hn))
  | @retried _ executed m hpc _ =>
    exact .inl (located_pushQueue.mpr (hi.imp id mem_note_of_held))
  | @unretried _ executed m hpc _ | @unburied _ executed m hpc _ =>
    simp only [Job.held, hpc] at hi
    exact hi.imp id .inr
  | @buried executed m hpc _ =>
    rcases hi with hl | hh
    · refine .inl (hl.imp id (.imp id (.imp ?_ id)))
      rintro ⟨e, he, hn⟩
      exact ⟨e, List.mem_append_left _ he, hn⟩
    · exact .inl (.inr (.inr (.inl ⟨dlqEntry job m, by simp, mem_note_of_held hh⟩)))

end

/-! ## Whole runs -/

section

variable {env : Env} {s s' : Shared Unit} {w w' : Worker Unit} {o : Op (Option String)}
  {x : JobOp (Option String)} {i : Nat} {c : System} {job job' : Job Unit} {lost : List Nat}

def Proc.Acked (handled : List Nat) (p : Proc Unit) : Prop :=
  ∀ w, p = .worker w → ∀ job ∈ w.jobs, job.pc = .acking → ∀ i ∈ job.note, i ∈ handled

theorem main_broker {q q' : Broker} (h : MainEffect arbitraryHandler env q w o q' w') :
    q'.accepted = q.accepted ∧ q'.handled = q.handled := by
  cases h <;> exact ⟨rfl, rfl⟩

theorem job_broker (h : JobEffect arbitraryHandler env s job x s' job' lost) :
    s'.broker.accepted = s.broker.accepted ∧ s.broker.handled ⊆ s'.broker.handled := by
  cases h with
  | succeeded _ hs =>
    cases hs
    exact ⟨rfl, List.subset_append_left _ _⟩
  | ran _ hs => cases hs
  | erred _ hs =>
    cases hs
    exact ⟨rfl, fun _ => id⟩
  | _ => exact ⟨rfl, fun _ => id⟩

theorem worker_broker (h : workerStep arbitraryHandler env s w o = some (s', w')) :
    s'.broker.accepted = s.broker.accepted ∧ s.broker.handled ⊆ s'.broker.handled := by
  obtain ⟨q, hm, rfl⟩ | ⟨j, x, job, job', lost, _, _, hj, _⟩ := (worker_effect h).2
  · exact ⟨(main_broker hm).1, (main_broker hm).2 ▸ fun _ => id⟩
  · exact job_broker hj

theorem main_acked {q q' : Broker} (h : MainEffect arbitraryHandler env q w o q' w')
    (ha : (Proc.worker w).Acked q.handled) : (Proc.worker w').Acked q.handled := by
  cases h with
  | started hw =>
    rintro _ ⟨⟩
    exact forall_mem_concat (fun hpc => by cases hpc) (ha w rfl)
  | _ =>
    rintro _ ⟨⟩
    exact ha w rfl

theorem job_acked (h : JobEffect arbitraryHandler env s job x s' job' lost)
    (ha : job.pc = .acking → ∀ i ∈ job.note, i ∈ s.broker.handled) (hpc : job'.pc = .acking) :
    ∀ i ∈ job'.note, i ∈ s'.broker.handled := by
  have hrel : ∀ job : Job Unit, job.release.pc ≠ .acking := by
    intro job
    unfold Job.release Job.goto
    split <;> simp
  have hrem : ∀ executed m, (afterRemoval executed m : JobPc Unit) ≠ .acking := by
    intro executed m
    unfold afterRemoval
    split <;> simp
  cases h with
  | expire => exact ha hpc
  | succeeded _ hs =>
    cases hs
    exact fun i hi => List.mem_append_right _ hi
  | acked | unacked | buried | unburied => exact absurd hpc (hrel job)
  | removed | unremoved => exact absurd hpc (hrem _ _)
  | _ => cases hpc

theorem worker_acked (h : workerStep arbitraryHandler env s w o = some (s', w'))
    (ha : (Proc.worker w).Acked s.broker.handled) : (Proc.worker w').Acked s'.broker.handled := by
  obtain ⟨q, hm, rfl⟩ | ⟨j, x, job, job', lost, _, hj, he, rfl⟩ := (worker_effect h).2
  · exact (main_broker hm).2 ▸ main_acked hm ha
  · rintro _ ⟨⟩
    exact forall_mem_set (job_acked he (ha w rfl job (List.mem_of_getElem? hj)))
      fun b hb hpc i hi => (job_broker he).2 (ha w rfl b hb hpc i hi)

theorem worker_tracked (h : workerStep arbitraryHandler env s w o = some (s', w'))
    (hown : ∀ j x job, o = .job j x → w.jobs[j]? = some job → job.removing = true →
      ∀ i ∈ s.broker.processing.noteOf job.msg, i ∈ job.note)
    (ha : (Proc.worker w).Acked s.broker.handled) (hi : s.broker.Located i ∨ w.Holds i) :
    s'.broker.Located i ∨ w'.Holds i := by
  obtain ⟨q, hm, rfl⟩ | ⟨j, x, job, job', lost, rfl, hj, he, rfl⟩ := (worker_effect h).2
  · exact main_tracked hm hi
  · have hstep := job_tracked (i := i) he (hown j x job rfl hj)
      (ha w rfl job (List.mem_of_getElem? hj))
    have hlt := (List.getElem?_eq_some_iff.mp hj).1
    have hnew : s'.broker.Located i ∨ i ∈ job'.held ∨ i ∈ lost →
        s'.broker.Located i ∨ (w.withJob j job' (w.dropped ++ lost)).Holds i := by
      rintro (hl | hh | hl)
      · exact .inl hl
      · exact .inr (.inr (.inr ⟨job', List.mem_set hlt _, hh⟩))
      · exact .inr (.inl (List.mem_append_right _ hl))
    rcases hi with hl | hd | hm | hjobs
    · exact hnew (hstep (.inl hl))
    · exact .inr (.inl (List.mem_append_left _ hd))
    · exact .inr (.inr (.inl hm))
    · -- another job of this worker keeps what it holds
      rcases (exists_mem_iff_others hj).mp hjobs with hh | hothers
      · exact hnew (hstep (.inr hh))
      · exact .inr (.inr (.inr ((exists_mem_set_iff_others hj).mpr (.inr hothers))))

theorem accept_located (env : Env) (q : Broker) (m : TaskMessage) :
    (q.accept env m).Located q.accepted.length ∧
      ∀ i, q.Located i → (q.accept env m).Located i := by
  have h : ∀ i, (q.accept env m).Located i ↔ q.Located i ∨ i ∈ [q.accepted.length] := fun i =>
    located_pushQueue
  exact ⟨(h _).mpr (.inr (by simp)), fun i hi => (h i).mpr (.inl hi)⟩

/-- Every accepted enqueueing is located or in a gap, and what is being
acknowledged has been handled. -/
structure Safe (c : System) : Prop where
  tracked : ∀ i < c.shared.broker.accepted.length, c.shared.broker.Located i ∨ InGap c i
  acked : ∀ p ∈ c.threads, p.Acked c.shared.broker.handled

theorem inGap_set {k : Nat} {p : Proc Unit} (s' : Shared Unit) (p' : Proc Unit)
    (hk : c.threads[k]? = some p) (hi : InGap c i) :
    p.Holds i ∨ InGap ⟨s', c.threads.set k p'⟩ i := by
  rcases (exists_mem_iff_others hk).mp hi with hh | hothers
  · exact .inl hh
  · exact .inr ((exists_mem_set_iff_others hk).mpr (.inr hothers))

theorem enqueue_safe {k : Nat} {pc pc' : EnqueuePc} {q : Broker} (hs : Safe c)
    (hk : c.threads[k]? = some (.enqueue pc)) (he : EnqueueEffect env c.shared.broker pc q pc') :
    Safe ⟨{ c.shared with broker := q }, c.threads.set k (.enqueue pc')⟩ := by
  have hgap : ∀ i, InGap c i →
      InGap ⟨{ c.shared with broker := q }, c.threads.set k (.enqueue pc')⟩ i :=
    fun i hi => (inGap_set _ _ hk hi).resolve_left id
  have hother : ∀ p ∈ c.threads.set k (.enqueue pc'), p.Acked c.shared.broker.handled :=
    forall_mem_set (by rintro w ⟨⟩) hs.acked
  cases he with
  | @accepted m hpc =>
    obtain ⟨hnew, hold⟩ := accept_located env c.shared.broker m
    refine ⟨fun i hi => ?_, hother⟩
    by_cases hlt : i < c.shared.broker.accepted.length
    · exact (hs.tracked i hlt).imp (hold i) (hgap i)
    · have hlen : i < c.shared.broker.accepted.length + 1 := by simpa [Broker.accept] using hi
      obtain rfl : i = c.shared.broker.accepted.length := by omega
      exact .inl hnew
  | _ => exact ⟨fun i hi => (hs.tracked i hi).imp id (hgap i), hother⟩

theorem worker_safe {k : Nat} (hs : Safe c)
    (hk : c.threads[k]? = some (.worker w)) (hc : OwnRemoval c (.act k (.worker o)))
    (h : workerStep arbitraryHandler env c.shared w o = some (s', w')) :
    Safe ⟨s', c.threads.set k (.worker w')⟩ := by
  have hlt := (List.getElem?_eq_some_iff.mp hk).1
  have ha := hs.acked (.worker w) (List.mem_of_getElem? hk)
  refine ⟨fun i hi => ?_, forall_mem_set (worker_acked h ha) fun p hp v hv job hj hpc n hn =>
    (worker_broker h).2 (hs.acked p hp v hv job hj hpc n hn)⟩
  rw [show s'.broker.accepted = _ from (worker_broker h).1] at hi
  have hown : ∀ j x job, o = .job j x → w.jobs[j]? = some job → job.removing = true →
      ∀ i ∈ c.shared.broker.processing.noteOf job.msg, i ∈ job.note := by
    rintro j x job rfl hj
    exact hc (.worker w) hk job hj
  have hself : c.shared.broker.Located i ∨ w.Holds i →
      s'.broker.Located i ∨ InGap ⟨s', c.threads.set k (.worker w')⟩ i := fun hi' =>
    (worker_tracked h hown ha hi').imp id fun hh => ⟨_, List.mem_set hlt _, hh⟩
  obtain hl | hg := hs.tracked i hi
  · exact hself (.inl hl)
  · obtain hh | hg := inGap_set s' (.worker w') hk hg
    · exact hself (.inr hh)
    · exact .inr hg

theorem safe_step {d : System} {a : Event} (hs : Safe c) (hc : OwnRemoval c a)
    (h : (queueMachine arbitraryHandler env).step c a = some d) : Safe d := by
  cases Machine.step_effect h with
  | spawn l =>
    refine ⟨fun i hi => (hs.tracked i hi).imp id ?_, forall_mem_concat ?_ hs.acked⟩
    · rintro ⟨p, hp, hh⟩
      exact ⟨p, List.mem_append_left _ hp, hh⟩
    · cases l with
      | enqueue e t => rintro w ⟨⟩
      | worker settings =>
        rintro w ⟨⟩
        exact List.forall_mem_nil _
  | act hk hl =>
    cases proc_effect hl with
    | enqueue he => exact enqueue_safe hs hk (enqueue_effect he)
    | worker hw => exact worker_safe hs hk hc hw
  | env he =>
    cases he
    exact ⟨hs.tracked, hs.acked⟩

/-- In every state reached, an accepted enqueueing with which no worker stands
between a removal and a re-insertion is in the queue, in the processing set, in
the DLQ, or handled. -/
theorem accepted_located (env : Env) (q₀ : Broker) (h₀ : q₀.accepted = [])
    (acts : List Event) (c : System)
    (hm : Meets (queueMachine arbitraryHandler env).step OwnRemoval ⟨⟨q₀, ()⟩, []⟩ acts)
    (hr : run (queueMachine arbitraryHandler env).step ⟨⟨q₀, ()⟩, []⟩ acts = some c)
    (i : Nat) (hi : i < c.shared.broker.accepted.length) (hg : ¬ InGap c i) :
    c.shared.broker.Located i := by
  have hs₀ : Safe (⟨⟨q₀, ()⟩, []⟩ : System) :=
    ⟨fun i hi => by simp [h₀] at hi, fun p hp => by cases hp⟩
  have hs := run_inv (fun c a d hs hc h => safe_step hs hc h) hs₀ hm hr
  exact (hs.tracked i hi).resolve_right hg

end

/-! ## Runs of one or two workers -/

def mailEnv : Env := ⟨"", "mail", id⟩

def mailTask : Task := ⟨"mail", "hello", "", 3, 0, 0⟩

def mailMessage : TaskMessage := ⟨"mail", "", "hello", 0, 3, 0, ""⟩

def plainSettings : Settings := ⟨1, 0, 0, 0, false⟩

def enqueueAndPop (e k : Nat) : List Event :=
  [.spawn (.enqueue ⟨0, 0⟩ mailTask), .act e (.enqueue .ok), .act e (.enqueue .ok),
    .act k (.worker .poll), .act k (.worker (.pop mailMessage))]

def takeAndStart (k : Nat) : List Event :=
  [.act k (.worker .clock), .act k (.worker .clock), .act k (.worker .command),
    .act k (.worker .start)]

def locatedAfter (acts : List Event) (i : Nat) : Option Bool :=
  (run (queueMachine arbitraryHandler mailEnv).step ⟨⟨.empty, ()⟩, []⟩ acts).map fun c =>
    decide (c.shared.broker.Located i)

/-- A worker that crashes between ZPOPMIN and ZADD, in `handleFailure` or in
`requeueExpired` loses the task; and so does a job that acknowledges when its
entry is also that of an equal task which is still running. -/
theorem crash_in_gap_loses :
    let worker : List Event := [.spawn (.worker plainSettings)]
    let one := worker ++ enqueueAndPop 1 0
    locatedAfter (one ++ [.act 0 (.worker .crash)]) 0 = some false ∧
    locatedAfter (one ++ takeAndStart 0 ++ [.act 0 (.worker (.job 0 (.handler (some "refused")))),
      .act 0 (.worker (.job 0 (.command .ok))), .act 0 (.worker .crash)]) 0 = some false ∧
    locatedAfter (one ++ takeAndStart 0 ++ [.env 30000000000, .act 0 (.worker .scan),
      .act 0 (.worker .command), .act 0 (.worker .command), .act 0 (.worker .crash)]) 0 =
        some false ∧
    locatedAfter (worker ++ worker ++ enqueueAndPop 2 0 ++ enqueueAndPop 3 1 ++ takeAndStart 0 ++
      takeAndStart 1 ++ [.act 0 (.worker (.job 0 (.handler none))),
      .act 0 (.worker (.job 0 (.command .ok)))]) 1 = some false := by
  decide

/-- The handler of the task fails once and the task goes back to the queue. -/
def failOnce : List Event :=
  .spawn (.worker plainSettings) :: (enqueueAndPop 1 0 ++ takeAndStart 0 ++
    [.act 0 (.worker (.job 0 (.handler (some "refused")))),
      .act 0 (.worker (.job 0 (.command .ok))), .act 0 (.worker (.job 0 (.clock 0))),
      .act 0 (.worker (.job 0 (.command .ok)))])

theorem accepted_located_on_retry :
    ∃ c, run (queueMachine arbitraryHandler mailEnv).step ⟨⟨.empty, ()⟩, []⟩ failOnce = some c ∧
      ¬ InGap c 0 ∧ c.shared.broker.Located 0 :=
  reaches_imp (P := fun c : System => 0 < c.shared.broker.accepted.length ∧ ¬ InGap c 0) (by decide)
    fun c hc ⟨hi, hg⟩ => ⟨hg, accepted_located mailEnv .empty rfl failOnce c (by decide) hc 0 hi hg⟩

end TokoApi.Queue
