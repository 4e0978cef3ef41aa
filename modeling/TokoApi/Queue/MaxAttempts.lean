import TokoApi.Queue.AtLeastOnce
import TokoApi.Queue.Attempts

/-!
# No more starts than attempts

For an enqueueing with MaxAttempts M the handler should be started at most M
times, and after a last start that failed the task should be in the DLQ and in
neither sorted set. `requeueExpired` does not look at the counter and does not
know whether the job is still running, and `handleFailure` gives the task up when
its context is done. In the runs in which `requeueExpired` takes back only what
has attempts left and is in nobody's hands, and every insertion into the DLQ
succeeds, the property holds.
-/
namespace TokoApi.Queue

open Lib.Redis Lib.Threads Lib.Runs

/-! ## Numbers in use -/

section

variable {θ : Type} {n n' : Nat}

/-- Every enqueueing that is noted has a number below `n`. -/
structure Broker.Below (n : Nat) (q : Broker) : Prop where
  queue : ∀ e ∈ q.queue.entries, ∀ k ∈ e.note, k < n
  processing : ∀ e ∈ q.processing.entries, ∀ k ∈ e.note, k < n
  starts : ∀ note ∈ q.starts, ∀ k ∈ note, k < n

structure Worker.Below (n : Nat) (w : Worker θ) : Prop where
  carried : ∀ p ∈ w.main.carried, ∀ k ∈ p.2, k < n
  due : ∀ p ∈ w.main.dueList, ∀ k ∈ p.2, k < n
  jobs : ∀ job ∈ w.jobs, ∀ k ∈ job.note, k < n

theorem Broker.Below.mono {q : Broker} (h : q.Below n) (hn : n ≤ n') : q.Below n' :=
  ⟨fun e he k hk => (h.queue e he k hk).trans_le hn,
    fun e he k hk => (h.processing e he k hk).trans_le hn,
    fun e he k hk => (h.starts e he k hk).trans_le hn⟩

theorem Worker.Below.mono {w : Worker θ} (h : w.Below n) (hn : n ≤ n') : w.Below n' :=
  ⟨fun p hp k hk => (h.carried p hp k hk).trans_le hn,
    fun p hp k hk => (h.due p hp k hk).trans_le hn,
    fun job hj k hk => (h.jobs job hj k hk).trans_le hn⟩

variable {m : TaskMessage} {note : List Nat}

theorem below_join (n : Nat) (_ : TaskMessage) (a b : List Nat) (ha : ∀ k ∈ a, k < n)
    (hb : ∀ k ∈ b, k < n) : ∀ k ∈ a ++ b, k < n :=
  List.forall_mem_append.mpr ⟨ha, hb⟩

theorem below_add {z : ZSet TaskMessage} {score : Int}
    (hz : ∀ e ∈ z.entries, ∀ k ∈ e.note, k < n) (hn : ∀ k ∈ note, k < n) :
    ∀ e ∈ (z.add m score note).entries, ∀ k ∈ e.note, k < n :=
  ZSet.notes_add (P := fun _ note => ∀ k ∈ note, k < n) (below_join n m) hz hn

variable {H : Handler Unit Unit (Option String)} {env : Env} {q q' : Broker}
  {w w' : Worker Unit} {o : Op (Option String)}

theorem main_below (he : MainEffect H env q w o q' w') (hq : q.Below n) (hw : w.Below n) :
    q'.Below n ∧ w'.Below n := by
  have hport : Portable (fun _ note => ∀ k ∈ note, k < n) fun _ note => ∀ k ∈ note, k < n :=
    ⟨fun _ _ => id, fun _ _ => id, fun _ _ _ => id, below_join n, below_join n,
      fun _ _ _ => List.forall_mem_nil _⟩
  obtain ⟨h, hjobs⟩ := main_moves hport he
    ⟨hq.queue, hq.processing, holds_iff_carried.mpr hw.carried, hw.due⟩
  have hcarried := holds_iff_carried.mp h.hand
  rcases hjobs with ⟨hj, hs⟩ | ⟨m, note, hn, hj, hs⟩
  · exact ⟨⟨h.queue, h.processing, hs ▸ hq.starts⟩, hcarried, h.due, hj ▸ hw.jobs⟩
  · refine ⟨⟨h.queue, h.processing, ?_⟩, hcarried, h.due, ?_⟩
    · rw [hs]
      exact forall_mem_concat hn hq.starts
    · rw [hj]
      exact forall_mem_concat hn hw.jobs

theorem pushQueue_below (hq : q.Below n)
    (hn : ∀ k ∈ note, k < n) : (q.pushQueue env m note).Below n :=
  { hq with queue := below_add hq.queue hn }

theorem job_below {s s' : Shared Unit} {job job' : Job Unit} {x : JobOp (Option String)}
    {lost : List Nat} (he : JobEffect arbitraryHandler env s job x s' job' lost)
    (hq : s.broker.Below n) (hn : ∀ k ∈ job.note, k < n) :
    s'.broker.Below n ∧ ∀ k ∈ job'.note, k < n := by
  have hrem : Broker.Below n
      { s.broker with processing := s.broker.processing.rem job.msg } :=
    { hq with processing := fun e he => hq.processing e (ZSet.mem_rem.mp he).1 }
  cases he with
  | ran _ hs => cases hs
  | succeeded _ hs =>
    cases hs
    exact ⟨{ hq with }, hn⟩
  | erred _ hs =>
    cases hs
    exact ⟨hq, hn⟩
  | acked _ _ | removed _ _ => exact ⟨hrem, hn⟩
  | retried _ _ => exact ⟨pushQueue_below hq hn, hn⟩
  | buried _ _ | released _ _ => exact ⟨{ hq with }, hn⟩
  | expire | stamp _ | unacked _ _ | unremoved _ _ | unretried _ _ | unburied _ _ | unreleased _ _ =>
    exact ⟨hq, hn⟩

end

/-! ## One enqueueing in the system -/

section

variable (i : Nat)

def Proc.Owns (m : TaskMessage) : Proc Unit → Prop
  | .worker w => w.Owns i m
  | .enqueue _ => True

def Proc.Counted (limit : Int) (c : Nat) : Proc Unit → Prop
  | .worker w => w.Counted i limit c
  | .enqueue _ => True

def Proc.jobs : Proc Unit → List (Job Unit)
  | .worker w => w.jobs
  | .enqueue _ => []

def Proc.Below (n : Nat) : Proc Unit → Prop
  | .worker w => w.Below n
  | .enqueue _ => True

/-- `Balance` for all processes together. -/
structure Tracked (limit : Int) (b : Nat) (c : System) : Prop where
  one : c.shared.broker.queue.copies i + (c.threads.map (Proc.load i)).sum ≤ b ∧ b ≤ 1
  owns : ∀ e ∈ c.shared.broker.processing.entries, i ∈ e.note →
    (c.shared.broker.queue.copies i = 0 ∧ b = 1) ∧ ∀ t ∈ c.threads, t.Owns i e.member
  same : ∀ e ∈ c.shared.broker.processing.entries, ∀ f ∈ c.shared.broker.processing.entries,
    i ∈ e.note → i ∈ f.note → e.member = f.member
  queue : ∀ e ∈ c.shared.broker.queue.entries, i ∈ e.note →
    Ready limit (c.shared.broker.startsOf i) e.member
  processing : ∀ e ∈ c.shared.broker.processing.entries, i ∈ e.note →
    Started limit (c.shared.broker.startsOf i) e.member
  counted : ∀ t ∈ c.threads, t.Counted i limit (c.shared.broker.startsOf i)
  total : (c.shared.broker.startsOf i : Int) ≤ limit
  shaped : ∀ t ∈ c.threads, ∀ job ∈ t.jobs, i ∈ job.note → job.Shaped
  recorded : ∀ t ∈ c.threads, ∀ job ∈ t.jobs, i ∈ job.note →
    job.Recorded i limit c.shared.broker.starts

variable {i} {limit : Int} {b b' : Nat} {c : System} {k : Nat} {w w' : Worker Unit}

theorem forall_mem_iff_erase {α : Type} {l : List α} {x : α} {P : α → Prop}
    (h : l[k]? = some x) : (∀ z ∈ l, P z) ↔ P x ∧ ∀ z ∈ l.eraseIdx k, P z := by
  rw [← List.forall_mem_cons]
  exact forall_congr' fun z => by rw [(cons_eraseIdx_perm h).mem_iff]

theorem Tracked.balance (h : Tracked i limit b c) (ht : c.threads[k]? = some (.worker w)) :
    Balance i limit b c.shared.broker w ((c.threads.eraseIdx k).map (Proc.load i)).sum
      fun m => ∀ t ∈ c.threads.eraseIdx k, t.Owns i m := by
  have hmem := List.mem_of_getElem? ht
  refine ⟨?_, fun e he hi => ?_, h.same, h.queue, h.processing, h.counted _ hmem, h.total,
    h.shaped _ hmem, h.recorded _ hmem⟩
  · have hsum := ((cons_eraseIdx_perm ht).map (Proc.load i)).sum_eq
    rw [List.map_cons, List.sum_cons] at hsum
    have hone := h.one
    rw [← hsum] at hone
    change _ + (w.load i + _) ≤ b ∧ _ at hone
    omega
  · obtain ⟨hq, hown⟩ := h.owns e he hi
    rw [forall_mem_iff_erase ht] at hown
    exact ⟨hq, hown.1, hown.2⟩

theorem others_idle (hR : ((c.threads.eraseIdx k).map (Proc.load i)).sum = 0) :
    ∀ t ∈ c.threads.eraseIdx k, t.load i = 0 := by
  intro t ht
  have hle : t.load i ≤ ((c.threads.eraseIdx k).map (Proc.load i)).sum :=
    List.le_sum_of_mem (List.mem_map_of_mem ht)
  omega

theorem others_own (hR : ((c.threads.eraseIdx k).map (Proc.load i)).sum = 0) (m : TaskMessage) :
    ∀ t ∈ c.threads.eraseIdx k, t.Owns i m := by
  intro t ht
  cases t with
  | worker w => exact owns_of_load_zero (others_idle hR _ ht)
  | enqueue pc => trivial

/-- Back from the view of one worker after a step of it. -/
theorem Tracked.of_balance {s : Shared Unit} (h : Tracked i limit b c)
    (ht : c.threads[k]? = some (.worker w))
    (hb : Balance i limit b' s.broker w' ((c.threads.eraseIdx k).map (Proc.load i)).sum
      fun m => ∀ t ∈ c.threads.eraseIdx k, t.Owns i m)
    (hcount : s.broker.startsOf i = c.shared.broker.startsOf i ∨
      ((c.threads.eraseIdx k).map (Proc.load i)).sum = 0)
    (hstarts : ∃ more, s.broker.starts = c.shared.broker.starts ++ more) :
    Tracked i limit b' ⟨s, c.threads.set k (.worker w')⟩ := by
  have hlt : k < c.threads.length := (List.getElem?_eq_some_iff.mp ht).1
  have hset : (c.threads.set k (.worker w'))[k]? = some (.worker w') := List.getElem?_set_self hlt
  have hrest : (c.threads.set k (.worker w')).eraseIdx k = c.threads.eraseIdx k :=
    List.eraseIdx_set_eq
  refine ⟨?_, fun e he hi => ?_, hb.same, hb.queue, hb.processing, ?_, hb.total, ?_, ?_⟩
  · have hsum := ((cons_eraseIdx_perm_set ht (y := Proc.worker w')).map (Proc.load i)).sum_eq
    rw [List.map_cons, List.sum_cons] at hsum
    have hone := hb.one
    show s.broker.queue.copies i + ((c.threads.set k (.worker w')).map (Proc.load i)).sum ≤ b' ∧
      b' ≤ 1
    rw [← hsum]
    change s.broker.queue.copies i + (w'.load i + _) ≤ b' ∧ _
    omega
  · obtain ⟨hq, hown, ho⟩ := hb.owns e he hi
    rw [forall_mem_iff_erase hset, hrest]
    exact ⟨hq, hown, ho⟩
  · rw [forall_mem_iff_erase hset, hrest]
    refine ⟨hb.counted, fun t htm => ?_⟩
    rcases hcount with heq | hR
    · rw [heq]
      exact h.counted t (List.mem_of_mem_eraseIdx htm)
    · cases t with
      | worker v => exact counted_of_load_zero (others_idle hR _ htm)
      | enqueue pc => trivial
  · rw [forall_mem_iff_erase hset, hrest]
    exact ⟨hb.shaped, fun t htm => h.shaped t (List.mem_of_mem_eraseIdx htm)⟩
  · rw [forall_mem_iff_erase hset, hrest]
    refine ⟨hb.recorded, fun t htm job hj hi => ?_⟩
    obtain ⟨more, hmore⟩ := hstarts
    rw [hmore]
    exact (h.recorded t (List.mem_of_mem_eraseIdx htm) job hj hi).mono

end

/-! ## The steps of the system -/

section

/-- The task is not in the hands of any process that can still move it. -/
abbrev Idle (i : Nat) (c : System) : Prop := ∀ t ∈ c.threads, t.load i = 0

def Main.expired : Main → Option (TaskMessage × List Nat)
  | .requeue (p :: _) _ => some p
  | _ => none

def Job.buries (job : Job Unit) : Bool :=
  match job.pc with
  | .burying _ _ => true
  | _ => false

def workerOf (c : System) (k : Nat) : Option (Worker Unit) :=
  match c.threads[k]? with
  | some (.worker w) => some w
  | _ => none

theorem workerOf_mem {c : System} {k : Nat} {w : Worker Unit} (h : workerOf c k = some w) :
    .worker w ∈ c.threads := by
  unfold workerOf at h
  split at h
  · next hk =>
    cases h
    exact List.mem_of_getElem? hk
  · cases h

/-- What `requeueExpired` takes back is still in the processing set, has attempts
left and is in nobody's hands; and an insertion into the DLQ is made on a live
context and succeeds. -/
def sparing (i : Nat) (c : System) : Event → Bool
  | .act k (.worker .command) =>
    ((workerOf c k).bind fun w => w.main.expired).all fun p =>
      i ∉ p.2 ++ c.shared.broker.processing.noteOf p.1 ||
        (i ∈ c.shared.broker.processing.noteOf p.1 && p.1.attempt < p.1.maxAttempts && Idle i c)
  | .act k (.worker (.job j (.command r))) =>
    ((workerOf c k).bind fun w => w.jobs[j]?).all fun job =>
      !job.buries || i ∉ job.note || (!job.ctxDone && r = .ok)
  | _ => true

def Buried (i : Nat) (q : Broker) : Prop := ∃ e ∈ q.dlq, i ∈ e.note

/-- Unless the last attempt has failed, the budget is one. -/
structure Settled (i : Nat) (limit : Int) (b : Nat) (c : System) : Prop extends
    Tracked i limit b c where
  exhausted : ∀ t ∈ c.threads, ∀ job ∈ t.jobs, job.Exhausted i → b = 0 ∧ Buried i c.shared.broker

structure Built (m : TaskMessage) : Prop where
  attempt : 0 ≤ m.attempt
  max : 1 ≤ m.maxAttempts

def Proc.Built : Proc Unit → Prop
  | .enqueue (.setNX _ m) | .enqueue (.zadd m) => Queue.Built m
  | _ => True

structure Inv (i : Nat) (c : System) : Prop where
  broker : c.shared.broker.Below c.shared.broker.accepted.length
  threads : ∀ t ∈ c.threads, t.Below c.shared.broker.accepted.length ∧ t.Built
  accepted : ∀ m ∈ c.shared.broker.accepted, Built m
  settled : ∀ m, c.shared.broker.accepted[i]? = some m → ∃ b, Settled i m.maxAttempts b c

variable {i : Nat} {limit : Int} {b : Nat} {c : System} {k : Nat} {env : Env}
  {s' : Shared Unit} {w w' : Worker Unit} {o : Op (Option String)}

variable {q : Broker} {job job' : Job Unit} {x : JobOp (Option String)} {lost : List Nat}
  {pc : EnqueuePc}

theorem main_rest {H : Handler Unit Unit (Option String)} {q' : Broker}
    (he : MainEffect H env q w o q' w') :
    q'.accepted = q.accepted ∧ q'.dlq = q.dlq ∧ (∃ more, q'.starts = q.starts ++ more) ∧
      ∀ job ∈ w'.jobs, job ∈ w.jobs ∨ job.result = none := by
  have hself : ∃ more, q.starts = q.starts ++ more := ⟨[], (List.append_nil _).symm⟩
  cases he with
  | @started m note hw =>
    exact ⟨rfl, rfl, ⟨[note], rfl⟩, forall_mem_concat (.inr rfl) fun job hj => .inl hj⟩
  | _ => exact ⟨rfl, rfl, hself, fun job hj => .inl hj⟩

theorem job_rest {s : Shared Unit} (he : JobEffect arbitraryHandler env s job x s' job' lost) :
    s'.broker.accepted = s.broker.accepted ∧ s.broker.dlq ⊆ s'.broker.dlq ∧
      s'.broker.starts = s.broker.starts := by
  cases he with
  | ran _ hs => cases hs
  | succeeded _ hs | erred _ hs =>
    cases hs
    exact ⟨rfl, fun _ => id, rfl⟩
  | buried _ _ => exact ⟨rfl, List.subset_append_left _ _, rfl⟩
  | _ => exact ⟨rfl, fun _ => id, rfl⟩

/-- A job becomes exhausted only by its insertion into the DLQ. -/
theorem job_exhausted {s : Shared Unit} (he : JobEffect arbitraryHandler env s job x s' job' lost)
    (hshape : i ∈ job.note → job.Shaped) (hpos : i ∈ job.note → 0 < job.msg.maxAttempts)
    (hbury : ∀ r, x = .command r → job.buries = true → i ∈ job.note →
      job.ctxDone = false ∧ r = .ok)
    (h : job'.Exhausted i) :
    job.Exhausted i ∨ ∃ executed m, job.pc = .burying executed m ∧ job.ctxDone = false ∧
      i ∈ job.note ∧ job' = job.release ∧
      s'.broker = { s.broker with dlq := s.broker.dlq ++ [dlqEntry job m] } := by
  have hover := h.done
  obtain ⟨err, hfail⟩ := h.failed
  cases he with
  | expire => exact .inl ⟨h.mem, h.failed, hover, h.attempt⟩
  | ran _ hs => cases hs
  | succeeded _ hs | erred _ hs =>
    cases hs
    simp [Job.returns] at hover
  | stamp _ => simp [Job.goto] at hover
  | acked hpc _ | unacked hpc _ =>
    have hshape := hshape h.mem
    rw [Job.Shaped, hpc] at hshape
    rw [show job.release.result = job.result from rfl, hshape] at hfail
    cases hfail
  | removed _ _ | unremoved _ _ =>
    simp only [Job.goto, afterRemoval] at hover
    split at hover <;> simp at hover
  | retried hpc _ | unretried hpc _ =>
    have hshape := hshape h.mem
    rw [Job.Shaped, hpc] at hshape
    obtain ⟨hatt, hmax, hlt⟩ := hshape
    have hlast : job.msg.maxAttempts ≤ job.msg.attempt := h.attempt
    have hp := hpos h.mem
    rw [hatt, hmax] at hlt
    exact absurd ⟨hp, hlast⟩ hlt
  | @buried executed m hpc hd => exact .inr ⟨executed, m, hpc, hd, h.mem, rfl, rfl⟩
  | unburied hpc hd =>
    have hok := hbury _ rfl (by simp [Job.buries, hpc]) h.mem
    simp [hok] at hd
  | released hpc _ | unreleased hpc _ =>
    exact .inl ⟨h.mem, h.failed, .inl hpc, h.attempt⟩

section

variable (h : Settled i limit b c)
include h

theorem Settled.keep (ht : c.threads[k]? = some (.worker w))
    (htr : Tracked i limit b ⟨s', c.threads.set k (.worker w')⟩)
    (hdlq : c.shared.broker.dlq ⊆ s'.broker.dlq)
    (hjobs : ∀ job ∈ w'.jobs, job.Exhausted i → ∃ job₀ ∈ w.jobs, job₀.Exhausted i) :
    Settled i limit b ⟨s', c.threads.set k (.worker w')⟩ := by
  have hgone : ∀ t ∈ c.threads, ∀ job ∈ t.jobs, job.Exhausted i → b = 0 ∧ Buried i s'.broker := by
    intro t htm job hj he
    obtain ⟨hb, e, hed, hi⟩ := h.exhausted t htm job hj he
    exact ⟨hb, e, hdlq hed, hi⟩
  refine ⟨htr, forall_mem_set (fun job hj he => ?_) hgone⟩
  obtain ⟨job₀, hj₀, he₀⟩ := hjobs job hj he
  exact hgone _ (List.mem_of_getElem? ht) job₀ hj₀ he₀

theorem settled_main (ht : c.threads[k]? = some (.worker w)) (ha : w.alive = true)
    (he : MainEffect arbitraryHandler env c.shared.broker w o q w')
    (hl : sparing i c (.act k (.worker o)) = true) :
    Settled i limit b ⟨{ c.shared with broker := q }, c.threads.set k (.worker w')⟩ := by
  have hat : workerOf c k = some w := by rw [workerOf, ht]
  have hlift : ∀ m note rest final, w.main = .requeue ((m, note) :: rest) final → o = .command →
      i ∈ note ++ c.shared.broker.processing.noteOf m →
      i ∈ c.shared.broker.processing.noteOf m ∧ m.attempt < m.maxAttempts ∧ w.load i = 0 ∧
        ((c.threads.eraseIdx k).map (Proc.load i)).sum = 0 := by
    intro m note rest final hm ho hi
    subst ho
    simp only [sparing, hat, Option.bind_some, hm, Main.expired, Option.all_some, hi,
      not_true_eq_false, decide_false, Bool.false_or, Bool.and_eq_true, decide_eq_true_eq] at hl
    obtain ⟨⟨hin, hlt⟩, hidle⟩ := hl
    refine ⟨hin, hlt, hidle _ (List.mem_of_getElem? ht), ?_⟩
    rw [List.sum_eq_zero_iff_forall_eq_nat]
    intro x hx
    obtain ⟨t, htm, rfl⟩ := List.mem_map.mp hx
    exact hidle t (List.mem_of_mem_eraseIdx htm)
  obtain ⟨hb, hcount⟩ := main_balance he ha (h.toTracked.balance ht) others_own hlift
  obtain ⟨_, hdlq, hstarts, hjobs⟩ := main_rest he
  refine h.keep ht (h.toTracked.of_balance ht hb hcount hstarts) ?_ fun job hj hex => ?_
  · rw [show ({ c.shared with broker := q } : Shared Unit).broker.dlq = _ from hdlq]
    exact fun _ => id
  · rcases hjobs job hj with hj | hnone
    · exact ⟨job, hj, hex⟩
    · obtain ⟨err, hfail⟩ := hex.failed
      rw [hnone] at hfail
      cases hfail

theorem settled_job {j : Nat} (hpos : 0 < limit) (ht : c.threads[k]? = some (.worker w))
    (ha : w.alive = true) (hj : w.jobs[j]? = some job)
    (he : JobEffect arbitraryHandler env c.shared job x s' job' lost)
    (hl : sparing i c (.act k (.worker (.job j x))) = true) :
    ∃ b, Settled i limit b ⟨s', c.threads.set k
      (.worker (w.withJob j job' (w.dropped ++ lost)))⟩ := by
  have hmem := List.mem_of_getElem? hj
  have hat : workerOf c k = some w := by rw [workerOf, ht]
  have hbal := h.toTracked.balance ht
  have hbury : ∀ r, x = .command r → job.buries = true → i ∈ job.note →
      job.ctxDone = false ∧ r = .ok := by
    intro r hx hb hi
    subst hx
    simpa [sparing, hat, hj, hb, hi] using hl
  have hmax : i ∈ job.note → 0 < job.msg.maxAttempts := by
    intro hi
    rw [(hbal.recorded job hmem hi).bound]
    exact hpos
  obtain ⟨_, hdlq, hstarts⟩ := job_rest he
  have hsame : s'.broker.startsOf i = c.shared.broker.startsOf i := by
    rw [Broker.startsOf, hstarts]
    rfl
  have hmore : ∃ more, s'.broker.starts = c.shared.broker.starts ++ more :=
    ⟨[], by rw [hstarts, List.append_nil]⟩
  by_cases hex : job'.Exhausted i ∧ ¬ job.Exhausted i
  · obtain ⟨executed, m, hpc, hd, hi, rfl, hs⟩ :=
      (job_exhausted he (hbal.shaped job hmem) hmax hbury hex.1).resolve_left hex.2
    have hb := hbal.bury ha hj hd hpc hi (c.shared.broker.dlq ++ [dlqEntry job m])
      (w.dropped ++ lost)
    rw [← hs] at hb
    refine ⟨0, h.toTracked.of_balance ht hb (.inl hsame) hmore, fun _ _ _ _ _ => ⟨rfl, ?_⟩⟩
    refine ⟨dlqEntry job m, ?_, hi⟩
    rw [hs]
    exact List.mem_append_right _ (List.mem_singleton_self _)
  · have hb := job_balance he hpos ha hj hbal (w.dropped ++ lost)
    refine ⟨b, h.keep ht (h.toTracked.of_balance ht hb (.inl hsame) hmore) hdlq ?_⟩
    refine forall_mem_set (fun he' => ⟨job, hmem, ?_⟩) fun job₀ hj₀ he₀ => ⟨job₀, hj₀, he₀⟩
    by_contra hno
    exact hex ⟨he', hno⟩

theorem Settled.enqueue {pc' : EnqueuePc} {z : ZSet TaskMessage}
    (ht : c.threads[k]? = some (.enqueue pc)) (dedup : Keys String) (accepted : List TaskMessage)
    (hcopies : z.copies i ≤ c.shared.broker.queue.copies i)
    (hready : ∀ e ∈ z.entries, i ∈ e.note → Ready limit (c.shared.broker.startsOf i) e.member) :
    Settled i limit b ⟨{ c.shared with broker := { c.shared.broker with
      queue := z, dedup := dedup, accepted := accepted } }, c.threads.set k (.enqueue pc')⟩ := by
  refine { h with
    one := ?_
    owns := fun e he hi => ?_
    queue := hready
    counted := forall_mem_set trivial h.counted
    shaped := forall_mem_set (by simp [Proc.jobs]) h.shaped
    recorded := forall_mem_set (by simp [Proc.jobs]) h.recorded
    exhausted := forall_mem_set (by simp [Proc.jobs]) h.exhausted }
  · have hone := h.one
    have hsum := sum_map_set (f := Proc.load i) (y := Proc.enqueue pc') ht
    change z.copies i + ((c.threads.set k (.enqueue pc')).map (Proc.load i)).sum ≤ b ∧ _
    change _ + 0 = _ + 0 at hsum
    omega
  · obtain ⟨hq, hown⟩ := h.owns e he hi
    exact ⟨⟨Nat.le_zero.mp (hq.1 ▸ hcopies), hq.2⟩, forall_mem_set trivial hown⟩

end

theorem below_load (h : w.Below i) : w.load i = 0 := by
  unfold Worker.load
  split
  · have hmain : w.main.load i = 0 := by
      unfold Main.load
      split
      · rename_i m note hm
        exact if_neg fun hi => (h.carried _ hm i hi).false
      · rfl
    have hjobs : (w.jobs.map (Job.load i)).sum = 0 := by
      rw [List.sum_eq_zero_iff_forall_eq_nat]
      intro x hx
      obtain ⟨job, hj, rfl⟩ := List.mem_map.mp hx
      exact if_neg fun hi => (h.jobs job hj i hi.2).false
    rw [hmain, hjobs]
  · rfl

theorem proc_below_load {t : Proc Unit} (h : t.Below i) : t.load i = 0 := by
  cases t with
  | worker w => exact below_load h
  | enqueue pc => rfl

theorem proc_below_jobs {t : Proc Unit} (h : t.Below i) : ∀ job ∈ t.jobs, i ∉ job.note := by
  intro job hj hi
  cases t with
  | worker w => exact (h.jobs job hj i hi).false
  | enqueue pc => cases hj

/-- The enqueueing that is accepted now has the next number, which nobody has. -/
theorem settled_accepted {m : TaskMessage}
    (hq : c.shared.broker.Below i) (hthreads : ∀ t ∈ c.threads, t.Below i)
    (hi : i = c.shared.broker.accepted.length) (hm : Built m) :
    Settled i m.maxAttempts 1
      ⟨{ c.shared with broker := c.shared.broker.accept env m }, c.threads.set k (.enqueue pc)⟩ := by
  have hnone : ∀ t ∈ c.threads.set k (.enqueue pc), t.Below i := forall_mem_set trivial hthreads
  have hcopies : (c.shared.broker.queue).copies i = 0 :=
    ZSet.copies_eq_zero.mpr fun ⟨e, he, hin⟩ => (hq.queue e he i hin).false
  have hzero : c.shared.broker.startsOf i = 0 := by
    rw [Broker.startsOf, List.countP_eq_zero]
    intro note hn hin
    exact (hq.starts note hn i (by simpa using hin)).false
  have hproc : ∀ e ∈ c.shared.broker.processing.entries, i ∉ e.note :=
    fun e he hin => (hq.processing e he i hin).false
  refine ⟨⟨?_, fun e he hie => absurd hie (hproc e he), fun e he f _ hie => absurd hie (hproc e he),
    fun e he hie => ?_, fun e he hie => absurd hie (hproc e he), fun t ht => ?_, ?_,
    fun t ht job hj hij => absurd hij (proc_below_jobs (hnone t ht) job hj),
    fun t ht job hj hij => absurd hij (proc_below_jobs (hnone t ht) job hj)⟩,
    fun t ht job hj he => absurd he.mem (proc_below_jobs (hnone t ht) job hj)⟩
  · have hadd := @ZSet.copies_add_le _ _ m c.shared.broker.queue i (env.float64 m.availableAt)
      [c.shared.broker.accepted.length]
    have hload : ((c.threads.set k (.enqueue pc)).map (Proc.load i)).sum = 0 := by
      rw [List.sum_eq_zero_iff_forall_eq_nat]
      intro x hx
      obtain ⟨t, ht, rfl⟩ := List.mem_map.mp hx
      exact proc_below_load (hnone t ht)
    rw [hcopies, if_pos (by simp [hi])] at hadd
    refine ⟨?_, le_rfl⟩
    show (c.shared.broker.queue.add m _ _).copies i + _ ≤ 1
    rw [hload]
    exact hadd
  · change Ready _ (c.shared.broker.startsOf i) _
    rw [hzero]
    rcases ZSet.mem_add.mp he with rfl | ⟨he, _⟩
    · exact ⟨rfl, by simpa using hm.attempt, by have := hm.max; push_cast; omega⟩
    · exact absurd hie fun hin => (hq.queue e he i hin).false
  · have hload := proc_below_load (hnone t ht)
    cases t with
    | worker w => exact counted_of_load_zero hload
    | enqueue pc => trivial
  · change (c.shared.broker.startsOf i : Int) ≤ _
    rw [hzero]
    have := hm.max
    push_cast
    omega

theorem message_built (e : Enqueuer) (t : Task) (now : Int) : Built (e.message t now) := by
  refine ⟨?_, ?_⟩
  · simp only [Enqueuer.message]
    split <;> omega
  · simp only [Enqueuer.message]
    split
    · split <;> omega
    · omega

theorem Inv.of_broker {t' : Proc Unit} (h : Inv i c) (hq : q.Below c.shared.broker.accepted.length)
    (hacc : q.accepted = c.shared.broker.accepted)
    (ht' : t'.Below c.shared.broker.accepted.length ∧ t'.Built) (hs : s'.broker = q)
    (hset : ∀ m, c.shared.broker.accepted[i]? = some m →
      ∃ b, Settled i m.maxAttempts b ⟨s', c.threads.set k t'⟩) :
    Inv i ⟨s', c.threads.set k t'⟩ := by
  subst hs
  have hthreads := h.threads
  have haccepted := h.accepted
  rw [← hacc] at hq ht' hset hthreads haccepted
  exact ⟨hq, forall_mem_set ht' hthreads, haccepted, hset⟩

theorem inv_enqueue {pc' : EnqueuePc} (h : Inv i c)
    (ht : c.threads[k]? = some (.enqueue pc)) (he : EnqueueEffect env c.shared.broker pc q pc') :
    Inv i ⟨{ c.shared with broker := q }, c.threads.set k (.enqueue pc')⟩ := by
  have hbuilt := (h.threads _ (List.mem_of_getElem? ht)).2
  have hkeep : ∀ keys {pc'}, (Proc.enqueue pc' : Proc Unit).Built →
      Inv i ⟨{ c.shared with broker := { c.shared.broker with dedup := keys } },
        c.threads.set k (.enqueue pc')⟩ := by
    intro keys pc' hb
    have hq : ({ c.shared.broker with dedup := keys } : Broker).Below _ := { h.broker with }
    refine h.of_broker hq rfl ⟨trivial, hb⟩ rfl fun m hm => ?_
    obtain ⟨b, hs⟩ := h.settled m hm
    exact ⟨b, hs.enqueue ht keys _ le_rfl hs.queue⟩
  cases he with
  | built hpc _ hn =>
    refine hkeep _ ?_
    rcases hn with rfl | ⟨_, rfl⟩ <;> exact message_built _ _ _
  | suppressed hpc _ | failed => exact hkeep _ trivial
  | claimed hpc _ =>
    subst hpc
    exact hkeep _ hbuilt
  | @accepted m hpc =>
    subst hpc
    have hle : c.shared.broker.accepted.length ≤ (c.shared.broker.accepted ++ [m]).length := by simp
    refine ⟨{ h.broker.mono hle with
      queue := below_add (h.broker.mono hle).queue (by simp [Broker.accept]) }, ?_,
      forall_mem_concat hbuilt h.accepted, fun m' hm' => ?_⟩
    · refine forall_mem_set ⟨trivial, trivial⟩ fun t htm => ⟨?_, (h.threads t htm).2⟩
      have hb := (h.threads t htm).1
      cases t with
      | worker w => exact Worker.Below.mono hb hle
      | enqueue pc => trivial
    · change (c.shared.broker.accepted ++ [m])[i]? = some m' at hm'
      by_cases hlt : i < c.shared.broker.accepted.length
      · rw [List.getElem?_append_left hlt] at hm'
        obtain ⟨b, hs⟩ := h.settled m' hm'
        have hni : i ∉ [c.shared.broker.accepted.length] := by simp; omega
        have hcopies := @ZSet.copies_add_le _ _ m c.shared.broker.queue i
          (env.float64 m.availableAt) [c.shared.broker.accepted.length]
        rw [if_neg hni] at hcopies
        exact ⟨b, hs.enqueue ht _ _ hcopies (ready_add hs.queue fun hi => absurd hi hni)⟩
      · have hi : i = c.shared.broker.accepted.length := by
          by_contra hne
          rw [List.getElem?_eq_none (by simp; omega)] at hm'
          cases hm'
        have hm : m' = m := by
          rw [hi] at hm'
          simpa using hm'.symm
        subst hm
        refine ⟨1, settled_accepted (hi ▸ h.broker) (fun t htm => ?_) hi hbuilt⟩
        exact hi ▸ (h.threads t htm).1

theorem inv_worker (h : Inv i c) (ht : c.threads[k]? = some (.worker w))
    (hw : workerStep arbitraryHandler env c.shared w o = some (s', w'))
    (hl : sparing i c (.act k (.worker o)) = true) :
    Inv i ⟨s', c.threads.set k (.worker w')⟩ := by
  have hbelow : w.Below c.shared.broker.accepted.length :=
    (h.threads _ (List.mem_of_getElem? ht)).1
  obtain ⟨ha, ⟨q, he, rfl⟩ | ⟨j, x, job, job', lost, rfl, hj, he, rfl⟩⟩ := worker_effect hw
  · obtain ⟨hq, hw'⟩ := main_below he h.broker hbelow
    refine h.of_broker hq (main_rest he).1 ⟨hw', trivial⟩ rfl fun m hm => ?_
    obtain ⟨b, hs⟩ := h.settled m hm
    exact ⟨b, settled_main hs ht ha he hl⟩
  · have hmem := List.mem_of_getElem? hj
    obtain ⟨hq, hn⟩ := job_below he h.broker (hbelow.jobs job hmem)
    refine h.of_broker hq (job_rest he).1 ⟨?_, trivial⟩ rfl fun m hm => ?_
    · exact ⟨hbelow.carried, hbelow.due, forall_mem_set hn hbelow.jobs⟩
    · obtain ⟨b, hs⟩ := h.settled m hm
      have hpos : 0 < m.maxAttempts := by
        have := (h.accepted m (List.mem_of_getElem? hm)).max
        omega
      exact settled_job hs hpos ht ha hj he hl

theorem inv_spawn (h : Inv i c) (r : Launch) :
    Inv i { c with threads := c.threads ++ [r.proc] } := by
  have hnew : (r.proc : Proc Unit).load i = 0 ∧ (r.proc : Proc Unit).jobs = [] := by
    cases r <;> exact ⟨rfl, rfl⟩
  refine ⟨h.broker, forall_mem_concat ?_ h.threads, h.accepted, fun m hm => ?_⟩
  · cases r with
    | enqueue e t => exact ⟨trivial, trivial⟩
    | worker settings =>
      exact ⟨⟨by simp [Main.carried], by simp [Main.dueList], by simp⟩, trivial⟩
  · obtain ⟨b, hs⟩ := h.settled m hm
    refine ⟨b, { hs with
      one := ?_
      owns := fun e he hi =>
        ⟨(hs.owns e he hi).1, forall_mem_concat ?_ (hs.owns e he hi).2⟩
      counted := forall_mem_concat ?_ hs.counted
      shaped := forall_mem_concat (by simp [hnew.2]) hs.shaped
      recorded := forall_mem_concat (by simp [hnew.2]) hs.recorded
      exhausted := forall_mem_concat (by simp [hnew.2]) hs.exhausted }⟩
    · have hone := hs.one
      rw [List.map_append, List.sum_append, List.map_singleton, List.sum_singleton, hnew.1]
      exact hone
    · cases r with
      | enqueue e t => trivial
      | worker settings => exact owns_of_load_zero hnew.1
    · cases r with
      | enqueue e t => trivial
      | worker settings => exact counted_of_load_zero hnew.1

theorem inv_step {d : System} {l : Event} (h : Inv i c) (hl : sparing i c l = true)
    (hs : (queueMachine arbitraryHandler env).step c l = some d) : Inv i d := by
  cases Machine.step_effect hs with
  | spawn r => exact inv_spawn h r
  | env he =>
    cases he
    refine ⟨{ h.broker with }, h.threads, h.accepted, fun m hm => ?_⟩
    obtain ⟨b, hb⟩ := h.settled m hm
    exact ⟨b, { hb with }⟩
  | act ht hstep =>
    cases proc_effect hstep with
    | enqueue he => exact inv_enqueue h ht (enqueue_effect he)
    | worker hw => exact inv_worker h ht hw hl

end

/-! ## Whole runs -/

def unused (now : Int) (dedup : Keys String) : System :=
  ⟨⟨{ Broker.empty with now := now, dedup := dedup }, ()⟩, []⟩

theorem inv_unused (i : Nat) (now : Int) (dedup : Keys String) : Inv i (unused now dedup) := by
  refine ⟨⟨?_, ?_, ?_⟩, ?_, ?_, ?_⟩ <;> intro x hx <;> cases hx

/-- The job is the M-th start of enqueueing `i`, its handler has returned an error
and `handleFailure` is through. -/
structure LastStartFailed (i : Nat) (M : Int) (q : Broker) (job : Job Unit) : Prop where
  mem : i ∈ job.note
  last : (job.nth i q.starts : Int) = M
  failed : ∃ err, job.result = some (some err)
  done : job.pc = .releasing ∨ job.pc = .ended

/-- In every run in which `requeueExpired` spares enqueueing `i` as `sparing` says
and its insertion into the DLQ succeeds: the handler is started at most MaxAttempts
times, and once the last start has failed the task is in the DLQ and in neither
sorted set. -/
theorem started_at_most_max (env : Env) (now : Int) (dedup : Keys String) (i : Nat)
    (events : List Event) (c : System)
    (hmeets : Meets (queueMachine arbitraryHandler env).step
      (fun c l => sparing i c l = true) (unused now dedup) events)
    (hrun : run (queueMachine arbitraryHandler env).step (unused now dedup) events = some c)
    (m : TaskMessage) (hm : c.shared.broker.accepted[i]? = some m) :
    (c.shared.broker.startsOf i : Int) ≤ m.maxAttempts ∧
      ∀ w, .worker w ∈ c.threads → ∀ job ∈ w.jobs,
        LastStartFailed i m.maxAttempts c.shared.broker job →
        (∃ e ∈ c.shared.broker.dlq, i ∈ e.note) ∧ ¬ c.shared.broker.queue.Carries i ∧
          ¬ c.shared.broker.processing.Carries i := by
  have hinv : Inv i c := run_inv (fun _ _ _ hc hl hs => inv_step hc hl hs)
    (inv_unused i now dedup) hmeets hrun
  obtain ⟨b, hs⟩ := hinv.settled m hm
  refine ⟨hs.total, fun w hw job hj hlast => ?_⟩
  have hrec := hs.recorded _ hw job hj hlast.mem
  have hatt : job.msg.maxAttempts ≤ job.msg.attempt := by
    have hnth := hrec.nth
    have hbound := hrec.bound
    have heq := hlast.last
    omega
  obtain ⟨hb, hbur⟩ :=
    hs.exhausted _ hw job hj ⟨hlast.mem, hlast.failed, hlast.done, hatt⟩
  refine ⟨hbur, ?_, ?_⟩
  · have hone := hs.one
    exact ZSet.copies_eq_zero.mp (by omega)
  · rintro ⟨e, he, hi⟩
    have hone := (hs.owns e he hi).1.2
    omega

/-! ## A task with a single attempt -/

def onceMessage (attempt availableAt : Int) : TaskMessage :=
  ⟨"mail", "", "hello", attempt, 1, availableAt, ""⟩

def startOnce : List Event :=
  [.spawn (.worker plainSettings), .spawn (.enqueue ⟨0, 0⟩ { mailTask with maxAttempts := 1 }),
    .act 1 (.enqueue .ok), .act 1 (.enqueue .ok), .act 0 (.worker .poll),
    .act 0 (.worker (.pop (onceMessage 0 0)))] ++ takeAndStart 0

/-- Worker 0 crashes. After the visibility timeout worker 2 takes the task back,
which has no attempt left, and starts it again. -/
def crashAndRequeue : List Event :=
  startOnce ++ [.act 0 (.worker .crash), .spawn (.worker plainSettings), .env 30000000000,
    .act 2 (.worker .scan), .act 2 (.worker .command), .act 2 (.worker .command),
    .act 2 (.worker .clock), .act 2 (.worker .command),
    .act 2 (.worker (.pop (onceMessage 1 30000000000)))] ++ takeAndStart 2

def failLate : List Event :=
  startOnce ++ [.env 30000000000, .act 0 (.worker (.job 0 .expire)),
    .act 0 (.worker (.job 0 (.handler (some "refused")))),
    .act 0 (.worker (.job 0 (.command .ok))), .act 0 (.worker (.job 0 (.command .ok)))]

def failInTime : List Event :=
  startOnce ++ [.act 0 (.worker (.job 0 (.handler (some "refused")))),
    .act 0 (.worker (.job 0 (.command .ok))), .act 0 (.worker (.job 0 (.command .ok)))]

def firstJob (c : System) : Option (Job Unit) := (workerOf c 0).bind fun w => w.jobs[0]?

theorem firstJob_mem {c : System} {job : Job Unit} (h : firstJob c = some job) :
    ∃ w, .worker w ∈ c.threads ∧ job ∈ w.jobs := by
  obtain ⟨w, hw, hj⟩ := Option.bind_eq_some_iff.mp h
  exact ⟨w, workerOf_mem hw, List.mem_of_getElem? hj⟩

/-- The first job is the only start of the task, and has failed. -/
abbrev OnlyStartFailed (c : System) (job : Job Unit) : Prop :=
  0 ∈ job.note ∧ job.nth 0 c.shared.broker.starts = 1 ∧ job.result = some (some "refused") ∧
    job.pc = .ended

theorem OnlyStartFailed.last {c : System} {job : Job Unit} (h : OnlyStartFailed c job) :
    LastStartFailed 0 1 c.shared.broker job :=
  ⟨h.1, by rw [h.2.1]; rfl, ⟨_, h.2.2.1⟩, .inr h.2.2.2⟩

/-- With one attempt, a crash leads to a second start; and a failure after the
deadline leaves the task in the processing set and not in the DLQ. -/
theorem single_attempt_exceeded :
    (∃ c, run (queueMachine arbitraryHandler mailEnv).step (unused 0 .empty) crashAndRequeue =
        some c ∧ c.shared.broker.accepted[0]? = some (onceMessage 0 0) ∧
        c.shared.broker.startsOf 0 = 2) ∧
    ∃ c job, run (queueMachine arbitraryHandler mailEnv).step (unused 0 .empty) failLate = some c ∧
      c.shared.broker.accepted[0]? = some (onceMessage 0 0) ∧ firstJob c = some job ∧
      LastStartFailed 0 1 c.shared.broker job ∧ c.shared.broker.dlq = [] ∧
      c.shared.broker.processing.Carries 0 := by
  constructor
  · exact reaches (P := fun c : System => c.shared.broker.accepted[0]? = some (onceMessage 0 0) ∧
      c.shared.broker.startsOf 0 = 2) (by decide +kernel)
  · obtain ⟨c, hc, hacc, ⟨job, hj, hfail⟩, hdlq, hin⟩ := reaches (P := fun c : System =>
        c.shared.broker.accepted[0]? = some (onceMessage 0 0) ∧
        (∃ job ∈ firstJob c, OnlyStartFailed c job) ∧ c.shared.broker.dlq = [] ∧
        c.shared.broker.processing.Carries 0)
      (o := run (queueMachine arbitraryHandler mailEnv).step (unused 0 .empty) failLate)
      (by decide +kernel)
    exact ⟨c, job, hc, hacc, hj, hfail.last, hdlq, hin⟩

theorem single_attempt_buried :
    ∃ c job, run (queueMachine arbitraryHandler mailEnv).step (unused 0 .empty) failInTime = some c ∧
      firstJob c = some job ∧ LastStartFailed 0 1 c.shared.broker job ∧
      (c.shared.broker.startsOf 0 : Int) ≤ 1 ∧
      (∃ e ∈ c.shared.broker.dlq, 0 ∈ e.note) ∧ ¬ c.shared.broker.queue.Carries 0 ∧
      ¬ c.shared.broker.processing.Carries 0 := by
  obtain ⟨c, hc, hacc, job, hj, hfail⟩ := reaches (P := fun c : System =>
      c.shared.broker.accepted[0]? = some (onceMessage 0 0) ∧
      ∃ job ∈ firstJob c, OnlyStartFailed c job)
    (o := run (queueMachine arbitraryHandler mailEnv).step (unused 0 .empty) failInTime)
    (by decide +kernel)
  obtain ⟨w, hw, hjw⟩ := firstJob_mem hj
  obtain ⟨hstarts, hlast⟩ := started_at_most_max mailEnv 0 .empty 0 failInTime c (by decide +kernel)
    hc (onceMessage 0 0) hacc
  exact ⟨c, job, hc, hj, hfail.last, hstarts, hlast w hw job hjw hfail.last⟩

end TokoApi.Queue
