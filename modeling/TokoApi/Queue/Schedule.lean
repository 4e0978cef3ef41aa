import TokoApi.Queue.Kinds

/-!
# No task is started early

Four places of queue.go write to the queue of a kind: `Enqueue`, the loop when what it
has popped is not yet due, `handleFailure` and `requeueExpired`. Each takes the score
from the message that it writes. So ZPOPMIN gives out the message that is due first,
and a message that the loop takes to its handler is due. A note of the queue is due
when its message is, or has been due before: a retry may be put before the time for
which its task was enqueued, but not before that time has come.
-/
namespace TokoApi.Queue

open Lib.Redis Lib.Threads Lib.Runs Resilience

/-! ## Where messages come from -/

/-- `Enqueue` has built the message when it read the clock in a state of `V`. -/
def Origin (V : System → Prop) (m : TaskMessage) (e : Enqueuer) (t : Task) (at_ : Int) : Prop :=
  m = e.message t at_ ∧ ∃ (c : System) (i : Nat), V c ∧ c.shared.broker.now = at_ ∧
    c.threads[i]? = some (.enqueue (.message e t))

/-- `handleFailure` has read the clock in a state of `V`, and `delay` is the backoff that
it has added. -/
def Retry (V : System → Prop) (r : TaskMessage) (at_ delay : Int) : Prop :=
  r.availableAt = at_ + delay ∧ ∃ c i w job m executed delta, V c ∧ c.shared.broker.now = at_ ∧
    workerOf c i = some w ∧ job ∈ w.jobs ∧ job.pc = .failed executed m ∧
    delay = backoff w.settings.base m.attempt w.settings.retryJitter delta ∧
    r = { m with availableAt := r.availableAt }

/-! ## What is due -/

/-- The enqueueings were accepted, for no later than the time. -/
def Due (q : Broker) (time : Int) (note : List Nat) : Prop :=
  ∀ k ∈ note, ∃ a, q.accepted[k]? = some a ∧ a.availableAt ≤ time

structure Timetable (V : System → Prop) (q : Broker) : Prop where
  exact : ∀ e ∈ q.queue.entries, e.score = e.member.availableAt
  queued : ∀ e ∈ q.queue.entries, Due q (max e.member.availableAt q.now) e.note
  taken : ∀ e ∈ q.processing.entries, Due q q.now e.note
  origin : ∀ m ∈ q.accepted, ∃ e t at_, Origin V m e t at_

def Main.OnTime (q : Broker) : Main → Prop
  | .popped m note | .pushBack m note => Due q (max m.availableAt q.now) note
  | .due m note | .taking m note _ | .waiting m note => m.availableAt ≤ q.now ∧ Due q q.now note
  | .lifted _ note rest _ | .moving _ note rest _ =>
    Due q q.now note ∧ ∀ p ∈ rest, Due q q.now p.2
  | .requeue rest _ => ∀ p ∈ rest, Due q q.now p.2
  | _ => True

def Job.OnTime (V : System → Prop) (q : Broker) (job : Job Unit) : Prop :=
  Due q q.now job.note ∧
    ∀ executed r, job.pc = .retrying executed r → ∃ at_ delay, Retry V r at_ delay

def EnqueuePc.OnTime (V : System → Prop) : EnqueuePc → Prop
  | .setNX _ m | .zadd m => ∃ e t at_, Origin V m e t at_
  | _ => True

def Proc.OnTime (V : System → Prop) (q : Broker) : Proc Unit → Prop
  | .enqueue pc => pc.OnTime V
  | .worker w => w.main.OnTime q ∧ ∀ job ∈ w.jobs, job.OnTime V q

structure Later (q q' : Broker) : Prop where
  now : q.now ≤ q'.now
  accepted : ∀ (k : Nat) a, q.accepted[k]? = some a → q'.accepted[k]? = some a

variable {V : System → Prop} {env : Env} {q q' : Broker} {m : TaskMessage} {note : List Nat}
  {time time' : Int}

theorem Later.same (hn : q'.now = q.now) (ha : q'.accepted = q.accepted) : Later q q' :=
  ⟨le_of_eq hn.symm, fun _ _ h => ha ▸ h⟩

theorem Due.later (h : Due q time note) (hq : Later q q') (ht : time ≤ time') : Due q' time' note := by
  intro k hk
  obtain ⟨a, ha, hle⟩ := h k hk
  exact ⟨a, hq.accepted k a ha, hle.trans ht⟩

theorem Due.now (h : Due q q.now note) (hq : Later q q') : Due q' q'.now note := h.later hq hq.now

theorem Due.queued (h : Due q q.now note) : Due q (max m.availableAt q.now) note :=
  h.later (.same rfl rfl) (le_max_right _ _)

theorem Due.append {note' : List Nat} (h : Due q time note) (h' : Due q time note') :
    Due q time (note ++ note') := by
  exact List.forall_mem_append.mpr ⟨h, h'⟩

theorem Main.OnTime.later {pc : Main} (h : pc.OnTime q) (hq : Later q q') : pc.OnTime q' := by
  have hmax : ∀ t : Int, max t q.now ≤ max t q'.now := fun t => max_le_max le_rfl hq.now
  cases pc with
  | popped m note | pushBack m note => exact Due.later h hq (hmax _)
  | due m note | taking m note t | waiting m note => exact ⟨h.1.trans hq.now, h.2.now hq⟩
  | lifted m note rest final | moving m note rest final =>
    exact ⟨h.1.now hq, fun p hp => (h.2 p hp).now hq⟩
  | requeue rest final => exact fun p hp => Due.now (h p hp) hq
  | _ => trivial

theorem Proc.OnTime.later {t : Proc Unit} (h : t.OnTime V q) (hq : Later q q') : t.OnTime V q' := by
  cases t with
  | enqueue pc => exact h
  | worker w => exact ⟨h.1.later hq, fun job hj => ⟨(h.2 job hj).1.now hq, (h.2 job hj).2⟩⟩

/-! ## The writes to the broker -/

theorem Timetable.congr (h : Timetable V q) (hq : Later q q') (hqueue : q'.queue = q.queue)
    (hproc : q'.processing = q.processing) (hacc : q'.accepted = q.accepted) : Timetable V q' where
  exact := hqueue ▸ h.exact
  queued e he := (h.queued e (hqueue ▸ he)).later hq (max_le_max le_rfl hq.now)
  taken e he := (h.taken e (hproc ▸ he)).now hq
  origin := hacc ▸ h.origin

theorem Timetable.push (hexact : ∀ t, env.float64 t = t) (h : Timetable V q)
    (hd : Due q (max m.availableAt q.now) note) : Timetable V (q.pushQueue env m note) where
  exact e he := by
    rcases ZSet.mem_add.mp he with rfl | ⟨he, _⟩
    · exact hexact _
    · exact h.exact e he
  queued := ZSet.notes_add (P := fun (m : TaskMessage) note => Due q (max m.availableAt q.now) note)
    (fun _ _ => Due.append) h.queued hd
  taken := h.taken
  origin := h.origin

theorem Timetable.pop (h : Timetable V q) : Timetable V { q with queue := q.queue.rem m } where
  exact e he := h.exact e (ZSet.mem_rem.mp he).1
  queued e he := h.queued e (ZSet.mem_rem.mp he).1
  taken := h.taken
  origin := h.origin

theorem Timetable.take {score : Int} (h : Timetable V q) (hd : Due q q.now note) :
    Timetable V { q with processing := q.processing.add m score note } where
  exact := h.exact
  queued := h.queued
  taken := ZSet.notes_add (P := fun _ note => Due q q.now note) (fun _ _ => Due.append) h.taken hd
  origin := h.origin

theorem Timetable.remove (h : Timetable V q) :
    Timetable V { q with processing := q.processing.rem m } where
  exact := h.exact
  queued := h.queued
  taken e he := h.taken e (ZSet.mem_rem.mp he).1
  origin := h.origin

theorem later_accept : Later q (q.accept env m) := by
  refine ⟨Int.le_refl _, fun k a ha => ?_⟩
  obtain ⟨hk, _⟩ := List.getElem?_eq_some_iff.mp ha
  exact (List.getElem?_append_left hk).trans ha

theorem Timetable.accept (hexact : ∀ t, env.float64 t = t) (h : Timetable V q)
    (ho : ∃ e t at_, Origin V m e t at_) : Timetable V (q.accept env m) := by
  have hgrown : Timetable V { q with accepted := q.accepted ++ [m] } := by
    have hlater : Later q (q.accept env m) := later_accept
    have hq : Later q { q with accepted := q.accepted ++ [m] } := ⟨le_rfl, hlater.accepted⟩
    refine ⟨h.exact, fun e he => (h.queued e he).later hq le_rfl,
      fun e he => (h.taken e he).later hq le_rfl, forall_mem_concat ho h.origin⟩
  have hdue : Due { q with accepted := q.accepted ++ [m] } (max m.availableAt q.now)
      [q.accepted.length] := by
    intro k hk
    obtain rfl := List.mem_singleton.mp hk
    exact ⟨m, List.getElem?_concat_length, le_max_left _ _⟩
  exact hgrown.push hexact hdue

/-! ## One step -/

section

variable {H : Handler Unit Unit (Option String)} {w w' : Worker Unit} {o : Op (Option String)}

theorem due_of_clock {pc : Main} (h : mainStep H env q w .clock = some (q', w.goto pc))
    (hw : w.main = .popped m note) (hpc : pc = .due { m with attempt := m.attempt + 1 } note) :
    m.availableAt ≤ q.now := by
  simp only [mainStep, hw] at h
  split at h
  · subst hpc
    cases congrArg Worker.main (Prod.mk.inj (Option.some.inj h)).2
  · omega

theorem empty_onTime {pc : Main} (h : pc.Empty) (hd : ∀ p ∈ pc.dueList, Due q q.now p.2) :
    pc.OnTime q := by
  cases pc with
  | requeue rest final => exact hd
  | _ => trivial

theorem Main.OnTime.dueList {pc : Main} (h : pc.OnTime q) : ∀ p ∈ pc.dueList, Due q q.now p.2 := by
  cases pc with
  | requeue rest final => exact h
  | lifted m note rest final | moving m note rest final => exact h.2
  | _ => exact List.forall_mem_nil _

theorem main_onTime (hexact : ∀ t, env.float64 t = t) (hq : Timetable V q) (hm : w.main.OnTime q)
    (h : mainStep H env q w o = some (q', w')) :
    Timetable V q' ∧ Later q q' ∧ w'.main.OnTime q' ∧
      ∀ job ∈ w'.jobs, job ∈ w.jobs ∨ ∃ m note, job = newJob H w q m note ∧ Due q q.now note := by
  have hjobs : ∀ job ∈ w.jobs, job ∈ w.jobs ∨ ∃ m note, job = newJob H w q m note ∧ Due q q.now note :=
    fun job hj => .inl hj
  cases main_effect h with
  | idle _ hpc _ hd =>
    refine ⟨hq, .same rfl rfl, empty_onTime hpc fun p hp => ?_, hjobs⟩
    obtain ⟨e, he, rfl, _⟩ := hd p hp
    exact hq.taken e he
  | pop _ _ he => exact ⟨hq.pop, .same rfl rfl, hq.queued _ he, hjobs⟩
  | notDue hw | stamp hw _ | restamp hw =>
    rw [hw] at hm
    exact ⟨hq, .same rfl rfl, hm, hjobs⟩
  | due hw =>
    have hle := due_of_clock h hw rfl
    rw [hw] at hm
    have hdue : Due q (max _ q.now) _ := hm
    rw [max_eq_right hle] at hdue
    exact ⟨hq, .same rfl rfl, ⟨hle, hdue⟩, hjobs⟩
  | lift hw _ =>
    rw [hw] at hm
    obtain ⟨hfirst, hrest⟩ := List.forall_mem_cons.mp hm
    refine ⟨hq.remove, .same rfl rfl, ⟨?_, hrest⟩, hjobs⟩
    exact ZSet.notes_join (P := fun _ note => Due q q.now note) (fun _ _ => Due.append) hq.taken hfirst
  | miss hw _ _ =>
    rw [hw] at hm
    exact ⟨hq, .same rfl rfl, ⟨List.forall_mem_nil _, (List.forall_mem_cons.mp hm).2⟩, hjobs⟩
  | @moved _ _ rest final hw _ =>
    rw [hw] at hm
    refine ⟨hq.push hexact hm.1.queued, .same rfl rfl, ?_, hjobs⟩
    have hrest : ∀ p ∈ (afterRequeue rest final).dueList, Due q q.now p.2 := by
      rw [afterRequeue_due]
      exact hm.2
    exact empty_onTime (afterRequeue_empty rest final) hrest
  | pushed hw =>
    rw [hw] at hm
    exact ⟨hq.push hexact hm, .same rfl rfl, trivial, hjobs⟩
  | lost _ hpc hd _ => exact ⟨hq, .same rfl rfl, empty_onTime hpc fun p hp => hm.dueList p (hd hp), hjobs⟩
  | taken hw =>
    rw [hw] at hm
    exact ⟨hq.take hm.2, .same rfl rfl, hm, hjobs⟩
  | started hw =>
    rw [hw] at hm
    exact ⟨hq.congr (.same rfl rfl) rfl rfl rfl, .same rfl rfl, trivial,
      forall_mem_concat (.inr ⟨_, _, rfl, hm.2⟩) fun job hj => .inl hj⟩
  | cancel | crash => exact ⟨hq, .same rfl rfl, hm, hjobs⟩

variable {s s' : Shared Unit} {job job' : Job Unit} {x : JobOp (Option String)} {lost : List Nat}

theorem retry_of_clock {delta : Int} {executed : Bool} {r : TaskMessage}
    (h : jobStep H env w s job (.clock delta) = some (s', job', lost))
    (hpc : job'.pc = .retrying executed r) : ∃ m, job.pc = .failed executed m ∧
      r.availableAt = s.broker.now + backoff w.settings.base m.attempt w.settings.retryJitter delta ∧
      r = { m with availableAt := r.availableAt } := by
  cases hjob : job.pc <;> simp only [jobStep, hjob] at h
  case failed ex m =>
    cases h
    cases hpc
    exact ⟨m, rfl, rfl, rfl⟩
  all_goals cases h

theorem release_pc (job : Job Unit) : job.release.pc = .ended ∨ job.release.pc = .releasing := by
  unfold Job.release
  split
  · exact .inl rfl
  · exact .inr rfl

theorem afterRemoval_pc (executed : Bool) (m : TaskMessage) :
    (afterRemoval executed m : JobPc Unit) = .burying executed m ∨
      (afterRemoval executed m : JobPc Unit) = .failed executed m := by
  unfold afterRemoval
  split
  · exact .inl rfl
  · exact .inr rfl

/-- A job of a worker. The message of a retry is made by the clock step. -/
theorem job_onTime (hexact : ∀ t, env.float64 t = t) (hq : Timetable V s.broker)
    (hj : job.OnTime V s.broker)
    (h : jobStep arbitraryHandler env w s job x = some (s', job', lost)) :
    Timetable V s'.broker ∧ Later s.broker s'.broker ∧ Due s'.broker s'.broker.now job'.note ∧
      ∀ executed r, job'.pc = .retrying executed r → job.pc = .retrying executed r ∨
        ∃ delta, x = .clock delta := by
  obtain ⟨hdue, _⟩ := hj
  have hrelease : ∀ {executed : Bool} {r : TaskMessage}, job.release.pc ≠ .retrying executed r := by
    intro executed r hr
    rcases release_pc job with hp | hp <;> rw [hp] at hr <;> cases hr
  have hremoval : ∀ {ex executed : Bool} {m r : TaskMessage},
      (job.goto (afterRemoval ex m)).pc ≠ .retrying executed r := by
    intro ex executed m r (hr : afterRemoval ex m = _)
    rcases afterRemoval_pc ex m with hp | hp <;> rw [hp] at hr <;> cases hr
  cases job_effect h with
  | expire => exact ⟨hq, .same rfl rfl, hdue, fun _ _ hr => .inl hr⟩
  | ran hpc hs => cases hs
  | succeeded hpc hs =>
    cases hs
    exact ⟨hq.congr (.same rfl rfl) rfl rfl rfl, .same rfl rfl, hdue, nofun⟩
  | erred hpc hs =>
    cases hs
    exact ⟨hq, .same rfl rfl, hdue, nofun⟩
  | stamp hpc => exact ⟨hq, .same rfl rfl, hdue, fun _ _ _ => .inr ⟨_, rfl⟩⟩
  | acked _ _ => exact ⟨hq.remove, .same rfl rfl, hdue, fun _ _ hr => absurd hr hrelease⟩
  | removed _ _ => exact ⟨hq.remove, .same rfl rfl, hdue, fun _ _ hr => absurd hr hremoval⟩
  | unremoved _ _ => exact ⟨hq, .same rfl rfl, hdue, fun _ _ hr => absurd hr hremoval⟩
  | retried hpc _ =>
    exact ⟨hq.push hexact hdue.queued, .same rfl rfl, hdue, nofun⟩
  | buried _ _ =>
    exact ⟨hq.congr (.same rfl rfl) rfl rfl rfl, .same rfl rfl, hdue, fun _ _ hr => absurd hr hrelease⟩
  | unacked _ _ | unburied _ _ => exact ⟨hq, .same rfl rfl, hdue, fun _ _ hr => absurd hr hrelease⟩
  | released _ _ =>
    exact ⟨hq.congr (.same rfl rfl) rfl rfl rfl, .same rfl rfl, hdue, nofun⟩
  | unretried _ _ | unreleased _ _ => exact ⟨hq, .same rfl rfl, hdue, nofun⟩

end

structure Scheduled (V : System → Prop) (c : System) : Prop where
  table : Timetable V c.shared.broker
  threads : ∀ t ∈ c.threads, t.OnTime V c.shared.broker

variable {c d : System} {l : Event}

theorem Scheduled.set {k : Nat} {s' : Shared Unit} {t' : Proc Unit} (h : Scheduled V c)
    (hq : Timetable V s'.broker) (hlater : Later c.shared.broker s'.broker)
    (ht : t'.OnTime V s'.broker) : Scheduled V ⟨s', c.threads.set k t'⟩ :=
  ⟨hq, forall_mem_set ht fun t ht => (h.threads t ht).later hlater⟩

section

variable (hexact : ∀ t, env.float64 t = t) (hV : V c) (h : Scheduled V c)
include hexact hV h

theorem enqueue_scheduled {k : Nat} {pc pc' : EnqueuePc} {a : Call}
    (ht : c.threads[k]? = some (.enqueue pc))
    (hs : enqueueStep env c.shared.broker pc a = some (q, pc')) :
    Scheduled V ⟨{ c.shared with broker := q }, c.threads.set k (.enqueue pc')⟩ := by
  have hpc : pc.OnTime V := h.threads _ (List.mem_of_getElem? ht)
  cases enqueue_effect hs with
  | @built e t _ he _ hn =>
    subst he
    have ho : Origin V (e.message t c.shared.broker.now) e t c.shared.broker.now :=
      ⟨rfl, c, k, hV, rfl, ht⟩
    refine h.set h.table (.same rfl rfl) ?_
    rcases hn with rfl | ⟨_, rfl⟩ <;> exact ⟨e, t, _, ho⟩
  | suppressed _ _ | failed => exact h.set h.table (.same rfl rfl) trivial
  | claimed hm _ =>
    subst hm
    exact h.set (h.table.congr (.same rfl rfl) rfl rfl rfl) (.same rfl rfl) hpc
  | accepted hm =>
    subst hm
    exact h.set (h.table.accept hexact hpc) later_accept trivial

theorem worker_scheduled {k : Nat} {w w' : Worker Unit} {o : Op (Option String)} {s' : Shared Unit}
    (ht : c.threads[k]? = some (.worker w))
    (hs : workerStep arbitraryHandler env c.shared w o = some (s', w')) :
    Scheduled V ⟨s', c.threads.set k (.worker w')⟩ := by
  obtain ⟨hmain, hjobs⟩ : (Proc.worker w).OnTime V c.shared.broker :=
    h.threads _ (List.mem_of_getElem? ht)
  obtain ⟨_, ⟨q, hm, rfl⟩ | ⟨j, x, job, job', lost, rfl, hj, hjob, rfl⟩⟩ := worker_cases hs
  · obtain ⟨hq, hlater, hpc, hnew⟩ := main_onTime hexact h.table hmain hm
    refine h.set hq hlater ⟨hpc, fun job hj => ?_⟩
    rcases hnew job hj with hold | ⟨m, note, rfl, hdue⟩
    · exact ⟨(hjobs job hold).1.now hlater, (hjobs job hold).2⟩
    · exact ⟨hdue.now hlater, nofun⟩
  · have hmem := List.mem_of_getElem? hj
    obtain ⟨hq, hlater, hdue, hretry⟩ := job_onTime hexact h.table (hjobs job hmem) hjob
    refine h.set hq hlater ⟨hmain.later hlater, forall_mem_set ⟨hdue, fun executed r hr => ?_⟩
      fun job hj => ⟨(hjobs job hj).1.now hlater, (hjobs job hj).2⟩⟩
    rcases hretry executed r hr with hold | ⟨delta, rfl⟩
    · exact (hjobs job hmem).2 executed r hold
    · obtain ⟨m, hfailed, hat, hr⟩ := retry_of_clock hjob hr
      exact ⟨_, _, hat, c, k, w, job, m, executed, delta, hV, rfl, by simp [workerOf, ht], hmem,
        hfailed, rfl, hr⟩

theorem scheduled_step (hs : (queueMachine arbitraryHandler env).step c l = some d) :
    Scheduled V d := by
  cases Machine.step_effect hs with
  | spawn r =>
    refine ⟨h.table, forall_mem_concat ?_ h.threads⟩
    cases r with
    | enqueue e t => trivial
    | worker settings => exact ⟨trivial, List.forall_mem_nil _⟩
  | @env n _ he =>
    cases he
    have hlater : Later c.shared.broker { c.shared.broker with now := c.shared.broker.now + n } :=
      ⟨by simp, fun _ _ h => h⟩
    exact ⟨h.table.congr hlater rfl rfl rfl, fun t ht => (h.threads t ht).later hlater⟩
  | act ht hl =>
    cases proc_effect hl with
    | enqueue he => exact enqueue_scheduled hexact hV h ht he
    | worker hw => exact worker_scheduled hexact hV h ht hw

end

theorem popped_first {k : Nat} (h : Timetable V c.shared.broker)
    (hs : (queueMachine arbitraryHandler env).step c (.act k (.worker (.pop m))) = some d) :
    ∀ e ∈ c.shared.broker.queue.entries, m.availableAt ≤ e.member.availableAt := by
  obtain ⟨t, s', t', _, hl, rfl⟩ := Machine.step_act hs
  cases t with
  | enqueue pc => cases hl
  | worker w =>
    obtain ⟨⟨s₁, w'⟩, hw, _⟩ := Option.map_eq_some_iff.mp hl
    obtain ⟨_, ⟨q, hm, _⟩ | ⟨_, _, _, _, _, ho, _⟩⟩ := worker_cases hw
    · simp only [mainStep] at hm
      split at hm
      · split at hm
        · cases hm
        · rename_i first _ hpop
          obtain ⟨hfirst, rfl, _, hmin⟩ := ZSet.popMin_inv hpop
          intro e he
          calc first.member.availableAt = first.score := (h.exact first hfirst).symm
            _ ≤ e.score := hmin e he
            _ = e.member.availableAt := h.exact e he
      · cases hm
    · cases ho

/-! ## Runs -/

section

variable {keyPrefix kind : String} {float64 : Int → Int} {r₀ r : Kinds}
  {labels : List (String × Event)}

def Seen (keyPrefix kind : String) (float64 : Int → Int) (r₀ : Kinds)
    (labels : List (String × Event)) (c : System) : Prop :=
  ∃ u, Visits (kindsStep keyPrefix float64) r₀ labels u ∧ u.system keyPrefix kind = c

def AboutToStart (c : System) (m : TaskMessage) (note : List Nat) : Prop :=
  ∃ i w, workerOf c i = some w ∧ w.main = .waiting m note

theorem scheduled_unused (now : Int) (dedup : Keys String) :
    Scheduled V ((Kinds.unused now dedup).system keyPrefix kind) where
  table := by
    constructor
    · exact List.forall_mem_nil _
    · exact List.forall_mem_nil _
    · exact List.forall_mem_nil _
    · exact List.forall_mem_nil _
  threads := List.forall_mem_nil _

theorem scheduled_visited (hexact : ∀ t, float64 t = t) {now : Int} {dedup : Keys String}
    (hkind : ∀ l ∈ labels, l.1 = kind) {u : Kinds}
    (hu : Visits (kindsStep keyPrefix float64) (.unused now dedup) labels u) :
    Scheduled (Seen keyPrefix kind float64 (.unused now dedup) labels)
      (u.system keyPrefix kind) := by
  obtain ⟨n, hrun⟩ := hu
  have hkinds : Meets (kindsStep keyPrefix float64) (fun _ l => l.1 = kind) (.unused now dedup)
      (labels.take n) := meets_of_forall fun l hl => hkind l (List.mem_of_mem_take hl)
  refine run_inv (I := fun u : Kinds => Scheduled (Seen keyPrefix kind float64 (.unused now dedup)
    labels) (u.system keyPrefix kind)) ?_ (scheduled_unused now dedup)
    (hkinds.and (meets_visits hrun)) hrun
  rintro u ⟨_, a⟩ v h ⟨rfl, hvisit⟩ hs
  obtain ⟨c, hc, rfl⟩ := Option.map_eq_some_iff.mp hs
  obtain ⟨k, hk⟩ := hvisit
  rw [system_put]
  refine scheduled_step hexact ⟨u, ⟨min k n, ?_⟩, rfl⟩ h hc
  rwa [List.take_take] at hk

end

/-- In every run of the processes of one kind: each score is the time inside its
message. A handler is not started before that time, nor before the time of the
enqueueings behind it, nor, if its message was written by `handleFailure`, before the
failure and the backoff. What ZPOPMIN gives out is due before all that stays. -/
theorem started_when_due (keyPrefix kind : String) (float64 : Int → Int)
    (hexact : ∀ t, float64 t = t) (now : Int) (dedup : Keys String)
    (labels : List (String × Event)) (hkind : ∀ l ∈ labels, l.1 = kind) (r : Kinds)
    (hrun : run (kindsStep keyPrefix float64) (.unused now dedup) labels = some r) :
    (∀ e ∈ (r.sets (queueKey keyPrefix kind)).entries, e.score = e.member.availableAt) ∧
      (∀ m note, AboutToStart (r.system keyPrefix kind) m note → m.availableAt ≤ r.now ∧
        ∀ k ∈ note, ∃ a e t at_, (r.system keyPrefix kind).shared.broker.accepted[k]? = some a ∧
          Origin (Seen keyPrefix kind float64 (.unused now dedup) labels) a e t at_ ∧
          at_ + t.delay ≤ r.now) ∧
      (∀ u i w job executed m, Visits (kindsStep keyPrefix float64) (.unused now dedup) labels u →
        workerOf (u.system keyPrefix kind) i = some w → job ∈ w.jobs →
        job.pc = .retrying executed m →
        ∃ at_ delay, Retry (Seen keyPrefix kind float64 (.unused now dedup) labels) m at_ delay ∧
          ∀ note, AboutToStart (r.system keyPrefix kind) { m with attempt := m.attempt + 1 } note →
            at_ + delay ≤ r.now) ∧
      ∀ i m r', kindsStep keyPrefix float64 r (kind, .act i (.worker (.pop m))) = some r' →
        ∀ time < m.availableAt, ∀ e ∈ (r.sets (queueKey keyPrefix kind)).entries,
          time < e.member.availableAt := by
  have hend : Visits (kindsStep keyPrefix float64) (.unused now dedup) labels r :=
    ⟨labels.length, run_take_length hrun⟩
  obtain ⟨htable, hthreads⟩ := scheduled_visited hexact hkind hend
  have hstart : ∀ m note, AboutToStart (r.system keyPrefix kind) m note → m.availableAt ≤ r.now ∧
      Due (r.system keyPrefix kind).shared.broker r.now note := by
    rintro m note ⟨i, w, hw, hmain⟩
    have hon := (hthreads _ (workerOf_mem hw)).1
    rw [hmain] at hon
    exact hon
  refine ⟨htable.exact, fun m note hm => ⟨(hstart m note hm).1, fun k hk => ?_⟩, ?_, ?_⟩
  · obtain ⟨a, ha, hle⟩ := (hstart m note hm).2 k hk
    obtain ⟨e, t, at_, ho⟩ := htable.origin a (List.mem_of_getElem? ha)
    refine ⟨a, e, t, at_, ha, ho, ?_⟩
    rw [ho.1] at hle
    exact hle
  · intro u i w job executed m hu hw hjob hpc
    have hon := ((scheduled_visited hexact hkind hu).threads _ (workerOf_mem hw)).2 job hjob
    obtain ⟨at_, delay, hr⟩ := hon.2 executed m hpc
    refine ⟨at_, delay, hr, fun note hm => ?_⟩
    have hle : m.availableAt ≤ r.now := (hstart _ note hm).1
    rw [← hr.1]
    exact hle
  · intro i m r' hs time htime e he
    obtain ⟨d, hd, _⟩ := Option.map_eq_some_iff.mp hs
    exact htime.trans_le (popped_first htable hd e he)

def refusedMessage : TaskMessage :=
  { mailMessage with attempt := 1, availableAt := 200000010, lastError := "refused" }

/-- A task with a delay of 10 ns is popped at once, pushed back and popped again. Its
handler fails, and 200 ms later the retry is taken. -/
def refusedOnce : List (String × Event) :=
  ofMail ([.spawn (.worker plainSettings), .spawn (.enqueue ⟨0, 0⟩ { mailTask with delay := 10 }),
    .act 1 (.enqueue .ok), .act 1 (.enqueue .ok), .act 0 (.worker .poll),
    .act 0 (.worker (.pop { mailMessage with availableAt := 10 })), .act 0 (.worker .clock),
    .act 0 (.worker .command), .env 10, .act 0 (.worker .poll),
    .act 0 (.worker (.pop { mailMessage with availableAt := 10 }))] ++ takeAndStart 0 ++
    [.act 0 (.worker (.job 0 (.handler (some "refused")))),
      .act 0 (.worker (.job 0 (.command .ok))), .act 0 (.worker (.job 0 (.clock 0))),
      .act 0 (.worker (.job 0 (.command .ok))), .env 200000000, .act 0 (.worker .poll),
      .act 0 (.worker (.pop refusedMessage)), .act 0 (.worker .clock), .act 0 (.worker .clock),
      .act 0 (.worker .command)])

theorem retried_when_due :
    ∃ r, run (kindsStep "" id) (.unused 0 .empty) refusedOnce = some r ∧
      AboutToStart (r.system "" "mail") { refusedMessage with attempt := 2 } [0] ∧
      200000010 ≤ r.now := by
  refine reaches_imp (P := fun r : Kinds => (workerOf (r.system "" "mail") 0).map Worker.main =
    some (.waiting { refusedMessage with attempt := 2 } [0])) (by decide +kernel) fun r hr hw => ?_
  obtain ⟨w, hw, hmain⟩ := Option.map_eq_some_iff.mp hw
  have habout : AboutToStart (r.system "" "mail") { refusedMessage with attempt := 2 } [0] :=
    ⟨0, w, hw, hmain⟩
  obtain ⟨_, hstart, _⟩ :=
    started_when_due "" "mail" id (fun _ => rfl) 0 .empty refusedOnce (by decide +kernel) r hr
  exact ⟨habout, (hstart _ _ habout).1⟩

end TokoApi.Queue
