import TokoApi.Queue.Worker

/-!
# What one step of a worker can do

`MainEffect` and `JobEffect` list the steps of the loop and of a job with what
they do to the broker. Invariants are proved by cases on them.
-/
namespace TokoApi.Queue

open Lib.Redis Lib.Threads Resilience

variable {η θ χ : Type}

/-- The steps of `Enqueue`. -/
inductive EnqueueEffect (env : Env) (q : Broker) (pc : EnqueuePc) : Broker → EnqueuePc → Prop where
  | built {e : Enqueuer} {t : Task} {pc' : EnqueuePc} (hpc : pc = .message e t)
      (hk : (e.message t q.now).kind = env.kind)
      (hn : pc' = .setNX e (e.message t q.now) ∨
        ((e.message t q.now).key = "" ∧ pc' = .zadd (e.message t q.now))) :
      EnqueueEffect env q pc q pc'
  | suppressed {e m} (hpc : pc = .setNX e m) (hk : (q.dedup (env.dedupKey m)).held q.now = true) :
      EnqueueEffect env q pc q (.returned none)
  | claimed {e : Enqueuer} {m keys} (hpc : pc = .setNX e m)
      (hk : q.dedup.setNX q.now e.ttl (env.dedupKey m) = (true, keys)) :
      EnqueueEffect env q pc { q with dedup := keys } (.zadd m)
  | accepted {m} (hpc : pc = .zadd m) : EnqueueEffect env q pc (q.accept env m) (.returned none)
  | failed {err} : EnqueueEffect env q pc q (.returned (some err))

variable {env : Env} {q q' : Broker} {H : Handler η θ χ} {w w' : Worker θ} {o : Op χ}
  {s s' : Shared η}

theorem enqueue_effect {pc pc' : EnqueuePc} {c : Call}
    (h : enqueueStep env q pc c = some (q', pc')) : EnqueueEffect env q pc q' pc' := by
  cases pc with
  | message e t =>
    simp only [enqueueStep] at h
    split at h
    · cases h
      exact .failed
    · split at h
      · cases h
      · rename_i hk
        have hk' : (e.message t q.now).kind = env.kind := by simpa using hk
        split at h <;> rename_i hkey <;> cases h
        · exact .built rfl hk' (.inl rfl)
        · exact .built rfl hk' (.inr ⟨by simpa using hkey, rfl⟩)
  | setNX e m =>
    cases c with
    | ok =>
      simp only [enqueueStep] at h
      split at h <;> rename_i keys hs <;> cases h
      · exact .suppressed rfl (held_of_refused hs)
      · exact .claimed rfl hs
    | fail err =>
      cases h
      exact .failed
  | zadd m =>
    cases c with
    | ok =>
      cases h
      exact .accepted rfl
    | fail err =>
      cases h
      exact .failed
  | returned err => cases c <;> cases h

def Main.Empty : Main → Prop
  | .select | .polling | .scanning _ _ | .requeue _ _ | .draining | .stopped => True
  | _ => False

def Main.dueList : Main → List (TaskMessage × List Nat)
  | .requeue rest _ | .lifted _ _ rest _ | .moving _ _ rest _ => rest
  | _ => []

def Main.carried : Main → Option (TaskMessage × List Nat)
  | .lifted m note _ _ | .moving m note _ _ | .popped m note | .pushBack m note | .due m note
  | .taking m note _ | .waiting m note => some (m, note)
  | _ => none

theorem Main.Empty.carried {pc : Main} (h : pc.Empty) : pc.carried = none := by
  cases pc <;> first | rfl | cases h

def Main.final : Main → Bool
  | .scanning _ final | .requeue _ final | .lifted _ _ _ final | .moving _ _ _ final => final
  | _ => false

inductive MainEffect (H : Handler η θ χ) (env : Env) (q : Broker) (w : Worker θ) :
    Op χ → Broker → Worker θ → Prop where
  | idle {o : Op χ} {pc : Main} (hw : w.main.Empty) (hpc : pc.Empty)
      (ht : ∀ t final, pc = .scanning t final → t = q.now)
      (hd : ∀ p ∈ pc.dueList, ∃ e ∈ q.processing.entries, p = (e.member, e.note) ∧
        ∃ t final, w.main = .scanning t final ∧ e.score ≤ env.float64 t) :
      MainEffect H env q w o q (w.goto pc)
  | pop {e : Entry TaskMessage} (hw : w.main = .polling) (hd : w.ctxDone = false)
      (he : e ∈ q.queue.entries) :
      MainEffect H env q w (.pop e.member) { q with queue := q.queue.rem e.member }
        (w.goto (.popped e.member e.note))
  | notDue {m note} (hw : w.main = .popped m note) :
      MainEffect H env q w .clock q (w.goto (.pushBack m note))
  | due {m : TaskMessage} {note} (hw : w.main = .popped m note) :
      MainEffect H env q w .clock q (w.goto (.due { m with attempt := m.attempt + 1 } note))
  | stamp {m note t} (hw : w.main = .due m note) (ht : t = q.now + w.settings.visibility) :
      MainEffect H env q w .clock q (w.goto (.taking m note t))
  | lift {m note due final} (hw : w.main = .requeue ((m, note) :: due) final)
      (hd : w.ctxDone = false ∨ final = true) :
      MainEffect H env q w .command { q with processing := q.processing.rem m }
        (w.goto (.lifted m (note ++ q.processing.noteOf m) due final))
  | miss {m note due final} (hw : w.main = .requeue ((m, note) :: due) final)
      (hd : w.ctxDone = true) (hf : final = false) :
      MainEffect H env q w .command q (w.goto (.lifted m [] due final))
  | restamp {m : TaskMessage} {note due final} (hw : w.main = .lifted m note due final) :
      MainEffect H env q w .clock q
        (w.goto (.moving { m with availableAt := q.now } note due final))
  | moved {m note due final} (hw : w.main = .moving m note due final)
      (hd : w.ctxDone = false ∨ final = true) :
      MainEffect H env q w .command (q.pushQueue env m note) (w.goto (afterRequeue due final))
  | pushed {m note} (hw : w.main = .pushBack m note) :
      MainEffect H env q w .command (q.pushQueue env m note) (w.goto .select)
  | lost {pc : Main} {note : List Nat} (hdone : w.ctxDone = true ∧ w.main.final = false)
      (hpc : pc.Empty)
      (hd : pc.dueList ⊆ w.main.dueList)
      (hw : (∃ m due final, w.main = .moving m note due final) ∨
        (∃ m, w.main = .pushBack m note) ∨ ∃ m t, w.main = .taking m note t) :
      MainEffect H env q w .command q { w with main := pc, dropped := w.dropped ++ note }
  | taken {m note t} (hw : w.main = .taking m note t) :
      MainEffect H env q w .command { q with processing := q.processing.add m (env.float64 t) note }
        (w.goto (.waiting m note))
  | started {m note} (hw : w.main = .waiting m note) :
      MainEffect H env q w .start { q with starts := q.starts ++ [note] }
        { w with main := .select, jobs := w.jobs ++ [newJob H w q m note] }
  | cancel : MainEffect H env q w .cancel q { w with ctxDone := true }
  | crash : MainEffect H env q w .crash q { w with alive := false }

theorem afterRequeue_empty (due : List (TaskMessage × List Nat)) (final : Bool) :
    (afterRequeue due final).Empty := by
  cases due with
  | nil => cases final <;> trivial
  | cons d due => trivial

theorem afterRequeue_due (due : List (TaskMessage × List Nat)) (final : Bool) :
    (afterRequeue due final).dueList = due := by
  cases due with
  | nil => cases final <;> rfl
  | cons d due => rfl

theorem afterRequeue_not_scanning (due : List (TaskMessage × List Nat)) (final : Bool) {t : Int}
    {f : Bool} : afterRequeue due final ≠ .scanning t f := by
  cases due with
  | nil => cases final <;> exact nofun
  | cons d due => exact nofun

theorem live_iff {ctxDone final : Bool} :
    ctxDone = false ∨ final = true ↔ ¬ (ctxDone = true ∧ final = false) := by
  cases ctxDone <;> cases final <;> decide

theorem clock_effect
    (h : mainStep H env q w .clock = some (q', w')) : MainEffect H env q w .clock q' w' := by
  cases hw : w.main <;> simp only [mainStep, hw] at h
  case popped m note =>
    split at h <;> cases h
    · exact .notDue hw
    · exact .due hw
  case due m note =>
    cases h
    exact .stamp hw rfl
  case lifted m note due final =>
    cases h
    exact .restamp hw
  case draining =>
    split at h <;> cases h
    exact .idle (by rw [hw]; trivial) trivial (fun _ _ ht => by cases ht; rfl)
      (by simp [Main.dueList])
  all_goals cases h

theorem command_effect
    (h : mainStep H env q w .command = some (q', w')) : MainEffect H env q w .command q' w' := by
  cases hw : w.main <;> simp only [mainStep, hw] at h
  case scanning now final =>
    split at h <;> cases h
    · exact .idle (by rw [hw]; trivial) trivial (by simp) (by simp [Main.dueList])
    · refine .idle (by rw [hw]; trivial) (afterRequeue_empty _ final)
        (fun _ _ ht => absurd ht (afterRequeue_not_scanning _ final)) fun p hp => ?_
      rw [afterRequeue_due] at hp
      obtain ⟨e, he, rfl⟩ := List.mem_map.mp hp
      obtain ⟨hin, hscore⟩ := ZSet.mem_upTo.mp he
      exact ⟨e, hin, rfl, now, final, hw, hscore⟩
  case requeue due final =>
    cases due with
    | nil => cases h
    | cons d due =>
      simp only at h
      split at h
      · rename_i hd
        cases h
        exact .miss hw hd.1 hd.2
      · rename_i hd
        cases h
        exact .lift hw (live_iff.mpr hd)
  case moving m note due final =>
    split at h <;> rename_i hd <;> cases h
    · refine .lost (by rwa [hw]) (afterRequeue_empty due final) ?_ (.inl ⟨m, due, final, hw⟩)
      rw [afterRequeue_due, hw]
      exact fun _ => id
    · exact .moved hw (live_iff.mpr hd)
  case pushBack m note =>
    split at h <;> rename_i hd <;> cases h
    · exact .lost ⟨hd, by rw [hw]; rfl⟩ trivial (by simp [Main.dueList]) (.inr (.inl ⟨m, hw⟩))
    · exact .pushed hw
  case taking m note t =>
    split at h <;> rename_i hd <;> cases h
    · exact .lost ⟨hd, by rw [hw]; rfl⟩ trivial (by simp [Main.dueList]) (.inr (.inr ⟨m, t, hw⟩))
    · exact .taken hw
  all_goals cases h

theorem main_effect (h : mainStep H env q w o = some (q', w')) : MainEffect H env q w o q' w' := by
  cases o with
  | clock => exact clock_effect h
  | command => exact command_effect h
  | poll =>
    simp only [mainStep] at h
    split at h
    · rename_i hw
      cases h
      exact .idle (by rw [hw]; trivial) trivial (by simp) (by simp [Main.dueList])
    · cases h
  | scan =>
    simp only [mainStep] at h
    split at h
    · rename_i hw
      cases h
      exact .idle (by rw [hw]; trivial) trivial (fun _ _ ht => by cases ht; rfl)
        (by simp [Main.dueList])
    · cases h
  | shutdown =>
    simp only [mainStep] at h
    split at h
    · rename_i hw
      cases h
      exact .idle (by rw [hw.1]; trivial) trivial (by simp) (by simp [Main.dueList])
    · cases h
  | pop m =>
    simp only [mainStep] at h
    split at h
    · rename_i hw
      split at h
      · cases h
      · rename_i e rest hp
        cases h
        obtain ⟨he, rfl, rfl, _⟩ := ZSet.popMin_inv hp
        exact .pop hw.1 hw.2 he
    · cases h
  | popEmpty =>
    simp only [mainStep] at h
    split at h
    · rename_i hw
      cases h
      exact .idle (by rw [hw.1]; trivial) trivial (by simp) (by simp [Main.dueList])
    · split at h
      · rename_i hw
        cases h
        exact .idle (by rw [hw.1]; trivial) trivial (by simp) (by simp [Main.dueList])
      · cases h
  | start =>
    simp only [mainStep] at h
    split at h
    · rename_i m note hw
      split at h <;> cases h
      exact .started hw
    · cases h
  | cancel =>
    cases h
    exact .cancel
  | crash =>
    cases h
    exact .crash
  | job j x => cases h

/-! ## What the loop moves -/

/-- `P` of a task in hand whose counter is still to be advanced, and `R` of one on its
way to its handler. -/
def Main.Holds (P R : TaskMessage → List Nat → Prop) : Main → Prop
  | .popped m note | .pushBack m note | .lifted m note _ _ | .moving m note _ _ => P m note
  | .due m note | .taking m note _ | .waiting m note => R m note
  | _ => True

structure Moves (P R : TaskMessage → List Nat → Prop) (q : Broker) (pc : Main) : Prop where
  queue : ∀ e ∈ q.queue.entries, P e.member e.note
  processing : ∀ e ∈ q.processing.entries, R e.member e.note
  hand : pc.Holds P R
  due : ∀ p ∈ pc.dueList, P p.1 p.2

/-- The properties bear what the loop does to a message and its note. -/
structure Portable (P R : TaskMessage → List Nat → Prop) : Prop where
  back : ∀ m note, R m note → P m note
  next : ∀ m note, P m note → R { m with attempt := m.attempt + 1 } note
  stamp : ∀ m note t, P m note → P { m with availableAt := t } note
  join : ∀ m a b, P m a → P m b → P m (a ++ b)
  merge : ∀ m a b, R m a → R m b → R m (a ++ b)
  miss : ∀ m note, P m note → P m []

variable {P R : TaskMessage → List Nat → Prop}

theorem Main.Empty.holds {pc : Main} (h : pc.Empty) : pc.Holds P R := by
  cases pc <;> trivial

theorem holds_iff_carried {pc : Main} : pc.Holds P P ↔ ∀ p ∈ pc.carried, P p.1 p.2 := by
  cases pc <;> simp [Main.Holds, Main.carried]

theorem main_moves (hb : Portable P R) (he : MainEffect H env q w o q' w')
    (h : Moves P R q w.main) : Moves P R q' w'.main ∧
      (w'.jobs = w.jobs ∧ q'.starts = q.starts ∨ ∃ m note, R m note ∧
        w'.jobs = w.jobs ++ [newJob H w q m note] ∧ q'.starts = q.starts ++ [note]) := by
  obtain ⟨hq, hp, hm, hd⟩ := h
  cases he with
  | idle _ hpc _ hdue =>
    refine ⟨⟨hq, hp, hpc.holds, fun p hin => ?_⟩, .inl ⟨rfl, rfl⟩⟩
    obtain ⟨e, he, rfl, _⟩ := hdue p hin
    exact hb.back _ _ (hp e he)
  | pop _ _ he =>
    exact ⟨⟨fun e he => hq e (ZSet.mem_rem.mp he).1, hp, hq _ he, List.forall_mem_nil _⟩,
      .inl ⟨rfl, rfl⟩⟩
  | notDue hw | stamp hw _ =>
    rw [hw] at hm
    exact ⟨⟨hq, hp, hm, List.forall_mem_nil _⟩, .inl ⟨rfl, rfl⟩⟩
  | due hw =>
    rw [hw] at hm
    exact ⟨⟨hq, hp, hb.next _ _ hm, List.forall_mem_nil _⟩, .inl ⟨rfl, rfl⟩⟩
  | lift hw _ =>
    rw [hw] at hd
    obtain ⟨hfirst, hrest⟩ := List.forall_mem_cons.mp hd
    have hnote := ZSet.notes_join (hb.join _) (fun e he => hb.back _ _ (hp e he)) hfirst
    exact ⟨⟨hq, fun e he => hp e (ZSet.mem_rem.mp he).1, hnote, hrest⟩, .inl ⟨rfl, rfl⟩⟩
  | miss hw _ _ =>
    rw [hw] at hd
    obtain ⟨hfirst, hrest⟩ := List.forall_mem_cons.mp hd
    exact ⟨⟨hq, hp, hb.miss _ _ hfirst, hrest⟩, .inl ⟨rfl, rfl⟩⟩
  | restamp hw =>
    rw [hw] at hm hd
    exact ⟨⟨hq, hp, hb.stamp _ _ _ hm, hd⟩, .inl ⟨rfl, rfl⟩⟩
  | @moved _ _ due final hw _ =>
    rw [hw] at hm hd
    refine ⟨⟨ZSet.notes_add (hb.join _) hq hm, hp, (afterRequeue_empty due final).holds, ?_⟩,
      .inl ⟨rfl, rfl⟩⟩
    exact (afterRequeue_due due final).symm ▸ hd
  | pushed hw =>
    rw [hw] at hm
    exact ⟨⟨ZSet.notes_add (hb.join _) hq hm, hp, trivial, List.forall_mem_nil _⟩,
      .inl ⟨rfl, rfl⟩⟩
  | lost _ hpc hsub _ =>
    exact ⟨⟨hq, hp, hpc.holds, fun p hin => hd p (hsub hin)⟩, .inl ⟨rfl, rfl⟩⟩
  | taken hw =>
    rw [hw] at hm
    exact ⟨⟨hq, ZSet.notes_add (hb.merge _) hp hm, hm, List.forall_mem_nil _⟩, .inl ⟨rfl, rfl⟩⟩
  | started hw =>
    rw [hw] at hm
    exact ⟨⟨hq, hp, trivial, List.forall_mem_nil _⟩, .inr ⟨_, _, hm, rfl, rfl⟩⟩
  | cancel | crash => exact ⟨⟨hq, hp, hm, hd⟩, .inl ⟨rfl, rfl⟩⟩

/-- The steps of a job. -/
inductive JobEffect (H : Handler η θ χ) (env : Env) (s : Shared η) (job : Job θ) :
    JobOp χ → Shared η → Job θ → List Nat → Prop where
  | expire : JobEffect H env s job .expire s { job with ctxDone := true } []
  | ran {h h' x q e} (hpc : job.pc = .running h)
      (hs : H.step s.broker s.store h x = some (q, e, .inl h')) :
      JobEffect H env s job (.handler x) ⟨q, e⟩ (job.goto (.running h')) []
  | succeeded {h x} {q : Broker} {e} (hpc : job.pc = .running h)
      (hs : H.step s.broker s.store h x = some (q, e, .inr none)) :
      JobEffect H env s job (.handler x) ⟨{ q with handled := q.handled ++ job.note }, e⟩
        (job.returns none) []
  | erred {h x q e err} (hpc : job.pc = .running h)
      (hs : H.step s.broker s.store h x = some (q, e, .inr (some err))) :
      JobEffect H env s job (.handler x) ⟨q, e⟩ (job.returns (some err)) []
  | stamp {delta executed} {m : TaskMessage} {t} (hpc : job.pc = .failed executed m) :
      JobEffect H env s job (.clock delta) s
        (job.goto (.retrying executed { m with availableAt := t })) []
  | acked {c} (hpc : job.pc = .acking) (hd : job.ctxDone = false) :
      JobEffect H env s job (.command c)
        { s with broker := { s.broker with processing := s.broker.processing.rem job.msg } }
        job.release []
  | unacked {c} (hpc : job.pc = .acking) (hd : job.ctxDone = true) :
      JobEffect H env s job (.command c) s job.release []
  | removed {c cause} (hpc : job.pc = .failing cause) (hd : job.ctxDone = false) :
      JobEffect H env s job (.command c)
        { s with broker := { s.broker with processing := s.broker.processing.rem job.msg } }
        (job.goto (afterRemoval true { job.msg with lastError := cause })) []
  | unremoved {c cause} (hpc : job.pc = .failing cause) (hd : job.ctxDone = true) :
      JobEffect H env s job (.command c) s
        (job.goto (afterRemoval false { job.msg with lastError := cause })) []
  | retried {c executed m} (hpc : job.pc = .retrying executed m) (hd : job.ctxDone = false) :
      JobEffect H env s job (.command c) { s with broker := s.broker.pushQueue env m job.note }
        (job.goto .ended) []
  | unretried {c executed m} (hpc : job.pc = .retrying executed m) (hd : job.ctxDone = true) :
      JobEffect H env s job (.command c) s (job.goto .ended) (if executed then job.note else [])
  | buried {executed m} (hpc : job.pc = .burying executed m) (hd : job.ctxDone = false) :
      JobEffect H env s job (.command .ok)
        { s with broker := { s.broker with dlq := s.broker.dlq ++ [dlqEntry job m] } } job.release
        []
  | unburied {c executed m} (hpc : job.pc = .burying executed m)
      (hd : job.ctxDone = true ∨ c ≠ .ok) :
      JobEffect H env s job (.command c) s job.release (if executed then job.note else [])
  | released {c} (hpc : job.pc = .releasing) (hd : job.ctxDone = false) :
      JobEffect H env s job (.command c)
        { s with broker := { s.broker with dedup := s.broker.dedup.del (env.dedupKey job.msg) } }
        (job.goto .ended) []
  | unreleased {c} (hpc : job.pc = .releasing) (hd : job.ctxDone = true) :
      JobEffect H env s job (.command c) s (job.goto .ended) []

theorem job_command_effect {job job' : Job θ} {c : Call} {lost : List Nat}
    (h : jobStep H env w s job (.command c) = some (s', job', lost)) :
    JobEffect H env s job (.command c) s' job' lost := by
  cases hpc : job.pc <;> simp only [jobStep, hpc] at h
  case acking =>
    split at h <;> rename_i hd <;> cases h
    · exact .unacked hpc hd
    · exact .acked hpc (by simpa using hd)
  case failing cause =>
    split at h <;> rename_i hd <;> cases h
    · exact .unremoved hpc hd
    · exact .removed hpc (by simpa using hd)
  case retrying executed m =>
    split at h <;> rename_i hd <;> cases h
    · exact .unretried hpc hd
    · exact .retried hpc (by simpa using hd)
  case burying executed m =>
    split at h <;> rename_i hd <;> cases h
    · exact .unburied hpc hd
    · obtain ⟨hd, hc⟩ := not_or.mp hd
      obtain rfl : c = .ok := by simpa using hc
      exact .buried hpc (by simpa using hd)
  case releasing =>
    split at h <;> rename_i hd <;> cases h
    · exact .unreleased hpc hd
    · exact .released hpc (by simpa using hd)
  all_goals cases h

theorem job_effect {job job' : Job θ} {x : JobOp χ} {lost : List Nat}
    (h : jobStep H env w s job x = some (s', job', lost)) :
    JobEffect H env s job x s' job' lost := by
  cases x with
  | command c => exact job_command_effect h
  | expire =>
    simp only [jobStep] at h
    split at h <;> cases h
    exact .expire
  | clock delta =>
    cases hpc : job.pc <;> simp only [jobStep, hpc] at h
    case failed executed m =>
      cases h
      exact .stamp hpc
    all_goals cases h
  | handler x =>
    cases hpc : job.pc <;> simp only [jobStep, hpc] at h
    case running pt =>
      split at h <;> cases h <;> rename_i hs
      · exact .ran hpc hs
      · exact .succeeded hpc hs
      · exact .erred hpc hs
    all_goals cases h

/-- The worker after a step of a job. -/
abbrev Worker.withJob (w : Worker θ) (j : Nat) (job : Job θ) (dropped : List Nat) : Worker θ :=
  { w with jobs := w.jobs.set j job, dropped := dropped }

theorem worker_cases (h : workerStep H env s w o = some (s', w')) :
    w.alive = true ∧ ((∃ q, mainStep H env s.broker w o = some (q, w') ∧ s' = { s with broker := q }) ∨
      ∃ j x job job' lost, o = .job j x ∧ w.jobs[j]? = some job ∧
        jobStep H env w s job x = some (s', job', lost) ∧
        w' = w.withJob j job' (w.dropped ++ lost)) := by
  unfold workerStep at h
  split at h
  · refine ⟨by assumption, ?_⟩
    cases o with
    | job j x =>
      simp only at h
      split at h
      · cases h
      · rename_i job hj
        obtain ⟨⟨s₁, job', lost⟩, hs, he⟩ := Option.map_eq_some_iff.mp h
        cases he
        exact .inr ⟨j, x, job, job', lost, rfl, hj, hs, rfl⟩
    | _ =>
      obtain ⟨⟨q, w₁⟩, hs, he⟩ := Option.map_eq_some_iff.mp h
      cases he
      exact .inl ⟨q, hs, rfl⟩
  · cases h

theorem worker_effect (h : workerStep H env s w o = some (s', w')) :
    w.alive = true ∧ ((∃ q, MainEffect H env s.broker w o q w' ∧ s' = { s with broker := q }) ∨
      ∃ j x job job' lost, o = .job j x ∧ w.jobs[j]? = some job ∧
        JobEffect H env s job x s' job' lost ∧
        w' = w.withJob j job' (w.dropped ++ lost)) := by
  obtain ⟨ha, ⟨q, hs, rfl⟩ | ⟨j, x, job, job', lost, rfl, hj, hs, rfl⟩⟩ := worker_cases h
  · exact ⟨ha, .inl ⟨q, main_effect hs, rfl⟩⟩
  · exact ⟨ha, .inr ⟨j, x, job, job', lost, rfl, hj, job_effect hs, rfl⟩⟩

/-- The steps of the processes. -/
inductive ProcEffect (H : Handler η θ χ) (env : Env) (s : Shared η) :
    Proc θ → Input χ → Shared η → Proc θ → Prop where
  | enqueue {pc pc' c q} (he : enqueueStep env s.broker pc c = some (q, pc')) :
      ProcEffect H env s (.enqueue pc) (.enqueue c) { s with broker := q } (.enqueue pc')
  | worker {w w' : Worker θ} {o : Op χ} {s' : Shared η}
      (hw : workerStep H env s w o = some (s', w')) :
      ProcEffect H env s (.worker w) (.worker o) s' (.worker w')

theorem proc_effect {t t' : Proc θ} {x : Input χ}
    (h : procStep H env s t x = some (s', t')) : ProcEffect H env s t x s' t' := by
  cases t with
  | enqueue pc =>
    cases x with
    | enqueue c =>
      obtain ⟨⟨q, pc'⟩, he, heq⟩ := Option.map_eq_some_iff.mp h
      cases heq
      exact .enqueue he
    | worker o => cases h
  | worker w =>
    cases x with
    | enqueue c => cases h
    | worker o =>
      obtain ⟨⟨s₁, w'⟩, hw, heq⟩ := Option.map_eq_some_iff.mp h
      cases heq
      exact .worker hw

end TokoApi.Queue
