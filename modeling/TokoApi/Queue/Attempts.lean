import Mathlib.Algebra.Order.BigOperators.Group.List
import Mathlib.Algebra.Order.Group.Nat
import TokoApi.Queue.Effects

/-!
# One enqueueing, from step to step

An enqueueing should be in one place at a time: in the queue, in the hands of a
loop, with a job, or in the processing set after its job has gone. `load` counts
what a process can still do with it; a job whose context is done or whose process
has crashed can do nothing more. Along with the place goes the number of starts,
which the attempt counter of the message bounds. `Balance` is what one worker's
steps keep, as long as `requeueExpired` takes back only what nobody works on and
what has attempts left.
-/
namespace TokoApi.Queue

open Lib.Redis Lib.Threads

/-! ## Who has the task -/

section

variable {θ : Type} (i : Nat)

/-- The job can still move its task. -/
def Job.live (job : Job θ) : Bool :=
  !job.ctxDone &&
    match job.pc with
    | .releasing | .ended => false
    | _ => true

def Job.load (job : Job θ) : Nat := if job.live = true ∧ i ∈ job.note then 1 else 0

/-- The entry of the processing set that the job is to remove. -/
def Job.owned (job : Job θ) : Option TaskMessage :=
  match job.pc with
  | .running _ | .acking | .failing _ => some job.msg
  | _ => none

def Main.load (pc : Main) : Nat :=
  match pc.carried with
  | some (_, note) => if i ∈ note then 1 else 0
  | none => 0

def Worker.load (w : Worker θ) : Nat :=
  if w.alive then w.main.load i + (w.jobs.map (Job.load i)).sum else 0

def Proc.load : Proc θ → Nat
  | .worker w => w.load i
  | .enqueue _ => 0

/-- Whatever the worker has of the task belongs to the entry `m` of the processing
set. -/
def Worker.Owns (m : TaskMessage) (w : Worker θ) : Prop :=
  w.alive = true →
    (∀ p ∈ w.main.carried, i ∈ p.2 → w.main = .waiting m p.2) ∧
    ∀ job ∈ w.jobs, i ∈ job.note → job.live = true → job.owned = some m

def Broker.startsOf (q : Broker) : Nat := q.starts.countP fun note => i ∈ note

def Job.nth (starts : List (List Nat)) (job : Job θ) : Nat :=
  (starts.take (job.start + 1)).countP fun note => i ∈ note

end

/-! ## Attempts and starts -/

section

variable {θ : Type}

/-- A message that is still to be popped: it has not been started more often than
its counter says, and may be started once more. -/
structure Ready (limit : Int) (c : Nat) (m : TaskMessage) : Prop where
  bound : m.maxAttempts = limit
  attempt : (c : Int) ≤ m.attempt
  left : (c : Int) < limit

/-- The counter has been advanced for the start that comes. -/
structure Advanced (limit : Int) (c : Nat) (m : TaskMessage) : Prop where
  bound : m.maxAttempts = limit
  attempt : (c : Int) < m.attempt
  left : (c : Int) < limit

structure Started (limit : Int) (c : Nat) (m : TaskMessage) : Prop where
  bound : m.maxAttempts = limit
  attempt : (c : Int) ≤ m.attempt

def Main.Counted (i : Nat) (limit : Int) (c : Nat) : Main → Prop
  | .popped m note | .pushBack m note | .lifted m note _ _ | .moving m note _ _ =>
    i ∈ note → Ready limit c m
  | .due m note | .taking m note _ | .waiting m note => i ∈ note → Advanced limit c m
  | _ => True

structure Worker.Counted (i : Nat) (limit : Int) (c : Nat) (w : Worker θ) : Prop where
  main : w.alive = true → w.main.Counted i limit c
  jobs : w.alive = true → ∀ job ∈ w.jobs, i ∈ job.note → job.live = true →
    (c : Int) ≤ job.msg.attempt

/-- What a job's program point says about its data. -/
def Job.Shaped (job : Job θ) : Prop :=
  match job.pc with
  | .running _ => job.result = none
  | .acking => job.result = some none
  | .failed _ m | .retrying _ m =>
    m.attempt = job.msg.attempt ∧ m.maxAttempts = job.msg.maxAttempts ∧
      ¬ (0 < m.maxAttempts ∧ m.maxAttempts ≤ m.attempt)
  | _ => True

/-- The facts about a job that do not change once it has been started. -/
structure Job.Recorded (i : Nat) (limit : Int) (starts : List (List Nat)) (job : Job θ) : Prop where
  bound : job.msg.maxAttempts = limit
  start : job.start < starts.length
  nth : (job.nth i starts : Int) ≤ job.msg.attempt

/-- The last attempt has failed and `handleFailure` is through with it. -/
structure Job.Exhausted (i : Nat) (job : Job θ) : Prop where
  mem : i ∈ job.note
  failed : ∃ err, job.result = some (some err)
  done : job.pc = .releasing ∨ job.pc = .ended
  attempt : job.msg.maxAttempts ≤ job.msg.attempt

end

/-- The state of the broker and one worker, where `R` is the load of the other
processes and `OO m` says that what they have belongs to the entry `m`. The budget
`b` is one as long as the task is somewhere, and zero when it has gone for good. -/
structure Balance (i : Nat) (limit : Int) (b : Nat) (q : Broker) (w : Worker Unit) (R : Nat)
    (OO : TaskMessage → Prop) : Prop where
  one : q.queue.copies i + w.load i + R ≤ b ∧ b ≤ 1
  owns : ∀ e ∈ q.processing.entries, i ∈ e.note →
    (q.queue.copies i = 0 ∧ b = 1) ∧ w.Owns i e.member ∧ OO e.member
  same : ∀ e ∈ q.processing.entries, ∀ f ∈ q.processing.entries, i ∈ e.note → i ∈ f.note →
    e.member = f.member
  queue : ∀ e ∈ q.queue.entries, i ∈ e.note → Ready limit (q.startsOf i) e.member
  processing : ∀ e ∈ q.processing.entries, i ∈ e.note → Started limit (q.startsOf i) e.member
  counted : w.Counted i limit (q.startsOf i)
  total : (q.startsOf i : Int) ≤ limit
  shaped : ∀ job ∈ w.jobs, i ∈ job.note → job.Shaped
  recorded : ∀ job ∈ w.jobs, i ∈ job.note → job.Recorded i limit q.starts

section

variable {i : Nat} {limit : Int} {b : Nat} {q q' : Broker} {w w' : Worker Unit} {R : Nat}
  {OO : TaskMessage → Prop} {o : Op (Option String)} {m : TaskMessage} {note : List Nat}

variable {pc : Main} {θ : Type} {env : Env}

theorem main_load_none (h : pc.carried = none) : pc.load i = 0 := by
  rw [Main.load, h]

theorem main_load_some (h : pc.carried = some (m, note)) :
    pc.load i = if i ∈ note then 1 else 0 := by
  rw [Main.load, h]

theorem worker_load (ha : w.alive = true) :
    w.load i = w.main.load i + (w.jobs.map (Job.load i)).sum := by
  rw [Worker.load, if_pos ha]

theorem load_goto (ha : w.alive = true) :
    (w.goto pc).load i = pc.load i + (w.jobs.map (Job.load i)).sum :=
  worker_load ha

theorem one_le_load {w : Worker θ} {job : Job θ} (hj : job ∈ w.jobs) (hl : job.live = true)
    (hi : i ∈ job.note) : 1 ≤ (w.jobs.map (Job.load i)).sum := by
  have hjob : job.load i = 1 := if_pos ⟨hl, hi⟩
  exact hjob ▸ List.le_sum_of_mem (List.mem_map_of_mem hj)

theorem load_zero {w : Worker θ} (h : w.load i = 0) (ha : w.alive = true) :
    (∀ p ∈ w.main.carried, i ∉ p.2) ∧ ∀ job ∈ w.jobs, job.live = true → i ∉ job.note := by
  rw [Worker.load, if_pos ha] at h
  refine ⟨fun p hp hi => ?_, fun job hj hl hi => ?_⟩
  · have hmain : w.main.load i = 1 := by
      rw [Main.load, Option.mem_def.mp hp]
      exact if_pos hi
    omega
  · have := one_le_load hj hl hi
    omega

theorem owns_of_load_zero {w : Worker θ} (h : w.load i = 0) : w.Owns i m := by
  intro ha
  obtain ⟨hmain, hjobs⟩ := load_zero h ha
  exact ⟨fun p hp hi => absurd hi (hmain p hp), fun job hj hi hl => absurd hi (hjobs job hj hl)⟩

theorem counted_of_carried {c : Nat} (h : ∀ p ∈ pc.carried, i ∉ p.2) : pc.Counted i limit c := by
  cases pc <;> simp only [Main.Counted]
  all_goals
    intro hi
    exact absurd hi (h _ rfl)

theorem counted_of_load_zero {w : Worker θ} {c : Nat} (h : w.load i = 0) : w.Counted i limit c :=
  ⟨fun ha => counted_of_carried (load_zero h ha).1,
    fun ha job hj hi hl => absurd hi ((load_zero h ha).2 job hj hl)⟩

/-! ## Steps of the loop -/

theorem Balance.shrink (h : Balance i limit b q w R OO) :
    Balance i limit b { q with processing := q.processing.rem m } w R OO := by
  have hsub : ∀ e ∈ (q.processing.rem m).entries, e ∈ q.processing.entries :=
    fun e he => (ZSet.mem_rem.mp he).1
  exact { h with
    owns := fun e he => h.owns e (hsub e he)
    same := fun e he f hf => h.same e (hsub e he) f (hsub f hf)
    processing := fun e he => h.processing e (hsub e he) }

theorem Balance.with_dropped (h : Balance i limit b q w R OO) (dropped : List Nat) :
    Balance i limit b q { w with dropped := dropped } R OO :=
  { h with counted := ⟨h.counted.main, h.counted.jobs⟩ }

theorem ready_add {z : ZSet TaskMessage} {c : Nat} {score : Int}
    (hz : ∀ e ∈ z.entries, i ∈ e.note → Ready limit c e.member)
    (hready : i ∈ note → Ready limit c m) :
    ∀ e ∈ (z.add m score note).entries, i ∈ e.note → Ready limit c e.member :=
  ZSet.notes_add (P := fun m note => i ∈ note → Ready limit c m)
    (fun _ _ ha hb hi => (List.mem_append.mp hi).elim ha hb) hz hready

theorem startsOf_append (i : Nat) (note : List Nat) :
    Broker.startsOf i { q with starts := q.starts ++ [note] } =
      q.startsOf i + if i ∈ note then 1 else 0 := by
  simp [Broker.startsOf, List.countP_append, List.countP_singleton]

theorem Job.Recorded.mono {job : Job θ} {starts more : List (List Nat)}
    (h : job.Recorded i limit starts) : job.Recorded i limit (starts ++ more) := by
  refine ⟨h.bound, ?_, ?_⟩
  · rw [List.length_append]
    exact h.start.trans_le (Nat.le_add_right _ _)
  · rw [Job.nth, List.take_append_of_le_length h.start]
    exact h.nth

theorem newJob_recorded (H : Handler Unit Unit (Option String)) (hin : i ∈ note)
    (hadv : Advanced limit (q.startsOf i) m) :
    (newJob H w q m note).Recorded i limit (q.starts ++ [note]) := by
  refine ⟨hadv.bound, by simp [newJob], ?_⟩
  have hnth : (newJob H w q m note).nth i (q.starts ++ [note]) = q.startsOf i + 1 := by
    have hcount := @startsOf_append q i note
    rw [if_pos hin] at hcount
    rw [← hcount, Job.nth, List.take_of_length_le (by simp [newJob])]
    rfl
  rw [hnth]
  show ((q.startsOf i + 1 : Nat) : Int) ≤ m.attempt
  have hattempt := hadv.attempt
  push_cast
  omega

theorem start_load (H : Handler Unit Unit (Option String)) (ha : w.alive = true)
    (hw : w.main = .waiting m note) :
    ({ w with main := .select, jobs := w.jobs ++ [newJob H w q m note] } : Worker Unit).load i ≤
      w.load i := by
  have hnew : (newJob H w q m note).load i ≤ if i ∈ note then 1 else 0 := by
    unfold Job.load newJob
    split <;> split <;> simp_all
  have hload : ({ w with main := .select, jobs := w.jobs ++ [newJob H w q m note] } :
      Worker Unit).load i = (w.jobs.map (Job.load i)).sum + (newJob H w q m note).load i := by
    show (if w.alive = true then _ else _) = _
    rw [if_pos ha, main_load_none rfl, List.map_append, List.sum_append]
    simp
  rw [hload, worker_load ha, main_load_some (by rw [hw]; rfl)]
  omega

section

variable (h : Balance i limit b q w R OO) (ha : w.alive = true)
include h ha

theorem Balance.move (hload : pc.load i ≤ w.main.load i)
    (hcount : pc.Counted i limit (q.startsOf i))
    (howns : ∀ m, (∀ p ∈ w.main.carried, i ∈ p.2 → w.main = .waiting m p.2) →
      ∀ p ∈ pc.carried, i ∈ p.2 → pc = .waiting m p.2) :
    Balance i limit b q (w.goto pc) R OO := by
  refine { h with
    one := ?_, owns := fun e he hi => ?_, counted := ⟨fun _ => hcount, h.counted.jobs⟩ }
  · have hone := h.one
    rw [worker_load ha] at hone
    rw [load_goto ha]
    omega
  · obtain ⟨hq, hw, ho⟩ := h.owns e he hi
    exact ⟨hq, fun _ => ⟨howns _ (hw ha).1, (hw ha).2⟩, ho⟩

theorem Balance.leave (hnone : ∀ p ∈ pc.carried, i ∉ p.2) :
    Balance i limit b q (w.goto pc) R OO := by
  refine h.move ha ?_ (counted_of_carried hnone) fun _ _ p hp hi => absurd hi (hnone p hp)
  cases hpc : pc.carried with
  | none => exact (main_load_none hpc).trans_le (Nat.zero_le _)
  | some p =>
    rw [main_load_some hpc, if_neg (hnone p hpc)]
    exact Nat.zero_le _

theorem Balance.pop {e : Entry TaskMessage} (hw : w.main.carried = none) (he : e ∈ q.queue.entries) :
    Balance i limit b { q with queue := q.queue.rem e.member }
      (w.goto (.popped e.member e.note)) R OO := by
  have hone := h.one
  rw [worker_load ha, main_load_none hw] at hone
  have hcopies := @ZSet.copies_rem _ _ e.member q.queue i
  rw [ZSet.noteOf_eq he] at hcopies
  refine ⟨?_, fun f hf hi => ?_, h.same, fun f hf => h.queue f (ZSet.mem_rem.mp hf).1,
    h.processing, ⟨fun _ hi => h.queue e he hi, h.counted.jobs⟩, h.total, h.shaped, h.recorded⟩
  · rw [load_goto ha, main_load_some rfl]
    show (q.queue.rem e.member).copies i + _ + _ ≤ b ∧ b ≤ 1
    omega
  · obtain ⟨hq, hown, ho⟩ := h.owns f hf hi
    have hni : i ∉ e.note := fun hin => ZSet.copies_eq_zero.mp hq.1 ⟨e, he, hin⟩
    rw [if_neg hni] at hcopies
    refine ⟨⟨hcopies.trans hq.1, hq.2⟩, fun _ => ⟨fun p hp hin => ?_, (hown ha).2⟩, ho⟩
    obtain rfl := Option.some.inj hp
    exact absurd hin hni

/-- `requeueExpired` takes an entry that nobody works on. -/
theorem Balance.lift {rest : List (TaskMessage × List Nat)} {final : Bool}
    (hw : w.main.carried = none)
    (hfree : i ∈ note ++ q.processing.noteOf m → i ∈ q.processing.noteOf m ∧
      m.attempt < m.maxAttempts ∧ w.load i = 0 ∧ R = 0) :
    Balance i limit b { q with processing := q.processing.rem m }
      (w.goto (.lifted m (note ++ q.processing.noteOf m) rest final)) R OO := by
  by_cases hi : i ∈ note ++ q.processing.noteOf m
  · obtain ⟨hin, hlt, hload, hR⟩ := hfree hi
    obtain ⟨e, he, rfl, hie⟩ := ZSet.mem_noteOf.mp hin
    have hstart := h.processing e he hie
    have hnone : ∀ f ∈ (q.processing.rem e.member).entries, i ∉ f.note := by
      intro f hf hif
      obtain ⟨hf, hne⟩ := ZSet.mem_rem.mp hf
      exact hne (h.same f hf e he hif hie)
    have hq := (h.owns e he hie).1
    have hready : Ready limit (q.startsOf i) e.member :=
      ⟨hstart.bound, hstart.attempt, by have := hstart.bound; have := hstart.attempt; omega⟩
    refine ⟨?_, fun f hf hif => absurd hif (hnone f hf),
      fun f hf g _ hif => absurd hif (hnone f hf), h.queue,
      fun f hf => h.processing f (ZSet.mem_rem.mp hf).1, ⟨fun _ _ => hready, h.counted.jobs⟩,
      h.total, h.shaped, h.recorded⟩
    rw [worker_load ha, main_load_none hw] at hload
    rw [load_goto ha, main_load_some rfl, if_pos hi]
    show q.queue.copies i + _ + _ ≤ b ∧ b ≤ 1
    omega
  · have hcarried : ∀ p ∈ (Main.lifted m (note ++ q.processing.noteOf m) rest final).carried,
        i ∉ p.2 := by
      intro p hp
      obtain rfl := Option.some.inj hp
      exact hi
    exact (h.leave ha hcarried).shrink

theorem Balance.alone (hw : w.main = .waiting m note) (hin : i ∈ note) :
    R = 0 ∧ (∀ e ∈ q.queue.entries, i ∉ e.note) ∧
      ∀ job ∈ w.jobs, job.live = true → i ∉ job.note := by
  have hone := h.one
  rw [worker_load ha, main_load_some (by rw [hw]; rfl), if_pos hin] at hone
  refine ⟨by omega, fun e he hie => ?_, fun job hj hl hij => ?_⟩
  · have hz : q.queue.copies i = 0 := by omega
    exact ZSet.copies_eq_zero.mp hz ⟨e, he, hie⟩
  · have := one_le_load hj hl hij
    omega

theorem Balance.start {H : Handler Unit Unit (Option String)} (hw : w.main = .waiting m note) :
    Balance i limit b { q with starts := q.starts ++ [note] }
      { w with main := .select, jobs := w.jobs ++ [newJob H w q m note] } R OO ∧
      (i ∈ note → R = 0) := by
  have hadv : i ∈ note → Advanced limit (q.startsOf i) m := by
    have := h.counted.main ha
    rwa [hw] at this
  have hwaits : ∀ e ∈ q.processing.entries, i ∈ e.note → i ∈ note → e.member = m := by
    intro e he hi hin
    have hmain := ((h.owns e he hi).2.1 ha).1 (m, note) (by rw [hw]; rfl) hin
    rw [hw] at hmain
    cases hmain
    rfl
  refine ⟨⟨?_, fun e he hi => ?_, h.same, fun e he hi => ?_, fun e he hi => ?_,
    ⟨fun _ => trivial, fun _ job hj hi hl => ?_⟩, ?_, forall_mem_concat (fun _ => rfl) h.shaped,
    forall_mem_concat (fun hi => newJob_recorded H hi (hadv hi)) fun job hj hi =>
      (h.recorded job hj hi).mono⟩, fun hin => (h.alone ha hw hin).1⟩
  · have hone := h.one
    have hload := start_load (i := i) (q := q) H ha hw
    show q.queue.copies i + _ + _ ≤ b ∧ b ≤ 1
    omega
  · obtain ⟨hq, hown, ho⟩ := h.owns e he hi
    refine ⟨hq, fun _ => ⟨by simp [Main.carried], forall_mem_concat (fun hij _ => ?_) (hown ha).2⟩, ho⟩
    rw [hwaits e he hi hij]
    rfl
  · rw [startsOf_append]
    by_cases hin : i ∈ note
    · exact absurd hi ((h.alone ha hw hin).2.1 e he)
    · rw [if_neg hin]
      exact h.queue e he hi
  · rw [startsOf_append]
    have hstart := h.processing e he hi
    by_cases hin : i ∈ note
    · have hattempt := (hadv hin).attempt
      rw [hwaits e he hi hin] at hstart ⊢
      rw [if_pos hin]
      exact ⟨hstart.bound, by push_cast; omega⟩
    · rw [if_neg hin]
      exact hstart
  · rw [startsOf_append]
    rcases List.mem_append.mp hj with hj | hj
    · by_cases hin : i ∈ note
      · exact absurd hi ((h.alone ha hw hin).2.2 job hj hl)
      · rw [if_neg hin]
        exact h.counted.jobs ha job hj hi hl
    · obtain rfl := List.mem_singleton.mp hj
      have hin : i ∈ note := hi
      have hattempt := (hadv hin).attempt
      rw [if_pos hin]
      show ((q.startsOf i + 1 : Nat) : Int) ≤ m.attempt
      push_cast
      omega
  · rw [startsOf_append]
    have htotal := h.total
    by_cases hin : i ∈ note
    · have hleft := (hadv hin).left
      rw [if_pos hin]
      push_cast
      omega
    · rw [if_neg hin]
      exact htotal

variable (hw : w.main.carried = some (m, note)) (hnw : ∀ m, w.main ≠ .waiting m note)
include hw hnw

theorem Balance.carry {m' : TaskMessage} (hpc : pc.carried = some (m', note))
    (hcount : i ∈ note → pc.Counted i limit (q.startsOf i)) :
    Balance i limit b q (w.goto pc) R OO := by
  have hown : ∀ m, (∀ p ∈ w.main.carried, i ∈ p.2 → w.main = .waiting m p.2) → i ∉ note :=
    fun m hm hi => hnw m (hm _ hw hi)
  refine h.move ha ?_ ?_ fun m hm p hp hi => ?_
  · rw [main_load_some hw, main_load_some hpc]
  · by_cases hi : i ∈ note
    · exact hcount hi
    · refine counted_of_carried fun p hp => ?_
      obtain rfl := Option.some.inj (hpc.symm.trans hp)
      exact hi
  · obtain rfl := Option.some.inj (hpc.symm.trans hp)
    exact absurd hi (hown m hm)

theorem Balance.no_entry (hi : i ∈ note) :
    ∀ e ∈ q.processing.entries, i ∉ e.note := by
  intro e he hin
  obtain ⟨_, hown, _⟩ := h.owns e he hin
  exact hnw _ ((hown ha).1 _ hw hi)

theorem Balance.push (hready : i ∈ note → Ready limit (q.startsOf i) m) (hpc : pc.carried = none) :
    Balance i limit b (q.pushQueue env m note) (w.goto pc) R OO := by
  have hone := h.one
  rw [worker_load ha, main_load_some hw] at hone
  have hcopies := @ZSet.copies_add_le _ _ m q.queue i (env.float64 m.availableAt) note
  have hcarried : ∀ p ∈ pc.carried, i ∉ p.2 := by simp [hpc]
  refine ⟨?_, fun e he hi => ?_, h.same, ready_add h.queue hready, h.processing,
    ⟨fun _ => counted_of_carried hcarried, h.counted.jobs⟩, h.total, h.shaped, h.recorded⟩
  · rw [load_goto ha, main_load_none hpc]
    show (q.queue.add m _ note).copies i + _ + _ ≤ b ∧ b ≤ 1
    omega
  · have hni : i ∉ note := fun hin => h.no_entry ha hw hnw hin e he hi
    obtain ⟨hq, hown, ho⟩ := h.owns e he hi
    rw [if_neg hni] at hcopies
    refine ⟨⟨Nat.le_zero.mp (hcopies.trans (by omega)), hq.2⟩, fun _ => ⟨?_, (hown ha).2⟩, ho⟩
    exact fun p hp hin => absurd hin (hcarried p hp)

theorem Balance.take {t : Int} (hadv : i ∈ note → Advanced limit (q.startsOf i) m)
    (hR : R = 0 → ∀ m, OO m) :
    Balance i limit b { q with processing := q.processing.add m t note }
      (w.goto (.waiting m note)) R OO := by
  have hone := h.one
  rw [worker_load ha, main_load_some hw] at hone
  -- an entry that carries the task is the new one, or was there before under its member
  have hentry : ∀ e ∈ (q.processing.add m t note).entries, i ∈ e.note →
      i ∈ note ∧ e.member = m ∨
        i ∉ note ∧ ∃ f ∈ q.processing.entries, i ∈ f.note ∧ f.member = e.member := by
    intro e he hi
    by_cases hin : i ∈ note
    · have hnone := h.no_entry ha hw hnw hin
      rcases ZSet.mem_add.mp he with rfl | ⟨he, _⟩
      · exact .inl ⟨hin, rfl⟩
      · exact absurd hi (hnone e he)
    · refine .inr ⟨hin, ?_⟩
      rcases ZSet.mem_add.mp he with rfl | ⟨he, _⟩
      · obtain ⟨f, hf, hfm, hfi⟩ := ZSet.mem_noteOf.mp ((List.mem_append.mp hi).resolve_right hin)
        exact ⟨f, hf, hfi, hfm⟩
      · exact ⟨e, he, hi, rfl⟩
  refine ⟨?_, fun e he hi => ?_, fun e he f hf hie hif => ?_, h.queue, fun e he hi => ?_,
    ⟨fun _ => hadv, h.counted.jobs⟩, h.total, h.shaped, h.recorded⟩
  · rw [load_goto ha, main_load_some rfl]
    exact hone
  · rcases hentry e he hi with ⟨hin, hm⟩ | ⟨hin, f, hf, hif, hm⟩
    · rw [if_pos hin] at hone
      refine ⟨by show q.queue.copies i = 0 ∧ b = 1; omega, fun _ => ⟨fun p hp _ => ?_, fun job hj hij hl => ?_⟩,
        hR (by omega) _⟩
      · obtain rfl := Option.some.inj hp
        rw [hm]
        rfl
      · have := one_le_load (w := w) hj hl hij
        omega
    · obtain ⟨hq, hown, ho⟩ := h.owns f hf hif
      rw [← hm]
      refine ⟨hq, fun _ => ⟨fun p hp hip => ?_, (hown ha).2⟩, ho⟩
      obtain rfl := Option.some.inj hp
      exact absurd hip hin
  · rcases hentry e he hie with ⟨hin, hm⟩ | ⟨hin, g, hg, hig, hm⟩ <;>
      rcases hentry f hf hif with ⟨hin', hm'⟩ | ⟨hin', g', hg', hig', hm'⟩
    · rw [hm, hm']
    · exact absurd hin hin'
    · exact absurd hin' hin
    · rw [← hm, ← hm']
      exact h.same g hg g' hg' hig hig'
  · rcases hentry e he hi with ⟨hin, hm⟩ | ⟨hin, f, hf, hif, hm⟩
    · have hadv := hadv hin
      rw [hm]
      exact ⟨hadv.bound, hadv.attempt.le⟩
    · rw [← hm]
      exact h.processing f hf hif

end

/-- A step of the loop. `hlift` is about what `requeueExpired` takes back. -/
theorem main_balance {H : Handler Unit Unit (Option String)}
    (he : MainEffect H env q w o q' w') (ha : w.alive = true) (h : Balance i limit b q w R OO)
    (hR : R = 0 → ∀ m, OO m)
    (hlift : ∀ m note rest final, w.main = .requeue ((m, note) :: rest) final → o = .command →
      i ∈ note ++ q.processing.noteOf m → i ∈ q.processing.noteOf m ∧
        m.attempt < m.maxAttempts ∧ w.load i = 0 ∧ R = 0) :
    Balance i limit b q' w' R OO ∧ (q'.startsOf i = q.startsOf i ∨ R = 0) := by
  have hmain := h.counted.main ha
  cases he with
  | idle _ hpc _ _ => exact ⟨h.leave ha (by simp [hpc.carried]), .inl rfl⟩
  | pop hw _ he => exact ⟨h.pop ha (by rw [hw]; rfl) he, .inl rfl⟩
  | notDue hw | stamp hw _ =>
    rw [hw] at hmain
    exact ⟨h.carry ha (by rw [hw]; rfl) (by simp [hw]) rfl fun _ => hmain, .inl rfl⟩
  | due hw =>
    rw [hw] at hmain
    refine ⟨h.carry ha (by rw [hw]; rfl) (by simp [hw]) rfl fun _ hi => ?_, .inl rfl⟩
    have hready := hmain hi
    exact ⟨hready.bound, Int.lt_add_one_of_le hready.attempt, hready.left⟩
  | lift hw _ =>
    exact ⟨h.lift ha (by rw [hw]; rfl) (hlift _ _ _ _ hw rfl), .inl rfl⟩
  | miss hw _ _ =>
    refine ⟨h.leave ha fun p hp => ?_, .inl rfl⟩
    obtain rfl := Option.some.inj hp
    exact List.not_mem_nil
  | restamp hw =>
    rw [hw] at hmain
    refine ⟨h.carry ha (by rw [hw]; rfl) (by simp [hw]) rfl fun _ hi => ?_, .inl rfl⟩
    have hready := hmain hi
    exact { hready with }
  | moved hw _ =>
    rw [hw] at hmain
    exact ⟨h.push ha (by rw [hw]; rfl) (by simp [hw]) hmain (afterRequeue_empty _ _).carried,
      .inl rfl⟩
  | pushed hw =>
    rw [hw] at hmain
    exact ⟨h.push ha (by rw [hw]; rfl) (by simp [hw]) hmain rfl, .inl rfl⟩
  | @lost pc _ _ hpc _ _ =>
    have hgo : Balance i limit b q (w.goto pc) R OO := h.leave ha (by simp [hpc.carried])
    exact ⟨hgo.with_dropped _, .inl rfl⟩
  | taken hw =>
    rw [hw] at hmain
    exact ⟨h.take ha (by rw [hw]; rfl) (by simp [hw]) hmain hR, .inl rfl⟩
  | @started m note hw =>
    obtain ⟨hb, hzero⟩ := h.start (H := H) ha hw
    refine ⟨hb, ?_⟩
    by_cases hi : i ∈ note
    · exact .inr (hzero hi)
    · rw [startsOf_append, if_neg hi]
      exact .inl rfl
  | cancel =>
    exact ⟨{ h with counted := ⟨h.counted.main, h.counted.jobs⟩ }, .inl rfl⟩
  | crash =>
    have hload : Worker.load i { w with alive := false } = 0 := rfl
    refine ⟨{ h with
      one := ?_, owns := fun e he hi => ?_, counted := counted_of_load_zero hload }, .inl rfl⟩
    · have := h.one
      rw [hload]
      omega
    · obtain ⟨hq, _, ho⟩ := h.owns e he hi
      exact ⟨hq, owns_of_load_zero hload, ho⟩

/-! ## Steps of a job -/

variable {j : Nat} {job job' : Job Unit} {lost : List Nat}

theorem load_set (ha : w.alive = true) (hj : w.jobs[j]? = some job) {dropped : List Nat} :
    Worker.load i (w.withJob j job' dropped) + job.load i =
      w.load i + job'.load i := by
  show (if w.alive = true then w.main.load i + ((w.jobs.set j job').map (Job.load i)).sum else 0) +
    job.load i = _
  rw [if_pos ha, worker_load ha]
  have := sum_map_set (f := Job.load i) (y := job') hj
  omega

/-- What the steps of a job leave as it is. -/
structure SameTask (job job' : Job Unit) : Prop where
  msg : job'.msg = job.msg
  note : job'.note = job.note
  start : job'.start = job.start

theorem SameTask.goto (job : Job Unit) (pc : JobPc Unit) : SameTask job (job.goto pc) := ⟨rfl, rfl, rfl⟩

theorem SameTask.returns (job : Job Unit) (r : Option String) : SameTask job (job.returns r) := by
  cases r <;> exact ⟨rfl, rfl, rfl⟩

theorem SameTask.load_le (h : SameTask job job') (hl : job'.live = true → job.live = true) :
    job'.load i ≤ job.load i := by
  unfold Job.load
  rw [h.note]
  split
  · rename_i hc
    rw [if_pos ⟨hl hc.1, hc.2⟩]
  · exact Nat.zero_le _

theorem release_not_live (job : Job θ) : job.release.live = false := by
  unfold Job.release Job.live
  split <;> simp [Job.goto]

theorem release_shaped (job : Job θ) : i ∈ job.note → job.release.Shaped := by
  intro _
  unfold Job.release
  split <;> trivial

theorem Balance.with_rest (h : Balance i limit b q w R OO) (dedup : Keys String)
    (dlq : List DLQEntry) (handled : List Nat) :
    Balance i limit b { q with dedup := dedup, dlq := dlq, handled := handled } w R OO :=
  { h with }

theorem afterRemoval_shaped (job : Job θ) (executed : Bool) {cause : String} :
    (job.goto (afterRemoval executed { job.msg with lastError := cause })).Shaped := by
  unfold afterRemoval
  split
  · trivial
  · rename_i hlt
    exact ⟨rfl, rfl, hlt⟩

section

variable (h : Balance i limit b q w R OO) (ha : w.alive = true) (hj : w.jobs[j]? = some job)
include h ha hj

/-- A job moves on and the entries of the processing set that carry the task, if
there are any, belong to it as before. -/
theorem Balance.set_job (hsame : SameTask job job') (hlive : job'.live = true → job.live = true)
    (hown : job'.live = true → i ∈ job.note → ∀ e ∈ q.processing.entries, i ∈ e.note →
      job'.owned = some e.member)
    (hshape : i ∈ job.note → job'.Shaped) (dropped : List Nat) :
    Balance i limit b q (w.withJob j job' dropped) R OO := by
  have hmem := List.mem_of_getElem? hj
  refine ⟨?_, fun e he hi => ?_, h.same, h.queue, h.processing,
    ⟨h.counted.main, fun _ => ?_⟩, h.total, forall_mem_set (fun hin => hshape (hsame.note ▸ hin)) h.shaped, ?_⟩
  · have hle := @SameTask.load_le i _ _ hsame hlive
    have := @load_set i w j job job' ha hj dropped
    have := h.one
    omega
  · obtain ⟨hq, hw, ho⟩ := h.owns e he hi
    refine ⟨hq, fun _ => ⟨(hw ha).1, ?_⟩, ho⟩
    refine forall_mem_set (fun hin hl => ?_) (hw ha).2
    exact hown hl (hsame.note ▸ hin) e he hi
  · refine forall_mem_set (fun hin hl => ?_) (h.counted.jobs ha)
    rw [hsame.msg]
    exact h.counted.jobs ha job hmem (hsame.note ▸ hin) (hlive hl)
  · refine forall_mem_set (fun hin => ?_) h.recorded
    have hrec := h.recorded job hmem (hsame.note ▸ hin)
    exact ⟨hsame.msg ▸ hrec.bound, hsame.start ▸ hrec.start, by
      rw [Job.nth, hsame.start, hsame.msg]
      exact hrec.nth⟩

theorem Balance.retire (hsame : SameTask job job') (hlive : job'.live = false)
    (hshape : i ∈ job.note → job'.Shaped) (dropped : List Nat) :
    Balance i limit b q (w.withJob j job' dropped) R OO :=
  h.set_job ha hj hsame (by simp [hlive]) (by simp [hlive]) hshape dropped

theorem Balance.no_entry_of_job (hlive : job.live = true) (hi : i ∈ job.note)
    {x : Option TaskMessage} (hown : job.owned = x) :
    ∀ e ∈ q.processing.entries, i ∈ e.note → x = some e.member := by
  intro e he hie
  rw [← hown]
  exact ((h.owns e he hie).2.1 ha).2 job (List.mem_of_getElem? hj) hi hlive

theorem Balance.remove (hd : job.ctxDone = false) {cause : String} (hpc : job.pc = .failing cause)
    (dropped : List Nat) :
    Balance i limit b { q with processing := q.processing.rem job.msg }
      (w.withJob j (job.goto (afterRemoval true { job.msg with lastError := cause })) dropped) R OO := by
  have hlive : job.live = true := by simp [Job.live, hd, hpc]
  refine h.shrink.set_job ha hj (.goto _ _) (fun _ => hlive) (fun _ hi e he hie => ?_) ?_ dropped
  · -- the entry that carried the task has just gone
    obtain ⟨he, hne⟩ := ZSet.mem_rem.mp he
    have hown : job.owned = some job.msg := by simp [Job.owned, hpc]
    exact absurd (Option.some.inj (h.no_entry_of_job ha hj hlive hi hown e he hie)).symm hne
  · exact fun _ => afterRemoval_shaped job true

theorem Balance.retry {executed : Bool} (hpos : 0 < limit) (hd : job.ctxDone = false)
    (hpc : job.pc = .retrying executed m) (dropped : List Nat) :
    Balance i limit b (q.pushQueue env m job.note)
      (w.withJob j (job.goto .ended) dropped) R OO := by
  have hmem := List.mem_of_getElem? hj
  have hlive : job.live = true := by simp [Job.live, hd, hpc]
  have hend : (job.goto .ended).live = false := by simp [Job.live, Job.goto]
  have hb := h.retire ha hj (.goto job .ended) hend (fun _ => trivial) dropped
  have hnone : i ∈ job.note → ∀ e ∈ q.processing.entries, i ∉ e.note := by
    intro hi e he hie
    have hown : job.owned = none := by simp [Job.owned, hpc]
    cases h.no_entry_of_job ha hj hlive hi hown e he hie
  have hready : i ∈ job.note → Ready limit (q.startsOf i) m := by
    intro hi
    have hrec := h.recorded job hmem hi
    have hcount := h.counted.jobs ha job hmem hi hlive
    have hshape := h.shaped job hmem hi
    rw [Job.Shaped, hpc] at hshape
    obtain ⟨hatt, hmax, hlt⟩ := hshape
    have hbound := hmax.trans hrec.bound
    rw [hbound] at hlt
    exact ⟨hbound, by omega, by omega⟩
  have hload := @load_set i w j job (job.goto .ended) ha hj dropped
  have hjob : job.load i = if i ∈ job.note then 1 else 0 := by simp [Job.load, hlive]
  have hzero : (job.goto .ended).load i = 0 := by simp [Job.load, hend]
  have hcopies := @ZSet.copies_add_le _ _ m q.queue i (env.float64 m.availableAt) job.note
  refine { hb with one := ?_, owns := fun e he hie => ?_, queue := ready_add h.queue hready }
  · have := h.one
    show (q.queue.add m _ job.note).copies i + _ + _ ≤ b ∧ b ≤ 1
    omega
  · have hni : i ∉ job.note := fun hi => hnone hi e he hie
    obtain ⟨hq, hw, ho⟩ := hb.owns e he hie
    rw [if_neg hni] at hcopies
    exact ⟨⟨Nat.le_zero.mp (hcopies.trans (by omega)), hq.2⟩, hw, ho⟩

theorem Balance.bury {executed : Bool} (hd : job.ctxDone = false)
    (hpc : job.pc = .burying executed m) (hi : i ∈ job.note) (dlq : List DLQEntry)
    (dropped : List Nat) :
    Balance i limit 0 { q with dlq := dlq } (w.withJob j job.release dropped) R OO := by
  have hlive : job.live = true := by simp [Job.live, hd, hpc]
  have hown : job.owned = none := by simp [Job.owned, hpc]
  have hb := h.retire ha hj (.goto job _) (release_not_live job) (release_shaped job) dropped
  refine { hb with one := ?_, owns := fun e he hie => ?_ }
  · have hload := @load_set i w j job job.release ha hj dropped
    have hjob : job.load i = 1 := if_pos ⟨hlive, hi⟩
    have hzero : job.release.load i = 0 := by simp [Job.load, release_not_live]
    have := h.one
    show q.queue.copies i + _ + _ ≤ 0 ∧ 0 ≤ 1
    omega
  · cases h.no_entry_of_job ha hj hlive hi hown e he hie

theorem Balance.return {pt : Unit} (hpc : job.pc = .running pt) (r : Option String)
    (dropped : List Nat) :
    Balance i limit b q (w.withJob j (job.returns r) dropped) R OO := by
  have hlive : (job.returns r).live = job.live := by cases r <;> simp [Job.live, Job.returns, hpc]
  have hown : (job.returns r).owned = job.owned := by cases r <;> simp [Job.owned, Job.returns, hpc]
  refine h.set_job ha hj (.returns job r) hlive.symm.trans
    (fun hl hi e he hie => ?_) (fun _ => ?_) dropped
  · exact h.no_entry_of_job ha hj (hlive ▸ hl) hi hown.symm e he hie
  · cases r <;> trivial

end

theorem job_balance {s s' : Shared Unit} {x : JobOp (Option String)}
    (he : JobEffect arbitraryHandler env s job x s' job' lost) (hpos : 0 < limit)
    (ha : w.alive = true) (hj : w.jobs[j]? = some job) (h : Balance i limit b s.broker w R OO)
    (dropped : List Nat) :
    Balance i limit b s'.broker (w.withJob j job' dropped) R OO := by
  have hshape := h.shaped job (List.mem_of_getElem? hj)
  cases he with
  | expire =>
    have hsame : SameTask job { job with ctxDone := true } := ⟨rfl, rfl, rfl⟩
    exact h.retire ha hj hsame (by simp [Job.live]) hshape dropped
  | ran _ hs => cases hs
  | succeeded hpc hs =>
    cases hs
    exact (h.return ha hj hpc none dropped).with_rest _ _ _
  | erred hpc hs =>
    cases hs
    exact h.return ha hj hpc _ dropped
  | @stamp _ executed m t hpc =>
    refine h.set_job ha hj (.goto job (.retrying executed { m with availableAt := t })) ?_
      (fun hl hi e he hie => ?_) (fun hi => ?_) dropped
    · simp [Job.live, Job.goto, hpc]
    · have hown : job.owned = none := by simp [Job.owned, hpc]
      have hlive : job.live = true := by simpa [Job.live, Job.goto, hpc] using hl
      cases h.no_entry_of_job ha hj hlive hi hown e he hie
    · have hshape := hshape hi
      rw [Job.Shaped, hpc] at hshape
      exact hshape
  | acked hpc hd =>
    exact h.shrink.retire ha hj (.goto _ _) (release_not_live job) (release_shaped job) dropped
  | unacked hpc hd | unburied hpc hd =>
    exact h.retire ha hj (.goto _ _) (release_not_live job) (release_shaped job) dropped
  | removed hpc hd => exact h.remove ha hj hd hpc dropped
  | unremoved hpc hd =>
    exact h.retire ha hj (.goto _ _) (by simp [Job.live, Job.goto, hd])
      (fun _ => afterRemoval_shaped job false) dropped
  | retried hpc hd => exact h.retry ha hj hpos hd hpc dropped
  | unretried hpc hd | unreleased hpc hd =>
    exact h.retire ha hj (.goto job .ended) (by simp [Job.live, Job.goto]) (fun _ => trivial)
      dropped
  | buried hpc hd =>
    exact (h.retire ha hj (.goto _ _) (release_not_live job) (release_shaped job) dropped).with_rest
      _ _ _
  | released hpc hd =>
    exact (h.retire ha hj (.goto job .ended) (by simp [Job.live, Job.goto]) (fun _ => trivial)
      dropped).with_rest _ _ _

end

end TokoApi.Queue
