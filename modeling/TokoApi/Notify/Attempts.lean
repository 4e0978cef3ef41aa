import TokoApi.Notify.Effects

/-!
# Attempts, failures and the dead letters

`Schedule`, `WorkOnce`, `DeliverByID`, `DeliveryWorker.Handle` and `ReplayDelivery` one
after the other, each as a whole. Beside the tables a count is kept of the attempts of
every delivery that have failed since it was created or last reset. It agrees with the
counter in the row: an attempt that fails either increments the counter or moves the
row to the DLQ, where no processor touches it any more. So the counter never reaches
max_attempt, the failures never exceed it, and one row of webhook_dlq is written.
-/
namespace TokoApi.Notify

open Lib.Threads Lib.Wrap Resilience

/-- `failed` is not a table: it counts failed attempts. -/
structure Ledger where
  now : Int
  store : Store
  failed : Nat → Nat

/-- `schedule` has the configured number of attempts, which may change from one start of
the server to the next. `workOnce` has, for each row of its batch, the time that passes
before the row is processed and what its calls give. -/
inductive Operation where
  | schedule (maxAttempts : Int) (event : Nat) (cs : List Call)
  | workOnce (batch : Int) (c : Call) (answers : Nat → Nat × Answers)
  | deliverByID (deliveryID : String) (a : Answers)
  | handle (payload : String) (a : Answers)
  | replayDelivery (id : Nat) (reset delete release : Call)
  | tick (n : Nat)

namespace Dispatcher

variable (d : Dispatcher)

def fails (now : Int) (s : Store) (id : Nat) (del : WebhookDelivery) (a : Answers) : Bool :=
  a.markDelivering = .ok && !(d.attempt now (markDelivering s id) del a).2.success

def failures (l : Ledger) (target : Option (Nat × WebhookDelivery)) (a : Answers) : Nat → Nat :=
  match target with
  | none => l.failed
  | some (id, del) =>
    if d.fails l.now l.store id del a then Function.update l.failed id (l.failed id + 1)
    else l.failed

/-- The delivery that a call of `DeliverByID` or of `Handle` comes to process. -/
def deliverTarget (l : Ledger) (deliveryID : String) (a : Answers) :
    Option (Nat × WebhookDelivery) :=
  (d.eligible l.now l.store deliveryID a).getRight?

def handleTarget (l : Ledger) (payload : String) (a : Answers) : Option (Nat × WebhookDelivery) :=
  (d.unlock l.store payload a).getRight?.bind fun deliveryID => d.deliverTarget l deliveryID a

def workLoop : Ledger → (Nat → Nat × Answers) → List (Nat × WebhookDelivery) → Ledger
  | l, _, [] => l
  | l, answers, p :: rest =>
    let (wait, a) := answers 0
    let l' := { l with now := l.now + wait }
    workLoop
      { l' with
        store := (d.processDelivery l'.now l.store p.1 p.2 a).1
        failed := d.failures l' (some p) a }
      (fun n => answers (n + 1)) rest

def workOnce (l : Ledger) (batch : Int) (c : Call) (answers : Nat → Nat × Answers) : Ledger :=
  match d.enabled, c with
  | true, .ok =>
    let limit := (if batch ≤ 0 then 1 else batch).toNat
    d.workLoop l answers (dequeueDueDeliveries l.store l.now limit)
  | _, _ => l

def operate (l : Ledger) : Operation → Ledger
  | .schedule maxAttempts event cs =>
    { l with store :=
        ({ d with defaultMaxAttempts := maxAttempts }.schedule l.now l.store event cs).1 }
  | .workOnce batch c answers => d.workOnce l batch c answers
  | .deliverByID deliveryID a =>
    { l with
      store := (d.deliverByID l.now l.store deliveryID a).1
      failed := d.failures l (d.deliverTarget l deliveryID a) a }
  | .handle payload a =>
    { l with
      store := (d.handle l.now l.store payload a).1
      failed := d.failures l (d.handleTarget l payload a) a }
  | .replayDelivery id reset delete release =>
    { l with
      store := d.replayDelivery l.now l.store id reset delete release
      failed := if reset = .ok then Function.update l.failed id 0 else l.failed }
  | .tick n => { l with now := l.now + n }

end Dispatcher

def dlqRows (s : Store) (id : Nat) : Nat := s.dlq.countP fun e => e.1 = id

/-- The calls that record a failure succeed. -/
def Answers.Records (a : Answers) : Prop :=
  a.moveToDLQ = .ok ∧ a.insertDlq = .ok ∧ a.markFailed = .ok

/-- The calls that the counts rest on succeed; any other may fail. -/
def Operation.Recorded : Operation → Prop
  | .workOnce _ _ answers => ∀ n, (answers n).2.Records
  | .deliverByID _ a | .handle _ a => a.Records
  | .replayDelivery _ _ delete _ => delete = .ok
  | _ => True

/-- Rows as `Schedule` leaves them: none has been tried. -/
structure Untried (s : Store) : Prop where
  keyed : Keyed s
  dlq : s.dlq = []
  pending : ∀ id ∈ s.deliveries.ids, (s.deliveries.row id).status = .pending ∧
    (s.deliveries.row id).attempt = 0 ∧ (s.deliveries.row id).maxAttempt < 2 ^ 31

/-! ## One attempt -/

/-- What an attempt does to the row and to the number of its dead letters. -/
inductive Tried (row : WebhookDelivery) (n : Nat) : Bool → WebhookDelivery → Nat → Prop where
  | passed {row' : WebhookDelivery} (hs : row'.status ≠ .dlq) (ha : row'.attempt = row.attempt)
      (hm : row'.maxAttempt = row.maxAttempt) : Tried row n false row' n
  | buried {row' : WebhookDelivery} (hs : row'.status = .dlq) (ha : row'.attempt = row.attempt)
      (hm : row'.maxAttempt = row.maxAttempt) : Tried row n true row' (n + 1)
  | postponed {row' : WebhookDelivery} (hx : Dispatcher.exhausted row = false)
      (hs : row'.status ≠ .dlq) (ha : row'.attempt = row.attempt + 1)
      (hm : row'.maxAttempt = row.maxAttempt) : Tried row n true row' n

variable {d : Dispatcher} {now : Int} {s s' : Store} {id k : Nat} {a : Answers} {o : Outcome}
  {l : Ledger}

variable {row : WebhookDelivery} {failed n : Nat}

theorem settled_tried (ha : a.Records) (hid : id ∈ s.deliveries.ids)
    (hrow : s.deliveries.row id = { row with status := .delivering })
    (h : Settled now s id row a o s') :
    Tried row (dlqRows s id) (!o.success) (s'.deliveries.row id) (dlqRows s' id) ∧
      ∀ k, k ≠ id → dlqRows s' k = dlqRows s k := by
  obtain ⟨hmove, hinsert, hfailed⟩ := ha
  cases h with
  | delivered ho =>
    simp only [markDelivered, dlqRows, updateDelivery_dlq, updateDelivery_self hid, hrow, ho]
    exact ⟨.passed (by simp) rfl rfl, fun _ _ => trivial⟩
  | @buried reason ho =>
    have hcount : ∀ k, dlqRows (Dispatcher.bury s id reason a) k =
        dlqRows s k + if id = k then 1 else 0 := by
      intro k
      simp [Dispatcher.bury, hmove, hinsert, moveToDLQ, insertWebhookDlq, dlqRows, List.countP_append,
        List.countP_cons]
    have hbury : (Dispatcher.bury s id reason a).deliveries.row id =
        { row with status := .dlq, lastError := some reason, nextAttemptAt := none } := by
      simp [Dispatcher.bury, hmove, hinsert, moveToDLQ, insertWebhookDlq, updateDelivery_self hid,
        hrow]
    rw [hcount, hbury, ho, if_pos rfl]
    exact ⟨.buried rfl rfl rfl, fun k hk => by rw [hcount, if_neg (Ne.symm hk), Nat.add_zero]⟩
  | postponed ho hx =>
    simp only [markFailedWithBackoff, dlqRows, updateDelivery_dlq, updateDelivery_self hid, hrow,
      ho]
    exact ⟨.postponed hx (by simp) rfl rfl, fun _ _ => trivial⟩
  | unwritten hcall =>
    rcases hcall with ⟨ho, _⟩ | ⟨_, h | h⟩
    · rw [ho, hrow]
      exact ⟨.passed (by simp) rfl rfl, fun _ _ => rfl⟩
    · rw [hmove] at h
      cases h
    · rw [hfailed] at h
      cases h

theorem processDelivery_tried (d : Dispatcher) (now : Int) (ha : a.Records) (hid : id ∈ s.deliveries.ids)
    (hs : (s.deliveries.row id).status ≠ .dlq) :
    Tried (s.deliveries.row id) (dlqRows s id) (d.fails now s id (s.deliveries.row id) a)
        ((d.processDelivery now s id (s.deliveries.row id) a).1.deliveries.row id)
        (dlqRows (d.processDelivery now s id (s.deliveries.row id) a).1 id) ∧
      ∀ k, k ≠ id →
        dlqRows (d.processDelivery now s id (s.deliveries.row id) a).1 k = dlqRows s k := by
  cases hm : a.markDelivering with
  | fail err =>
    have hself : (d.processDelivery now s id (s.deliveries.row id) a).1 = s := by
      simp only [Dispatcher.processDelivery, hm]
    rw [hself, Dispatcher.fails, hm]
    exact ⟨.passed hs rfl rfl, fun _ _ => rfl⟩
  | ok =>
    rw [processDelivery_eq hm, Dispatcher.fails, hm]
    obtain ⟨guard, log, hframe⟩ :=
      attempt_frame d now (markDelivering s id) (s.deliveries.row id) a
    have hset := settle_settled d now
      (d.attempt now (markDelivering s id) (s.deliveries.row id) a).1 id (s.deliveries.row id) a
      (d.attempt now (markDelivering s id) (s.deliveries.row id) a).2
    rw [hframe] at hset ⊢
    -- the request has left the row as MarkDelivering has made it
    have htried := settled_tried ha (by simpa [markDelivering] using hid)
      (by simp [markDelivering, updateDelivery_self hid]) hset
    simpa [dlqRows, markDelivering] using htried

/-! ## The counts agree -/

structure RowCounted (row : WebhookDelivery) (failed n : Nat) : Prop where
  int4 : row.maxAttempt < 2 ^ 31
  nonneg : 0 ≤ row.attempt
  bound : row.attempt ≤ max 0 (row.maxAttempt - 1)
  failures : (failed : Int) = row.attempt + if row.status = .dlq then 1 else 0
  letters : n = if row.status = .dlq then 1 else 0

theorem rowCounted_new (hm : row.maxAttempt < 2 ^ 31)
    (hs : row.status = .pending) (ha : row.attempt = 0) : RowCounted row 0 0 :=
  ⟨hm, ha.ge, ha ▸ le_max_left _ _, by simp [hs, ha], by simp [hs]⟩

theorem RowCounted.next_lt (h : RowCounted row failed n)
    (hx : Dispatcher.exhausted row = false) : row.attempt + 1 < row.maxAttempt := by
  have hint := h.int4
  have hnonneg := h.nonneg
  have hbound := h.bound
  have hwrap : int32 (row.attempt + 1) = row.attempt + 1 := int32_of_fits (by omega) (by omega)
  simpa [Dispatcher.exhausted, hwrap] using hx

theorem RowCounted.tried {row' : WebhookDelivery} {n' : Nat} {fails : Bool}
    (h : RowCounted row failed n) (hs : row.status ≠ .dlq) (ht : Tried row n fails row' n') :
    RowCounted row' (if fails then failed + 1 else failed) n' := by
  have hfailed := h.failures
  have hn := h.letters
  rw [if_neg hs] at hfailed hn
  cases ht with
  | passed hs' ha hm | buried hs' ha hm =>
    exact ⟨hm ▸ h.int4, ha ▸ h.nonneg, ha ▸ hm ▸ h.bound, by simp [hs', ha, hfailed],
      by simp [hs', hn]⟩
  | postponed hx hs' ha hm =>
    have hlt := h.next_lt hx
    have hnonneg := h.nonneg
    exact ⟨hm ▸ h.int4, by omega, by omega, by simp [hs', ha, hfailed], by simp [hs', hn]⟩

theorem RowCounted.limits (h : RowCounted row failed n) :
    row.attempt ≤ max 0 (row.maxAttempt - 1) ∧ (failed : Int) ≤ max 1 row.maxAttempt ∧
      (row.status = .dlq ↔ n = 1) ∧ (row.status ≠ .dlq → n = 0) := by
  have hbound := h.bound
  have hfailed := h.failures
  have hletters := h.letters
  by_cases hs : row.status = .dlq
  · rw [if_pos hs] at hfailed hletters
    exact ⟨hbound, by omega, by simp [hs, hletters], fun hne => absurd hs hne⟩
  · rw [if_neg hs] at hfailed hletters
    exact ⟨hbound, by omega, by simp [hs, hletters], fun _ => hletters⟩

structure Counted (l : Ledger) : Prop where
  keyed : Keyed l.store
  rows : ∀ id ∈ l.store.deliveries.ids,
    RowCounted (l.store.deliveries.row id) (l.failed id) (dlqRows l.store id)
  unused : ∀ id, id ∉ l.store.deliveries.ids → l.failed id = 0 ∧ dlqRows l.store id = 0

/-- A row as it is, which may be processed. -/
def Current (s : Store) (p : Nat × WebhookDelivery) : Prop :=
  p.1 ∈ s.deliveries.ids ∧ s.deliveries.row p.1 = p.2 ∧ p.2.status ≠ .dlq

theorem Counted.process {p : Nat × WebhookDelivery} (h : Counted l) (hp : Current l.store p)
    (ha : a.Records) :
    Counted { l with
      store := (d.processDelivery l.now l.store p.1 p.2 a).1
      failed := d.failures l (some p) a } ∧
    ∀ q, Current l.store q → q.1 ≠ p.1 →
      Current (d.processDelivery l.now l.store p.1 p.2 a).1 q := by
  obtain ⟨id, del⟩ := p
  obtain ⟨hid, hrow, hs⟩ := hp
  dsimp only at hid hrow hs ⊢
  subst del
  have hframe := (processDelivery_spec d l.now (l.store.deliveries.row id) a hid).1
  obtain ⟨htried, hletters⟩ := processDelivery_tried d l.now ha hid hs
  have hother : ∀ k, k ≠ id → d.failures l (some (id, l.store.deliveries.row id)) a k =
      l.failed k := by
    intro k hk
    simp only [Dispatcher.failures]
    split
    · exact Function.update_of_ne hk _ _
    · rfl
  have hself : d.failures l (some (id, l.store.deliveries.row id)) a id =
      if d.fails l.now l.store id (l.store.deliveries.row id) a then l.failed id + 1
      else l.failed id := by
    simp only [Dispatcher.failures]
    split
    · exact Function.update_self _ _ _
    · rfl
  refine ⟨⟨⟨hframe.fresh h.keyed.fresh, hframe.ids ▸ h.keyed.nodup⟩, fun k hk => ?_,
    fun k hk => ?_⟩, fun q hq hne => ?_⟩
  · dsimp only at hk ⊢
    by_cases hki : k = id
    · subst k
      rw [hself]
      exact (h.rows id hid).tried hs htried
    · rw [hother k hki, hframe.other k hki, hletters k hki]
      exact h.rows k (hframe.ids ▸ hk)
  · dsimp only at hk ⊢
    rw [hframe.ids] at hk
    have hki : k ≠ id := fun he => hk (he ▸ hid)
    rw [hother k hki, hletters k hki]
    exact h.unused k hk
  · exact ⟨hframe.ids ▸ hq.1, (hframe.other q.1 hne).trans hq.2.1, hq.2.2⟩

theorem Counted.later (h : Counted l) (n : Int) : Counted { l with now := n } :=
  ⟨h.keyed, h.rows, h.unused⟩

theorem Counted.workLoop {answers : Nat → Nat × Answers} {rows : List (Nat × WebhookDelivery)}
    (h : Counted l) (ha : ∀ n, (answers n).2.Records) (hrows : ∀ p ∈ rows, Current l.store p)
    (hnodup : (rows.map Prod.fst).Nodup) : Counted (d.workLoop l answers rows) := by
  induction rows generalizing l answers with
  | nil => exact h
  | cons p rest ih =>
    obtain ⟨hp, hrest⟩ := List.nodup_cons.mp hnodup
    obtain ⟨hcounted, hcurrent⟩ := (h.later (l.now + (answers 0).1)).process (d := d)
      (hrows p List.mem_cons_self) (ha 0)
    refine ih hcounted (fun n => ha (n + 1)) (fun q hq => ?_) hrest
    refine hcurrent q (hrows q (List.mem_cons_of_mem p hq)) fun he => hp ?_
    exact he ▸ List.mem_map_of_mem hq

theorem Counted.workOnce {batch : Int} {c : Call} {answers : Nat → Nat × Answers} (h : Counted l)
    (ha : ∀ n, (answers n).2.Records) : Counted (d.workOnce l batch c answers) := by
  unfold Dispatcher.workOnce
  split
  · refine h.workLoop ha (fun p hp => ?_) (dequeued_nodup h.keyed.nodup)
    obtain ⟨hid, hrow, hdue⟩ := dequeued_row hp
    refine ⟨hid, hrow, fun hs => ?_⟩
    simp [WebhookDelivery.due, hs] at hdue
  · exact h

theorem eligible_current {deliveryID : String} {p : Nat × WebhookDelivery}
    (h : d.eligible now s deliveryID a = .inr p) : Current s p := by
  obtain ⟨⟨hid, hrow⟩, hopen⟩ := eligible_row h
  refine ⟨hid, hrow, fun hs => ?_⟩
  rw [hs] at hopen
  cases hopen

theorem Counted.deliverByID {deliveryID : String} (h : Counted l) (ha : a.Records) :
    Counted { l with
      store := (d.deliverByID l.now l.store deliveryID a).1
      failed := d.failures l (d.deliverTarget l deliveryID a) a } := by
  simp only [Dispatcher.deliverByID, Dispatcher.deliverTarget]
  cases he : d.eligible l.now l.store deliveryID a with
  | inl next => exact h
  | inr p => exact (h.process (eligible_current he) ha).1

theorem Counted.handle {payload : String} (h : Counted l) (ha : a.Records) :
    Counted { l with
      store := (d.handle l.now l.store payload a).1
      failed := d.failures l (d.handleTarget l payload a) a } := by
  simp only [Dispatcher.handle, Dispatcher.handleTarget]
  cases d.unlock l.store payload a with
  | inl next => exact h
  | inr deliveryID => exact h.deliverByID ha

theorem Counted.schedule {event : Nat} {cs : List Call} (h : Counted l) :
    Counted { l with store := (d.schedule l.now l.store event cs).1 } := by
  have hins := schedule_inserted d l.now event cs h.keyed
  have hletters : ∀ k, dlqRows (d.schedule l.now l.store event cs).1 k = dlqRows l.store k := by
    intro k
    rw [dlqRows, hins.dlq, dlqRows]
  refine ⟨hins.keyed, fun k hk => ?_, fun k hk => ?_⟩
  · dsimp only at hk ⊢
    rw [hletters]
    by_cases hold : k ∈ l.store.deliveries.ids
    · rw [(hins.old k hold).2]
      exact h.rows k hold
    · obtain ⟨_, hs, ha, hm⟩ := hins.new k hk hold
      obtain ⟨hf, hn⟩ := h.unused k hold
      rw [hf, hn]
      refine rowCounted_new ?_ hs ha
      rw [hm]
      exact int32_lt _
  · dsimp only at hk ⊢
    rw [hletters]
    exact h.unused k fun hold => hk (hins.old k hold).1

theorem dlqRows_delete (s : Store) (id k : Nat) :
    dlqRows (deleteDlqByDelivery s id) k = if k = id then 0 else dlqRows s k := by
  simp only [dlqRows, deleteDlqByDelivery, List.countP_filter]
  split
  · subst k
    refine List.countP_eq_zero.mpr fun e _ => ?_
    simp
  · rename_i hk
    refine List.countP_congr fun e _ => ?_
    by_cases he : e.1 = k <;> simp [he, hk]

theorem Counted.replay {reset delete release : Call} (h : Counted l) (hd : delete = .ok) :
    Counted { l with
      store := d.replayDelivery l.now l.store id reset delete release
      failed := if reset = .ok then Function.update l.failed id 0 else l.failed } := by
  have hrep := replayDelivery_replayed d l.now l.store id reset delete release
  generalize d.replayDelivery l.now l.store id reset delete release = store at hrep
  cases hrep with
  | unchanged hnot =>
    have hsame : (if reset = .ok then Function.update l.failed id 0 else l.failed) = l.failed := by
      split
      · rename_i hr
        have hzero := (h.unused id fun hid => hnot hid hr).1
        rw [← hzero, Function.update_eq_self]
      · rfl
    rw [hsame]
    exact h
  | @reset f guard dlq log hid hr hf hdlq =>
    have hkeyed := h.keyed.update id f
    have hletters : ∀ k, (l.store.dlq.filter fun e => e.1 ≠ id).countP (fun e => e.1 = k) =
        if k = id then 0 else dlqRows l.store k := dlqRows_delete l.store id
    rw [if_pos hr, hdlq hd]
    refine ⟨⟨hkeyed.fresh, hkeyed.nodup⟩, fun k hk => ?_, fun k hk => ?_⟩
    · change k ∈ (updateDelivery l.store id f).deliveries.ids at hk
      change RowCounted ((updateDelivery l.store id f).deliveries.row k)
        (Function.update l.failed id 0 k) (List.countP _ _)
      rw [updateDelivery_ids] at hk
      rw [hletters]
      by_cases hki : k = id
      · subst k
        obtain ⟨hs, ha, hm⟩ := hf (l.store.deliveries.row id)
        rw [updateDelivery_self hid, Function.update_self, if_pos rfl]
        exact rowCounted_new (hm ▸ (h.rows id hid).int4) hs ha
      · rw [updateDelivery_other hki, Function.update_of_ne hki, if_neg hki]
        exact h.rows k hk
    · change k ∉ (updateDelivery l.store id f).deliveries.ids at hk
      change Function.update l.failed id 0 k = 0 ∧ List.countP _ _ = 0
      rw [updateDelivery_ids] at hk
      have hki : k ≠ id := fun he => hk (he ▸ hid)
      rw [hletters, Function.update_of_ne hki, if_neg hki]
      exact h.unused k hk

theorem Counted.operate {op : Operation} (h : Counted l) (hop : op.Recorded) :
    Counted (d.operate l op) := by
  cases op with
  | schedule maxAttempts event cs => exact h.schedule
  | workOnce batch c answers => exact h.workOnce hop
  | deliverByID deliveryID a => exact h.deliverByID hop
  | handle payload a => exact h.handle hop
  | replayDelivery id reset delete release => exact h.replay hop
  | tick n => exact h.later (l.now + n)

theorem counted_start (h : Untried s) : Counted ⟨now, s, fun _ => 0⟩ := by
  have hnone : ∀ id, dlqRows s id = 0 := fun id => by simp [dlqRows, h.dlq]
  refine ⟨h.keyed, fun id hid => ?_, fun id _ => ⟨rfl, hnone id⟩⟩
  obtain ⟨hs, ha, hm⟩ := h.pending id hid
  rw [hnone]
  exact rowCounted_new hm hs ha

/-- In every sequence of operations whose failures are recorded, between any two of
them, the counter of a delivery stays below max_attempt, the delivery has failed at
most max_attempt times (and once if that is less) since it was created or reset, and it
is DLQ exactly when one row of webhook_dlq refers to it, where any other has none. -/
theorem failures_bounded (d : Dispatcher) (now : Int) (s : Store) (hs : Untried s)
    (ops : List Operation) (hops : ∀ op ∈ ops, op.Recorded) :
    ∀ id ∈ (ops.foldl d.operate ⟨now, s, fun _ => 0⟩).store.deliveries.ids,
      let l := ops.foldl d.operate ⟨now, s, fun _ => 0⟩
      let del := l.store.deliveries.row id
      del.attempt ≤ max 0 (del.maxAttempt - 1) ∧ (l.failed id : Int) ≤ max 1 del.maxAttempt ∧
        (del.status = .dlq ↔ dlqRows l.store id = 1) ∧
        (del.status ≠ .dlq → dlqRows l.store id = 0) := by
  intro id hid l del
  have hcounted : Counted l :=
    List.foldlRecOn ops d.operate (counted_start hs) fun _ h op hop => h.operate (hops op hop)
  exact (hcounted.rows id hid).limits

/-! ## Two attempts -/

def answered (status : Int) : Answers := reply (.response ⟨status, "", .ok ""⟩ none)

def twoAttempts : List Operation :=
  [.schedule 2 2 [.ok], .workOnce 1 .ok fun _ => (0, answered 500), .tick 5000000000,
    .handle firstDelivery (answered 500)]

theorem dead_after_two :
    (twoAttempts.foldl unprotected.operate ⟨0, oneEndpoint.store, fun _ => 0⟩).failed 0 = 2 ∧
      dlqRows (twoAttempts.foldl unprotected.operate ⟨0, oneEndpoint.store, fun _ => 0⟩).store 0 =
        1 := by
  have huntried : Untried oneEndpoint.store :=
    ⟨⟨List.forall_mem_nil _, List.nodup_nil⟩, rfl, List.forall_mem_nil _⟩
  have hrecorded : ∀ op ∈ twoAttempts, op.Recorded := by
    simp [twoAttempts, Operation.Recorded, Answers.Records, answered, reply]
  have hlimits := failures_bounded unprotected 0 oneEndpoint.store huntried twoAttempts hrecorded 0
    (by decide +kernel)
  exact ⟨by decide +kernel, hlimits.2.2.1.mp (by decide +kernel)⟩

end TokoApi.Notify
