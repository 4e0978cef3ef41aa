import TokoApi.Notify.Delivered
import TokoApi.Notify.Worker

/-!
# What the operations do to the tables

An attempt marks the row, makes its request and writes the row once more. The request
touches the keys of the replay guard and the log only. The last write is one of four:
the row is delivered, it is given up, it is put off, or the call has failed and nothing
is written. `Schedule` adds pending rows under new keys, and `ReplayDelivery` makes one
row pending again. What other modules say about runs they derive from these cases.
-/
namespace TokoApi.Notify

open Lib.Rows Lib.Redis Lib.Threads Lib.Wrap

def Outcome.success : Outcome → Bool
  | .unloaded _ => false
  | .answered status _ err => err = none && 200 ≤ status && status < 300

variable {d : Dispatcher} {now : Int} {s : Store} {id : Nat} {del : WebhookDelivery}
  {a : Answers} {o : Outcome}

/-! ## The request -/

theorem send_frame (d : Dispatcher) (s : Store) (del : WebhookDelivery) (a : Answers) :
    ∃ log, (d.send s del a).1 = { s with log := log } := by
  unfold Dispatcher.send
  cases a.newRequest with
  | fail err => exact ⟨s.log, rfl⟩
  | ok =>
    dsimp only
    split
    · exact ⟨_, rfl⟩
    · split <;> exact ⟨_, rfl⟩

theorem deliver_frame {ep : WebhookEndpoint} {ev : DomainEvent} :
    ∃ guard log, (d.deliver now s ep ev del a).1 = { s with guard := guard, log := log } := by
  unfold Dispatcher.deliver
  split
  · exact ⟨s.guard, s.log, rfl⟩
  · exact ⟨s.guard, s.log, rfl⟩
  · split
    · split
      · exact ⟨s.guard, s.log, rfl⟩
      · split
        · exact ⟨s.guard, s.log, rfl⟩
        · obtain ⟨log, hsend⟩ := send_frame d { s with guard := _ } del a
          exact ⟨_, log, hsend⟩
    · obtain ⟨log, hsend⟩ := send_frame d s del a
      exact ⟨s.guard, log, hsend⟩

theorem attempt_frame (d : Dispatcher) (now : Int) (s : Store) (del : WebhookDelivery)
    (a : Answers) :
    ∃ guard log, (d.attempt now s del a).1 = { s with guard := guard, log := log } := by
  unfold Dispatcher.attempt
  split
  · exact ⟨s.guard, s.log, rfl⟩
  · split
    · exact ⟨s.guard, s.log, rfl⟩
    · exact deliver_frame

/-! ## The last write -/

inductive Settled (now : Int) (s : Store) (id : Nat) (del : WebhookDelivery) (a : Answers)
    (o : Outcome) : Store → Prop where
  | delivered {status body} (ho : o.success = true) (ha : a.markDelivered = .ok) :
      Settled now s id del a o (markDelivered s id status body)
  | buried {reason} (ho : o.success = false) (hx : Dispatcher.exhausted del = true) :
      Settled now s id del a o (Dispatcher.bury s id reason a)
  | postponed {delay reason} (ho : o.success = false) (hx : Dispatcher.exhausted del = false)
      (ha : a.markFailed = .ok) :
      Settled now s id del a o (markFailedWithBackoff s now delay id reason)
  | unwritten {err : String} (ha : o.success = true ∧ a.markDelivered = .fail err ∨
      o.success = false ∧ (a.moveToDLQ = .fail err ∨ a.markFailed = .fail err)) :
      Settled now s id del a o s

theorem retryLater_settled {reason : String} (ho : o.success = false)
    (hx : Dispatcher.exhausted del = false) :
    Settled now s id del a o (d.retryLater now s id del reason a).1 := by
  unfold Dispatcher.retryLater
  cases ha : a.markFailed with
  | fail err => exact .unwritten (.inr ⟨ho, .inr ha⟩)
  | ok => exact .postponed ho hx ha

theorem settle_settled (d : Dispatcher) (now : Int) (s : Store) (id : Nat)
    (del : WebhookDelivery) (a : Answers) (o : Outcome) :
    Settled now s id del a o (d.settle now s id del a o).1 := by
  cases o with
  | unloaded cause =>
    simp only [Dispatcher.settle, Dispatcher.failDelivery]
    split
    · rename_i hx
      cases ha : a.moveToDLQ with
      | fail err => exact .unwritten (.inr ⟨rfl, .inl ha⟩)
      | ok => exact .buried rfl hx
    · rename_i hx
      exact retryLater_settled rfl (eq_false_of_ne_true hx)
  | answered status body err =>
    have hsuccess : (Outcome.answered status body err).success = true ↔
        err = none ∧ 200 ≤ status ∧ status < 300 := by
      simp [Outcome.success, and_assoc]
    simp only [Dispatcher.settle, Dispatcher.conclude]
    split
    · rename_i hok
      cases ha : a.markDelivered with
      | fail e => exact .unwritten (.inl ⟨hsuccess.mpr hok, ha⟩)
      | ok => exact .delivered (hsuccess.mpr hok) ha
    · rename_i hok
      have ho : (Outcome.answered status body err).success = false :=
        eq_false_of_ne_true (mt hsuccess.mp hok)
      split
      · rename_i hx
        exact .buried ho hx
      · rename_i hx
        exact retryLater_settled ho (eq_false_of_ne_true hx)

/-! ## New rows -/

/-- The keys are distinct, and those to come are not in use. -/
structure Keyed (s : Store) : Prop where
  fresh : s.Fresh
  nodup : s.deliveries.ids.Nodup

theorem Keyed.update (h : Keyed s) (id : Nat) (f : WebhookDelivery → WebhookDelivery) :
    Keyed (updateDelivery s id f) := by
  refine ⟨fun k hk => ?_, updateDelivery_ids.symm ▸ h.nodup⟩
  rw [updateDelivery_nextID]
  exact h.fresh k (updateDelivery_ids ▸ hk)

/-- Rows have been added, pending and with `max` attempts. -/
structure Inserted (max : Int) (s s' : Store) : Prop where
  keyed : Keyed s'
  dlq : s'.dlq = s.dlq
  nextID : s.nextID ≤ s'.nextID
  old : ∀ k ∈ s.deliveries.ids,
    k ∈ s'.deliveries.ids ∧ s'.deliveries.row k = s.deliveries.row k
  new : ∀ k ∈ s'.deliveries.ids, k ∉ s.deliveries.ids → s.nextID ≤ k ∧
    (s'.deliveries.row k).status = .pending ∧ (s'.deliveries.row k).attempt = 0 ∧
    (s'.deliveries.row k).maxAttempt = max

variable {max : Int} {s₁ s₂ : Store}

theorem Inserted.refl (hk : Keyed s) : Inserted max s s :=
  ⟨hk, rfl, le_rfl, fun _ hid => ⟨hid, rfl⟩, fun _ hid hnot => absurd hid hnot⟩

theorem Inserted.trans (h : Inserted max s s₁) (h' : Inserted max s₁ s₂) : Inserted max s s₂ := by
  refine ⟨h'.keyed, h'.dlq.trans h.dlq, h.nextID.trans h'.nextID, fun k hk => ?_, fun k hk hnot => ?_⟩
  · obtain ⟨hk₁, hrow⟩ := h.old k hk
    obtain ⟨hk₂, hrow'⟩ := h'.old k hk₁
    exact ⟨hk₂, hrow'.trans hrow⟩
  · by_cases hk₁ : k ∈ s₁.deliveries.ids
    · rw [(h'.old k hk₁).2]
      exact h.new k hk₁ hnot
    · obtain ⟨hle, hrow⟩ := h'.new k hk hk₁
      exact ⟨h.nextID.trans hle, hrow⟩

theorem enqueueDeliveryRow_inserted {endpoint event new : Nat} (hk : Keyed s)
    (h : enqueueDeliveryRow s now endpoint event max = some (s₁, new)) : Inserted max s s₁ := by
  have hunused : s.nextID ∉ s.deliveries.ids := fun hid => (hk.fresh _ hid).false
  unfold enqueueDeliveryRow at h
  split at h
  · cases h
  cases h
  refine ⟨⟨?_, ?_⟩, rfl, Nat.le_succ _, fun k hid => ⟨?_, ?_⟩, fun k hid hnot => ?_⟩
  · exact forall_mem_concat (Nat.lt_succ_self _) fun k hid => Nat.lt_succ_of_lt (hk.fresh k hid)
  · exact (List.concat_eq_append ▸ hk.nodup.concat hunused : (s.deliveries.ids ++ [_]).Nodup)
  · exact List.mem_append_left _ hid
  · simp [Table.insert, (hk.fresh k hid).ne]
  · obtain rfl : k = s.nextID :=
      List.mem_singleton.mp ((List.mem_append.mp hid).resolve_left hnot)
    simp [Table.insert]

theorem scheduleLoop_inserted {event : Nat} {eps : List Nat} {cs : List Call} (hk : Keyed s) :
    Inserted (int32 d.maxAttempts) s (d.scheduleLoop now event s eps cs).1 := by
  induction eps generalizing s cs with
  | nil => cases cs <;> exact .refl hk
  | cons ep eps ih =>
    cases cs with
    | nil => exact .refl hk
    | cons c cs =>
      cases c with
      | fail err =>
        simp only [Dispatcher.scheduleLoop]
        exact ih hk
      | ok =>
        simp only [Dispatcher.scheduleLoop]
        split
        · exact ih hk
        · rename_i s₁ new hi
          have hins := enqueueDeliveryRow_inserted hk hi
          exact hins.trans (ih hins.keyed)

theorem schedule_inserted (d : Dispatcher) (now : Int) (event : Nat) (cs : List Call)
    (hk : Keyed s) :
    Inserted (int32 d.maxAttempts) s (d.schedule now s event cs).1 := by
  unfold Dispatcher.schedule
  dsimp only
  split
  · exact .refl hk
  · exact scheduleLoop_inserted hk

/-! ## Reset rows -/

inductive Replayed (s : Store) (id : Nat) (reset delete : Call) : Store → Prop where
  | unchanged (h : id ∈ s.deliveries.ids → reset ≠ .ok) : Replayed s id reset delete s
  | reset {f : WebhookDelivery → WebhookDelivery} {guard : Keys String}
      {dlq : List (Nat × String)} {log : List Log} (hid : id ∈ s.deliveries.ids) (hr : reset = .ok)
      (hf : ∀ row, (f row).status = .pending ∧ (f row).attempt = 0 ∧
        (f row).maxAttempt = row.maxAttempt)
      (hdlq : delete = .ok → dlq = s.dlq.filter fun e => e.1 ≠ id) :
      Replayed s id reset delete
        { updateDelivery s id f with guard := guard, dlq := dlq, log := log }

theorem replayDelivery_replayed (d : Dispatcher) (now : Int) (s : Store) (id : Nat)
    (reset delete release : Call) :
    Replayed s id reset delete (d.replayDelivery now s id reset delete release) := by
  by_cases hid : id ∈ s.deliveries.ids
  · cases reset with
    | fail err => exact .unchanged (fun _ => Call.noConfusion)
    | ok =>
      simp only [Dispatcher.replayDelivery, resetDeliveryForReplay, hid, if_true,
        Dispatcher.lookup]
      cases delete with
      | fail err =>
        cases d.replay <;> cases release <;>
          exact .reset hid rfl (fun _ => ⟨rfl, rfl, rfl⟩) (by simp)
      | ok =>
        cases d.replay <;> cases release <;>
          exact .reset hid rfl (fun _ => ⟨rfl, rfl, rfl⟩) fun _ => by simp [deleteDlqByDelivery]
  · have hnone : d.replayDelivery now s id reset delete release = s := by
      cases reset <;> simp [Dispatcher.replayDelivery, resetDeliveryForReplay, hid,
        Dispatcher.lookup]
    rw [hnone]
    exact .unchanged fun h => absurd h hid

end TokoApi.Notify
