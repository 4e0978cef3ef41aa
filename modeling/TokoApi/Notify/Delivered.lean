import TokoApi.Notify.Dispatcher

/-!
# What a delivered row stands for

Deliveries are processed one after another, by `WorkOnce`, `DeliverByID` or the
queue worker, between changes by `Schedule` and `ReplayDelivery`. A row should
become DELIVERED only after the endpoint has answered with a 2xx status. The
replay guard breaks this: it is taken before the request is sent, is kept when
the request fails, and refuses the next attempt with a status of 200. The runs
in which that does not happen are described exactly.
-/
namespace TokoApi.Notify

open Lib.Durations Lib.Rows Lib.Redis Lib.Threads Lib.Runs Resilience

/-- `pending` has the deliveries that a `WorkOnce` has read and not yet
processed. -/
structure State where
  now : Int
  store : Store
  pending : List (Nat × WebhookDelivery)

inductive Event where
  | schedule (event : Nat) (cs : List Call)
  | workOnce (batch : Int) (c : Call)
  | process (k : Nat) (a : Answers)
  | deliverByID (deliveryID : String) (a : Answers)
  | handle (payload : String) (a : Answers)
  | replayDelivery (id : Nat) (reset delete release : Call)
  | tick (d : Nat)

/-- `WorkOnce` reads its batch; each of its deliveries is a step of its own. -/
def State.dequeue (d : Dispatcher) (s : State) (batch : Int) : Call → State
  | .fail _ => s
  | .ok =>
    if d.enabled then
      let limit := (if batch ≤ 0 then 1 else batch).toNat
      { s with pending := s.pending ++ dequeueDueDeliveries s.store s.now limit }
    else s

def Event.target (d : Dispatcher) (s : State) : Event → Option ((Nat × WebhookDelivery) × Answers)
  | .process k a => s.pending[k]?.map fun p => (p, a)
  | .deliverByID deliveryID a =>
    match d.eligible s.now s.store deliveryID a with
    | .inl _ => none
    | .inr p => some (p, a)
  | .handle payload a =>
    match d.unlock s.store payload a with
    | .inl _ => none
    | .inr deliveryID =>
      match d.eligible s.now s.store deliveryID a with
      | .inl _ => none
      | .inr p => some (p, a)
  | _ => none

def step (d : Dispatcher) (s : State) : Event → Option State
  | .schedule event cs => some { s with store := (d.schedule s.now s.store event cs).1 }
  | .workOnce batch c => some (s.dequeue d batch c)
  | .process k a =>
    match s.pending[k]? with
    | none => none
    | some (id, del) =>
      some { s with
        store := (d.processDelivery s.now s.store id del a).1
        pending := s.pending.eraseIdx k }
  | .deliverByID deliveryID a =>
    some { s with store := (d.deliverByID s.now s.store deliveryID a).1 }
  | .handle payload a => some { s with store := (d.handle s.now s.store payload a).1 }
  | .replayDelivery id reset delete release =>
    some { s with store := d.replayDelivery s.now s.store id reset delete release }
  | .tick n => some { s with now := s.now + n }

/-- Every delivered row has been answered with a 2xx status since it was created
or last reset. -/
def Store.Truthful (s : Store) : Prop :=
  ∀ id ∈ s.deliveries.ids, (s.deliveries.row id).status = .delivered →
    answeredSince id (s.deliveries.row id).endpointID (s.deliveries.row id).eventID s.log = true

instance (s : Store) : Decidable s.Truthful :=
  inferInstanceAs (Decidable (∀ id ∈ s.deliveries.ids, _))

/-- All calls up to the guard and the final one succeed, and the guard's key is
still held. -/
def suppressed (d : Dispatcher) (now : Int) (s : Store) (del : WebhookDelivery) (a : Answers) :
    Bool :=
  match Dispatcher.lookup a.getEndpoint (s.endpoints.get? del.endpointID),
    Dispatcher.lookup a.getEvent (s.events.get? del.eventID) with
  | .ok ep, .ok ev =>
    a.markDelivering = .ok && d.validateURL ep.url = none && d.marshalError ev = none &&
      d.replay && 0 < d.replayTTL && a.acquire = .ok &&
      (s.guard (d.replayKey del.endpointID del.eventID)).held now && a.markDelivered = .ok
  | _, _ => false

/-- A delivery that finds the replay guard still held is one that has been
answered with a 2xx status since the row was created or reset. -/
abbrev GuardMeansAnswered (d : Dispatcher) (s : State) (e : Event) : Prop :=
  ∀ p ∈ e.target d s, suppressed d s.now s.store p.1.2 p.2 = true →
    answeredSince p.1.1 p.1.2.endpointID p.1.2.eventID s.store.log = true

/-! ## What processing one delivery changes -/

def SameTarget (a b : WebhookDelivery) : Prop := a.endpointID = b.endpointID ∧ a.eventID = b.eventID

/-- Only row `id` is written, its target stays, and the log grows by answers of
that target. -/
structure Frame (id : Nat) (del : WebhookDelivery) (s s' : Store) : Prop where
  nextID : s'.nextID = s.nextID
  ids : s'.deliveries.ids = s.deliveries.ids
  other : ∀ k, k ≠ id → s'.deliveries.row k = s.deliveries.row k
  target : SameTarget (s'.deliveries.row id) (s.deliveries.row id)
  log : ∃ codes : List Int,
    s'.log = codes.map (Log.answered del.endpointID del.eventID) ++ s.log

variable {d : Dispatcher} {now : Int} {s s' t : Store} {id : Nat} {del : WebhookDelivery}
  {a : Answers} {reason : String}

theorem SameTarget.trans {r r' r'' : WebhookDelivery} (h : SameTarget r r')
    (h' : SameTarget r' r'') : SameTarget r r'' :=
  ⟨h.1.trans h'.1, h.2.trans h'.2⟩

theorem SameTarget.symm {r r' : WebhookDelivery} (h : SameTarget r r') : SameTarget r' r :=
  ⟨h.1.symm, h.2.symm⟩

theorem Frame.refl : Frame id del s s := ⟨rfl, rfl, fun _ _ => rfl, ⟨rfl, rfl⟩, [], rfl⟩

theorem Frame.trans (h : Frame id del s s') (h' : Frame id del s' t) : Frame id del s t := by
  obtain ⟨codes, hc⟩ := h.log
  obtain ⟨codes', hc'⟩ := h'.log
  exact ⟨h'.nextID.trans h.nextID, h'.ids.trans h.ids,
    fun k hk => (h'.other k hk).trans (h.other k hk), h'.target.trans h.target, codes' ++ codes,
    by rw [hc', hc, List.map_append, List.append_assoc]⟩

theorem frame_update {f : WebhookDelivery → WebhookDelivery} (hf : ∀ r, SameTarget (f r) r) :
    Frame id del s (updateDelivery s id f) := by
  refine ⟨updateDelivery_nextID, updateDelivery_ids, fun k hk => updateDelivery_other hk, ?_, [],
    by simp⟩
  by_cases hid : id ∈ s.deliveries.ids
  · rw [updateDelivery_self hid]
    exact hf _
  · simp [updateDelivery, hid, SameTarget]

/-- A step of a failure path: the frame, and the row does not become delivered. -/
def Fails (id : Nat) (del : WebhookDelivery) (s s' : Store) : Prop :=
  Frame id del s s' ∧ s'.log = s.log ∧
    ((s.deliveries.row id).status ≠ .delivered → (s'.deliveries.row id).status ≠ .delivered)

theorem fails_update {f : WebhookDelivery → WebhookDelivery} (hf : ∀ r, SameTarget (f r) r)
    (hs : ∀ r, (f r).status ≠ .delivered) : Fails id del s (updateDelivery s id f) := by
  refine ⟨frame_update hf, updateDelivery_log, fun h => ?_⟩
  by_cases hid : id ∈ s.deliveries.ids
  · rw [updateDelivery_self hid]
    exact hs _
  · simpa [updateDelivery, hid] using h

theorem fails_refl : Fails id del s s := ⟨Frame.refl, rfl, fun h => h⟩

theorem fails_moveToDLQ : Fails id del s (moveToDLQ s id reason) :=
  fails_update (fun _ => ⟨rfl, rfl⟩) (by simp)

theorem fails_markFailed {delay : Int} :
    Fails id del s (markFailedWithBackoff s now delay id reason) :=
  fails_update (fun _ => ⟨rfl, rfl⟩) (by simp)

theorem fails_insertDlq (h : Fails id del s s') : Fails id del s (insertWebhookDlq s' id reason) :=
  ⟨⟨h.1.nextID, h.1.ids, h.1.other, h.1.target, h.1.log⟩, h.2.1, h.2.2⟩

theorem fails_bury : Fails id del s (Dispatcher.bury s id reason a) := by
  unfold Dispatcher.bury
  cases a.moveToDLQ <;> cases a.insertDlq
  · exact fails_insertDlq fails_moveToDLQ
  · exact fails_moveToDLQ
  · exact fails_insertDlq fails_refl
  · exact fails_refl

theorem fails_retryLater : Fails id del s (d.retryLater now s id del reason a).1 := by
  unfold Dispatcher.retryLater
  cases a.markFailed with
  | fail err => exact fails_refl
  | ok => exact fails_markFailed

theorem fails_failDelivery : Fails id del s (d.failDelivery now s id del reason a).1 := by
  unfold Dispatcher.failDelivery
  split
  · cases a.moveToDLQ with
    | fail err => exact fails_refl
    | ok => exact fails_bury
  · exact fails_retryLater

/-- `deliver` writes no row, and logs the answers of the endpoint. -/
structure Sends (del : WebhookDelivery) (s s' : Store) (codes : List Int) : Prop where
  nextID : s'.nextID = s.nextID
  rows : s'.deliveries = s.deliveries
  log : s'.log = codes.map (Log.answered del.endpointID del.eventID) ++ s.log

variable {status : Int} {body : String} {err : Option String} {ep : WebhookEndpoint}
  {ev : DomainEvent} {event : Nat} {st st' : State} {e : Event}

theorem send_spec (h : d.send s del a = (s', status, body, err)) :
    ∃ codes, Sends del s s' codes ∧ (err = none → status ∈ codes) := by
  unfold Dispatcher.send at h
  cases hn : a.newRequest with
  | fail e =>
    rw [hn] at h
    cases h
    exact ⟨[], ⟨rfl, rfl, rfl⟩, by simp⟩
  | ok =>
    rcases hdo : httpDo d.httpMaxAttempts a.http with ⟨codes, result⟩
    simp only [hn, hdo] at h
    cases result with
    | error e =>
      cases h
      exact ⟨codes.reverse, ⟨rfl, rfl, rfl⟩, by simp⟩
    | ok r =>
      have hmem : r.status ∈ codes.reverse := List.mem_reverse.mpr (httpDo_ok hdo)
      cases hb : r.body with
      | error e =>
        simp only [hb] at h
        cases h
        exact ⟨codes.reverse, ⟨rfl, rfl, rfl⟩, by simp⟩
      | ok b =>
        simp only [hb] at h
        cases h
        exact ⟨codes.reverse, ⟨rfl, rfl, rfl⟩, fun _ => hmem⟩

/-- The guard's key is held when the delivery comes to it. -/
structure Refused (d : Dispatcher) (now : Int) (s : Store) (ep : WebhookEndpoint)
    (ev : DomainEvent) (del : WebhookDelivery) (a : Answers) : Prop where
  url : d.validateURL ep.url = none
  marshal : d.marshalError ev = none
  replay : d.replay = true ∧ 0 < d.replayTTL
  acquire : a.acquire = .ok
  held : (s.guard (d.replayKey del.endpointID del.eventID)).held now = true

theorem deliver_refused (h : Refused d now s ep ev del a) :
    d.deliver now s ep ev del a = (s, 200, "replay-suppressed", none) := by
  simp only [Dispatcher.deliver, h.url, h.marshal, h.replay, h.acquire, setNX_refused h.held,
    and_self, if_true]

theorem deliver_spec (hr : ¬ Refused d now s ep ev del a)
    (h : d.deliver now s ep ev del a = (s', status, body, err)) :
    ∃ codes, Sends del s s' codes ∧ (err = none → status ∈ codes) := by
  have hfail : ∀ e, (s, (0 : Int), "", some e) = (s', status, body, err) →
      ∃ codes, Sends del s s' codes ∧ (err = none → status ∈ codes) := by
    intro e he
    cases he
    exact ⟨[], ⟨rfl, rfl, rfl⟩, by simp⟩
  unfold Dispatcher.deliver at h
  split at h
  · exact hfail _ h
  · exact hfail _ h
  · rename_i hu hm
    split at h
    · rename_i hreplay
      split at h
      · exact hfail _ h
      · rename_i hacq
        split at h
        · rename_i keys hset
          exact absurd ⟨hu, hm, hreplay, hacq, held_of_refused hset⟩ hr
        · obtain ⟨codes, hs, hc⟩ := send_spec h
          exact ⟨codes, { hs with }, hc⟩
    · exact send_spec h

theorem frame_markDelivered {status : Option Int} {body : Option String} :
    Frame id del s (markDelivered s id status body) :=
  frame_update fun _ => ⟨rfl, rfl⟩

theorem conclude_spec : Fails id del s (d.conclude now s id del status body err a).1 ∨
      err = none ∧ 200 ≤ status ∧ status < 300 ∧ a.markDelivered = .ok ∧
        Frame id del s (d.conclude now s id del status body err a).1 ∧
        (d.conclude now s id del status body err a).1.log = s.log := by
  unfold Dispatcher.conclude
  split
  · rename_i hok
    cases hm : a.markDelivered with
    | fail e => exact .inl fails_refl
    | ok =>
      refine .inr ⟨hok.1, hok.2.1, hok.2.2, rfl, ?_, ?_⟩
      · exact frame_markDelivered
      · exact updateDelivery_log
  · split
    · exact .inl fails_bury
    · exact .inl fails_retryLater

theorem suppressed_iff
    (he : Dispatcher.lookup a.getEndpoint (s.endpoints.get? del.endpointID) = .ok ep)
    (hv : Dispatcher.lookup a.getEvent (s.events.get? del.eventID) = .ok ev) :
    suppressed d now s del a = true ↔
      a.markDelivering = .ok ∧ Refused d now s ep ev del a ∧ a.markDelivered = .ok := by
  simp only [suppressed, he, hv, Bool.and_eq_true, decide_eq_true_eq]
  constructor
  · rintro ⟨⟨⟨⟨⟨⟨⟨hm, hu⟩, hj⟩, hr⟩, ht⟩, ha⟩, hh⟩, hd⟩
    exact ⟨hm, ⟨hu, hj, ⟨hr, ht⟩, ha, hh⟩, hd⟩
  · rintro ⟨hm, ⟨hu, hj, ⟨hr, ht⟩, ha, hh⟩, hd⟩
    exact ⟨⟨⟨⟨⟨⟨⟨hm, hu⟩, hj⟩, hr⟩, ht⟩, ha⟩, hh⟩, hd⟩

/-- A delivery that the guard suppresses marks the row delivered and sends
nothing. -/
theorem processDelivery_suppressed (hid : id ∈ s.deliveries.ids)
    (h : suppressed d now s del a = true) :
    ((d.processDelivery now s id del a).1.deliveries.row id).status = .delivered ∧
      (d.processDelivery now s id del a).1.log = s.log := by
  cases he : Dispatcher.lookup a.getEndpoint (s.endpoints.get? del.endpointID) with
  | error e => simp [suppressed, he] at h
  | ok ep =>
    cases hv : Dispatcher.lookup a.getEvent (s.events.get? del.eventID) with
    | error e => simp [suppressed, he, hv] at h
    | ok ev =>
      obtain ⟨hm, hr, hd⟩ := (suppressed_iff he hv).mp h
      have hr' : Refused d now (markDelivering s id) ep ev del a :=
        { hr with held := by simpa [markDelivering] using hr.held }
      have he' : Dispatcher.lookup a.getEndpoint
          ((markDelivering s id).endpoints.get? del.endpointID) = .ok ep := by
        simpa [markDelivering] using he
      have hv' : Dispatcher.lookup a.getEvent
          ((markDelivering s id).events.get? del.eventID) = .ok ev := by
        simpa [markDelivering] using hv
      simp only [Dispatcher.processDelivery, hm, he', hv', deliver_refused hr',
        Dispatcher.conclude, hd]
      refine ⟨?_, by simp [markDelivered, markDelivering]⟩
      have hid' : id ∈ (markDelivering s id).deliveries.ids := by simpa [markDelivering] using hid
      simp [markDelivered, updateDelivery_self hid']

/-- What processing a delivery that the guard does not suppress leads to. -/
theorem processDelivery_spec (d : Dispatcher) (now : Int) (del : WebhookDelivery) (a : Answers)
    (hid : id ∈ s.deliveries.ids) :
    Frame id del s (d.processDelivery now s id del a).1 ∧
      (suppressed d now s del a = true ∨ (d.processDelivery now s id del a).1 = s ∨
        ((d.processDelivery now s id del a).1.deliveries.row id).status ≠ .delivered ∨
        answeredSince id del.endpointID del.eventID
          (d.processDelivery now s id del a).1.log = true) := by
  cases hm : a.markDelivering with
  | fail e =>
    have hself : d.processDelivery now s id del a = (s, .ret (some e)) := by
      simp only [Dispatcher.processDelivery, hm]
    rw [hself]
    exact ⟨Frame.refl, .inr (.inl rfl)⟩
  | ok =>
    have hstart : Fails id del s (markDelivering s id) :=
      fails_update (fun _ => ⟨rfl, rfl⟩) (by simp)
    have hrow : ((markDelivering s id).deliveries.row id).status ≠ .delivered := by
      simp [markDelivering, updateDelivery_self hid]
    have hfail : ∀ {s'}, Fails id del (markDelivering s id) s' →
        Frame id del s s' ∧ (suppressed d now s del a = true ∨ s' = s ∨
          (s'.deliveries.row id).status ≠ .delivered ∨
          answeredSince id del.endpointID del.eventID s'.log = true) := fun hf =>
      ⟨hstart.1.trans hf.1, .inr (.inr (.inl (hf.2.2 hrow)))⟩
    cases he : Dispatcher.lookup a.getEndpoint
        ((markDelivering s id).endpoints.get? del.endpointID) with
    | error e =>
      simp only [Dispatcher.processDelivery, hm, he]
      exact hfail fails_failDelivery
    | ok ep =>
      cases hv : Dispatcher.lookup a.getEvent
          ((markDelivering s id).events.get? del.eventID) with
      | error e =>
        simp only [Dispatcher.processDelivery, hm, he, hv]
        exact hfail fails_failDelivery
      | ok ev =>
        by_cases hr : Refused d now (markDelivering s id) ep ev del a
        · simp only [Dispatcher.processDelivery, hm, he, hv, deliver_refused hr]
          obtain hf | ⟨_, _, _, hd, hframe, _⟩ := conclude_spec (d := d) (s := markDelivering s id)
            (a := a)
          · exact hfail hf
          · refine ⟨hstart.1.trans hframe, .inl ?_⟩
            have hheld := hr.held
            simp only [markDelivering, updateDelivery_endpoints, updateDelivery_events,
              updateDelivery_guard] at he hv hheld
            exact (suppressed_iff he hv).mpr ⟨hm, { hr with held := hheld }, hd⟩
        · rcases hdel : d.deliver now (markDelivering s id) ep ev del a with ⟨s₂, status, body, err⟩
          obtain ⟨codes, hs, hc⟩ := deliver_spec hr hdel
          have hsent : Frame id del (markDelivering s id) s₂ :=
            ⟨hs.nextID, by rw [hs.rows], fun k _ => by rw [hs.rows], by rw [hs.rows]; exact ⟨rfl, rfl⟩,
              codes, hs.log⟩
          simp only [Dispatcher.processDelivery, hm, he, hv, hdel]
          obtain hf | ⟨herr, hlo, hhi, _, hframe, hlog⟩ := conclude_spec (d := d) (s := s₂) (a := a)
          · refine ⟨(hstart.1.trans hsent).trans hf.1, .inr (.inr (.inl (hf.2.2 ?_)))⟩
            rw [hs.rows]
            exact hrow
          · refine ⟨(hstart.1.trans hsent).trans hframe, .inr (.inr (.inr ?_))⟩
            rw [hlog, hs.log]
            exact answeredSince_of_mem (hc herr) hlo hhi

/-! ## The steps -/

/-- Keys that are not in use lie above those that are. -/
def Store.Fresh (s : Store) : Prop := ∀ id ∈ s.deliveries.ids, id < s.nextID

/-- Rows stay, for the endpoint and event they are for. -/
def Extends (s s' : Store) : Prop :=
  ∀ id ∈ s.deliveries.ids,
    id ∈ s'.deliveries.ids ∧ SameTarget (s'.deliveries.row id) (s.deliveries.row id)

theorem Frame.extends_of (h : Frame id del s s') : Extends s s' := by
  intro k hk
  refine ⟨h.ids ▸ hk, ?_⟩
  by_cases hki : k = id
  · subst k
    exact h.target
  · rw [h.other k hki]
    exact ⟨rfl, rfl⟩

theorem Frame.fresh (h : Frame id del s s') (hf : s.Fresh) : s'.Fresh := by
  intro k hk
  rw [h.nextID]
  exact hf k (h.ids ▸ hk)

theorem Extends.trans (h : Extends s s') (h' : Extends s' t) : Extends s t := by
  intro k hk
  obtain ⟨hk', ht⟩ := h k hk
  obtain ⟨hk'', ht'⟩ := h' k hk'
  exact ⟨hk'', ht'.trans ht⟩

/-- What a step that processes no delivery keeps. -/
structure Keeps (s s' : Store) : Prop where
  fresh : s'.Fresh
  rows : Extends s s'
  truthful : s.Truthful → s'.Truthful

section

variable (hf : s.Fresh)
include hf

theorem Keeps.refl : Keeps s s := ⟨hf, fun _ hk => ⟨hk, rfl, rfl⟩, id⟩

theorem insert_spec {endpoint : Nat} {maxAttempt : Int} {new : Nat}
    (h : enqueueDeliveryRow s now endpoint event maxAttempt = some (s', new)) : Keeps s s' := by
  unfold enqueueDeliveryRow at h
  split at h
  · cases h
  cases h
  have hold : ∀ k ∈ s.deliveries.ids, k ≠ s.nextID := fun k hk => (hf k hk).ne
  have hrow : ∀ k ∈ s.deliveries.ids, ∀ r, (s.deliveries.insert s.nextID r).row k =
      s.deliveries.row k := by
    intro k hk r
    simp [Table.insert, hold k hk]
  refine ⟨?_, fun k hk => ?_, fun ht k hk hd => ?_⟩
  · exact forall_mem_concat (Nat.lt_succ_self _) fun k hk => Nat.lt_succ_of_lt (hf k hk)
  · refine ⟨List.mem_append_left _ hk, ?_⟩
    rw [hrow k hk]
    exact ⟨rfl, rfl⟩
  · rcases List.mem_append.mp hk with hk | hk
    · simp only [hrow k hk] at hd ⊢
      simpa [answeredSince, (hold k hk).symm] using ht k hk hd
    · rw [List.mem_singleton.mp hk] at hd
      simp [Table.insert] at hd

theorem scheduleLoop_spec {eps : List Nat} {cs : List Call} :
    Keeps s (d.scheduleLoop now event s eps cs).1 := by
  induction eps generalizing s cs with
  | nil => cases cs <;> exact .refl hf
  | cons ep eps ih =>
    cases cs with
    | nil => exact .refl hf
    | cons c cs =>
      cases c with
      | fail e =>
        simp only [Dispatcher.scheduleLoop]
        exact ih hf
      | ok =>
        simp only [Dispatcher.scheduleLoop]
        split
        · exact ih hf
        · rename_i s₁ new hi
          have hnew := insert_spec hf hi
          have hrest := @ih s₁ hnew.fresh cs
          exact ⟨hrest.fresh, hnew.rows.trans hrest.rows, hrest.truthful ∘ hnew.truthful⟩

theorem schedule_spec {cs : List Call} :
    Keeps s (d.schedule now s event cs).1 := by
  unfold Dispatcher.schedule
  simp only
  split
  · exact .refl hf
  · exact scheduleLoop_spec hf

theorem reset_spec {row : WebhookDelivery} (h : resetDeliveryForReplay s now id = some (s', row)) :
    Keeps s s' := by
  unfold resetDeliveryForReplay at h
  split at h
  · rename_i hid
    cases h
    refine ⟨?_, ?_, fun ht k hk hd => ?_⟩
    · intro k hk
      simp only [updateDelivery_ids] at hk
      simp only [updateDelivery, hid, if_true]
      exact hf k hk
    · intro k hk
      refine ⟨by simpa using hk, ?_⟩
      by_cases hki : k = id
      · subst k
        simp only [updateDelivery_self hid]
        exact ⟨rfl, rfl⟩
      · simp only [updateDelivery_other hki]
        exact ⟨rfl, rfl⟩
    · simp only [updateDelivery_ids] at hk
      by_cases hki : k = id
      · subst k
        simp [updateDelivery_self hid] at hd
      · simp only [updateDelivery_other hki] at hd ⊢
        simpa [answeredSince, Ne.symm hki] using ht k hk hd
  · cases h

theorem replayDelivery_spec {reset delete release : Call} :
    Keeps s (d.replayDelivery now s id reset delete release) := by
  unfold Dispatcher.replayDelivery
  split
  · exact .refl hf
  · rename_i s₁ row hl
    have hr : resetDeliveryForReplay s now id = some (s₁, row) := by
      unfold Dispatcher.lookup at hl
      split at hl <;> simp_all
    have hspec := reset_spec hf hr
    -- neither the DLQ table nor the guard is looked at
    cases delete <;> cases d.replay <;> cases release <;> exact { hspec with }

end

/-- What `WorkOnce` and the other callers hand to `processDelivery` is a row. -/
structure Consistent (s : State) : Prop where
  fresh : s.store.Fresh
  snapshot : ∀ p ∈ s.pending, p.1 ∈ s.store.deliveries.ids ∧
    SameTarget p.2 (s.store.deliveries.row p.1)

theorem eligible_row {deliveryID : String} {p : Nat × WebhookDelivery}
    (h : d.eligible now s deliveryID a = .inr p) :
    (p.1 ∈ s.deliveries.ids ∧ s.deliveries.row p.1 = p.2) ∧
      Dispatcher.settledStatus p.2.status = false := by
  unfold Dispatcher.eligible at h
  split at h
  · cases h
  · rename_i id _
    split at h
    · cases h
    · rename_i del hl
      have hrow : id ∈ s.deliveries.ids ∧ s.deliveries.row id = del := by
        unfold Dispatcher.lookup at hl
        split at hl <;> cases hl
        rename_i hg
        exact Table.get?_eq_some.mp hg
      split at h
      · cases h
      · rename_i hopen
        have hfound := And.intro hrow (eq_false_of_ne_true hopen)
        split at h
        · split at h <;> cases h
          exact hfound
        · cases h
          exact hfound

theorem target_row {p : (Nat × WebhookDelivery) × Answers}
    (hc : Consistent st) (h : e.target d st = some p) :
    p.1.1 ∈ st.store.deliveries.ids ∧ SameTarget p.1.2 (st.store.deliveries.row p.1.1) := by
  have hrow : ∀ {id : String} {q : Nat × WebhookDelivery} {b : Answers},
      d.eligible st.now st.store id b = .inr q →
      q.1 ∈ st.store.deliveries.ids ∧ SameTarget q.2 (st.store.deliveries.row q.1) := by
    intro id q b hq
    obtain ⟨hid, hr⟩ := (eligible_row hq).1
    exact ⟨hid, by rw [hr]; exact ⟨rfl, rfl⟩⟩
  cases e with
  | process k b =>
    obtain ⟨q, hq, rfl⟩ := Option.map_eq_some_iff.mp h
    exact hc.snapshot q (List.mem_of_getElem? hq)
  | deliverByID id b =>
    simp only [Event.target] at h
    split at h <;> cases h
    exact hrow (by assumption)
  | handle payload b =>
    simp only [Event.target] at h
    split at h
    · cases h
    · split at h <;> cases h
      exact hrow (by assumption)
  | _ => cases h

/-- A step processes its target or leaves the truth of the rows as it is. -/
theorem step_cases (hc : Consistent st) (h : step d st e = some st') :
    (∃ p, e.target d st = some p ∧ (∀ q ∈ st'.pending, q ∈ st.pending) ∧
      st'.store = (d.processDelivery st.now st.store p.1.1 p.1.2 p.2).1) ∨
    (e.target d st = none ∧ Keeps st.store st'.store ∧
      ∀ q ∈ st'.pending, q ∈ st.pending ∨ q.1 ∈ st.store.deliveries.ids ∧
        st.store.deliveries.row q.1 = q.2) := by
  have hsame : Keeps st.store st.store := .refl hc.fresh
  cases e with
  | schedule event cs =>
    cases h
    exact .inr ⟨rfl, schedule_spec hc.fresh, fun q hq => .inl hq⟩
  | replayDelivery id reset delete release =>
    cases h
    exact .inr ⟨rfl, replayDelivery_spec hc.fresh, fun q hq => .inl hq⟩
  | tick n =>
    cases h
    exact .inr ⟨rfl, hsame, fun q hq => .inl hq⟩
  | workOnce batch c =>
    cases h
    refine .inr ⟨rfl, ?_⟩
    cases c with
    | fail e => exact ⟨hsame, fun q hq => .inl hq⟩
    | ok =>
      simp only [State.dequeue]
      split
      · refine ⟨hsame, fun q hq => ?_⟩
        rcases List.mem_append.mp hq with hq | hq
        · exact .inl hq
        · obtain ⟨hk, hrow, _⟩ := dequeued_row hq
          exact .inr ⟨hk, hrow⟩
      · exact ⟨hsame, fun q hq => .inl hq⟩
  | process k b =>
    simp only [step] at h
    split at h
    · cases h
    · rename_i id del hk
      cases h
      refine .inl ⟨((id, del), b), by simp [Event.target, hk], ?_, rfl⟩
      intro q hq
      exact List.mem_of_mem_eraseIdx hq
  | deliverByID id b =>
    cases h
    simp only [Event.target, Dispatcher.deliverByID]
    cases d.eligible st.now st.store id b with
    | inl next => exact .inr ⟨rfl, hsame, fun q hq => .inl hq⟩
    | inr p => exact .inl ⟨(p, b), rfl, fun q hq => hq, rfl⟩
  | handle payload b =>
    cases h
    simp only [Event.target, Dispatcher.handle, Dispatcher.deliverByID]
    cases d.unlock st.store payload b with
    | inl next => exact .inr ⟨rfl, hsame, fun q hq => .inl hq⟩
    | inr id =>
      simp only
      cases d.eligible st.now st.store id b with
      | inl next => exact .inr ⟨rfl, hsame, fun q hq => .inl hq⟩
      | inr p => exact .inl ⟨(p, b), rfl, fun q hq => hq, rfl⟩

theorem consistent_step (hc : Consistent st) (h : step d st e = some st') : Consistent st' := by
  obtain ⟨p, hp, hpend, hst⟩ | ⟨_, hkeeps, hpend⟩ := step_cases hc h
  · obtain ⟨hid, _⟩ := target_row hc hp
    have hframe := (processDelivery_spec d st.now p.1.2 p.2 hid).1
    rw [← hst] at hframe
    refine ⟨hframe.fresh hc.fresh, fun q hq => ?_⟩
    obtain ⟨hq₁, hq₂⟩ := hc.snapshot q (hpend q hq)
    obtain ⟨hid', ht⟩ := hframe.extends_of q.1 hq₁
    exact ⟨hid', hq₂.trans ht.symm⟩
  · refine ⟨hkeeps.fresh, fun q hq => ?_⟩
    have hrow : q.1 ∈ st.store.deliveries.ids ∧ SameTarget q.2 (st.store.deliveries.row q.1) := by
      obtain hq | ⟨hq₁, hq₂⟩ := hpend q hq
      · exact hc.snapshot q hq
      · exact ⟨hq₁, by rw [hq₂]; exact ⟨rfl, rfl⟩⟩
    obtain ⟨hid', ht⟩ := hkeeps.rows q.1 hrow.1
    exact ⟨hid', hrow.2.trans ht.symm⟩

theorem truthful_step (hc : Consistent st) (ht : st.store.Truthful) (h : step d st e = some st') :
    st'.store.Truthful ↔ GuardMeansAnswered d st e := by
  obtain ⟨p, hp, _, hst⟩ | ⟨hnone, hkeeps, _⟩ := step_cases hc h
  · obtain ⟨⟨id, del⟩, b⟩ := p
    obtain ⟨hid, htarget⟩ := target_row hc hp
    obtain ⟨hframe, hcases⟩ := processDelivery_spec d st.now del b hid
    rw [← hst] at hframe hcases
    have hrow : SameTarget del (st'.store.deliveries.row id) := htarget.trans hframe.target.symm
    constructor
    · rintro ht' q hq hs
      obtain rfl : ((id, del), b) = q := Option.some.inj (hp.symm.trans hq)
      obtain ⟨hdel, hlog⟩ := processDelivery_suppressed hid hs
      rw [← hst] at hdel hlog
      have := ht' id (hframe.ids ▸ hid) hdel
      rwa [← hrow.1, ← hrow.2, hlog] at this
    · intro hg k hk hd
      rw [hframe.ids] at hk
      obtain ⟨codes, hlog⟩ := hframe.log
      by_cases hki : k = id
      · subst k
        rw [← hrow.1, ← hrow.2]
        obtain hs | hs | hs | hs := hcases
        · rw [(show st'.store.log = st.store.log from hst ▸ (processDelivery_suppressed hid hs).2)]
          exact hg _ hp hs
        · rw [hs] at hd ⊢
          rw [htarget.1, htarget.2]
          exact ht id hid hd
        · exact absurd hd hs
        · exact hs
      · rw [hframe.other k hki] at hd ⊢
        rw [hlog]
        exact answeredSince_append (ht k hk hd)
  · refine ⟨fun _ q hq => ?_, fun _ => hkeeps.truthful ht⟩
    rw [hnone] at hq
    cases hq

/-- From a store without deliveries, every state of a run is truthful exactly
when every delivery that finds the guard held has been answered before. -/
theorem delivered_answered_iff (d : Dispatcher) (s₀ s : State) (events : List Event)
    (h₀ : s₀.store.deliveries.ids = []) (hp : s₀.pending = [])
    (hr : run (step d) s₀ events = some s) :
    (∀ n u, run (step d) s₀ (events.take n) = some u → u.store.Truthful) ↔
      Meets (step d) (GuardMeansAnswered d) s₀ events := by
  have hc : Consistent s₀ :=
    ⟨fun id hid => by simp [h₀] at hid, fun p hq => by simp [hp] at hq⟩
  have ht : s₀.store.Truthful := fun id hid => by simp [h₀] at hid
  exact always_iff_meets (fun s l t hc _ => consistent_step hc) (fun s l t => truthful_step) hc ht hr

/-! ## One endpoint and one event -/

def oneEndpoint : State where
  now := 0
  store :=
    { nextID := 0
      endpoints := ⟨[1], fun _ => ⟨"https://shop.example/hook", true, []⟩⟩
      events := ⟨[2], fun _ => ⟨"order.paid", "null"⟩⟩
      deliveries := ⟨[], fun _ => ⟨0, 0, .pending, 0, 0, none, none, none, none, 0⟩⟩
      dlq := []
      guard := .empty
      log := [] }
  pending := []

def firstDelivery : String := "8c1b2d3e-4f50-4a61-9b72-c8d3e4f50a1b"

def guarded : Dispatcher where
  enabled := true
  backoffBaseSec := 5
  defaultMaxAttempts := 6
  replay := true
  replayTTL := 3600 * second
  httpMaxAttempts := 1
  parseURL _ := .ok ⟨"https", "shop.example", "shop.example"⟩
  marshalError _ := none
  uuidString id := if id = 0 then firstDelivery
    else if id = 1 then "8c1b2d3e-4f50-4a61-9b72-c8d3e4f50a1c"
    else "8c1b2d3e-4f50-4a61-9b72-c8d3e4f50a1d"
  parseUUID id := if id = firstDelivery then .ok 0 else .error "invalid UUID length"

def unprotected : Dispatcher := { guarded with replay := false }

def reply (x : Attempt) : Answers :=
  ⟨.ok, .ok, .ok, .ok, .ok, .ok, .ok, .ok, fun _ => x, .ok, .ok, .ok, .ok⟩

/-- The endpoint cannot be reached; the retry after the backoff finds the guard
of the first attempt and marks the row delivered. -/
theorem delivered_unanswered :
    ((run (step guarded) oneEndpoint
        [.schedule 2 [.ok], .deliverByID firstDelivery (reply (.transport "connection refused" none)),
          .tick 5000000000, .deliverByID firstDelivery (reply (.transport "connection refused" none))]).map
      fun s => ((s.store.deliveries.row 0).status, decide s.store.Truthful)) =
      some (.delivered, false) := by
  decide

/-- An answered delivery whose row could not be marked is marked by the retry. -/
def answeredTwice : List Event :=
  [.schedule 2 [.ok],
    .deliverByID firstDelivery { reply (.response ⟨200, "200 OK", .ok ""⟩ none) with
      markDelivered := .fail "conn closed" },
    .deliverByID firstDelivery (reply (.transport "connection refused" none))]

theorem answered_twice_truthful :
    ∃ s, run (step guarded) oneEndpoint answeredTwice = some s ∧
      (s.store.deliveries.row 0).status = .delivered ∧
      ∀ n u, run (step guarded) oneEndpoint (answeredTwice.take n) = some u →
        u.store.Truthful :=
  reaches_and (by decide) fun s hs _ =>
    (delivered_answered_iff guarded oneEndpoint s answeredTwice rfl rfl hs).mpr (by decide)

end TokoApi.Notify
