import TokoApi.Notify.Effects
import TokoApi.Resilience.Attempts

/-!
# The body of an answer

`doOnce` defers the cancellation of its request's context, so that context is done when
`Do` returns the response, and `deliver` reads the body after that. What has been received
by then is read; but where more of the body is to come, reading fails with the context's
error, and a delivery that the endpoint has accepted is put off or given up.
-/
namespace TokoApi.Notify

open Resilience

/-- What reading a body gives once the request's context is done. -/
structure ReadsAfterCancel (readAll : ReadAll) : Prop where
  empty : readAll true .noBody = .ok ""
  received : ∀ text, readAll true (.content text none) = .ok text
  cancelled : ∀ text rest, ∃ err, readAll true (.content text (some rest)) = .error err

def Arrived : ResponseBody → Prop
  | .noBody => True
  | .content _ rest => rest = none

/-- The store does what it is asked to, and the request can be built. -/
structure Answers.Working (a : Answers) : Prop where
  markDelivering : a.markDelivering = .ok
  getEndpoint : a.getEndpoint = .ok
  getEvent : a.getEvent = .ok
  newRequest : a.newRequest = .ok
  markDelivered : a.markDelivered = .ok
  moveToDLQ : a.moveToDLQ = .ok
  insertDlq : a.insertDlq = .ok
  markFailed : a.markFailed = .ok

/-- Endpoint and event are there, the address and the payload are accepted, and the replay
guard, if there is one, does not suppress the request. -/
structure Sendable (d : Dispatcher) (now : Int) (s : Store) (del : WebhookDelivery) (a : Answers)
    (ep : WebhookEndpoint) (ev : DomainEvent) : Prop where
  endpoint : s.endpoints.get? del.endpointID = some ep
  event : s.events.get? del.eventID = some ev
  url : d.validateURL ep.url = none
  payload : d.marshalError ev = none
  guard : d.replay = true → 0 < d.replayTTL → a.acquire = .ok ∧
    (s.guard.setNX now d.replayTTL (d.replayKey del.endpointID del.eventID)).1 = true

variable {d : Dispatcher} {now : Int} {s s' : Store} {id : Nat} {del : WebhookDelivery}
  {a : Answers} {ep : WebhookEndpoint} {ev : DomainEvent} {o : Outcome} {resp : HTTPResponse}
  {codes : List Int}

theorem httpDo_first {maxAttempts : Int} {xs : Nat → Attempt} {r : Except String HTTPResponse}
    (h : (xs 1).seen = (codes, .final r)) : httpDo maxAttempts xs = (codes, r) := by
  unfold httpDo
  generalize (if maxAttempts ≤ 0 then 1 else maxAttempts).toNat - 1 = left
  cases left <;> simp only [doLoop, h]

/-- What `deliver` makes of a response: its status with its body, or with the error of
reading it. -/
def outcomeOf (resp : HTTPResponse) : Outcome :=
  match resp.body with
  | .error err => .answered resp.status "" (some err)
  | .ok body => .answered resp.status body none

theorem send_answer (s : Store) (del : WebhookDelivery) (hw : a.Working)
    (h : (a.http 1).seen = (codes, .final (.ok resp))) :
    Outcome.answered (d.send s del a).2.1 (d.send s del a).2.2.1 (d.send s del a).2.2.2 = outcomeOf resp := by
  simp only [Dispatcher.send, hw.newRequest, httpDo_first h, outcomeOf]
  cases resp.body <;> rfl

theorem attempt_answer (hw : a.Working) (hs : Sendable d now s del a ep ev)
    (h : (a.http 1).seen = (codes, .final (.ok resp))) :
    (d.attempt now s del a).2 = outcomeOf resp := by
  have hlookup : Dispatcher.lookup a.getEndpoint (s.endpoints.get? del.endpointID) = .ok ep ∧
      Dispatcher.lookup a.getEvent (s.events.get? del.eventID) = .ok ev := by
    rw [hw.getEndpoint, hw.getEvent, hs.endpoint, hs.event]
    exact ⟨rfl, rfl⟩
  simp only [Dispatcher.attempt, hlookup.1, hlookup.2, Dispatcher.deliver, hs.url, hs.payload]
  by_cases hreplay : d.replay = true ∧ 0 < d.replayTTL
  · obtain ⟨hacquire, hset⟩ := hs.guard hreplay.1 hreplay.2
    have hpair : s.guard.setNX now d.replayTTL (d.replayKey del.endpointID del.eventID) =
        (true, (s.guard.setNX now d.replayTTL (d.replayKey del.endpointID del.eventID)).2) :=
      Prod.ext hset rfl
    simp only [if_pos hreplay, hacquire]
    rw [hpair]
    exact send_answer _ del hw h
  · simp only [if_neg hreplay]
    exact send_answer s del hw h

theorem settled_delivered_iff (hw : a.Working) (hid : id ∈ s.deliveries.ids)
    (h : Settled now s id del a o s') :
    (s'.deliveries.row id).status = .delivered ↔ o.success = true := by
  cases h with
  | delivered ho _ => simp [markDelivered, updateDelivery_self hid, ho]
  | buried ho _ =>
    simp [Dispatcher.bury, hw.moveToDLQ, hw.insertDlq, moveToDLQ, insertWebhookDlq,
      updateDelivery_self hid, ho]
  | postponed ho _ _ => simp [markFailedWithBackoff, updateDelivery_self hid, ho]
  | unwritten hcall =>
    rcases hcall with ⟨_, hf⟩ | ⟨_, hf | hf⟩
    · rw [hw.markDelivered] at hf
      cases hf
    · rw [hw.moveToDLQ] at hf
      cases hf
    · rw [hw.markFailed] at hf
      cases hf

/-- Once the request's context is done, a body is read as far as it has been received, and
waiting for more fails; the first attempt is admitted and answered with a 2xx status; the store
works and nothing suppresses the request. The delivery is then marked as delivered exactly if
the whole body has been received when `Do` returns. -/
theorem delivered_iff_arrived (d : Dispatcher) (readAll : ReadAll)
    (hread : ReadsAfterCancel readAll) (now : Int) (s : Store) (id : Nat)
    (del : WebhookDelivery) (a : Answers) (ep : WebhookEndpoint) (ev : DomainEvent)
    (rounds : Nat → Round) (answer : PeerAnswer) (hid : id ∈ s.deliveries.ids) (hw : a.Working)
    (hs : Sendable d now s del a ep ev) (hhttp : a.http 1 = (rounds 1).attempt readAll)
    (hanswer : (rounds 1).result = .answered answer)
    (hok : 200 ≤ answer.status ∧ answer.status < 300) :
    ((d.processDelivery now s id del a).1.deliveries.row id).status = .delivered ↔
      Arrived answer.body := by
  have hjudge : judge readAll (rounds 1).result =
      .ok ⟨answer.status, answer.statusText, readAll true answer.body⟩ := by
    simp only [judge, hanswer, doOnce]
    exact if_pos (by omega)
  have hseen : (a.http 1).seen = ((rounds 1).result.codes,
      .final (.ok ⟨answer.status, answer.statusText, readAll true answer.body⟩)) := by
    rw [hhttp, seen_attempt, hjudge]
  have hsend : Sendable d now (markDelivering s id) del a ep ev := by
    refine ⟨?_, ?_, hs.url, hs.payload, ?_⟩
    · simpa [markDelivering] using hs.endpoint
    · simpa [markDelivering] using hs.event
    · simpa [markDelivering] using hs.guard
  rw [processDelivery_eq hw.markDelivering]
  obtain ⟨guard, log, hframe⟩ := attempt_frame d now (markDelivering s id) del a
  have hmem : id ∈ (d.attempt now (markDelivering s id) del a).1.deliveries.ids := by
    rw [hframe]
    simpa [markDelivering] using hid
  have hset := settle_settled d now (d.attempt now (markDelivering s id) del a).1 id del a
    (d.attempt now (markDelivering s id) del a).2
  rw [settled_delivered_iff hw hmem hset, attempt_answer hw hsend hseen]
  cases hbody : answer.body with
  | noBody => simp [outcomeOf, hread.empty, Outcome.success, hok, Arrived]
  | content text rest =>
    cases rest with
    | none => simp [outcomeOf, hread.received, Outcome.success, hok, Arrived]
    | some rest =>
      obtain ⟨err, herr⟩ := hread.cancelled text rest
      simp [outcomeOf, herr, Outcome.success, Arrived]

/-! ## One delivery -/

def oneDelivery : Store :=
  { oneEndpoint.store with
    nextID := 1
    deliveries := ⟨[0], fun _ => ⟨1, 2, .pending, 0, 6, none, none, none, none, 0⟩⟩ }

def accepting (body : ResponseBody) : Round := ⟨[], [], .answered ⟨200, "200 OK", body⟩, 0, none⟩

def processed (body : ResponseBody) : Store :=
  (unprotected.processDelivery 0 oneDelivery 0 (oneDelivery.deliveries.row 0)
    (reply ((accepting body).attempt readUnder))).1

theorem received_answer_delivered :
    ((processed (.content "ok" none)).deliveries.row 0).status = .delivered := by
  have hread : ReadsAfterCancel readUnder := ⟨rfl, fun _ => rfl, fun _ _ => ⟨_, rfl⟩⟩
  exact (delivered_iff_arrived unprotected readUnder hread 0 oneDelivery 0
    (oneDelivery.deliveries.row 0) (reply ((accepting (.content "ok" none)).attempt readUnder))
    ⟨"https://shop.example/hook", true, []⟩ ⟨"order.paid", "null"⟩
    (fun _ => accepting (.content "ok" none)) ⟨200, "200 OK", .content "ok" none⟩ (by decide)
    ⟨rfl, rfl, rfl, rfl, rfl, rfl, rfl, rfl⟩ ⟨rfl, rfl, rfl, rfl, nofun⟩ rfl rfl (by decide)).mpr rfl

/-- The endpoint answers `200 OK`, two bytes follow when `Do` has returned, and the delivery
has failed. -/
theorem answer_to_come_failed :
    ((processed (.content "" (some "ok"))).deliveries.row 0).status = .failed ∧
      ((processed (.content "" (some "ok"))).deliveries.row 0).lastError =
        some "status=200 err=context canceled" := by
  decide +kernel

end TokoApi.Notify
