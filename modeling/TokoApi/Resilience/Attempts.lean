import TokoApi.Resilience.Do

/-!
# The attempts of one call

Whatever the breaker answers and whatever others do to it, one call of `Do` is a row of
attempts, each of them admitted, sent with the same bytes and reported once, with at
most one refusal after the last. It returns the response of the last attempt, or an error.
-/
namespace TokoApi.Resilience

open Lib.Durations

variable {rnd : ℚ → ℚ} {readAll : ReadAll} {cl : HTTPClient}
  {orig : Option (List UInt8)} {r : Round} {rounds : Nat → Round} {idle : List Event}
  {st : DoState} {resp : HTTPResponse} {err : DoError}

/-! ## One iteration -/

/-- An attempt that was admitted, sent and reported. -/
def DoState.attempted (rnd : ℚ → ℚ) (orig : Option (List UInt8)) (r : Round) (idle : List Event)
    (success : Bool) (st : DoState) : DoState :=
  ((st.allow rnd idle).2.send orig r.result).report rnd r.during success

theorem iterate_refused (ha : (st.allow rnd idle).1 = false) :
    iterate rnd readAll orig r idle st = ((st.allow rnd idle).2, .refused) := by
  have hpair : st.allow rnd idle = (false, (st.allow rnd idle).2) := Prod.ext ha rfl
  rw [iterate, hpair]

theorem iterate_allowed (ha : (st.allow rnd idle).1 = true) :
    iterate rnd readAll orig r idle st =
      match judge readAll r.result with
      | .ok resp => (st.attempted rnd orig r idle true, .returns resp)
      | .error err => (st.attempted rnd orig r idle false, .failed err) := by
  have hpair : st.allow rnd idle = (true, (st.allow rnd idle).2) := Prod.ext ha rfl
  rw [iterate, hpair]
  cases judge readAll r.result <;> rfl

/-! ## How the loop goes -/

/-- The loop from attempt `k` on, which `left` more may follow: it stops at that attempt, or
goes on after a pause. -/
inductive Course (rnd : ℚ → ℚ) (readAll : ReadAll)
    (cl : HTTPClient) (orig : Option (List UInt8)) (rounds : Nat → Round) :
    Nat → Nat → List Event → DoState → DoState × DoReturn → Prop
  | refused {left k idle} {st : DoState} (ha : (st.allow rnd idle).1 = false) :
      Course rnd readAll cl orig rounds left k idle st
        ((st.allow rnd idle).2, cl.finish .openCircuit)
  | returns {left k idle} {st : DoState} {resp} (ha : (st.allow rnd idle).1 = true)
      (hj : judge readAll (rounds k).result = .ok resp) :
      Course rnd readAll cl orig rounds left k idle st
        (st.attempted rnd orig (rounds k) idle true, some resp, none)
  | last {k idle} {st : DoState} {err} (ha : (st.allow rnd idle).1 = true)
      (hj : judge readAll (rounds k).result = .error err) :
      Course rnd readAll cl orig rounds 0 k idle st
        (st.attempted rnd orig (rounds k) idle false, cl.finish err)
  | interrupted {left k idle} {st : DoState} {err e} (ha : (st.allow rnd idle).1 = true)
      (hj : judge readAll (rounds k).result = .error err) (hi : (rounds k).interrupted = some e) :
      Course rnd readAll cl orig rounds (left + 1) k idle st
        (st.attempted rnd orig (rounds k) idle false, none, some (.context e))
  | next {left k : Nat} {idle : List Event} {st : DoState} {err : DoError}
    {out : DoState × DoReturn}
    (ha : (st.allow rnd idle).1 = true) (hj : judge readAll (rounds k).result = .error err)
    (hi : (rounds k).interrupted = none)
    (hrest : Course rnd readAll cl orig rounds left (k + 1)
      (waited (cl.pause k (rounds k).delta) (rounds (k + 1)).before)
      (st.attempted rnd orig (rounds k) idle false) out) :
    Course rnd readAll cl orig rounds (left + 1) k idle st out

theorem attemptLoop_course (rnd : ℚ → ℚ) (readAll : ReadAll)
    (cl : HTTPClient) (orig : Option (List UInt8)) (rounds : Nat → Round) (left k : Nat)
    (idle : List Event) (st : DoState) :
    Course rnd readAll cl orig rounds left k idle st
      (attemptLoop rnd readAll cl orig rounds left k idle st) := by
  cases ha : (st.allow rnd idle).1 with
  | false =>
    cases left <;> simp only [attemptLoop, iterate_refused ha] <;> exact .refused ha
  | true =>
    cases hj : judge readAll (rounds k).result with
    | ok resp =>
      cases left <;> simp only [attemptLoop, iterate_allowed ha, hj] <;> exact .returns ha hj
    | error err =>
      cases left with
      | zero =>
        simp only [attemptLoop, iterate_allowed ha, hj]
        exact .last ha hj
      | succ left =>
        simp only [attemptLoop, iterate_allowed ha, hj]
        cases hi : (rounds k).interrupted with
        | some e => exact .interrupted ha hj hi
        | none => exact .next ha hj hi (attemptLoop_course rnd readAll cl orig rounds left (k + 1) _ _)

theorem doRequest_course (rnd : ℚ → ℚ) (readAll : ReadAll)
    (cl : HTTPClient) (hc : cl.configured = true) (shared : Timed) {req req' : HTTPRequest}
    (hreq : ensureReplayableBody req = .ok (orig, req')) (rounds : Nat → Round) :
    ∃ (seen : Nat → Round) (idle : List Event) (timed : Timed),
      (∀ k, (seen k).result = (rounds k).result ∧ (seen k).interrupted = (rounds k).interrupted) ∧
      Course rnd readAll cl orig seen (cl.attempts - 1) 1 idle ⟨timed, req', []⟩
        (cl.doRequest rnd readAll shared req rounds) := by
  simp only [HTTPClient.doRequest, hc, hreq, Bool.true_eq_false, if_false]
  split
  · exact ⟨rounds, _, _, fun _ => ⟨rfl, rfl⟩, attemptLoop_course ..⟩
  · exact ⟨fun k => (rounds k).alone, _, _, fun _ => ⟨rfl, rfl⟩, attemptLoop_course ..⟩

variable {left k most : Nat} {out : DoState × DoReturn} {body : List UInt8} {err : DoError}

theorem Course.eq_of_refused
    (h : Course rnd readAll cl orig rounds left k idle st out) (ha : (st.allow rnd idle).1 = false) :
    out = ((st.allow rnd idle).2, cl.finish .openCircuit) := by
  have hadmitted : (st.allow rnd idle).1 ≠ true := by simp [ha]
  cases h with
  | refused _ => rfl
  | returns ha' _ | last ha' _ | interrupted ha' _ _ | next ha' _ _ _ => exact absurd ha' hadmitted

/-! ## What the attempts leave behind -/

def attemptOps (readAll : ReadAll) (body : List UInt8)
    (t : RoundTrip) : List ClientOp :=
  [.allow true, .send (.ok body) t, .report (judge readAll t).isOk]

def denial (denied : Bool) : List ClientOp := if denied then [.allow false] else []

def lastAnswer (readAll : ReadAll) (trips : List RoundTrip) :
    Option HTTPResponse :=
  trips.getLast?.bind fun t => (judge readAll t).toOption

/-- The request to clone has been made replayable, or has no body. -/
def Ready (orig : Option (List UInt8)) (req : HTTPRequest) : Prop :=
  orig = none → req.body.readAll = .ok [] ∧ req.body.drained = req.body

theorem send_ready (result : RoundTrip) (h : Ready orig st.req) :
    Ready orig (st.send orig result).req := by
  intro hnone
  have hbody := h hnone
  subst hnone
  simp only [DoState.send, Option.isSome_none, Bool.false_eq_true, if_false]
  rw [hbody.2]
  exact hbody

theorem clone_readAll (h : Ready orig st.req) :
    (cloneRequestWithContext st.req orig).body.readAll = .ok (orig.getD []) := by
  cases orig with
  | none => exact (h rfl).1
  | some data => rfl

theorem attempt_ops {success : Bool} (r : Round) (h : Ready orig st.req)
    (ha : (st.allow rnd idle).1 = true) (hs : (judge readAll r.result).isOk = success) :
    (st.attempted rnd orig r idle success).ops =
      st.ops ++ attemptOps readAll (orig.getD []) r.result := by
  have hclone : (cloneRequestWithContext (st.allow rnd idle).2.req orig).body.readAll =
      .ok (orig.getD []) := clone_readAll h
  have hop : (st.allow rnd idle).2.ops = st.ops ++ [.allow true] := by
    simp only [DoState.allow] at ha ⊢
    rw [ha]
  simp only [DoState.attempted, DoState.report, DoState.send, hclone, hop, attemptOps, hs, List.append_assoc,
    List.cons_append, List.nil_append]

theorem refused_ops (ha : (st.allow rnd idle).1 = false) :
    (st.allow rnd idle).2.ops = st.ops ++ [.allow false] := by
  simp only [DoState.allow] at ha ⊢
  rw [ha]

def ClientOp.trip : ClientOp → Option RoundTrip
  | .send _ t => some t
  | _ => none

def sent (ops : List ClientOp) : List RoundTrip := ops.filterMap ClientOp.trip

theorem sent_append (ops ops' : List ClientOp) : sent (ops ++ ops') = sent ops ++ sent ops' :=
  List.filterMap_append

theorem sent_attempted (success : Bool) :
    sent (st.attempted rnd orig r idle success).ops = sent st.ops ++ [r.result] := by
  have hops : (st.attempted rnd orig r idle success).ops = st.ops ++ [.allow (st.allow rnd idle).1] ++
      [.send (cloneRequestWithContext st.req orig).body.readAll r.result] ++ [.report success] := rfl
  rw [hops, sent_append, sent_append, sent_append]
  exact congrArg (· ++ []) (congrArg (· ++ [r.result]) (List.append_nil _)) |>.trans (List.append_nil _)

theorem sent_refused : sent (st.allow rnd idle).2.ops = sent st.ops := by
  have hops : (st.allow rnd idle).2.ops = st.ops ++ [.allow (st.allow rnd idle).1] := rfl
  rw [hops, sent_append]
  exact List.append_nil _

theorem HTTPClient.finish_eq (cl : HTTPClient) (hf : cl.fallback = none) (err : DoError) :
    cl.finish err = (none, some err) := by
  simp only [HTTPClient.finish, hf]

/-! ## The loop -/

/-- The attempts `k`, `k + 1` and so on, as many as were made, what they leave behind and
what the call returns. -/
structure Tried (readAll : ReadAll) (body : List UInt8)
    (rounds : Nat → Round) (k most : Nat) (trips : List RoundTrip) (denied : Bool)
    (ops : List ClientOp) (ret : DoReturn) : Prop where
  results : trips = (List.range' k trips.length).map fun j => (rounds j).result
  bounded : trips.length ≤ most
  recorded : ops = trips.flatMap (attemptOps readAll body) ++ denial denied
  answers : ∀ resp, ret = (some resp, none) ↔ lastAnswer readAll trips = some resp
  fails : lastAnswer readAll trips = none → ret.1 = none ∧ ret.2.isSome = true

theorem tried_refused :
    Tried readAll body rounds k most [] true [.allow false] (none, some err) where
  results := rfl
  bounded := Nat.zero_le _
  recorded := rfl
  answers := fun _ => ⟨nofun, nofun⟩
  fails := fun _ => ⟨rfl, rfl⟩

theorem tried_returns (hj : judge readAll (rounds k).result = .ok resp) :
    Tried readAll body rounds k (most + 1) [(rounds k).result] false
      (attemptOps readAll body (rounds k).result) (some resp, none) := by
  have hlast : lastAnswer readAll [(rounds k).result] = some resp := by
    simp [lastAnswer, hj, Except.toOption]
  refine ⟨rfl, by simp, by simp [denial], fun resp' => ?_, fun h => ?_⟩
  · rw [hlast]
    exact ⟨fun h => (by cases h; rfl), fun h => (by cases h; rfl)⟩
  · rw [hlast] at h
    cases h

theorem tried_gives_up {err' : DoError} (hj : judge readAll (rounds k).result = .error err) :
    Tried readAll body rounds k (most + 1) [(rounds k).result] false
      (attemptOps readAll body (rounds k).result) (none, some err') := by
  have hlast : lastAnswer readAll [(rounds k).result] = none := by
    simp [lastAnswer, hj, Except.toOption]
  refine ⟨rfl, by simp, by simp [denial], fun resp' => ?_, fun _ => ⟨rfl, rfl⟩⟩
  simp [hlast]

theorem Tried.cons {trips : List RoundTrip} {denied : Bool} {ops : List ClientOp} {ret : DoReturn}
    (hj : judge readAll (rounds k).result = .error err)
    (h : Tried readAll body rounds (k + 1) most trips denied ops ret) :
    Tried readAll body rounds k (most + 1) ((rounds k).result :: trips) denied
      (attemptOps readAll body (rounds k).result ++ ops) ret := by
  have hlast : lastAnswer readAll ((rounds k).result :: trips) = lastAnswer readAll trips := by
    cases trips with
    | nil => simp [lastAnswer, hj, Except.toOption]
    | cons t trips => simp only [lastAnswer, List.getLast?_cons_cons]
  refine ⟨?_, Nat.succ_le_succ h.bounded, ?_, fun resp => ?_, fun hnone => ?_⟩
  · rw [List.length_cons, List.range'_succ, List.map_cons, ← h.results]
  · rw [List.flatMap_cons, List.append_assoc, ← h.recorded]
  · rw [hlast]
    exact h.answers resp
  · exact h.fails (hlast ▸ hnone)

theorem Course.tried
    (h : Course rnd readAll cl orig rounds left k idle st out) (hf : cl.fallback = none)
    (hr : Ready orig st.req) :
    ∃ trips denied ops, out.1.ops = st.ops ++ ops ∧
      Tried readAll (orig.getD []) rounds k (left + 1) trips denied ops out.2 := by
  induction h with
  | refused ha =>
    rw [cl.finish_eq hf]
    exact ⟨[], true, [.allow false], refused_ops ha, tried_refused⟩
  | returns ha hj => exact ⟨_, _, _, attempt_ops _ hr ha (by rw [hj]; rfl), tried_returns hj⟩
  | last ha hj =>
    rw [cl.finish_eq hf]
    exact ⟨_, _, _, attempt_ops _ hr ha (by rw [hj]; rfl), tried_gives_up hj⟩
  | interrupted ha hj _ =>
    exact ⟨_, _, _, attempt_ops _ hr ha (by rw [hj]; rfl), tried_gives_up hj⟩
  | @next left k idle st err out ha hj _ _ ih =>
    have hfailed : (judge readAll (rounds k).result).isOk = false := by rw [hj]; rfl
    have hops := attempt_ops (rounds k) hr ha hfailed
    obtain ⟨trips, denied, ops, hrest, htried⟩ :=
      ih (send_ready (rounds k).result hr)
    refine ⟨_, denied, _, ?_, htried.cons hj⟩
    rw [hrest, hops, List.append_assoc]

/-- What `httpDo` sees of an attempt that is admitted. -/
def Round.attempt (readAll : ReadAll) (r : Round) : Attempt :=
  match doOnce readAll r.result with
  | .error err => .transport err r.interrupted
  | .ok resp => .response resp r.interrupted

def RoundTrip.codes : RoundTrip → List Int
  | .transport _ => []
  | .answered a => [a.status]

/-- A call returns a response or an error. -/
def DoReturn.result (ret : DoReturn) : Except String HTTPResponse :=
  match ret with
  | (some resp, _) => .ok resp
  | (none, err) => .error ((err.map DoError.text).getD "")

theorem seen_attempt : (r.attempt readAll).seen = (r.result.codes,
      match judge readAll r.result with
      | .ok resp => .final (.ok resp)
      | .error err => .failed err.text r.interrupted) := by
  unfold Round.attempt judge
  cases r.result with
  | transport err => rfl
  | answered a =>
    simp only [doOnce, Attempt.seen, RoundTrip.codes]
    split <;> rfl

def Attempt.sends : Attempt → Bool
  | .circuitOpen => false
  | _ => true

/-- The attempts for which the loop over given attempts makes a request, from attempt `k` on. -/
def requests (xs : Nat → Attempt) (k : Nat) : Nat → List Nat
  | 0 => if (xs k).sends then [k] else []
  | left + 1 =>
    if (xs k).sends then
      match (xs k).seen.2 with
      | .failed _ none => k :: requests xs (k + 1) left
      | _ => [k]
    else []

theorem loop_congr (xs ys : Nat → Attempt) (left k : Nat) (h : ∀ j, k ≤ j → xs j = ys j) :
    doLoop xs k left = doLoop ys k left ∧ requests xs k left = requests ys k left := by
  induction left generalizing k with
  | zero => simp only [doLoop, requests, h k le_rfl, and_self]
  | succ left ih =>
    obtain ⟨hloop, hrequests⟩ := ih (k + 1) fun j hj => h j (Nat.le_of_succ_le hj)
    simp only [doLoop, requests, h k le_rfl, hloop, hrequests, and_self]

theorem attempt_sends : (r.attempt readAll).sends = true := by
  unfold Round.attempt
  split <;> rfl

/-- The loop over given attempts, where one that is refused makes no request. -/
structure Covered (readAll : ReadAll) (rounds : Nat → Round)
    (left k : Nat) (st : DoState) (out : DoState × DoReturn) (xs : Nat → Attempt) : Prop where
  attempts : ∀ j, xs j = .circuitOpen ∨ xs j = (rounds j).attempt readAll
  sends : sent out.1.ops = sent st.ops ++ (requests xs k left).map fun j => (rounds j).result
  loop : doLoop xs k left =
    ((requests xs k left).flatMap fun j => (rounds j).result.codes, out.2.result)

theorem covered_stop {success : Bool} {ret : DoReturn}
    (honly : requests (fun j => (rounds j).attempt readAll) k left = [k])
    (hloop : doLoop (fun j => (rounds j).attempt readAll) k left =
      ((rounds k).result.codes, ret.result)) :
    Covered readAll rounds left k st (st.attempted rnd orig (rounds k) idle success, ret)
      fun j => (rounds j).attempt readAll where
  attempts := fun _ => .inr rfl
  sends := by rw [honly, List.map_singleton, sent_attempted]
  loop := by rw [honly, List.flatMap_singleton, hloop]

/-- Whatever the breaker does, the loop is the one over given attempts, of which those that
it does not refuse are the rounds. -/
theorem Course.covered
    (h : Course rnd readAll cl orig rounds left k idle st out) (hf : cl.fallback = none) :
    ∃ xs, Covered readAll rounds left k st out xs := by
  induction h with
  | @refused left k idle st ha =>
    have hnone : requests (fun _ => .circuitOpen) k left = [] := by cases left <;> rfl
    refine ⟨fun _ => .circuitOpen, fun _ => .inl rfl, ?_, ?_⟩
    · rw [sent_refused, hnone, List.map_nil, List.append_nil]
    · rw [cl.finish_eq hf, hnone]
      cases left <;> rfl
  | @returns left k idle st resp ha hj =>
    refine ⟨_, covered_stop ?_ ?_⟩
    · cases left <;> simp only [requests, attempt_sends, if_true, seen_attempt, hj]
    · cases left <;> simp only [doLoop, seen_attempt, hj] <;> rfl
  | last ha hj =>
    refine ⟨_, covered_stop ?_ ?_⟩
    · simp only [requests, attempt_sends, if_true]
    · simp only [doLoop, seen_attempt, hj, cl.finish_eq hf]
      rfl
  | interrupted ha hj hi =>
    refine ⟨_, covered_stop ?_ ?_⟩
    · simp only [requests, attempt_sends, if_true, seen_attempt, hj, hi]
    · simp only [doLoop, seen_attempt, hj, hi]
      rfl
  | @next left k idle st err out ha hj hi _ ih =>
    obtain ⟨xs, hc⟩ := ih
    obtain ⟨hloop, hrequests⟩ := loop_congr
      (fun j => if j = k then (rounds k).attempt readAll else xs j) xs left (k + 1)
      fun j hj => if_neg (Nat.ne_of_gt hj)
    have hmade : requests (fun j => if j = k then (rounds k).attempt readAll else xs j) k (left + 1) =
        k :: requests xs (k + 1) left := by
      simp only [requests, if_true, attempt_sends, seen_attempt, hj, hi, hrequests]
    refine ⟨fun j => if j = k then (rounds k).attempt readAll else xs j, fun j => ?_, ?_, ?_⟩
    · by_cases hjk : j = k
      · simp only [hjk, if_true, or_true]
      · simp only [if_neg hjk]
        exact hc.attempts j
    · rw [hc.sends, sent_attempted, hmade, List.append_assoc, List.singleton_append, List.map_cons]
    · rw [hmade, List.flatMap_cons]
      simp only [doLoop, if_true, seen_attempt, hj, hi, hloop, hc.loop]

/-- With every breaker and every course of events, a client without a fallback answers a request
that can be sent as `httpDo` does on some attempts, those that the breaker refuses and the
rounds, and it has sent the requests of that loop. -/
theorem doRequest_covered (rnd : ℚ → ℚ) (readAll : ReadAll)
    (cl : HTTPClient) (hf : cl.fallback = none) (hc : cl.configured = true) (shared : Timed)
    (req req' : HTTPRequest) (orig : Option (List UInt8))
    (hreq : ensureReplayableBody req = .ok (orig, req')) (rounds : Nat → Round) :
    ∃ xs : Nat → Attempt, (∀ j, xs j = .circuitOpen ∨ xs j = (rounds j).attempt readAll) ∧
      sent (cl.doRequest rnd readAll shared req rounds).1.ops =
        (requests xs 1 (cl.attempts - 1)).map (fun j => (rounds j).result) ∧
      httpDo cl.maxAttempts xs =
        ((requests xs 1 (cl.attempts - 1)).flatMap fun j => (rounds j).result.codes,
          (cl.doRequest rnd readAll shared req rounds).2.result) := by
  obtain ⟨seen, idle, timed, hseen, hcourse⟩ := doRequest_course rnd readAll cl hc shared hreq rounds
  obtain ⟨xs, h⟩ := hcourse.covered hf
  have hsends := h.sends
  have hloop := h.loop
  simp only [hseen] at hsends hloop
  refine ⟨xs, fun j => (h.attempts j).imp_right fun hj => hj.trans ?_, hsends, hloop⟩
  rw [Round.attempt, Round.attempt, (hseen j).1, (hseen j).2]

/-- Under a context that is done, what has been received is read, but not waited for more. -/
def readUnder : ReadAll
  | _, .noBody => .ok ""
  | _, .content received none => .ok received
  | true, .content _ (some _) => .error "context canceled"
  | false, .content received (some rest) => .ok (received ++ rest)

def threeAttempts : HTTPClient := ⟨true, true, 0, 3, false, none⟩

def recovering (k : Nat) : Round where
  before := []
  during := []
  result := .answered (if k = 1 then ⟨503, "503 Service Unavailable", .noBody⟩
    else ⟨204, "204 No Content", .noBody⟩)
  delta := 0
  interrupted := none

theorem recovering_covered :
    ∃ xs : Nat → Attempt, (∀ j, xs j = .circuitOpen ∨ xs j = (recovering j).attempt readUnder) ∧
      (requests xs 1 2).map (fun j => (recovering j).result) = [(recovering 1).result, (recovering 2).result] ∧
      (httpDo 3 xs).2.toOption.map HTTPResponse.status = some 204 := by
  obtain ⟨xs, hxs, hsent, hdo⟩ := doRequest_covered Lib.Float64.ofRat readUnder threeAttempts rfl rfl
    ⟨0, newBreaker 5 (some (1 / 2)) second⟩ ⟨.reader (.ok [104, 105]), none⟩ _ _ rfl recovering
  refine ⟨xs, hxs, hsent.symm.trans (by decide +kernel), ?_⟩
  rw [show (3 : Int) = threeAttempts.maxAttempts from rfl, hdo]
  rfl

end TokoApi.Resilience
