import TokoApi.Resilience.Attempts

/-!
# A client without a breaker

Where no breaker is set, `Do` makes one of its own with `NewBreaker(1, 1, time.Second)`,
which is meant never to trip. It trips with the first failure, since one failure of one
request is a ratio of one, and lets the next attempt pass after a second. So the call is
the plain retry loop exactly if every pause between two attempts lasts that long; with
the default base of 100 ms it never does.
-/
namespace TokoApi.Resilience

open Lib.Durations

/-! ## The plain retry loop -/

/-- Attempts until one answers below 500, the context is done or none is left: the
attempts that were made, and what is returned. -/
def retryLoop (readAll : ReadAll) (cl : HTTPClient)
    (rounds : Nat → Round) : Nat → Nat → List RoundTrip × DoReturn
  | 0, k =>
    match judge readAll (rounds k).result with
    | .ok resp => ([(rounds k).result], some resp, none)
    | .error err => ([(rounds k).result], cl.finish err)
  | left + 1, k =>
    match judge readAll (rounds k).result with
    | .ok resp => ([(rounds k).result], some resp, none)
    | .error _ =>
      match (rounds k).interrupted with
      | some err => ([(rounds k).result], none, some (.context err))
      | none =>
        let rest := retryLoop readAll cl rounds left (k + 1)
        ((rounds k).result :: rest.1, rest.2)

def HTTPClient.plainDo (readAll : ReadAll) (cl : HTTPClient)
    (req : HTTPRequest) (rounds : Nat → Round) : List RoundTrip × DoReturn :=
  if cl.configured = false then ([], none, some .notConfigured)
  else
    match ensureReplayableBody req with
    | .error err => ([], none, some (.body err))
    | .ok _ => retryLoop readAll cl rounds (cl.attempts - 1) 1

def HTTPClient.pauseLength (cl : HTTPClient) (rounds : Nat → Round) (k : Nat) : Nat :=
  elapsed (waited (cl.pause k (rounds k).delta) (rounds (k + 1)).before)

/-- Every pause that another attempt follows lasts a second at least. -/
def Patient (readAll : ReadAll) (cl : HTTPClient)
    (rounds : Nat → Round) : Nat → Nat → Prop
  | 0, _ => True
  | left + 1, k =>
    (judge readAll (rounds k).result).isOk = false → (rounds k).interrupted = none →
      second ≤ cl.pauseLength rounds k ∧ Patient readAll cl rounds left (k + 1)

/-! ## Time -/

variable {rnd : ℚ → ℚ} {readAll : ReadAll} {cl : HTTPClient}
  {orig : Option (List UInt8)} {r : Round} {rounds : Nat → Round} {es idle : List Event}
  {st st' : DoState} {c : Timed} {b : Breaker}

theorem elapsed_append (es fs : List Event) : elapsed (es ++ fs) = elapsed es + elapsed fs := by
  induction es with
  | nil => simp [elapsed]
  | cons e es ih =>
    simp only [elapsed, List.cons_append, List.foldr_cons] at ih ⊢
    omega

theorem elapsed_filter (es : List Event) : elapsed (es.filter Event.isTick) = elapsed es := by
  induction es with
  | nil => rfl
  | cons e es ih =>
    cases e with
    | tick d => exact congrArg (d + ·) ih
    | allow | report success =>
      rw [List.filter_cons_of_neg Bool.false_ne_true, ih]
      exact (Nat.zero_add _).symm

theorem elapsed_waited (p : Int) (es : List Event) :
    elapsed (waited p (es.filter Event.isTick)) = elapsed (waited p es) := by
  simp only [waited, elapsed_append, elapsed_filter]

def Quiet (es : List Event) : Prop := ∀ e ∈ es, e.isTick = true

theorem quiet_filter (es : List Event) : Quiet (es.filter Event.isTick) :=
  fun _ he => (List.mem_filter.mp he).2

theorem quiet_waited (p : Int) (h : Quiet es) : Quiet (waited p es) := by
  intro e he
  rcases List.mem_append.mp he with he | he
  · exact h e he
  · obtain rfl := List.mem_singleton.mp he
    rfl

theorem after_quiet (h : Quiet es) : c.after rnd es = ⟨c.now + elapsed es, c.breaker⟩ := by
  induction es generalizing c with
  | nil => simp [Timed.after, elapsed]
  | cons e es ih =>
    have htail : Quiet es := fun e' he' => h e' (List.mem_cons_of_mem e he')
    cases e with
    | tick d =>
      have hstep : (c.step rnd (.tick d)).getD c = ⟨c.now + d, c.breaker⟩ := rfl
      rw [Timed.after, hstep, ih htail]
      simp only [elapsed, List.foldr_cons, Event.elapsed, Nat.cast_add, Int.add_assoc]
    | allow | report success => exact absurd (h _ List.mem_cons_self) Bool.false_ne_true

/-! ## The breaker that trips at once -/

/-- What the call's own breaker is built with. -/
def ownSettings : Settings := (newBreaker 1 (some 1) second).settings

theorem ownSettings_openFor : ownSettings.openFor = second := rfl

structure Fragile (b : Breaker) : Prop where
  settings : b.settings = ownSettings
  state : b.state = .halfOpen ∨ b.state = .closed ∧ b.failures = 0 ∧ b.successes = 0

theorem fragile_newBreaker : Fragile (newBreaker 1 (some 1) second) := ⟨rfl, .inr ⟨rfl, rfl, rfl⟩⟩

theorem Fragile.allow (h : Fragile b) (now : Int) : b.allow now = (true, b) := by
  rcases h.state with hs | ⟨hs, _⟩ <;> simp only [Breaker.allow, hs]

theorem full_ratio : Lib.Float64.ofRat 1 = 1 := by decide +kernel

theorem Fragile.trips (h : Fragile b) (now : Int) :
    OpenSince ownSettings now ⟨now, b.report Lib.Float64.ofRat now false⟩ := by
  rcases h.state with hs | ⟨hs, hf, hsucc⟩
  · have hreport : b.report Lib.Float64.ofRat now false = b.changeState now .opened := by
      simp [Breaker.report, hs]
    refine ⟨?_, ?_, ?_⟩
    · rw [hreport, changeState_settings, h.settings]
    · rw [hreport, changeState_state]
    · rw [hreport]
      exact changeState_opened (by rw [hs]; decide)
  · have hcount : b.count false = { b with failures := 1 } := by
      simp [Breaker.count, hf]
    have htotal : (b.count false).total = 1 := by
      rw [hcount]
      simp [Breaker.total, hsucc]
    have hreached : (b.count false).ratioReached Lib.Float64.ofRat = true := by
      have hone : ((b.count false).failures : ℚ) / ((b.count false).total : ℚ) = 1 := by
        rw [htotal, hcount]
        simp
      have hratio : (b.count false).settings.failureRatio = some 1 := by
        rw [count_settings, h.settings]
        rfl
      simp only [Breaker.ratioReached, hratio, hone, full_ratio, Option.any_some, le_refl, decide_true]
    have hreport : b.report Lib.Float64.ofRat now false = (b.count false).changeState now .opened := by
      have hmin : ¬ (b.count false).total < (b.count false).settings.minRequests := by
        rw [htotal, count_settings, h.settings]
        decide
      simp only [Breaker.report, hs, Breaker.assess, if_neg hmin, hreached, if_true]
    refine ⟨?_, ?_, ?_⟩
    · rw [hreport, changeState_settings, count_settings, h.settings]
    · rw [hreport, changeState_state]
    · rw [hreport]
      exact changeState_opened (by rw [count_state, hs]; decide)

theorem fragile_allow (rnd : ℚ → ℚ) (hf : Fragile st.timed.breaker) (hq : Quiet idle) :
    (st.allow rnd idle).1 = true ∧ Fragile (st.allow rnd idle).2.timed.breaker := by
  simp only [DoState.allow, after_quiet hq, hf.allow]
  exact ⟨trivial, hf⟩

/-- After it has tripped, the breaker lets a request pass exactly if a second has passed. -/
theorem tripped_allow (rnd : ℚ → ℚ) (h : OpenSince ownSettings st.timed.now st.timed) (hq : Quiet idle) :
    ((st.allow rnd idle).1 = true ↔ second ≤ elapsed idle) ∧
      ((st.allow rnd idle).1 = true → Fragile (st.allow rnd idle).2.timed.breaker) := by
  have hcool : st.timed.breaker.cooledOff (st.timed.now + elapsed idle) = true ↔
      second ≤ elapsed idle := by
    simp only [Breaker.cooledOff, h.openedAt, Option.all_some, decide_eq_true_eq, h.settings,
      ownSettings_openFor]
    omega
  have hallow : st.allow rnd idle =
      (((st.timed.breaker.allow (st.timed.now + elapsed idle)).1),
        { st with
          timed := ⟨st.timed.now + elapsed idle, (st.timed.breaker.allow (st.timed.now + elapsed idle)).2⟩
          ops := st.ops ++ [.allow (st.timed.breaker.allow (st.timed.now + elapsed idle)).1] }) := by
    simp only [DoState.allow, after_quiet hq]
  rw [hallow]
  by_cases hc : st.timed.breaker.cooledOff (st.timed.now + elapsed idle) = true
  · have hprobe : st.timed.breaker.allow (st.timed.now + elapsed idle) =
        (true, st.timed.breaker.changeState (st.timed.now + elapsed idle) .halfOpen) := by
      simp only [Breaker.allow, h.state, if_pos hc]
    rw [hprobe]
    refine ⟨⟨fun _ => hcool.mp hc, fun _ => rfl⟩, fun _ => ⟨?_, .inl ?_⟩⟩
    · exact (changeState_settings (st.timed.now + elapsed idle)).trans h.settings
    · exact changeState_state (st.timed.now + elapsed idle)
  · have hwait : st.timed.breaker.allow (st.timed.now + elapsed idle) = (false, st.timed.breaker) := by
      simp only [Breaker.allow, h.state, if_neg hc]
    rw [hwait]
    exact ⟨⟨fun hf => absurd hf Bool.false_ne_true, fun hle => absurd (hcool.mpr hle) hc⟩,
      fun hf => absurd hf Bool.false_ne_true⟩

/-! ## The two loops -/

theorem attempted_trips
    (hf : Fragile (st.allow Lib.Float64.ofRat idle).2.timed.breaker) (hq : Quiet r.during) :
    OpenSince ownSettings (st.attempted Lib.Float64.ofRat orig r idle false).timed.now
      (st.attempted Lib.Float64.ofRat orig r idle false).timed := by
  simp only [DoState.attempted, DoState.report, DoState.send, after_quiet hq]
  exact hf.trips _

theorem retryLoop_returns {resp : HTTPResponse} (left k : Nat)
    (hj : judge readAll (rounds k).result = .ok resp) :
    retryLoop readAll cl rounds left k = ([(rounds k).result], some resp, none) := by
  cases left <;> simp only [retryLoop, hj]

variable {err : DoError} {k left : Nat}

theorem retryLoop_last (hj : judge readAll (rounds k).result = .error err) :
    retryLoop readAll cl rounds 0 k = ([(rounds k).result], cl.finish err) := by
  simp only [retryLoop, hj]

theorem retryLoop_interrupted {e : String}
    (hj : judge readAll (rounds k).result = .error err) (hi : (rounds k).interrupted = some e) :
    retryLoop readAll cl rounds (left + 1) k = ([(rounds k).result], none, some (.context e)) := by
  simp only [retryLoop, hj, hi]

theorem retryLoop_next
    (hj : judge readAll (rounds k).result = .error err) (hi : (rounds k).interrupted = none) :
    retryLoop readAll cl rounds (left + 1) k =
      ((rounds k).result :: (retryLoop readAll cl rounds left (k + 1)).1,
        (retryLoop readAll cl rounds left (k + 1)).2) := by
  simp only [retryLoop, hj, hi]

theorem retryLoop_ne_nil : (retryLoop readAll cl rounds left k).1 ≠ [] := by
  fun_cases retryLoop readAll cl rounds left k <;> exact List.cons_ne_nil _ _

/-- The call has made the attempts of the plain loop after those of `st`, and returned the same. -/
def PlainFrom (readAll : ReadAll) (cl : HTTPClient)
    (rounds : Nat → Round) (left k : Nat) (st : DoState) (out : DoState × DoReturn) : Prop :=
  sent out.1.ops = sent st.ops ++ (retryLoop readAll cl rounds left k).1 ∧
    out.2 = (retryLoop readAll cl rounds left k).2

/-- Nobody else calls the breaker. -/
def QuietRounds (rounds : Nat → Round) : Prop :=
  ∀ k, Quiet (rounds k).before ∧ Quiet (rounds k).during

theorem patient_of_ok {resp : HTTPResponse} (left : Nat)
    (hj : judge readAll (rounds k).result = .ok resp) : Patient readAll cl rounds left k := by
  cases left with
  | zero => trivial
  | succ left =>
    intro hfail
    rw [hj] at hfail
    cases hfail

theorem plainFrom_next {out : DoState × DoReturn}
    (hj : judge readAll (rounds k).result = .error err) (hi : (rounds k).interrupted = none) :
    PlainFrom readAll cl rounds (left + 1) k st out ↔
      PlainFrom readAll cl rounds left (k + 1) (st.attempted rnd orig (rounds k) idle false) out := by
  rw [PlainFrom, PlainFrom, retryLoop_next hj hi, sent_attempted, List.append_assoc,
    List.singleton_append]

theorem not_plainFrom_refused {ret : DoReturn} :
    ¬ PlainFrom readAll cl rounds left k st ((st.allow rnd idle).2, ret) := by
  intro h
  have hnone := h.1
  rw [sent_refused, List.self_eq_append_right] at hnone
  exact retryLoop_ne_nil hnone

/-- The loop from an attempt on that is admitted: it is the plain one, or ends with a refusal. -/
theorem Course.plain {out : DoState × DoReturn}
    (h : Course Lib.Float64.ofRat readAll cl orig rounds left k idle st out)
    (hq : QuietRounds rounds) (ha : (st.allow Lib.Float64.ofRat idle).1 = true)
    (hf : Fragile (st.allow Lib.Float64.ofRat idle).2.timed.breaker) :
    (Patient readAll cl rounds left k ∧ PlainFrom readAll cl rounds left k st out) ∨
      (¬ Patient readAll cl rounds left k ∧ out.2 = cl.finish .openCircuit ∧
        ¬ PlainFrom readAll cl rounds left k st out) := by
  induction h with
  | refused hrefused => exact absurd (hrefused.symm.trans ha) Bool.false_ne_true
  | @returns left k idle st resp _ hj =>
    refine .inl ⟨patient_of_ok left hj, ?_⟩
    rw [PlainFrom, retryLoop_returns left k hj]
    exact ⟨sent_attempted true, rfl⟩
  | @last k idle st err _ hj =>
    refine .inl ⟨trivial, ?_⟩
    rw [PlainFrom, retryLoop_last hj]
    exact ⟨sent_attempted false, rfl⟩
  | @interrupted left k idle st err e _ hj hi =>
    refine .inl ⟨fun _ hnone => absurd (hi.symm.trans hnone) (by simp), ?_⟩
    rw [PlainFrom, retryLoop_interrupted hj hi]
    exact ⟨sent_attempted false, rfl⟩
  | @next left k idle st err out _ hj hi hrest ih =>
    have hfail : (judge readAll (rounds k).result).isOk = false := by rw [hj]; rfl
    have hpatient : Patient readAll cl rounds (left + 1) k ↔
        second ≤ cl.pauseLength rounds k ∧ Patient readAll cl rounds left (k + 1) :=
      ⟨fun h => h hfail hi, fun h _ _ => h⟩
    rw [hpatient, plainFrom_next hj hi]
    -- the next attempt is admitted exactly if the pause was long enough
    obtain ⟨hadmits, hfragile⟩ := tripped_allow Lib.Float64.ofRat
      (attempted_trips hf (hq k).2)
      (quiet_waited (cl.pause k (rounds k).delta) (hq (k + 1)).1)
    by_cases hlong : second ≤ cl.pauseLength rounds k
    · have hnext := hadmits.mpr hlong
      rcases ih hnext (hfragile hnext) with hyes | hno
      · exact .inl ⟨⟨hlong, hyes.1⟩, hyes.2⟩
      · exact .inr ⟨fun h => hno.1 h.2, hno.2⟩
    · have hnext := Bool.eq_false_iff.mpr (mt hadmits.mp hlong)
      rw [hrest.eq_of_refused hnext]
      exact .inr ⟨fun h => hlong h.1, rfl, not_plainFrom_refused⟩

theorem quiet_alone (rounds : Nat → Round) : QuietRounds fun k => (rounds k).alone :=
  fun _ => ⟨quiet_filter _, quiet_filter _⟩

theorem retryLoop_alone (left k : Nat) :
    retryLoop readAll cl (fun j => (rounds j).alone) left k = retryLoop readAll cl rounds left k := by
  induction left generalizing k with
  | zero => rfl
  | succ left ih =>
    simp only [retryLoop, ih (k + 1)]
    rfl

theorem patient_alone (left k : Nat) :
    Patient readAll cl (fun j => (rounds j).alone) left k ↔ Patient readAll cl rounds left k := by
  induction left generalizing k with
  | zero => rfl
  | succ left ih =>
    have hlength : cl.pauseLength (fun j => (rounds j).alone) k = cl.pauseLength rounds k :=
      elapsed_waited _ _
    simp only [Patient, hlength, ih]
    rfl

theorem judge_ne_openCircuit {result : RoundTrip}
    (hj : judge readAll result = .error err) : err ≠ .openCircuit := by
  intro he
  subst he
  unfold judge at hj
  split at hj
  · cases hj
  · split at hj <;> cases hj

theorem retryLoop_ne_openCircuit (hf : cl.fallback = none) (left k : Nat) :
    (retryLoop readAll cl rounds left k).2.2 ≠ some .openCircuit := by
  fun_induction retryLoop readAll cl rounds left k with
  | case1 k resp hj | case3 left k resp hj | case4 left k err hj e hi => simp
  | case2 k err hj =>
    rw [cl.finish_eq hf]
    simpa using judge_ne_openCircuit hj
  | case5 left k err hj hi rest ih => exact ih

/-- A client without a breaker, for every request that can be sent: `Do` makes the attempts
of the plain retry loop and returns what that returns exactly if every pause that another
attempt follows lasts a second at least, and without a fallback it returns `ErrOpenCircuit`
exactly if some such pause does not. -/
theorem no_breaker_plain_iff (readAll : ReadAll) (cl : HTTPClient)
    (hb : cl.breaker = false) (hc : cl.configured = true) (shared : Timed) (req req' : HTTPRequest)
    (orig : Option (List UInt8)) (hreq : ensureReplayableBody req = .ok (orig, req'))
    (rounds : Nat → Round) :
    ((sent (cl.doRequest Lib.Float64.ofRat readAll shared req rounds).1.ops,
        (cl.doRequest Lib.Float64.ofRat readAll shared req rounds).2) =
          cl.plainDo readAll req rounds ↔
      Patient readAll cl rounds (cl.attempts - 1) 1) ∧
    (cl.fallback = none →
      ((cl.doRequest Lib.Float64.ofRat readAll shared req rounds).2.2 ≠ some .openCircuit ↔
        Patient readAll cl rounds (cl.attempts - 1) 1)) := by
  have hplain : cl.plainDo readAll req rounds = retryLoop readAll cl rounds (cl.attempts - 1) 1 := by
    simp only [HTTPClient.plainDo, hc, hreq, Bool.true_eq_false, if_false]
  have hdo : cl.doRequest Lib.Float64.ofRat readAll shared req rounds =
      attemptLoop Lib.Float64.ofRat readAll cl orig (fun k => (rounds k).alone) (cl.attempts - 1) 1
        (rounds 1).alone.before ⟨⟨shared.now, newBreaker 1 (some 1) second⟩, req', []⟩ := by
    simp only [HTTPClient.doRequest, hc, hb, hreq, Bool.true_eq_false, Bool.false_eq_true, if_false]
  have hfirst : Fragile (⟨⟨shared.now, newBreaker 1 (some 1) second⟩, req', []⟩ : DoState).timed.breaker :=
    fragile_newBreaker
  obtain ⟨hadmits, hfragile⟩ := fragile_allow Lib.Float64.ofRat hfirst (quiet_alone rounds 1).1
  have hloop := (attemptLoop_course _ readAll cl orig _ (cl.attempts - 1) 1 _ _).plain
    (quiet_alone rounds) hadmits hfragile
  rw [patient_alone, PlainFrom, retryLoop_alone, ← hdo] at hloop
  rw [hplain, Prod.ext_iff]
  rcases hloop with ⟨hp, hsame⟩ | ⟨hp, hopen, hdiffers⟩
  · refine ⟨⟨fun _ => hp, fun _ => hsame⟩, fun hf => ⟨fun _ => hp, fun _ => ?_⟩⟩
    rw [hsame.2]
    exact retryLoop_ne_openCircuit hf _ _
  · refine ⟨⟨fun h => absurd h hdiffers, fun h => absurd h hp⟩, fun hf => ⟨fun h => ?_, fun h => absurd h hp⟩⟩
    rw [hopen, HTTPClient.finish, hf] at h
    exact absurd rfl h

def slowClient : HTTPClient := ⟨true, false, second, 3, false, none⟩

theorem slow_client_recovers :
    (sent (slowClient.doRequest Lib.Float64.ofRat readUnder ⟨0, newBreaker 5 none 0⟩
        ⟨.missing, none⟩ recovering).1.ops,
      (slowClient.doRequest Lib.Float64.ofRat readUnder ⟨0, newBreaker 5 none 0⟩
        ⟨.missing, none⟩ recovering).2) =
      slowClient.plainDo readUnder ⟨.missing, none⟩ recovering := by
  refine (no_breaker_plain_iff readUnder slowClient rfl rfl ⟨0, newBreaker 5 none 0⟩ ⟨.missing, none⟩
    ⟨.missing, none⟩ none rfl recovering).1.mpr fun _ _ => ⟨by decide, fun hfail => ?_⟩
  cases hfail

/-- With the default base the second attempt is not made: the pause lasts 100 ms. -/
def fastClient : HTTPClient := ⟨true, false, 0, 3, false, none⟩

theorem fast_client_short_circuits :
    (fastClient.doRequest Lib.Float64.ofRat readUnder ⟨0, newBreaker 5 none 0⟩
        ⟨.missing, none⟩ recovering).2.2 = some .openCircuit ∧
      sent (fastClient.doRequest Lib.Float64.ofRat readUnder ⟨0, newBreaker 5 none 0⟩
        ⟨.missing, none⟩ recovering).1.ops =
          [.answered ⟨503, "503 Service Unavailable", .noBody⟩] ∧
      (fastClient.plainDo readUnder ⟨.missing, none⟩ recovering).2 =
        (some ⟨204, "204 No Content", .ok ""⟩, none) :=
  ⟨by decide +kernel, by decide +kernel, rfl⟩

end TokoApi.Resilience
