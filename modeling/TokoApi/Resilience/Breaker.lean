import TokoApi.Lib.Runs
import TokoApi.Resilience.Client
import Mathlib.Data.Rat.Defs
import Mathlib.Algebra.Order.Ring.Unbundled.Rat

/-!
# The circuit breaker

`resilience.Breaker` (circuit.go). Every method holds the mutex, so a call is one
step. Counters are exact integers. The quotient of `Report` is a float64, whose
rounding is an argument; a threshold that is NaN is `none`. Telemetry is left out.

The breaker opens with a time stamp and changes nothing while it is open but for the
`Allow` that finds the cool-off over, so it refuses from then on for that long.
-/
namespace TokoApi.Resilience

open Lib.Runs Lib.Durations

inductive State where
  | closed | opened | halfOpen
  deriving DecidableEq

structure Settings where
  minRequests : Nat
  failureRatio : Option ℚ
  openFor : Int
  minRequests_pos : 0 < minRequests
  failureRatio_pos : ∀ q ∈ failureRatio, 0 < q
  failureRatio_le_one : ∀ q ∈ failureRatio, q ≤ 1
  openFor_pos : 0 < openFor

structure Breaker where
  settings : Settings
  state : State
  failures : Nat
  successes : Nat
  openedAt : Option Int

def clampRatio (q : ℚ) : ℚ := if q ≤ 0 then 1 / 2 else if 1 < q then 1 else q

theorem clampRatio_pos (q : ℚ) : 0 < clampRatio q := by
  unfold clampRatio
  split
  · decide +kernel
  · split
    · decide
    · rename_i h _
      exact not_le.mp h

theorem clampRatio_le_one (q : ℚ) : clampRatio q ≤ 1 := by
  unfold clampRatio
  split
  · decide +kernel
  · split
    · exact le_refl 1
    · rename_i h
      exact not_lt.mp h

def newBreaker (minRequests : Int) (failureRatio : Option ℚ) (openFor : Int) : Breaker where
  settings :=
    { minRequests := if minRequests ≤ 0 then 1 else minRequests.toNat
      failureRatio := failureRatio.map clampRatio
      openFor := if openFor ≤ 0 then 30 * second else openFor
      minRequests_pos := by split <;> omega
      failureRatio_pos := by
        intro q hq
        obtain ⟨p, _, rfl⟩ := Option.map_eq_some_iff.mp hq
        exact clampRatio_pos p
      failureRatio_le_one := by
        intro q hq
        obtain ⟨p, _, rfl⟩ := Option.map_eq_some_iff.mp hq
        exact clampRatio_le_one p
      openFor_pos := by
        unfold second millisecond
        split <;> omega }
  state := .closed
  failures := 0
  successes := 0
  openedAt := none

def Breaker.changeState (b : Breaker) (now : Int) (next : State) : Breaker :=
  if b.state = next then b
  else { b with
    state := next
    openedAt := match next with
      | .opened => some now
      | .closed => none
      | .halfOpen => b.openedAt
    failures := 0
    successes := 0 }

/-- The cool-off is over. The zero time is long past. -/
def Breaker.cooledOff (b : Breaker) (now : Int) : Bool :=
  b.openedAt.all fun t => b.settings.openFor ≤ now - t

def Breaker.allow (b : Breaker) (now : Int) : Bool × Breaker :=
  match b.state with
  | .opened => if b.cooledOff now then (true, b.changeState now .halfOpen) else (false, b)
  | _ => (true, b)

/-- One more report of a closed breaker, before the thresholds are looked at. -/
def Breaker.count (b : Breaker) (success : Bool) : Breaker :=
  if success then { b with successes := b.successes + 1 } else { b with failures := b.failures + 1 }

def Breaker.total (b : Breaker) : Nat := b.failures + b.successes

def Breaker.ratioReached (rnd : ℚ → ℚ) (b : Breaker) : Bool :=
  b.settings.failureRatio.any fun q => q ≤ rnd (b.failures / b.total)

/-- `int(math.Ceil(float64(n) * 0.5))`. -/
def halfUp (n : Nat) : Nat := (n + 1) / 2

def Breaker.halve (b : Breaker) : Breaker :=
  { b with successes := halfUp b.successes, failures := halfUp b.failures }

/-- What `Report` does with the counters of a closed breaker. -/
def Breaker.assess (rnd : ℚ → ℚ) (b : Breaker) (now : Int) : Breaker :=
  if b.total < b.settings.minRequests then b
  else if b.ratioReached rnd then b.changeState now .opened
  else if b.settings.minRequests * 2 < b.total then b.halve
  else b

def Breaker.report (rnd : ℚ → ℚ) (b : Breaker) (now : Int) (success : Bool) : Breaker :=
  match b.state with
  | .opened => b
  | .halfOpen => b.changeState now (if success then .closed else .opened)
  | .closed => (b.count success).assess rnd now

/-! ## Calls under a clock -/

structure Timed where
  now : Int
  breaker : Breaker

/-- A call, by whichever client, or time that passes. -/
inductive Event where
  | allow
  | report (success : Bool)
  | tick (d : Nat)

def Timed.step (rnd : ℚ → ℚ) (c : Timed) : Event → Option Timed
  | .allow => some { c with breaker := (c.breaker.allow c.now).2 }
  | .report success => some { c with breaker := c.breaker.report rnd c.now success }
  | .tick d => some { c with now := c.now + d }

/-- The states that a change goes through. -/
inductive Edge : State → State → Prop where
  | trips : Edge .closed .opened
  | probes : Edge .opened .halfOpen
  | recovers : Edge .halfOpen .closed
  | relapses : Edge .halfOpen .opened

variable {rnd : ℚ → ℚ} {b : Breaker} {now : Int} {next : State} {c d x y : Timed} {e : Event}

@[simp] theorem count_state (success : Bool) : (b.count success).state = b.state := by
  cases success <;> rfl

@[simp] theorem count_settings (success : Bool) : (b.count success).settings = b.settings := by
  cases success <;> rfl

@[simp] theorem changeState_settings (now : Int) : (b.changeState now next).settings = b.settings := by
  unfold Breaker.changeState
  split <;> rfl

@[simp] theorem changeState_state (now : Int) : (b.changeState now next).state = next := by
  unfold Breaker.changeState
  split
  · assumption
  · rfl

theorem changeState_opened (h : b.state ≠ .opened) :
    (b.changeState now .opened).openedAt = some now := by
  rw [Breaker.changeState, if_neg h]

theorem assess_cases (rnd : ℚ → ℚ) (now : Int) (h : b.state = .closed) :
    (b.assess rnd now).settings = b.settings ∧ ((b.assess rnd now).state = .closed ∨
      (b.assess rnd now).state = .opened ∧ (b.assess rnd now).openedAt = some now) := by
  unfold Breaker.assess
  split
  · exact ⟨rfl, .inl h⟩
  · split
    · refine ⟨changeState_settings _, .inr ⟨changeState_state _, changeState_opened ?_⟩⟩
      rw [h]
      decide
    · split
      · exact ⟨rfl, .inl h⟩
      · exact ⟨rfl, .inl h⟩

/-- What one step can do: keep the state, or move along an edge, and only an `Allow`
whose cool-off is over leaves the open state. -/
inductive Effect (c : Timed) (e : Event) (d : Timed) : Prop where
  | stays (hs : d.breaker.state = c.breaker.state)
      (ho : c.breaker.state = .opened → d.breaker = c.breaker)
  | opens (hs : c.breaker.state ≠ .opened) (hd : d.breaker.state = .opened)
      (ht : d.breaker.openedAt = some d.now)
  | probes (he : e = .allow) (hs : c.breaker.state = .opened)
      (hc : c.breaker.cooledOff c.now = true) (hd : d.breaker.state = .halfOpen)
  | closes (hs : c.breaker.state = .halfOpen) (hd : d.breaker.state = .closed)

theorem step_effect (h : c.step rnd e = some d) :
    d.breaker.settings = c.breaker.settings ∧ c.now ≤ d.now ∧ Effect c e d := by
  cases e with
  | tick n =>
    cases h
    exact ⟨rfl, by simp, .stays rfl fun _ => rfl⟩
  | allow =>
    cases h
    unfold Breaker.allow
    split
    · rename_i hs
      split
      · rename_i hc
        exact ⟨changeState_settings c.now, le_refl _, .probes rfl hs hc (changeState_state c.now)⟩
      · exact ⟨rfl, le_refl _, .stays rfl fun _ => rfl⟩
    · exact ⟨rfl, le_refl _, .stays rfl fun _ => rfl⟩
  | report success =>
    cases h
    unfold Breaker.report
    split
    · exact ⟨rfl, le_refl _, .stays rfl fun _ => rfl⟩
    · rename_i hs
      refine ⟨changeState_settings _, le_refl _, ?_⟩
      cases success
      · refine .opens (by rw [hs]; decide) (changeState_state _) (changeState_opened ?_)
        rw [hs]
        decide
      · exact .closes hs (changeState_state c.now)
    · rename_i hs
      obtain ⟨hset, hclosed | ⟨hopen, hat⟩⟩ :=
        assess_cases rnd c.now ((count_state success).trans hs)
      · refine ⟨hset.trans (count_settings success), le_refl _, .stays (hclosed.trans hs.symm) ?_⟩
        rw [hs]
        exact nofun
      · exact ⟨hset.trans (count_settings success), le_refl _, .opens (by rw [hs]; decide) hopen hat⟩

theorem Effect.edge (h : Effect c e d) (hsame : d.breaker.state ≠ c.breaker.state) :
    Edge c.breaker.state d.breaker.state := by
  cases h with
  | stays hs _ => exact absurd hs hsame
  | opens hs hd _ =>
    rw [hd]
    cases hc : c.breaker.state with
    | closed => exact .trips
    | opened => exact absurd hc hs
    | halfOpen => exact .relapses
  | probes _ hs _ hd =>
    rw [hs, hd]
    exact .probes
  | closes hs hd =>
    rw [hs, hd]
    exact .recovers

/-! ## One period in which the breaker is open -/

/-- The breaker has been opened at time `t` and not left that state since. -/
structure OpenSince (set : Settings) (t : Int) (c : Timed) : Prop where
  settings : c.breaker.settings = set
  state : c.breaker.state = .opened
  openedAt : c.breaker.openedAt = some t

variable {set : Settings} {t : Int} {es : List Event}

theorem OpenSince.refuses (h : OpenSince set t x)
    (hx : x.now < t + set.openFor) : x.breaker.allow x.now = (false, x.breaker) := by
  have hcool : x.breaker.cooledOff x.now = false := by
    simp only [Breaker.cooledOff, h.openedAt, h.settings, Option.all_some, decide_eq_false_iff_not]
    omega
  simp [Breaker.allow, h.state, hcool]

theorem OpenSince.step (h : OpenSince set t x) (hs : x.step rnd e = some y) :
    OpenSince set t y ∨ (e = .allow ∧ t + set.openFor ≤ x.now ∧ y.breaker.state = .halfOpen) := by
  obtain ⟨hset, _, heff⟩ := step_effect hs
  cases heff with
  | stays _ ho =>
    have hsame := ho h.state
    exact .inl ⟨by rw [hsame, h.settings], by rw [hsame, h.state], by rw [hsame, h.openedAt]⟩
  | opens hne _ _ => exact absurd h.state hne
  | probes he _ hc hd =>
    right
    simp only [Breaker.cooledOff, h.openedAt, h.settings, Option.all_some, decide_eq_true_eq] at hc
    exact ⟨he, by omega, hd⟩
  | closes hhalf _ =>
    rw [h.state] at hhalf
    cases hhalf

theorem run_settings (h : run (Timed.step rnd) c es = some d) :
    d.breaker.settings = c.breaker.settings ∧ c.now ≤ d.now := by
  refine run_inv (I := fun x : Timed => x.breaker.settings = c.breaker.settings ∧ c.now ≤ x.now)
    (fun x e y hx _ hs => ?_) ⟨rfl, le_refl _⟩ (meets_true c es) h
  obtain ⟨hset, hnow, _⟩ := step_effect hs
  exact ⟨hset.trans hx.1, hx.2.trans hnow⟩

theorem OpenSince.lasts (h : OpenSince set t d)
    (hr : run (Timed.step rnd) d es = some x) (hx : x.now < t + set.openFor) :
    OpenSince set t x := by
  induction es generalizing d with
  | nil =>
    obtain rfl := Option.some.inj hr
    exact h
  | cons e es ih =>
    obtain ⟨y, hs, hrest⟩ := run_cons hr
    rcases h.step hs with hy | ⟨_, hcool, _⟩
    · exact ih hy hrest
    · -- the clock does not go back
      have := (step_effect hs).2.1
      have := (run_settings hrest).2
      omega

theorem OpenSince.stays (h : OpenSince set t d) (hr : run (Timed.step rnd) d es = some x)
    (hopen : ∀ n y, run (Timed.step rnd) d (es.take n) = some y → y.breaker.state = .opened) :
    OpenSince set t x := by
  induction es generalizing d with
  | nil =>
    obtain rfl := Option.some.inj hr
    exact h
  | cons e es ih =>
    obtain ⟨y, hs, hrest⟩ := run_cons hr
    have htake : ∀ n, run (Timed.step rnd) d ((e :: es).take (n + 1)) =
        run (Timed.step rnd) y (es.take n) := by
      intro n
      simp only [List.take_succ_cons, run, hs]
    rcases h.step hs with hy | ⟨_, _, hhalf⟩
    · exact ih hy hrest fun n z hz => hopen (n + 1) z (by rw [htake, hz])
    · have := hopen 1 y (by rw [htake, List.take_zero, run_nil])
      rw [hhalf] at this
      cases this

/-- From any breaker that `NewBreaker` builds, along every interleaving of calls under a
clock that does not go back: the state changes along the edges only, and no report
changes an open breaker; once it has opened at `d.now` it refuses until `openFor` has
passed, and it stays open until an `Allow` after that makes it half-open. -/
theorem open_for_the_cool_off (rnd : ℚ → ℚ) (minRequests : Int) (failureRatio : Option ℚ)
    (openFor start : Int) (before : List Event) (c : Timed)
    (hr : run (Timed.step rnd) ⟨start, newBreaker minRequests failureRatio openFor⟩ before = some c) :
    (∀ e d, c.step rnd e = some d → d.breaker.state ≠ c.breaker.state →
      Edge c.breaker.state d.breaker.state) ∧
    (c.breaker.state = .opened → ∀ success, c.breaker.report rnd c.now success = c.breaker) ∧
    ∀ e d, c.step rnd e = some d → c.breaker.state ≠ .opened → d.breaker.state = .opened →
      ∀ after x, run (Timed.step rnd) d after = some x →
        (x.now < d.now + (newBreaker minRequests failureRatio openFor).settings.openFor →
          x.breaker.allow x.now = (false, x.breaker)) ∧
        ((∀ n y, run (Timed.step rnd) d (after.take n) = some y → y.breaker.state = .opened) →
          ∀ e' y, x.step rnd e' = some y → y.breaker.state ≠ .opened →
            e' = .allow ∧
              d.now + (newBreaker minRequests failureRatio openFor).settings.openFor ≤ x.now ∧
              y.breaker.state = .halfOpen) := by
  refine ⟨fun e d hs => (step_effect hs).2.2.edge, fun ho success => ?_,
    fun e d hs hne ho after x hx => ?_⟩
  · simp [Breaker.report, ho]
  obtain ⟨hset, _, heff⟩ := step_effect hs
  have hsince : OpenSince (newBreaker minRequests failureRatio openFor).settings d.now d := by
    refine ⟨hset.trans (run_settings hr).1, ho, ?_⟩
    cases heff with
    | opens _ _ ht => exact ht
    | stays hsame _ => exact absurd (hsame.symm.trans ho) hne
    | probes _ hopen _ _ => exact absurd hopen hne
    | closes _ hd =>
      rw [ho] at hd
      cases hd
  refine ⟨fun hlt => (hsince.lasts hx hlt).refuses hlt, fun hall e' y hy hleft => ?_⟩
  rcases (hsince.stays hx hall).step hy with hstill | hexit
  · exact absurd hstill.state hleft
  · exact hexit

/-- Two failures trip the breaker, which refuses 49 later and is half-open 50 later. -/
theorem tripped_for_fifty :
    ∃ c d x, run (Timed.step Lib.Float64.ofRat) ⟨0, newBreaker 2 (some (1 / 2)) 50⟩
          [.allow, .report false] = some c ∧
        c.step Lib.Float64.ofRat (.report false) = some d ∧
        run (Timed.step Lib.Float64.ofRat) d [.tick 49] = some x ∧
        x.breaker.allow x.now = (false, x.breaker) ∧
        (x.breaker.allow (x.now + 1)).2.state = .halfOpen := by
  refine ⟨_, _, _, rfl, rfl, rfl, ?_, by decide +kernel⟩
  exact (((open_for_the_cool_off Lib.Float64.ofRat 2 (some (1 / 2)) 50 0 [.allow, .report false] _
    rfl).2.2 (.report false) _ rfl (by decide +kernel) (by decide +kernel)) [.tick 49] _ rfl).1
    (by decide +kernel)

end TokoApi.Resilience
