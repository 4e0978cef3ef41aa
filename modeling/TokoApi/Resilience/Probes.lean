import Mathlib.Algebra.Order.BigOperators.Group.List
import TokoApi.Lib.Threads
import TokoApi.Resilience.Breaker

/-!
# The probes of a half-open breaker

Any number of clients call `Allow` and, if admitted, later `Report` once, as each
attempt of `HTTPClient.Do` does. A half-open breaker admits every client, and a report
does not say when its request was admitted. So there is one request under way in the
half-open state, and it is a probe, exactly when every client that is admitted there or
makes the breaker half-open finds no other request under way.
-/
namespace TokoApi.Resilience

open Lib.Runs Lib.Threads

/-- `period` is a history variable: how often the breaker has become half-open. -/
structure Shared where
  now : Int
  breaker : Breaker
  period : Nat

/-- An admitted client keeps the period in which it was admitted. -/
inductive Client where
  | calling
  | refused
  | admitted (period : Nat)
  | reported
  deriving DecidableEq

inductive ClientCall where
  | allow
  | report (success : Bool)

def clientStep (rnd : ℚ → ℚ) (s : Shared) : Client → ClientCall → Option (Shared × Client)
  | .calling, .allow =>
    match s.breaker.allow s.now with
    | (false, b) => some ({ s with breaker := b }, .refused)
    | (true, b) =>
      let period := if s.breaker.state = .opened then s.period + 1 else s.period
      some ({ s with breaker := b, period := period }, .admitted period)
  | .admitted _, .report success =>
    some ({ s with breaker := s.breaker.report rnd s.now success }, .reported)
  | _, _ => none

def clientMachine (rnd : ℚ → ℚ) : Machine Shared Client Unit ClientCall Nat where
  start _ := .calling
  lstep _ := clientStep rnd
  estep s d := some { s with now := s.now + d }

abbrev Clients := Sys Shared Client

abbrev ClientLabel := Act Unit ClientCall Nat

def Client.pending : Client → Nat
  | .admitted _ => 1
  | _ => 0

def unreported (c : Clients) : Nat := (c.threads.map Client.pending).sum

def OneProbe (c : Clients) : Prop := c.shared.breaker.state = .halfOpen → unreported c ≤ 1

/-- If the step closes a half-open breaker, it is the success report of a request that
was admitted in this half-open period. -/
def ClosedByProbe (rnd : ℚ → ℚ) (c : Clients) (a : ClientLabel) : Prop :=
  ∀ d, (clientMachine rnd).step c a = some d → c.shared.breaker.state = .halfOpen →
    d.shared.breaker.state = .closed →
    ∃ i, a = .act i (.report true) ∧ c.threads[i]? = some (.admitted c.shared.period)

/-- `Allow` now admits a request into the half-open state. -/
abbrev Probing (s : Shared) : Prop :=
  s.breaker.state = .halfOpen ∨ (s.breaker.state = .opened ∧ s.breaker.cooledOff s.now = true)

/-- A client that is admitted into the half-open state finds no request under way. -/
def ProbesAlone (c : Clients) : ClientLabel → Prop
  | .act i .allow =>
    c.threads[i]? = some .calling → Probing c.shared → unreported c = 0
  | _ => True

instance (c : Clients) (a) : Decidable (ProbesAlone c a) := by
  rcases a with _ | ⟨_, _ | _⟩ | _ <;> dsimp only [ProbesAlone] <;> infer_instance

/-! ## What one call can do -/

inductive ClientEffect (s : Shared) (t : Client) (x : ClientCall) : Shared → Client → Prop where
  | refused (ht : t = .calling) (hx : x = .allow) (hs : ¬Probing s) : ClientEffect s t x s .refused
  | admitted (ht : t = .calling) (hx : x = .allow) (hs : s.breaker.state ≠ .opened) :
      ClientEffect s t x s (.admitted s.period)
  | probes {b : Breaker} (ht : t = .calling) (hx : x = .allow) (hs : s.breaker.state = .opened)
      (hc : s.breaker.cooledOff s.now = true) (hb : b.state = .halfOpen) :
      ClientEffect s t x { s with breaker := b, period := s.period + 1 } (.admitted (s.period + 1))
  | reported {p success} {b : Breaker} (ht : t = .admitted p) (hx : x = .report success)
      (hb : b.state ≠ .halfOpen)
      (hc : s.breaker.state = .halfOpen → b.state = .closed → success = true) :
      ClientEffect s t x { s with breaker := b } .reported

variable {rnd : ℚ → ℚ} {s s' : Shared} {t t' : Client} {x : ClientCall} {c d : Clients}
  {a : ClientLabel} {i : Nat}

theorem report_ne_halfOpen (b : Breaker) (now : Int) (success : Bool) :
    (b.report rnd now success).state ≠ .halfOpen := by
  unfold Breaker.report
  split
  · rename_i h
    rw [h]
    decide
  · rw [changeState_state]
    cases success <;> decide
  · rename_i h
    obtain ⟨_, hs | ⟨hs, _⟩⟩ :=
      assess_cases rnd now ((count_state success).trans h) <;>
      rw [hs] <;> decide

theorem report_closes {b : Breaker} {now : Int} {success : Bool} (h : b.state = .halfOpen)
    (hc : (b.report rnd now success).state = .closed) : success = true := by
  rw [Breaker.report, h] at hc
  simp only [changeState_state] at hc
  cases success
  · cases hc
  · rfl

theorem client_effect (h : clientStep rnd s t x = some (s', t')) : ClientEffect s t x s' t' := by
  unfold clientStep at h
  split at h
  · -- Allow
    cases hstate : s.breaker.state with
    | opened =>
      by_cases hcool : s.breaker.cooledOff s.now = true
      · have hallow : s.breaker.allow s.now = (true, s.breaker.changeState s.now .halfOpen) := by
          simp [Breaker.allow, hstate, hcool]
        simp only [hallow, hstate, if_pos] at h
        cases h
        exact .probes rfl rfl hstate hcool (changeState_state _)
      · have hallow : s.breaker.allow s.now = (false, s.breaker) := by
          simp [Breaker.allow, hstate, hcool]
        rw [hallow] at h
        cases h
        refine .refused rfl rfl ?_
        rintro (hhalf | ⟨_, hc⟩)
        · rw [hstate] at hhalf
          cases hhalf
        · exact hcool hc
    | closed | halfOpen =>
      have hallow : s.breaker.allow s.now = (true, s.breaker) := by
        simp [Breaker.allow, hstate]
      simp only [hallow, hstate, reduceCtorEq, if_false] at h
      cases h
      exact .admitted rfl rfl (by rw [hstate]; decide)
  · -- Report
    cases h
    exact .reported rfl rfl (report_ne_halfOpen _ _ _) report_closes
  · cases h

theorem unreported_set {threads : List Client} (ht : threads[i]? = some t) (t' : Client) :
    ((threads.set i t').map Client.pending).sum + t.pending =
      (threads.map Client.pending).sum + t'.pending :=
  sum_map_set ht

theorem oneProbe_step_iff (hone : OneProbe c) (h : (clientMachine rnd).step c a = some d) :
    OneProbe d ↔ ProbesAlone c a := by
  cases Machine.step_effect h with
  | spawn r =>
    refine iff_of_true (fun hs => ?_) trivial
    have hpend : ((c.threads ++ [Client.calling]).map Client.pending).sum = unreported c := by
      simp [unreported, Client.pending]
    exact hpend.trans_le (hone hs)
  | env hs =>
    cases hs
    exact iff_of_true hone trivial
  | @act i x t _ t' ht hl =>
    have hcount := unreported_set ht t'
    have hcond : x = .allow → t = .calling →
        (ProbesAlone c (.act i x) ↔ (Probing c.shared → unreported c = 0)) := by
      rintro rfl rfl
      simp [ProbesAlone, ht]
    cases client_effect hl with
    | refused htc hx hs =>
      subst htc
      rw [hcond hx rfl]
      refine iff_of_true (fun hhalf => ?_) fun hp => absurd hp hs
      exact absurd (.inl hhalf) hs
    | admitted htc hx hs =>
      subst htc
      rw [hcond hx rfl]
      have hprobing : Probing c.shared ↔ c.shared.breaker.state = .halfOpen :=
        ⟨fun hp => hp.resolve_right fun ho => hs ho.1, .inl⟩
      rw [hprobing]
      refine imp_congr_right fun _ => ?_
      simp only [unreported, Client.pending] at hcount ⊢
      omega
    | probes htc hx hs hcool hb =>
      subst htc
      rw [hcond hx rfl]
      have hprobing : Probing c.shared := .inr ⟨hs, hcool⟩
      simp only [unreported, Client.pending] at hcount ⊢
      constructor
      · intro hd _
        have hle := hd hb
        simp only [unreported] at hle
        omega
      · intro hz _
        have hnone := hz hprobing
        simp only [unreported]
        omega
    | reported _ hx hb _ =>
      subst hx
      exact iff_of_true (fun hhalf => absurd hhalf hb) trivial

/-! ## Whose report closes the breaker -/

/-- In the half-open state every request under way was admitted in this period. -/
def AllCurrent (c : Clients) : Prop :=
  c.shared.breaker.state = .halfOpen → ∀ p, .admitted p ∈ c.threads → p = c.shared.period

theorem AllCurrent.closedByProbe (h : AllCurrent c) : ClosedByProbe rnd c a := by
  intro d hs hhalf hclosed
  cases Machine.step_effect hs with
  | spawn r =>
    rw [hhalf] at hclosed
    cases hclosed
  | env he =>
    cases he
    rw [hhalf] at hclosed
    cases hclosed
  | @act i _ _ _ _ ht hl =>
    cases client_effect hl with
    | refused _ _ _ | admitted _ _ _ =>
      rw [hhalf] at hclosed
      cases hclosed
    | probes _ _ hopen _ _ =>
      rw [hhalf] at hopen
      cases hopen
    | reported htp hx _ hc =>
      subst htp
      obtain rfl := hc hhalf hclosed
      refine ⟨i, by rw [hx], ?_⟩
      rw [ht, h hhalf _ (List.mem_of_getElem? ht)]

theorem only_admitted {q : Nat} (hnone : unreported c = 0) {p : Nat}
    (hp : .admitted p ∈ c.threads.set i (.admitted q)) : p = q := by
  rcases List.mem_or_eq_of_mem_set hp with hold | heq
  · have hzero := List.sum_eq_zero_iff.mp hnone _ (List.mem_map_of_mem hold)
    cases hzero
  · exact Client.admitted.inj heq

theorem allCurrent_step (hall : AllCurrent c) (hcond : ProbesAlone c a)
    (h : (clientMachine rnd).step c a = some d) : AllCurrent d := by
  cases Machine.step_effect h with
  | spawn r =>
    intro hhalf p hp
    rcases List.mem_append.mp hp with hp | hp
    · exact hall hhalf p hp
    · cases List.mem_singleton.mp hp
  | env he =>
    cases he
    exact hall
  | act ht hl =>
    cases client_effect hl with
    | refused _ _ hs => exact fun hhalf => absurd (.inl hhalf) hs
    | admitted htc hx _ =>
      subst htc hx
      exact fun hhalf p hp => only_admitted (hcond ht (.inl hhalf)) hp
    | probes htc hx hs hcool _ =>
      subst htc hx
      exact fun _ p hp => only_admitted (hcond ht (.inr ⟨hs, hcool⟩)) hp
    | reported _ _ hb _ => exact fun hhalf => absurd hhalf hb

/-- Along every run of clients against a new breaker, at most one request is under way
in the half-open state and only a probe of the period closes the breaker, exactly when
every client that is admitted into the half-open state finds none under way. -/
theorem one_probe_iff (rnd : ℚ → ℚ) (minRequests : Int) (failureRatio : Option ℚ)
    (openFor start : Int) (acts : List ClientLabel) (c : Clients)
    (hr : run (clientMachine rnd).step
      ⟨⟨start, newBreaker minRequests failureRatio openFor, 0⟩, []⟩ acts = some c) :
    (∀ n d, run (clientMachine rnd).step
        ⟨⟨start, newBreaker minRequests failureRatio openFor, 0⟩, []⟩ (acts.take n) = some d →
      OneProbe d ∧ ∀ a, acts[n]? = some a → ClosedByProbe rnd d a) ↔
      Meets (clientMachine rnd).step ProbesAlone
        ⟨⟨start, newBreaker minRequests failureRatio openFor, 0⟩, []⟩ acts := by
  have hone : OneProbe ⟨⟨start, newBreaker minRequests failureRatio openFor, 0⟩, []⟩ := nofun
  have hall : AllCurrent ⟨⟨start, newBreaker minRequests failureRatio openFor, 0⟩, []⟩ := nofun
  constructor
  · intro h
    exact (always_iff_meets (I := fun _ => True) (P := OneProbe) (fun _ _ _ _ _ _ => trivial)
      (fun _ _ _ _ ho hs => oneProbe_step_iff ho hs) trivial hone hr).mp fun n d hd => (h n d hd).1
  · intro hm n d hd
    obtain ⟨hone', hall'⟩ := run_take_inv (I := fun c => OneProbe c ∧ AllCurrent c)
      (fun x a y hx ha hs => ⟨(oneProbe_step_iff hx.1 hs).mpr ha, allCurrent_step hx.2 ha hs⟩)
      ⟨hone, hall⟩ hm hd
    exact ⟨hone', fun a _ => hall'.closedByProbe⟩

/-! ## Runs on one breaker -/

def calls (i : Nat) : List ClientLabel := [.spawn (), .act i .allow]

def strict : Shared := ⟨0, newBreaker 1 (some (1 / 2)) 10, 0⟩

/-- The breaker trips, and a probe closes it after the cool-off. -/
theorem probed_alone :
    ∃ c, run (clientMachine Lib.Float64.ofRat).step ⟨strict, []⟩
        (calls 0 ++ [.act 0 (.report false), .env 10] ++ calls 1) = some c ∧
      c.shared.breaker.state = .halfOpen ∧ OneProbe c ∧
      ClosedByProbe Lib.Float64.ofRat c (.act 1 (.report true)) := by
  refine reaches_and (by decide +kernel) fun c hc _ => ?_
  obtain ⟨d, hd, _⟩ := reaches (P := fun c : Clients => c.shared.breaker.state = .closed)
    (o := run (clientMachine Lib.Float64.ofRat).step ⟨strict, []⟩
      (calls 0 ++ [.act 0 (.report false), .env 10] ++ calls 1 ++ [.act 1 (.report true)]))
    (by decide +kernel)
  have hall := (one_probe_iff Lib.Float64.ofRat 1 (some (1 / 2)) 10 0 _ d hd).mpr
    (by decide +kernel)
  obtain ⟨hone, hclosed⟩ := hall 6 c hc
  exact ⟨hone, hclosed _ rfl⟩

/-- Request 0 is admitted before the breaker trips and is still under way when client 2
makes it half-open; client 3 is admitted as well. Then the success of request 0
closes the breaker. -/
theorem old_request_closes :
    (∃ c, run (clientMachine Lib.Float64.ofRat).step ⟨strict, []⟩
        (calls 0 ++ calls 1 ++ [.act 1 (.report false), .env 10] ++ calls 2 ++ calls 3) = some c ∧
      c.shared.breaker.state = .halfOpen ∧ c.shared.period = 1 ∧
      c.threads = [.admitted 0, .reported, .admitted 1, .admitted 1]) ∧
    ∃ d, run (clientMachine Lib.Float64.ofRat).step ⟨strict, []⟩
        (calls 0 ++ calls 1 ++ [.act 1 (.report false), .env 10] ++ calls 2 ++ calls 3 ++
          [.act 0 (.report true)]) = some d ∧
      d.shared.breaker.state = .closed :=
  ⟨reaches (by decide +kernel), reaches (by decide +kernel)⟩

end TokoApi.Resilience
