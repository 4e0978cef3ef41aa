import Mathlib.Data.List.Forall2
import Mathlib.Order.WellFounded
import TokoApi.Resilience.Breaker

/-!
# The counters of a closed breaker

A closed breaker counts reports until there are `2 * minRequests + 1`, and then halves
both counters, rounding up; the halves of an odd total add up to `minRequests + 1`. So
the total depends on the number of reports alone, and a run with more failures stays
ahead of one with fewer through every halving.

Rounding up keeps the last success for ever. From a state with a success the failures
reach `2 * minRequests` of `2 * minRequests + 1` and never a larger share.
-/
namespace TokoApi.Resilience

open Lib.Runs

def Breaker.feed (rnd : ℚ → ℚ) (b : Breaker) (rs : List (Int × Bool)) : Breaker :=
  rs.foldl (fun b r => b.report rnd r.1 r.2) b

def TripsAt (rnd : ℚ → ℚ) (b : Breaker) (rs : List (Int × Bool)) (n : Nat) : Prop :=
  (b.feed rnd (rs.take n)).state = .opened ∧ ∀ k < n, (b.feed rnd (rs.take k)).state ≠ .opened

/-- A success in the first is a success in the second. -/
def Dominated (r r' : Int × Bool) : Prop := r.2 = true → r'.2 = true

/-! ## One report -/

/-- What a report does to a closed breaker. -/
inductive Reported (rnd : ℚ → ℚ) (b : Breaker) (success : Bool) : Breaker → Prop where
  | trips {b' : Breaker} (hr : (b.count success).ratioReached rnd = true)
      (ht : b.settings.minRequests ≤ b.total + 1) (hs : b'.state = .opened) (hz : b'.total = 0) :
      Reported rnd b success b'
  | halves (hr : (b.count success).ratioReached rnd = false)
      (ht : b.settings.minRequests * 2 < b.total + 1) : Reported rnd b success (b.count success).halve
  | keeps (hr : b.settings.minRequests ≤ b.total + 1 → (b.count success).ratioReached rnd = false)
      (ht : b.total + 1 ≤ b.settings.minRequests * 2) : Reported rnd b success (b.count success)

variable {rnd : ℚ → ℚ} {b b' b₁ b₂ b₁' b₂' : Breaker} {now : Int} {success : Bool} {m : Nat}

@[simp] theorem count_total (success : Bool) : (b.count success).total = b.total + 1 := by
  cases success
  · exact Nat.add_right_comm _ _ _
  · rfl

theorem changeState_total {next : State} (h : b.state ≠ next) :
    (b.changeState now next).total = 0 := by
  unfold Breaker.changeState
  rw [if_neg h]
  rfl

theorem report_reported (rnd : ℚ → ℚ) (now : Int) (success : Bool) (h : b.state = .closed) :
    Reported rnd b success (b.report rnd now success) := by
  have hne : (b.count success).state ≠ .opened := by
    rw [count_state, h]
    decide
  have hreport : b.report rnd now success = (b.count success).assess rnd now := by
    simp [Breaker.report, h]
  rw [hreport]
  unfold Breaker.assess
  simp only [count_total, count_settings]
  split
  · exact .keeps (fun _ => by omega) (by omega)
  · split
    · exact .trips ‹_› (by omega) (changeState_state _) (changeState_total hne)
    · rename_i hr
      have hr : (b.count success).ratioReached rnd = false := Bool.eq_false_iff.mpr hr
      split
      · exact .halves hr ‹_›
      · exact .keeps (fun _ => hr) (by omega)

theorem report_of_opened (h : b.state = .opened) : b.report rnd now success = b := by
  simp [Breaker.report, h]

theorem report_settings : (b.report rnd now success).settings = b.settings := by
  unfold Breaker.report
  split
  · rfl
  · exact changeState_settings _
  · rename_i h
    exact (assess_cases rnd now ((count_state success).trans h)).1.trans (count_settings success)

theorem halve_total (h : b.total = m * 2 + 1) : b.halve.total = m + 1 := by
  simp only [Breaker.total, Breaker.halve, halfUp] at h ⊢
  omega

/-- The total of a closed breaker after one more report. -/
def nextTotal (m total : Nat) : Nat := if m * 2 < total + 1 then m + 1 else total + 1

theorem nextTotal_le {total : Nat} (hm : 0 < m) : nextTotal m total ≤ m * 2 := by
  unfold nextTotal
  split <;> omega

theorem Reported.total (h : Reported rnd b success b') (ht : b.total ≤ b.settings.minRequests * 2) :
    b'.state = .opened ∧ b'.total = 0 ∨
      b'.state = b.state ∧ b'.total = nextTotal b.settings.minRequests b.total := by
  cases h with
  | trips _ _ hs hz => exact .inl ⟨hs, hz⟩
  | halves _ hover =>
    refine .inr ⟨count_state success, ?_⟩
    rw [nextTotal, if_pos hover]
    exact halve_total (by rw [count_total]; omega)
  | keeps _ hle =>
    refine .inr ⟨count_state success, ?_⟩
    rw [nextTotal, if_neg (by omega), count_total]

theorem report_total_le (h : b.total ≤ b.settings.minRequests * 2) :
    (b.report rnd now success).total ≤ b.settings.minRequests * 2 := by
  cases hs : b.state with
  | opened =>
    rw [report_of_opened hs]
    exact h
  | halfOpen =>
    have hzero : (b.report rnd now success).total = 0 := by
      simp only [Breaker.report, hs]
      refine changeState_total ?_
      rw [hs]
      cases success <;> decide
    omega
  | closed =>
    rcases (report_reported rnd now success hs).total h with
      ⟨_, hz⟩ | ⟨_, hn⟩
    · omega
    · rw [hn]
      exact nextTotal_le b.settings.minRequests_pos

/-! ## Sequences of reports -/

theorem feed_concat (rs : List (Int × Bool)) (r : Int × Bool) :
    b.feed rnd (rs ++ [r]) = (b.feed rnd rs).report rnd r.1 r.2 := by
  simp [Breaker.feed]

/-- The total of a closed breaker that has had `n` reports since it was new. -/
def totalAfter (m : Nat) : Nat → Nat
  | 0 => 0
  | n + 1 => nextTotal m (totalAfter m n)

theorem feed_total (hset : b.settings.minRequests = m) (hs : b.state = .closed)
    (hz : b.total = 0) (rs : List (Int × Bool)) :
    (b.feed rnd rs).settings = b.settings ∧ (b.feed rnd rs).total ≤ m * 2 ∧
      ((b.feed rnd rs).state = .opened ∨
        (b.feed rnd rs).state = .closed ∧ (b.feed rnd rs).total = totalAfter m rs.length) := by
  induction rs using List.reverseRecOn with
  | nil => exact ⟨rfl, by rw [Breaker.feed, List.foldl_nil, hz]; omega, .inr ⟨hs, hz⟩⟩
  | append_singleton rs r ih =>
    obtain ⟨hset', hle, hcases⟩ := ih
    have hm : (b.feed rnd rs).settings.minRequests = m := by rw [hset', hset]
    rw [feed_concat]
    refine ⟨report_settings.trans hset', hm ▸ report_total_le (by rw [hm]; exact hle), ?_⟩
    rcases hcases with ho | ⟨hc, ht⟩
    · rw [report_of_opened ho]
      exact .inl ho
    · rcases (report_reported rnd r.1 r.2 hc).total
        (by rw [hm]; exact hle) with ⟨ho, _⟩ | ⟨hc', ht'⟩
      · exact .inl ho
      · refine .inr ⟨hc'.trans hc, ?_⟩
        rw [ht', hm, ht, List.length_append, List.length_singleton]
        rfl

/-! ## More failures trip no later -/

section

variable (hmono : ∀ q r : ℚ, 0 ≤ q → q ≤ r → rnd q ≤ rnd r)

def Breaker.share (b : Breaker) : ℚ := b.failures / b.total

theorem share_nonneg : 0 ≤ b.share := div_nonneg (Nat.cast_nonneg _) (Nat.cast_nonneg _)

theorem ratioReached_iff :
    b.ratioReached rnd = true ↔ ∃ q ∈ b.settings.failureRatio, q ≤ rnd b.share := by
  unfold Breaker.ratioReached Breaker.share
  cases b.settings.failureRatio <;> simp

include hmono in
theorem ratioReached_mono (hset : b₁.settings = b₂.settings) (hs : b₂.share ≤ b₁.share)
    (h : b₂.ratioReached rnd = true) : b₁.ratioReached rnd = true := by
  obtain ⟨q, hq, hle⟩ := ratioReached_iff.mp h
  exact ratioReached_iff.mpr ⟨q, hset ▸ hq, hle.trans (hmono _ _ share_nonneg hs)⟩

/-- Both breakers are closed and count as many reports, and the first at least as many
failures. -/
structure Ahead (b₁ b₂ : Breaker) : Prop where
  closed : b₁.state = .closed ∧ b₂.state = .closed
  settings : b₁.settings = b₂.settings
  total : b₁.total = b₂.total
  bound : b₁.total ≤ b₁.settings.minRequests * 2
  failures : b₂.failures ≤ b₁.failures

theorem count_failures_le {r r' : Int × Bool} (hf : b₂.failures ≤ b₁.failures)
    (hd : Dominated r r') : (b₂.count r'.2).failures ≤ (b₁.count r.2).failures := by
  unfold Dominated at hd
  cases h : r.2 <;> cases h' : r'.2 <;> simp_all [Breaker.count]
  omega

include hmono in
theorem Ahead.report {r r' : Int × Bool} (h : Ahead b₁ b₂) (hd : Dominated r r')
    (h₁ : Reported rnd b₁ r.2 b₁') (h₂ : Reported rnd b₂ r'.2 b₂') :
    b₁'.state = .opened ∨ Ahead b₁' b₂' := by
  have hfail := count_failures_le h.failures hd
  have hset : (b₁.count r.2).settings = (b₂.count r'.2).settings := by simpa using h.settings
  have htotal : (b₁.count r.2).total = (b₂.count r'.2).total := by simpa using h.total
  have hclosed : (b₁.count r.2).state = .closed ∧ (b₂.count r'.2).state = .closed := by
    simpa using h.closed
  have hreached : (b₂.count r'.2).ratioReached rnd = true →
      (b₁.count r.2).ratioReached rnd = true := by
    refine ratioReached_mono hmono hset ?_
    rw [Breaker.share, Breaker.share, htotal]
    exact div_le_div_of_nonneg_right (Nat.cast_le.mpr hfail) (Nat.cast_nonneg _)
  have hm := h.settings ▸ b₁.settings.minRequests_pos
  have hbound := h.bound
  have hsame := h.total
  rw [h.settings] at hbound
  cases h₁ with
  | trips _ _ hs _ => exact .inl hs
  | halves hr₁ hover =>
    rw [h.settings] at hover
    cases h₂ with
    | trips hr₂ _ _ _ =>
      rw [hreached hr₂] at hr₁
      cases hr₁
    | halves _ _ =>
      have htwice : (b₁.count r.2).total = b₂.settings.minRequests * 2 + 1 := by
        rw [count_total]
        omega
      have hhalf := halve_total htwice
      refine .inr ⟨hclosed, hset, hhalf.trans (halve_total (htotal ▸ htwice)).symm, ?_, ?_⟩
      · rw [hhalf]
        change _ ≤ (b₁.count r.2).settings.minRequests * 2
        rw [count_settings, h.settings]
        omega
      · exact Nat.div_le_div_right (Nat.succ_le_succ hfail)
    | keeps _ hle => omega
  | keeps hr₁ hle =>
    rw [h.settings] at hle
    cases h₂ with
    | trips hr₂ ht _ _ =>
      rw [hr₁ (by rw [h.settings]; omega)] at hreached
      exact absurd (hreached hr₂) (by decide)
    | halves _ hover => omega
    | keeps _ _ =>
      refine .inr ⟨hclosed, hset, htotal, ?_, hfail⟩
      rw [count_total, count_settings, h.settings]
      exact hle

include hmono in
theorem feed_ahead {rs rs' : List (Int × Bool)} (hd : List.Forall₂ Dominated rs rs')
    (h : b₁.state = .opened ∨ Ahead b₁ b₂) :
    (b₁.feed rnd rs).state = .opened ∨ Ahead (b₁.feed rnd rs) (b₂.feed rnd rs') := by
  induction hd generalizing b₁ b₂ with
  | nil => exact h
  | cons hr _ ih =>
    refine ih ?_
    rcases h with ho | ha
    · exact .inl ((congrArg Breaker.state (report_of_opened ho)).trans ho)
    · exact ha.report hmono hr (report_reported _ _ _ ha.closed.1)
        (report_reported _ _ _ ha.closed.2)

end

theorem trips_of_opened {rs : List (Int × Bool)} {n : Nat}
    (h : (b.feed rnd (rs.take n)).state = .opened) : ∃ k ≤ n, TripsAt rnd b rs k := by
  have hex : ∃ k, (b.feed rnd (rs.take k)).state = .opened := ⟨n, h⟩
  exact ⟨Nat.find hex, Nat.find_min' hex h, Nat.find_spec hex, fun k hk => Nat.find_min hex hk⟩

theorem newBreaker_minRequests (hm : 1 ≤ m) (failureRatio : Option ℚ) (openFor : Int) :
    (newBreaker m failureRatio openFor).settings.minRequests = m := by
  show (if (m : Int) ≤ 0 then 1 else (m : Int).toNat) = m
  rw [if_neg (by omega), Int.toNat_natCast]

/-- Of two sequences of reports for a new breaker, the one that has a success only where
the other has one too trips no later. While the breaker is closed, the counters add up
to a number that depends on how many reports there were, at most `2 * m`. The quotient
is exact. -/
theorem trips_no_later (m : Nat) (hm : 1 ≤ m) (failureRatio : ℚ) (openFor : Int)
    (rs rs' : List (Int × Bool)) (hd : List.Forall₂ Dominated rs rs') :
    (∀ n, TripsAt id (newBreaker m (some failureRatio) openFor) rs' n →
      ∃ k ≤ n, TripsAt id (newBreaker m (some failureRatio) openFor) rs k) ∧
    ∀ xs : List (Int × Bool),
      ((newBreaker m (some failureRatio) openFor).feed id xs).state = .closed →
      ((newBreaker m (some failureRatio) openFor).feed id xs).total ≤ 2 * m ∧
      ∀ ys : List (Int × Bool), ys.length = xs.length →
        ((newBreaker m (some failureRatio) openFor).feed id ys).state = .closed →
        ((newBreaker m (some failureRatio) openFor).feed id ys).total =
          ((newBreaker m (some failureRatio) openFor).feed id xs).total := by
  have hset := newBreaker_minRequests hm (some failureRatio) openFor
  refine ⟨fun n hn => ?_, fun xs hx => ?_⟩
  · have hstart : Ahead (newBreaker m (some failureRatio) openFor)
        (newBreaker m (some failureRatio) openFor) :=
      ⟨⟨rfl, rfl⟩, rfl, rfl, Nat.zero_le _, Nat.le_refl _⟩
    have hmono : ∀ q r : ℚ, 0 ≤ q → q ≤ r → id q ≤ id r := fun _ _ _ h => h
    rcases feed_ahead hmono (List.forall₂_take n hd) (.inr hstart) with ho | ha
    · exact trips_of_opened ho
    · have := hn.1
      rw [ha.closed.2] at this
      cases this
  · have htotal : ∀ zs : List (Int × Bool),
        ((newBreaker m (some failureRatio) openFor).feed id zs).state = .closed →
        ((newBreaker m (some failureRatio) openFor).feed id zs).total = totalAfter m zs.length := by
      intro zs hz
      rcases (feed_total hset rfl rfl zs).2.2 with ho | ⟨_, ht⟩
      · rw [hz] at ho
        cases ho
      · exact ht
    refine ⟨?_, fun ys hlen hy => ?_⟩
    · rw [Nat.mul_comm]
      exact (feed_total hset rfl rfl xs).2.1
    · rw [htotal xs hx, htotal ys hy, hlen]

/-- Success and failure trip at the second report, so two failures do no later. -/
theorem one_success_trips_second :
    ∃ k ≤ 2, TripsAt id (newBreaker (2 : Nat) (some (1 / 2)) 50) [(0, false), (1, false)] k := by
  have hd : List.Forall₂ Dominated [((0 : Int), false), (1, false)] [(0, true), (1, false)] :=
    .cons nofun (.cons nofun .nil)
  exact (trips_no_later 2 (by decide) (1 / 2) 50 _ _ hd).1 2 ⟨by decide +kernel, by decide +kernel⟩

/-! ## Failures in a row -/

/-- The largest share of failures that a breaker counts once it has counted a success. -/
def topShare (m : Nat) : ℚ := (m * 2 : Nat) / (m * 2 + 1 : Nat)

/-- The counters are within their bound, and the breaker can still be opened. -/
structure CanOpen (rnd : ℚ → ℚ) (θ : ℚ) (b : Breaker) : Prop where
  closed : b.state = .closed
  ratio : b.settings.failureRatio = some θ
  bound : b.total ≤ b.settings.minRequests * 2
  cond : b.successes = 0 ∨ θ ≤ rnd (topShare b.settings.minRequests)

section

variable {θ : ℚ} (hmono : ∀ q r : ℚ, 0 ≤ q → q ≤ r → rnd q ≤ rnd r) (hone : rnd 1 = 1)

theorem share_of_all (h : b.successes = 0) (ht : 0 < b.total) : b.share = 1 := by
  have hf : b.failures = b.total := by
    unfold Breaker.total
    omega
  rw [Breaker.share, hf]
  exact div_self (by exact_mod_cast ht.ne')

theorem share_le_top (hs : 1 ≤ b.successes) (ht : b.total ≤ m * 2 + 1) :
    b.share ≤ topShare m := by
  have hpos : 0 < b.total := by
    unfold Breaker.total
    omega
  rw [Breaker.share, topShare, div_le_div_iff₀ (by exact_mod_cast hpos) (by exact_mod_cast Nat.succ_pos _)]
  have hfail : b.failures + 1 ≤ b.total := by
    unfold Breaker.total
    omega
  have : b.failures * (m * 2 + 1) ≤ m * 2 * b.total := by nlinarith
  exact_mod_cast this

theorem share_eq_top (hs : b.successes = 1) (ht : b.total = m * 2 + 1) :
    b.share = topShare m := by
  have hfail : b.failures = m * 2 := by
    unfold Breaker.total at ht
    omega
  rw [Breaker.share, topShare, hfail, ht]

theorem ratioReached_of (hq : b.settings.failureRatio = some θ) (h : θ ≤ rnd b.share) :
    b.ratioReached rnd = true :=
  ratioReached_iff.mpr ⟨θ, hq, h⟩

include hone in
/-- A failure opens the breaker, or the successes become fewer, or there is less room
to the next halving. -/
theorem CanOpen.fail (h : CanOpen rnd θ b) (hr : Reported rnd b false b') :
    b'.state = .opened ∨ (CanOpen rnd θ b' ∧ (b'.successes < b.successes ∨
      (b'.successes = b.successes ∧ b'.total = b.total + 1))) := by
  have hbound := h.bound
  have hm := b.settings.minRequests_pos
  cases hr with
  | trips _ _ hs _ => exact .inl hs
  | halves hr hover =>
    have htotal : (b.count false).total = b.settings.minRequests * 2 + 1 := by
      rw [count_total]
      omega
    have hlow : ¬θ ≤ rnd (b.count false).share := fun hle =>
      absurd (ratioReached_of (b := b.count false) h.ratio hle) (by rw [hr]; decide)
    have htwo : 2 ≤ b.successes := by
      by_contra hlt
      by_cases hzero : b.successes = 0
      · rw [share_of_all (b := b.count false) hzero (by omega), hone] at hlow
        exact hlow (b.settings.failureRatio_le_one θ h.ratio)
      · rw [share_eq_top (b := b.count false) (show b.successes = 1 by omega) htotal] at hlow
        exact hlow (h.cond.resolve_left hzero)
    have hfewer : (b.count false).halve.successes < b.successes := by
      change (b.successes + 1) / 2 < b.successes
      omega
    refine .inr ⟨⟨h.closed, h.ratio, ?_, .inr (h.cond.resolve_left (by omega))⟩, .inl hfewer⟩
    rw [halve_total htotal]
    change _ ≤ b.settings.minRequests * 2
    omega
  | keeps _ hle =>
    refine .inr ⟨⟨h.closed, h.ratio, ?_, h.cond⟩, .inr ⟨rfl, count_total false⟩⟩
    rw [count_total]
    exact hle

include hone in
theorem CanOpen.opens (h : CanOpen rnd θ b) (now : Int) :
    ∃ n, (b.feed rnd (List.replicate n (now, false))).state = .opened := by
  -- by the successes that are left, and then by the room to the next halving
  induction hs : b.successes using Nat.strong_induction_on generalizing b with
  | _ s ihs =>
    induction hk : b.settings.minRequests * 2 - b.total using Nat.strong_induction_on
      generalizing b with
    | _ k ihk =>
      subst hs hk
      have hnext : ∀ n, (b.feed rnd (List.replicate (n + 1) (now, false))) =
          (b.report rnd now false).feed rnd (List.replicate n (now, false)) := fun _ => rfl
      rcases h.fail hone (report_reported _ now _ h.closed) with
        ho | ⟨hcan, hfewer | ⟨hsame, htotal⟩⟩
      · exact ⟨1, ho⟩
      · obtain ⟨n, hn⟩ := ihs _ hfewer hcan rfl
        exact ⟨n + 1, by rw [hnext, hn]⟩
      · have hroom : (b.report rnd now false).total ≤ b.settings.minRequests * 2 :=
          report_settings (b := b) ▸ hcan.bound
        obtain ⟨n, hn⟩ := ihk _ (by rw [report_settings]; omega) hcan hsame rfl
        exact ⟨n + 1, by rw [hnext, hn]⟩

/-- A closed breaker with a success, below a threshold that no share then reaches. -/
structure Blind (rnd : ℚ → ℚ) (θ : ℚ) (b : Breaker) : Prop where
  closed : b.state = .closed
  ratio : b.settings.failureRatio = some θ
  bound : b.total ≤ b.settings.minRequests * 2
  success : 1 ≤ b.successes
  above : rnd (topShare b.settings.minRequests) < θ

include hmono in
theorem Blind.fail (h : Blind rnd θ b) (hr : Reported rnd b false b') : Blind rnd θ b' := by
  have hbound := h.bound
  have hsuccess := h.success
  have hm := b.settings.minRequests_pos
  cases hr with
  | trips hreached _ _ _ =>
    obtain ⟨q, hq, hle⟩ := ratioReached_iff.mp hreached
    obtain rfl : θ = q := Option.some.inj (h.ratio.symm.trans hq)
    have hshare : (b.count false).share ≤ topShare b.settings.minRequests :=
      share_le_top h.success (by rw [count_total]; omega)
    exact absurd (hle.trans (hmono _ _ share_nonneg hshare)) (not_le.mpr h.above)
  | halves _ hover =>
    refine ⟨h.closed, h.ratio, ?_, ?_, h.above⟩
    · rw [halve_total (m := b.settings.minRequests) (by rw [count_total]; omega)]
      change _ ≤ b.settings.minRequests * 2
      omega
    · change 1 ≤ (b.successes + 1) / 2
      omega
  | keeps _ hle =>
    refine ⟨h.closed, h.ratio, ?_, h.success, h.above⟩
    rw [count_total]
    exact hle

include hmono in
theorem Blind.feed (h : Blind rnd θ b) (now : Int) (n : Nat) :
    (b.feed rnd (List.replicate n (now, false))).state = .closed := by
  induction n generalizing b with
  | zero => exact h.closed
  | succ n ih => exact ih (h.fail hmono (report_reported _ now _ h.closed))

end

theorem run_total_le {c d : Timed} {es : List Event} (h : run (Timed.step rnd) c es = some d)
    (hc : c.breaker.total ≤ c.breaker.settings.minRequests * 2) :
    d.breaker.total ≤ d.breaker.settings.minRequests * 2 := by
  refine run_inv (I := fun x : Timed => x.breaker.total ≤ x.breaker.settings.minRequests * 2)
    (fun x e y hx _ hs => ?_) hc (meets_true c es) h
  rw [(step_effect hs).1]
  cases e with
  | tick n =>
    cases hs
    exact hx
  | report success =>
    cases hs
    exact report_total_le hx
  | allow =>
    cases hs
    unfold Breaker.allow
    split
    · rename_i ho
      split
      · rw [changeState_total (by rw [ho]; decide)]
        exact Nat.zero_le _
      · exact hx
    · exact hx

/-- From every closed state that a breaker reaches, failures in a row open it exactly
when no success is counted there or the threshold is at most the share of
`2 * minRequests` failures in `2 * minRequests + 1` reports, as the division rounds it. -/
theorem outage_detected_iff (minRequests : Int) (failureRatio : ℚ) (hpos : 0 < failureRatio)
    (hle : failureRatio ≤ 1) (openFor start : Int) (es : List Event) (c : Timed)
    (hr : run (Timed.step Lib.Float64.ofRat)
      ⟨start, newBreaker minRequests (some failureRatio) openFor⟩ es = some c)
    (hc : c.breaker.state = .closed) (now : Int) :
    (∃ n, (c.breaker.feed Lib.Float64.ofRat (List.replicate n (now, false))).state = .opened) ↔
      c.breaker.successes = 0 ∨ failureRatio ≤ Lib.Float64.ofRat
        (topShare (newBreaker minRequests (some failureRatio) openFor).settings.minRequests) := by
  have hset := (run_settings hr).1
  have hratio : c.breaker.settings.failureRatio = some failureRatio := by
    rw [hset]
    show some (clampRatio failureRatio) = _
    rw [clampRatio, if_neg (not_le.mpr hpos), if_neg (not_lt.mpr hle)]
  have hbound := run_total_le hr (Nat.zero_le _)
  constructor
  · rintro ⟨n, hn⟩
    by_contra hnot
    push Not at hnot
    have hblind : Blind Lib.Float64.ofRat failureRatio c.breaker :=
      ⟨hc, hratio, hbound, Nat.one_le_iff_ne_zero.mpr hnot.1, hset ▸ hnot.2⟩
    rw [hblind.feed (fun _ _ => Lib.Float64.ofRat_mono) now n] at hn
    cases hn
  · intro hcond
    exact CanOpen.opens Lib.Float64.ofRat_one ⟨hc, hratio, hbound, hset ▸ hcond⟩ now

theorem outage_detected_at_half :
    ∃ c, run (Timed.step Lib.Float64.ofRat) ⟨0, newBreaker 5 (some (1 / 2)) 50⟩ [.report true] =
        some c ∧
      ∃ n, (c.breaker.feed Lib.Float64.ofRat (List.replicate n (0, false))).state = .opened :=
  ⟨_, rfl, (outage_detected_iff 5 (1 / 2) (by decide +kernel) (by decide +kernel) 50 0
    [.report true] _ rfl (by decide +kernel) 0).mpr (.inr (by decide +kernel))⟩

/-- After one success no number of failures opens a breaker with `minRequests` 5 and
the threshold 0.95: the counters go from 5 and 1 to 10 and 1 and back. -/
theorem outage_unnoticed :
    ∃ c, run (Timed.step Lib.Float64.ofRat) ⟨0, newBreaker 5 (some (19 / 20)) 50⟩ [.report true] =
        some c ∧ c.breaker.state = .closed ∧
      ∀ n, (c.breaker.feed Lib.Float64.ofRat (List.replicate n (0, false))).state = .closed := by
  refine ⟨_, rfl, by decide +kernel, fun n => ?_⟩
  refine Blind.feed (fun _ _ => Lib.Float64.ofRat_mono) (?_ : Blind _ (19 / 20) _) 0 n
  exact ⟨by decide +kernel, by decide +kernel, by decide +kernel, by decide +kernel, by decide +kernel⟩

end TokoApi.Resilience
