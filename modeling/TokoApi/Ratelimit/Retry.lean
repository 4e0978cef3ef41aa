import Mathlib.Data.Int.ConditionallyCompleteOrder
import Mathlib.Tactic.Ring
import TokoApi.Lib.Durations
import TokoApi.Lib.Float64
import TokoApi.Ratelimit.Sliding

/-!
# Retry-After

`ratelimit.Handler.Middleware` (middleware.go) in front of the limiter, on one key. A request
reads the clock, then its transaction is executed, and where it is refused the header is
computed last: from the time that is left of a window after its own clock reading, without the
fraction of a second. Scores are the clock readings as float64, and EXPIRE has whole seconds,
so the set may be gone before its last entry has left the window.

The window that the header counts down began with the refused request, not with the first of
those that fill it. What makes the retry fail is therefore what was asked since: the refused
request itself is among it unless the fraction dropped was nothing.
-/
namespace TokoApi.Ratelimit

open Lib Lib.Durations Lib.Redis Lib.Runs

/-- The seconds that go-redis sends with EXPIRE: one for a window that is shorter, and the
whole ones of any other. -/
structure Expiry where
  formatSec : Int → Int
  short : ∀ window, 0 < window → window < second → formatSec window = 1
  whole : ∀ window, second ≤ window → formatSec window = window / second

/-! ## The middleware -/

structure Headers where
  limit : Int
  remaining : Int
  reset : Int
  deriving DecidableEq

inductive Response where
  | next (headers : Option Headers)
  | tooManyRequests (headers : Headers) (retryAfter : Int)
  deriving DecidableEq

/-- The value of the header, given how long it is until the reset. -/
def retryAfter (left : Int) : Int := if left < 0 then 0 else ⌊seconds left⌋

/-- What becomes of a request, given the answer of the limiter; `at_` is when the header is
computed. `keyed` says that the configuration has a key. -/
def respond (keyed : Bool) (limit : Int) (answer : Answer) (at_ : Int) : Response :=
  if keyed = false then .next none
  else if answer.err.isSome then .next none
  else
    let headers : Headers := ⟨if limit < 0 then 0 else limit, answer.remaining, answer.reset / second⟩
    if answer.allowed then .next (some headers)
    else .tooManyRequests headers (retryAfter (answer.reset - at_))

/-! ## One key -/

/-- The set of a key and when Redis drops it. `calls` are the clock readings of the requests
since it was last dropped, newest first, and `made` counts all requests; no code reads them. -/
structure Key where
  now : Int
  set : ZSet Nat
  expiresAt : Option Int
  made : Nat
  calls : List Int

namespace Key

def found (c : Key) : Key :=
  if c.expiresAt.any (· ≤ c.now) then { c with set := .empty, expiresAt := none, calls := [] } else c

/-- A request whose transaction is executed now; it read the clock `lag` ago. -/
def request (redis : Expiry) (float64 : Int → Int) (window limit : Int) (lag : Nat) (c : Key) : Key × Answer :=
  let (z, answer) := allow float64 true window limit (c.now - lag) c.made c.found.set .ok
  (⟨c.now, z, some (c.now + redis.formatSec window * second), c.made + 1, (c.now - lag) :: c.found.calls⟩,
    answer)

def pass (d : Nat) (c : Key) : Key := { c with now := c.now + d }

end Key

inductive Move where
  | request (lag : Nat)
  | pass (d : Nat)

def Key.step (redis : Expiry) (float64 : Int → Int) (window limit : Int) (c : Key) : Move → Option Key
  | .request lag => some (c.request redis float64 window limit lag).1
  | .pass d => some (c.pass d)

def unusedKey (start : Int) : Key := ⟨start, .empty, none, 0, []⟩

/-! ## The set and the history -/

/-- The set has the requests since it was last dropped, as far as a window still reaches. -/
structure Kept (float64 : Int → Int) (window : Int) (c : Key) : Prop where
  members : ∀ e ∈ c.set.entries, e.member < c.made
  counted : ∀ x, float64 (c.now - window) ≤ x →
    c.set.entries.countP (fun e => x < e.score) = c.calls.countP fun t => x < float64 t

section

variable {redis : Expiry} {float64 : Int → Int} {window limit : Int} {c d : Key}

theorem kept_unused (start : Int) : Kept float64 window (unusedKey start) where
  members e he := by cases he
  counted _ _ := rfl

theorem Kept.found (h : Kept float64 window c) : Kept float64 window c.found := by
  unfold Key.found
  split
  · exact ⟨nofun, fun _ _ => rfl⟩
  · exact h

theorem found_now : c.found.now = c.now := by
  unfold Key.found
  split <;> rfl

theorem found_made : c.found.made = c.made := by
  unfold Key.found
  split <;> rfl

theorem Kept.pass (hmono : Monotone float64) (h : Kept float64 window c) (n : Nat) :
    Kept float64 window (c.pass n) where
  members := h.members
  counted x hx := by
    refine h.counted x (le_trans (hmono ?_) hx)
    dsimp only [Key.pass]
    omega

theorem Kept.fresh (h : Kept float64 window c) : ∀ e ∈ c.found.set.entries, e.member < c.made :=
  fun e he => found_made (c := c) ▸ h.found.members e he

theorem request_eq (hw : 0 < window) (hl : 1 ≤ limit) (lag : Nat) :
    (c.request redis float64 window limit lag).1.set =
      pipeline float64 window (c.now - lag) c.made c.found.set ∧
    (c.request redis float64 window limit lag).2.allowed = decide
      (((pipeline float64 window (c.now - lag) c.made c.found.set).card : Int) ≤ limit) := by
  have hguard : ¬ (true = false ∨ limit ≤ 0 ∨ window ≤ 0) := by simp; omega
  simp only [Key.request, allow, if_neg hguard, and_self]

theorem Kept.request (hmono : Monotone float64) (hw : 0 < window) (hl : 1 ≤ limit)
    (h : Kept float64 window c) (lag : Nat) :
    Kept float64 window (c.request redis float64 window limit lag).1 where
  members := by
    rw [(request_eq hw hl lag).1]
    exact pipeline_members h.fresh
  counted x hx := by
    change float64 (c.now - window) ≤ x at hx
    have hcut : float64 (c.now - lag - window) ≤ x := le_trans (hmono (by omega)) hx
    have hfound := h.found.counted x (by rw [found_now]; exact hx)
    rw [(request_eq hw hl lag).1, pipeline_counted h.fresh hcut, hfound, Key.request, List.countP_cons]
    simp only [decide_eq_true_eq]

theorem kept_step (hmono : Monotone float64) (hw : 0 < window) (hl : 1 ≤ limit) {m : Move}
    (h : Kept float64 window c) (hs : c.step redis float64 window limit m = some d) :
    Kept float64 window d := by
  cases m with
  | request lag =>
    cases hs
    exact h.request hmono hw hl lag
  | pass n =>
    cases hs
    exact h.pass hmono n

end

/-! ## The header -/

theorem retryAfter_nonneg (left : Int) : 0 ≤ retryAfter left := by
  unfold retryAfter
  split
  · exact le_rfl
  · rename_i h
    refine Int.floor_nonneg.mpr (Float64.ofRat_nonneg (add_nonneg ?_ (Float64.ofRat_nonneg ?_)))
    · exact_mod_cast Int.ediv_nonneg (Int.not_lt.mp h) (by decide)
    · exact div_nonneg (by exact_mod_cast Int.emod_nonneg left (by decide)) (by norm_num)

theorem retryAfter_eq {left : Int} (h0 : 0 ≤ left) (h : left < 2 ^ 23 * second) :
    retryAfter left = left / second := by
  rw [retryAfter, if_neg (Int.not_lt.mpr h0), floor_seconds h0 h]

theorem respond_retryAfter {limit at_ s : Int} {answer : Answer} {headers : Headers}
    (h : respond true limit answer at_ = .tooManyRequests headers s) :
    s = retryAfter (answer.reset - at_) := by
  unfold respond at h
  split at h
  · cases h
  · split at h
    · cases h
    · dsimp only at h
      split at h
      · cases h
      · cases h
        rfl

/-! ## The retry -/

/-- When a second request reads the clock as `retry` and is executed `wait` later, the set has
been dropped, or fewer than `limit` of what it has, with the first request, were made in the
window before. -/
abbrev Room (redis : Expiry) (float64 : Int → Int) (window limit : Int) (c : Key) (lag : Nat) (retry : Int)
    (wait : Nat) : Prop :=
  c.now + redis.formatSec window * second ≤ retry + wait ∨
    ((((c.now - lag) :: c.found.calls).countP fun t => float64 (retry - window) < float64 t : Nat) : Int) <
      limit

theorem second_allowed_iff {redis : Expiry} {float64 : Int → Int} {window limit : Int} {c : Key}
    (hmono : Monotone float64) (hw : 0 < window) (hl : 1 ≤ limit) (h : Kept float64 window c)
    (lag gap wait : Nat) :
    (((c.request redis float64 window limit lag).1.pass (gap + wait)).request redis float64 window limit wait).2.allowed =
        true ↔ Room redis float64 window limit c lag (c.now + gap) wait := by
  have hfirst : Kept float64 window (c.request redis float64 window limit lag).1 :=
    h.request hmono hw hl lag
  have hkept := hfirst.pass hmono (gap + wait)
  generalize hk : (c.request redis float64 window limit lag).1.pass (gap + wait) = k at hkept
  have hread : k.now - wait = c.now + gap := by
    rw [← hk]
    simp only [Key.pass, Key.request]
    omega
  have hexpires : k.expiresAt.any (· ≤ k.now) =
      decide (c.now + redis.formatSec window * second ≤ c.now + gap + wait) := by
    rw [← hk]
    simp only [Key.pass, Key.request, Option.any_some]
    congr 1
    push_cast
    ring_nf
  rw [(request_eq hw hl wait).2, ZSet.card, pipeline_entries hkept.fresh, decide_eq_true_eq,
    List.length_cons, ← List.countP_eq_length_filter, hread]
  by_cases hover : c.now + redis.formatSec window * second ≤ c.now + gap + wait
  · rw [decide_eq_true hover] at hexpires
    have hempty : k.found.set = .empty := by rw [Key.found, if_pos hexpires]
    rw [hempty]
    refine iff_of_true ?_ (.inl hover)
    show (((0 : Nat) + 1 : Nat) : Int) ≤ limit
    omega
  · rw [decide_eq_false hover] at hexpires
    have hsame : k.found = k := by rw [Key.found, hexpires, if_neg Bool.false_ne_true]
    have hset : k.set = (c.request redis float64 window limit lag).1.set := by rw [← hk]; rfl
    have hcounted := hfirst.counted (float64 (c.now + gap - window)) (hmono (by
      show c.now - window ≤ c.now + gap - window
      omega))
    rw [hsame, hset, hcounted, Room, or_iff_right hover]
    push_cast
    exact Int.add_one_le_iff

/-- For every window and limit, after every history of the key: a request is refused with a
header of `s` seconds, and no other follows until one that is made `s` seconds after the
response. That one is allowed exactly if the set has been dropped by then or fewer than
`limit` of the requests it has, the refused one included, are still in the window. -/
theorem retry_allowed_iff (redis : Expiry) (window : Int) (hw : 0 < window) (limit : Int)
    (hl : 1 ≤ limit) (start : Int) (ms : List Move) (c : Key)
    (hr : run (Key.step redis Float64.ofInt window limit) (unusedKey start) ms = some c)
    (lag delay wait : Nat) (headers : Headers) (s : Int)
    (hrefused : respond true limit (c.request redis Float64.ofInt window limit lag).2 (c.now + delay) =
      .tooManyRequests headers s) :
    (((c.request redis Float64.ofInt window limit lag).1.pass (delay + (s * second).toNat + wait)).request
        redis Float64.ofInt window limit wait).2.allowed = true ↔
      Room redis Float64.ofInt window limit c lag (c.now + delay + s * second) wait := by
  have hmono : Monotone Float64.ofInt := fun _ _ h => Float64.ofInt_mono h
  have hkept : Kept Float64.ofInt window c :=
    run_inv (fun _ _ _ h _ hs => kept_step hmono hw hl h hs) (kept_unused start) (meets_true _ ms) hr
  have hs : 0 ≤ s := respond_retryAfter hrefused ▸ retryAfter_nonneg _
  have hretry : c.now + ((delay + (s * second).toNat : Nat) : Int) = c.now + delay + s * second := by
    have hpos : 0 ≤ s * second := Int.mul_nonneg hs (by decide)
    push_cast
    omega
  rw [second_allowed_iff hmono hw hl hkept, hretry]

def goRedis : Expiry where
  formatSec window := if 0 < window ∧ window < second then 1 else window / second
  short _ hpos hlt := if_pos ⟨hpos, hlt⟩
  whole _ hle := if_neg fun h => absurd h.2 (Int.not_lt.mpr hle)

/-- Two a minute: the third request comes half a second before the minute is over, and the
retry finds it alone. -/
theorem retry_after_two :
    ∃ c, run (Key.step goRedis Float64.ofInt (60 * second) 2) (unusedKey 0)
        [.request 0, .request 0, .pass 59500000000] = some c ∧
      respond true 2 (c.request goRedis Float64.ofInt (60 * second) 2 0).2 (c.now + (1000000 : Nat)) =
        .tooManyRequests ⟨2, 0, 119⟩ 59 ∧
      (((c.request goRedis Float64.ofInt (60 * second) 2 0).1.pass
        (1000000 + (59 * second).toNat + 0)).request goRedis Float64.ofInt (60 * second) 2 0).2.allowed = true := by
  refine reaches_imp (P := fun c : Key => c.now = 59500000000 ∧
      (c.request goRedis Float64.ofInt (60 * second) 2 0).2 = ⟨false, 0, 119500000000, none⟩ ∧
      Room goRedis Float64.ofInt (60 * second) 2 c 0 (c.now + (1000000 : Nat) + 59 * second) 0)
    (by decide +kernel) fun c hc ⟨hnow, hanswer, hroom⟩ => ?_
  have hheader : retryAfter (119500000000 - (59500000000 + (1000000 : Nat))) = 59 :=
    retryAfter_eq (by decide) (by decide)
  have hrefused : respond true 2 (c.request goRedis Float64.ofInt (60 * second) 2 0).2 (c.now + (1000000 : Nat)) =
      .tooManyRequests ⟨2, 0, 119⟩ 59 := by
    rw [hanswer, hnow, ← hheader]
    rfl
  exact ⟨hrefused, (retry_allowed_iff goRedis (60 * second) (by decide) 2 (by decide) 0 _ c hc 0 1000000 0
    ⟨2, 0, 119⟩ 59 hrefused).mpr hroom⟩

/-- One a minute: the second request is told to wait for 59 seconds, waits for them, and is
refused again, because it is itself still in the window. -/
theorem retry_refused :
    ∃ c, run (Key.step goRedis Float64.ofInt (60 * second) 1) (unusedKey 0) [.request 0, .pass 1000000000] =
        some c ∧
      respond true 1 (c.request goRedis Float64.ofInt (60 * second) 1 0).2 (c.now + (1000000 : Nat)) =
        .tooManyRequests ⟨1, 0, 61⟩ 59 ∧
      (((c.request goRedis Float64.ofInt (60 * second) 1 0).1.pass
        (1000000 + (59 * second).toNat + 0)).request goRedis Float64.ofInt (60 * second) 1 0).2.allowed = false := by
  refine reaches_imp (P := fun c : Key => c.now = 1000000000 ∧
      (c.request goRedis Float64.ofInt (60 * second) 1 0).2 = ⟨false, 0, 61000000000, none⟩ ∧
      (((c.request goRedis Float64.ofInt (60 * second) 1 0).1.pass
        (1000000 + (59 * second).toNat + 0)).request goRedis Float64.ofInt (60 * second) 1 0).2.allowed = false)
    (by decide +kernel) fun c _ ⟨hnow, hanswer, hretry⟩ => ⟨?_, hretry⟩
  have hheader : retryAfter (61000000000 - (1000000000 + (1000000 : Nat))) = 59 :=
    retryAfter_eq (by decide) (by decide)
  rw [hanswer, hnow, ← hheader]
  rfl

end TokoApi.Ratelimit
