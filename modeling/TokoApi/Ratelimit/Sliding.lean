import TokoApi.Lib.SortedSet
import TokoApi.Lib.Threads

/-!
# The sliding window limiter

`ratelimit.Limiter.Allow` (slidingredis.go) on one key. A call removes what has left
the window, adds itself, whether or not it will be allowed, and counts. Here scores are
exact integers and members fresh. EXPIRE may drop the set once the window after the
last call is over; then every entry has left the window.

The set and the history agree on what happened after any time from the start of the
current window on. So the last call that was allowed in an interval has counted all
the others in it.
-/
namespace TokoApi.Ratelimit

open Lib.Redis Lib.Runs Lib.Threads

structure Answer where
  allowed : Bool
  remaining : Int
  reset : Int
  err : Option String
  deriving DecidableEq

/-- The transaction, which sees scores through `float64`. -/
def pipeline (float64 : Int → Int) (window now : Int) (member : Nat) (z : ZSet Nat) : ZSet Nat :=
  (z.removeUpTo (float64 (now - window))).add member (float64 now) []

/-- `client` says that there is a Redis client. A transaction that fails has changed
nothing. -/
def allow (float64 : Int → Int) (client : Bool) (window limit now : Int) (member : Nat) (z : ZSet Nat)
    (exec : Call) : ZSet Nat × Answer :=
  if client = false ∨ limit ≤ 0 ∨ window ≤ 0 then (z, ⟨true, limit, now + window, none⟩)
  else
    match exec with
    | .fail err => (z, ⟨false, 0, now + window, some err⟩)
    | .ok =>
      let z' := pipeline float64 window now member z
      (z', ⟨z'.card ≤ limit, max 0 (limit - z'.card), now + window, none⟩)

/-! ## Calls on one key -/

structure Made where
  time : Int
  answer : Answer
  deriving DecidableEq

/-- The set, the earliest time at which it may be dropped, and the calls so far, newest
first. -/
structure Window where
  now : Int
  set : ZSet Nat
  expiresAt : Option Int
  calls : List Made

inductive Event where
  | allow
  | tick (d : Nat)
  | expire

def Window.step (window limit : Int) (c : Window) : Event → Option Window
  | .allow =>
    let (z, answer) := allow id true window limit c.now c.calls.length c.set .ok
    some ⟨c.now, z, some (c.now + window), ⟨c.now, answer⟩ :: c.calls⟩
  | .tick d => some { c with now := c.now + d }
  | .expire =>
    if c.expiresAt.any (· ≤ c.now) then some { c with set := .empty, expiresAt := none } else none

def newWindow (start : Int) : Window := ⟨start, .empty, none, []⟩

def registered (window : Int) (k : Made) (older : List Made) : Nat :=
  (k :: older).countP fun j => k.time - window < j.time

/-- How a call is answered, given what came before. -/
def Answered (window limit : Int) (k : Made) (older : List Made) : Prop :=
  k.answer.allowed = decide ((registered window k older : Int) ≤ limit) ∧
    k.answer.remaining = max 0 (limit - registered window k older)

/-- The set stands for the calls that a window may still count. -/
structure Tied (window limit : Int) (c : Window) : Prop where
  members : ∀ e ∈ c.set.entries, e.member < c.calls.length
  counted : ∀ x, c.now - window ≤ x → c.set.entries.countP (fun e => x < e.score) =
    c.calls.countP fun k => x < k.time
  deadline : ∀ t ∈ c.expiresAt, ∀ k ∈ c.calls, k.time + window ≤ t
  past : ∀ k ∈ c.calls, k.time ≤ c.now
  answered : ∀ k older, (k :: older) <:+ c.calls → Answered window limit k older

variable {window limit : Int} {c d : Window} {e : Event}

section

variable {float64 : Int → Int} {now x : Int} {member : Nat} {z : ZSet Nat}
  (h : ∀ e ∈ z.entries, e.member < member)
include h

theorem pipeline_entries : (pipeline float64 window now member z).entries =
    ⟨member, float64 now, []⟩ :: z.entries.filter fun e => float64 (now - window) < e.score := by
  refine ZSet.add_of_fresh ?_
  rintro ⟨e, he, hm⟩
  exact absurd (h e (List.mem_filter.mp he).1) (by omega)

theorem pipeline_members : ∀ e ∈ (pipeline float64 window now member z).entries,
    e.member < member + 1 := by
  intro e he
  rw [pipeline_entries h] at he
  rcases List.mem_cons.mp he with rfl | he
  · exact Nat.lt_succ_self _
  · exact Nat.lt_succ_of_lt (h e (List.mem_filter.mp he).1)

theorem pipeline_counted (hx : float64 (now - window) ≤ x) :
    (pipeline float64 window now member z).entries.countP (fun e => x < e.score) =
      z.entries.countP (fun e => x < e.score) + if x < float64 now then 1 else 0 := by
  have hfilter : (z.entries.filter fun e => float64 (now - window) < e.score).countP
      (fun e => x < e.score) = z.entries.countP fun e => x < e.score := by
    rw [List.countP_filter]
    refine List.countP_congr fun e _ => ?_
    simp only [Bool.and_eq_true, decide_eq_true_eq]
    omega
  rw [pipeline_entries h, List.countP_cons, hfilter]
  simp only [decide_eq_true_eq]

end

theorem Tied.counts (h : Tied window limit c) {x : Int} (hx : c.now - window ≤ x) (answer : Answer) :
    (pipeline id window c.now c.calls.length c.set).entries.countP (fun e => x < e.score) =
      (⟨c.now, answer⟩ :: c.calls : List Made).countP fun k => x < k.time := by
  rw [pipeline_counted h.members hx, h.counted x hx, List.countP_cons]
  simp only [decide_eq_true_eq, id_eq]

theorem pipeline_card (hw : 0 < window) (h : Tied window limit c) (answer : Answer) :
    (pipeline id window c.now c.calls.length c.set).card =
      registered window ⟨c.now, answer⟩ c.calls := by
  have hall : (pipeline id window c.now c.calls.length c.set).entries.countP
      (fun e => c.now - window < e.score) =
        (pipeline id window c.now c.calls.length c.set).entries.length := by
    refine List.countP_eq_length.mpr fun e he => decide_eq_true ?_
    rw [pipeline_entries h.members] at he
    rcases List.mem_cons.mp he with rfl | he
    · show c.now - window < c.now
      omega
    · exact of_decide_eq_true (List.mem_filter.mp he).2
  rw [ZSet.card, ← hall, h.counts (le_refl _) answer]
  rfl

theorem tied_step (hl : 1 ≤ limit) (hw : 0 < window) (h : Tied window limit c)
    (hs : c.step window limit e = some d) : Tied window limit d := by
  cases e with
  | tick n =>
    cases hs
    refine ⟨h.members, fun x hx => h.counted x ?_, h.deadline, fun k hk => ?_, h.answered⟩
    · simp only at hx
      omega
    · have := h.past k hk
      simp only
      omega
  | expire =>
    simp only [Window.step] at hs
    split at hs
    · rename_i hover
      cases hs
      refine ⟨nofun, fun x hx => ?_, nofun, h.past, h.answered⟩
      change c.now - window ≤ x at hx
      obtain ⟨t, ht, hle⟩ : ∃ t ∈ c.expiresAt, t ≤ c.now := by
        cases ht : c.expiresAt with
        | none => simp [ht] at hover
        | some t => exact ⟨t, rfl, by simpa [ht] using hover⟩
      have hnone : c.calls.countP (fun k => x < k.time) = 0 := by
        refine List.countP_eq_zero.mpr fun k hk => ?_
        have := h.deadline t ht k hk
        simp only [decide_eq_true_eq]
        omega
      rw [hnone]
      rfl
    · cases hs
  | allow =>
    have hguard : ¬(true = false ∨ limit ≤ 0 ∨ window ≤ 0) := by simp; omega
    simp only [Window.step, allow, if_neg hguard] at hs
    cases hs
    refine ⟨pipeline_members h.members, fun x hx => h.counts hx _, ?_, ?_, fun k older hsuffix => ?_⟩
    · rintro t ht k hk
      cases ht
      rcases List.mem_cons.mp hk with rfl | hk
      · exact le_refl _
      · have := h.past k hk
        omega
    · intro k hk
      rcases List.mem_cons.mp hk with rfl | hk
      · exact le_refl _
      · exact h.past k hk
    · rcases List.suffix_cons_iff.mp hsuffix with heq | hold
      · cases heq
        have hcard := pipeline_card hw h
        exact ⟨congrArg (fun n : Nat => decide ((n : Int) ≤ limit)) (hcard _),
          congrArg (fun n : Nat => max 0 (limit - (n : Int))) (hcard _)⟩
      · exact h.answered k older hold

/-! ## Any interval -/

def allowedIn (a window : Int) (calls : List Made) : Nat :=
  calls.countP fun k => k.answer.allowed && a < k.time && k.time ≤ a + window

/-- By the newest call of the interval that was allowed: it has counted the others. -/
theorem allowedIn_le (hl : 1 ≤ limit) {calls : List Made}
    (h : ∀ k older, (k :: older) <:+ calls → Answered window limit k older) (a : Int) :
    (allowedIn a window calls : Int) ≤ limit := by
  induction calls with
  | nil =>
    show (0 : Int) ≤ limit
    omega
  | cons k older ih =>
    have ih := ih fun j rest hs => h j rest (hs.trans (List.suffix_cons k older))
    rw [allowedIn, List.countP_cons]
    split
    · rename_i hk
      simp only [Bool.and_eq_true, decide_eq_true_eq] at hk
      obtain ⟨⟨hallowed, hlo⟩, hhi⟩ := hk
      have hmax : (registered window k older : Int) ≤ limit := by
        have := (h k older (List.suffix_refl _)).1
        rw [hallowed] at this
        exact of_decide_eq_true this.symm
      have hcount : allowedIn a window older ≤
          older.countP fun j => k.time - window < j.time := by
        refine List.countP_mono_left fun j _ hj => ?_
        simp only [Bool.and_eq_true, decide_eq_true_eq] at hj ⊢
        omega
      have hself : registered window k older =
          (older.countP fun j => k.time - window < j.time) + 1 := by
        rw [registered, List.countP_cons, if_pos]
        simp only [decide_eq_true_eq]
        omega
      unfold allowedIn at hcount
      omega
    · exact ih

/-- In every run of calls on a key, every half-open interval as long as the window holds
at most `limit` calls that were allowed, and each call is told how many are left after
those of the last window. -/
theorem window_limit (limit : Int) (hl : 1 ≤ limit) (window : Int) (hw : 0 < window) (start : Int)
    (es : List Event) (c : Window)
    (hr : run (Window.step window limit) (newWindow start) es = some c) :
    (∀ a, (allowedIn a window c.calls : Int) ≤ limit) ∧
      ∀ k older, (k :: older) <:+ c.calls →
        k.answer.remaining = max 0 (limit - registered window k older) := by
  have hstart : Tied window limit (newWindow start) :=
    ⟨nofun, fun _ _ => rfl, nofun, nofun, fun k older hs => by
      have := hs.length_le
      simp [newWindow] at this⟩
  have htied := run_inv (fun _ _ _ h _ hs => tied_step hl hw h hs) hstart (meets_true _ es) hr
  exact ⟨allowedIn_le hl htied.answered, fun k older hs => (htied.answered k older hs).2⟩

/-- Two calls are allowed, the third is not, and a window after the first two the set
has lost them. -/
theorem two_in_ten :
    ∃ c, run (Window.step 10 2) (newWindow 0)
        [.allow, .allow, .tick 9, .allow, .tick 1, .allow] = some c ∧
      c.calls.map (fun k => (k.time, k.answer.allowed, k.answer.remaining)) =
        [(10, true, 0), (9, false, 0), (0, true, 0), (0, true, 1)] ∧
      ∀ a, (allowedIn a 10 c.calls : Int) ≤ 2 :=
  reaches_and (by decide +kernel) fun c hc _ => (window_limit 2 (by decide) 10 (by decide) 0 _ c hc).1

/-- In every run of calls on a key, a call is allowed exactly if fewer than `limit` earlier
ones lie in its window. Those that were refused count too, so a caller that does not
pause stays locked out. -/
theorem allowed_iff_room (limit : Int) (hl : 1 ≤ limit) (window : Int) (hw : 0 < window) (start : Int)
    (es : List Event) (c : Window)
    (hr : run (Window.step window limit) (newWindow start) es = some c) :
    ∀ k older, (k :: older) <:+ c.calls → (k.answer.allowed = true ↔
      ((older.countP fun j => k.time - window < j.time : Nat) : Int) < limit) := by
  intro k older hs
  have hstart : Tied window limit (newWindow start) :=
    ⟨nofun, fun _ _ => rfl, nofun, nofun, fun k older hs => by cases List.suffix_nil.mp hs⟩
  have htied := run_inv (fun _ _ _ h _ hs => tied_step hl hw h hs) hstart (meets_true _ es) hr
  have hself : registered window k older = (older.countP fun j => k.time - window < j.time) + 1 :=
    List.countP_cons_of_pos (decide_eq_true (by omega))
  rw [(htied.answered k older hs).1, decide_eq_true_iff, hself]
  omega

/-- The call at 9 is refused, and so is the one at 18, for which only that one counts. -/
theorem refused_call_counts :
    ∃ c, run (Window.step 10 1) (newWindow 0) [.allow, .tick 9, .allow, .tick 9, .allow] = some c ∧
      c.calls.map (fun k => k.answer.allowed) = [false, false, true] ∧
      ∀ k older, (k :: older) <:+ c.calls → (k.answer.allowed = true ↔
        ((older.countP fun j => k.time - 10 < j.time : Nat) : Int) < 1) :=
  reaches_and (by decide +kernel) fun c hc _ =>
    allowed_iff_room 1 (by decide) 10 (by decide) 0 _ c hc

end TokoApi.Ratelimit
