import TokoApi.Queue.Kinds

/-!
# Enqueue calls one after the other

What a caller learns from `Enqueue` when Redis commands fail. The marker of a key and the
message are two writes. Where the second one fails, the marker stays: the call reports
an error, and every later call with that key returns nil and adds nothing until the
marker expires. Where no ZADD fails behind its SETNX and no other kind and key has the
same marker, nil means that the key has been added, and a failed call can be repeated.
-/
namespace TokoApi.Queue

open Lib.Redis Lib.Threads Lib.Runs

/-! ## One call -/

def Broker.later (q : Broker) (d : Nat) : Broker := { q with now := q.now + d }

/-- A command of `Enqueue` after some time. -/
def pacedEnqueue (env : Env) (p : Broker × EnqueuePc) (x : Nat × Call) :
    Option (Broker × EnqueuePc) := enqueueStep env (p.1.later x.1) p.2 x.2

def completes (p : Broker × EnqueuePc) (x : Nat × Call) : Bool :=
  match p.2 with
  | .zadd m => m.key = "" || x.2 = .ok
  | _ => true

/-- No command of the call from `pc` on leaves a marker without its message. -/
abbrev Completes (env : Env) (q : Broker) (pc : EnqueuePc) (xs : List (Nat × Call)) : Prop :=
  Meets (pacedEnqueue env) (fun p x => completes p x = true) (q, pc) xs

/-- What a call with the message `m` has done when it returns. -/
inductive Outcome (env : Env) (e : Enqueuer) (m : TaskMessage) (q q' : Broker) (complete : Prop) :
    Option String → Prop where
  | failed {err} (hd : q'.dedup = q.dedup) (ha : q'.accepted = q.accepted) :
      Outcome env e m q q' complete (some err)
  | suppressed (hkey : m.key ≠ "") (hd : q'.dedup = q.dedup) (ha : q'.accepted = q.accepted)
      (hheld : (q.dedup (env.dedupKey m)).held q'.now = true) : Outcome env e m q q' complete none
  | unkeyed (hkey : m.key = "") (hd : q'.dedup = q.dedup) (ha : q'.accepted = q.accepted ++ [m]) :
      Outcome env e m q q' complete none
  | claimed {t} (hkey : m.key ≠ "") (ht : t ≤ q'.now)
      (hd : q'.dedup = Function.update q.dedup (env.dedupKey m) (.starting t e.ttl))
      (ha : q'.accepted = q.accepted ++ [m]) : Outcome env e m q q' complete none
  | stranded {err t} (hkey : m.key ≠ "")
      (hd : q'.dedup = Function.update q.dedup (env.dedupKey m) (.starting t e.ttl))
      (ha : q'.accepted = q.accepted) (hc : ¬ complete) : Outcome env e m q q' complete (some err)

section

variable {env : Env} {e : Enqueuer} {t : Task} {m : TaskMessage} {q q' : Broker} {pc : EnqueuePc}
  {xs : List (Nat × Call)} {r r' : Option String}

theorem call_open (h : run (pacedEnqueue env) (q, pc) xs = some (q', .returned r))
    (hpc : pc ≠ .returned r) :
    ∃ d c ys q₁ pc₁, xs = (d, c) :: ys ∧ q.now ≤ (q.later d).now ∧
      enqueueStep env (q.later d) pc c = some (q₁, pc₁) ∧
      run (pacedEnqueue env) (q₁, pc₁) ys = some (q', .returned r) ∧
      (Completes env q pc xs ↔ completes (q, pc) (d, c) = true ∧ Completes env q₁ pc₁ ys) := by
  cases xs with
  | nil =>
    cases h
    exact absurd rfl hpc
  | cons x ys =>
    obtain ⟨⟨q₁, pc₁⟩, hs, hrest⟩ := run_cons h
    exact ⟨x.1, x.2, ys, q₁, pc₁, rfl, Int.le_add_of_nonneg_right (Int.natCast_nonneg _), hs, hrest,
      meets_cons hs⟩

theorem call_returned (h : run (pacedEnqueue env) (q, .returned r) xs = some (q', .returned r')) :
    r' = r ∧ q' = q ∧ Completes env q (.returned r) xs := by
  cases xs with
  | nil =>
    cases h
    exact ⟨rfl, rfl, trivial⟩
  | cons x ys =>
    obtain ⟨_, hs, _⟩ := run_cons h
    cases hs

theorem call_zadd (h : run (pacedEnqueue env) (q, .zadd m) xs = some (q', .returned r)) :
    q.now ≤ q'.now ∧ q'.dedup = q.dedup ∧
      ((r = none ∧ q'.accepted = q.accepted ++ [m]) ∨
        (∃ err, r = some err ∧ q'.accepted = q.accepted ∧
          (m.key ≠ "" → ¬ Completes env q (.zadd m) xs))) := by
  obtain ⟨d, c, ys, q₁, pc₁, rfl, hnow, hs, hrest, hiff⟩ := call_open h (by simp)
  cases c with
  | ok =>
    cases hs
    obtain ⟨rfl, rfl, _⟩ := call_returned hrest
    exact ⟨hnow, rfl, .inl ⟨rfl, rfl⟩⟩
  | fail err =>
    cases hs
    obtain ⟨rfl, rfl, _⟩ := call_returned hrest
    refine ⟨hnow, rfl, .inr ⟨err, rfl, rfl, fun hkey hc => ?_⟩⟩
    have hfail := (hiff.mp hc).1
    simp [completes, hkey] at hfail

theorem call_setNX (hkey : m.key ≠ "")
    (h : run (pacedEnqueue env) (q, .setNX e m) xs = some (q', .returned r)) :
    q.now ≤ q'.now ∧ Outcome env e m q q' (Completes env q (.setNX e m) xs) r := by
  obtain ⟨d, c, ys, q₁, pc₁, rfl, hnow, hs, hrest, hiff⟩ := call_open h (by simp)
  cases c with
  | ok =>
    simp only [enqueueStep] at hs
    split at hs <;> rename_i keys hset <;> cases hs
    · obtain ⟨rfl, rfl, _⟩ := call_returned hrest
      exact ⟨hnow, .suppressed hkey rfl rfl (held_of_refused hset)⟩
    · obtain ⟨hlater, hd, hend⟩ := call_zadd hrest
      have hdedup := hd.trans (taken_inv hset).2
      refine ⟨hnow.trans hlater, ?_⟩
      obtain ⟨rfl, ha⟩ | ⟨err, rfl, ha, hstuck⟩ := hend
      · exact .claimed hkey hlater hdedup ha
      · exact .stranded hkey hdedup ha fun hc => hstuck hkey (hiff.mp hc).2
  | fail err =>
    cases hs
    obtain ⟨rfl, rfl, _⟩ := call_returned hrest
    exact ⟨hnow, .failed rfl rfl⟩

theorem call_outcome
    (h : run (pacedEnqueue env) (q, .message e t) xs = some (q', .returned r)) :
    q.now ≤ q'.now ∧ ∃ now,
      Outcome env e (e.message t now) q q' (Completes env q (.message e t) xs) r := by
  obtain ⟨d, c, ys, q₁, pc₁, rfl, hnow, hs, hrest, hiff⟩ := call_open h (by simp)
  rw [hiff, and_iff_right (show completes (q, .message e t) (d, c) = true from rfl)]
  simp only [enqueueStep] at hs
  split at hs
  · cases hs
    obtain ⟨rfl, rfl, _⟩ := call_returned hrest
    exact ⟨hnow, 0, .failed rfl rfl⟩
  · split at hs
    · cases hs
    · split at hs <;> rename_i hkey <;> cases hs
      · obtain ⟨hlater, hout⟩ := call_setNX hkey hrest
        refine ⟨hnow.trans hlater, (q.later d).now, ?_⟩
        cases hout with
        | failed hd ha => exact .failed hd ha
        | suppressed hk hd ha hheld => exact .suppressed hk hd ha hheld
        | unkeyed hk => exact absurd hk hkey
        | claimed hk ht hd ha => exact .claimed hk ht hd ha
        | stranded hk hd ha hc => exact .stranded hk hd ha hc
      · obtain ⟨hlater, hd, ⟨rfl, ha⟩ | ⟨err, rfl, ha, _⟩⟩ := call_zadd hrest
        · exact ⟨hnow.trans hlater, _, .unkeyed (by simpa using hkey) hd ha⟩
        · exact ⟨hnow.trans hlater, 0, .failed hd ha⟩

/-- A call none of whose commands fails returns nil after at most three of them. -/
theorem call_returns (hkind : sanitizeKind t.kind ≠ "") (henv : sanitizeKind t.kind = env.kind)
    (d₁ d₂ d₃ : Nat) :
    ∃ n q', run (pacedEnqueue env) (q, .message e t) (([d₁, d₂, d₃].take n).map fun d => (d, .ok)) =
      some (q', .returned none) := by
  have hk : (e.message t (q.later d₁).now).kind ≠ "" := hkind
  have he : ¬ (e.message t (q.later d₁).now).kind ≠ env.kind := not_not.mpr henv
  by_cases hkey : (e.message t (q.later d₁).now).key ≠ ""
  · have hbuilt : pacedEnqueue env (q, .message e t) (d₁, .ok) =
        some (q.later d₁, .setNX e (e.message t (q.later d₁).now)) := by
      simp only [pacedEnqueue, enqueueStep, if_neg hk, if_neg he, if_pos hkey]
    cases hset : (q.later d₁).dedup.setNX ((q.later d₁).later d₂).now e.ttl
        (env.dedupKey (e.message t (q.later d₁).now)) with
    | mk taken keys =>
      cases taken with
      | false =>
        have hrefused : pacedEnqueue env (q.later d₁, .setNX e (e.message t (q.later d₁).now))
            (d₂, .ok) = some ((q.later d₁).later d₂, .returned none) := by
          simp only [pacedEnqueue, enqueueStep]
          rw [show ((q.later d₁).later d₂).dedup = (q.later d₁).dedup from rfl, hset]
        exact ⟨2, _, (run_step hbuilt).trans (run_step hrefused)⟩
      | true =>
        have hclaimed : pacedEnqueue env (q.later d₁, .setNX e (e.message t (q.later d₁).now))
            (d₂, .ok) = some ({ (q.later d₁).later d₂ with dedup := keys },
              .zadd (e.message t (q.later d₁).now)) := by
          simp only [pacedEnqueue, enqueueStep]
          rw [show ((q.later d₁).later d₂).dedup = (q.later d₁).dedup from rfl, hset]
        exact ⟨3, _, (run_step hbuilt).trans ((run_step hclaimed).trans rfl)⟩
  · have hbuilt : pacedEnqueue env (q, .message e t) (d₁, .ok) =
        some (q.later d₁, .zadd (e.message t (q.later d₁).now)) := by
      simp only [pacedEnqueue, enqueueStep, if_neg hk, if_neg he, if_neg hkey]
    exact ⟨2, _, (run_step hbuilt).trans rfl⟩

end

/-! ## A sequence of calls -/

/-- A call of `Enqueue`, with what happens to each of its commands. -/
structure EnqueueCall where
  enqueuer : Enqueuer
  task : Task
  commands : List (Nat × Call)

namespace EnqueueCall

variable (l : EnqueueCall)

def kind : String := sanitizeKind l.task.kind

def env (keyPrefix : String) (float64 : Int → Int) : Env := ⟨keyPrefix, l.kind, float64⟩

def start : EnqueuePc := .message l.enqueuer l.task

def marker (keyPrefix : String) : String := dedupKey keyPrefix l.kind l.task.idempotencyKey

def retry (delays : List Nat) : EnqueueCall := { l with commands := delays.map fun d => (d, .ok) }

end EnqueueCall

/-- A message that a call has added, when, and how long a marker of its enqueuer lasts. -/
structure Addition where
  msg : TaskMessage
  time : Int
  ttl : Int

/-- Redis, with the additions so far, which no code reads. -/
structure Calls where
  redis : Kinds
  added : List Addition

namespace Calls

variable (keyPrefix : String) (float64 : Int → Int)

def unused (now : Int) : Calls := ⟨.unused now .empty, []⟩

/-- One call to its end, with what it returns. -/
def call (s : Calls) (l : EnqueueCall) : Option (Calls × Option String) :=
  let c := s.redis.system keyPrefix l.kind
  match run (pacedEnqueue (l.env keyPrefix float64)) (c.shared.broker, l.start) l.commands with
  | some (q, .returned r) =>
    some (⟨s.redis.put keyPrefix l.kind ⟨⟨q, ()⟩, c.threads⟩, s.added ++
      (q.accepted.drop c.shared.broker.accepted.length).map fun m => ⟨m, q.now, l.enqueuer.ttl⟩⟩, r)
  | _ => none

def step (s : Calls) (l : EnqueueCall) : Option Calls := (s.call keyPrefix float64 l).map Prod.fst

/-- A task with that kind and key has been added, and the lifetime of its marker has not
passed since. -/
abbrev Added (s : Calls) (kind key : String) : Prop :=
  ∃ a ∈ s.added, a.msg.kind = kind ∧ a.msg.key = key ∧ s.redis.now < a.time + a.ttl

/-- The ZADD of the call does not fail behind its SETNX. -/
abbrev completes (s : Calls) (l : EnqueueCall) : Prop :=
  Completes (l.env keyPrefix float64) (s.redis.system keyPrefix l.kind).shared.broker l.start
    l.commands

/-- A keyed call that has the marker of `l` is one for the same kind and key, and is completed. -/
abbrev Tidy (l : EnqueueCall) (s : Calls) (x : EnqueueCall) : Prop :=
  x.task.idempotencyKey ≠ "" → x.marker keyPrefix = l.marker keyPrefix →
    (x.kind = l.kind ∧ x.task.idempotencyKey = l.task.idempotencyKey) ∧
      s.completes keyPrefix float64 x

end Calls

section

variable {keyPrefix : String} {float64 : Int → Int} {s s' : Calls} {l x : EnqueueCall}
  {r : Option String}

/-- What a call does to the markers, to the clock and to the additions. -/
inductive CallEffect (keyPrefix : String) (x : EnqueueCall) (s s' : Calls) (complete : Prop) :
    Option String → Prop where
  | failed {err} (hd : s'.redis.dedup = s.redis.dedup) (ha : s'.added = s.added) :
      CallEffect keyPrefix x s s' complete (some err)
  | suppressed (hkey : x.task.idempotencyKey ≠ "") (hd : s'.redis.dedup = s.redis.dedup)
      (ha : s'.added = s.added)
      (hheld : (s.redis.dedup (x.marker keyPrefix)).held s'.redis.now = true) :
      CallEffect keyPrefix x s s' complete none
  | unkeyed (now : Int) (hkey : x.task.idempotencyKey = "") (hd : s'.redis.dedup = s.redis.dedup)
      (ha : s'.added =
        s.added ++ [⟨x.enqueuer.message x.task now, s'.redis.now, x.enqueuer.ttl⟩]) :
      CallEffect keyPrefix x s s' complete none
  | claimed (now : Int) {t : Int} (hkey : x.task.idempotencyKey ≠ "") (ht : t ≤ s'.redis.now)
      (hd : s'.redis.dedup =
        Function.update s.redis.dedup (x.marker keyPrefix) (.starting t x.enqueuer.ttl))
      (ha : s'.added =
        s.added ++ [⟨x.enqueuer.message x.task now, s'.redis.now, x.enqueuer.ttl⟩]) :
      CallEffect keyPrefix x s s' complete none
  | stranded {err : String} {t : Int} (hkey : x.task.idempotencyKey ≠ "")
      (hd : s'.redis.dedup =
        Function.update s.redis.dedup (x.marker keyPrefix) (.starting t x.enqueuer.ttl))
      (ha : s'.added = s.added) (hc : ¬ complete) : CallEffect keyPrefix x s s' complete (some err)

theorem call_effect (h : s.call keyPrefix float64 x = some (s', r)) :
    s.redis.now ≤ s'.redis.now ∧
      CallEffect keyPrefix x s s' (s.completes keyPrefix float64 x) r := by
  unfold Calls.call at h
  simp only at h
  split at h
  · rename_i q r₁ hrun
    cases h
    obtain ⟨hnow, now, hout⟩ := call_outcome hrun
    refine ⟨hnow, ?_⟩
    cases hout with
    | failed hd ha => exact .failed hd (by simp [ha])
    | suppressed hk hd ha hheld => exact .suppressed hk hd (by simp [ha]) hheld
    | unkeyed hk hd ha => exact .unkeyed now hk hd (by simp [ha, Kinds.put])
    | claimed hk ht hd ha => exact .claimed now hk ht hd (by simp [ha, Kinds.put])
    | stranded hk hd ha hc => exact .stranded hk hd (by simp [ha]) hc
  · cases h

theorem ttl_pos (e : Enqueuer) : 0 < e.ttl := by
  have hsecond : 0 < Lib.Durations.second := by decide
  unfold Enqueuer.ttl
  split <;> omega

/-- While the marker of `l` is held, its key has been added within the lifetime. -/
def Backed (keyPrefix : String) (l : EnqueueCall) (s : Calls) : Prop :=
  ∀ t, s.redis.now ≤ t → (s.redis.dedup (l.marker keyPrefix)).held t = true →
    ∃ a ∈ s.added, a.msg.kind = l.kind ∧ a.msg.key = l.task.idempotencyKey ∧ t < a.time + a.ttl

theorem backed_call (hb : Backed keyPrefix l s) (htidy : Calls.Tidy keyPrefix float64 l s x)
    (h : s.call keyPrefix float64 x = some (s', r)) : Backed keyPrefix l s' := by
  obtain ⟨hnow, heffect⟩ := call_effect h
  intro t ht hheld
  have hlater : s.redis.now ≤ t := hnow.trans ht
  cases heffect with
  | failed hd ha | suppressed _ hd ha _ =>
    rw [hd] at hheld
    rw [ha]
    exact hb t hlater hheld
  | unkeyed _ _ hd ha =>
    rw [hd] at hheld
    obtain ⟨a, hin, hsame⟩ := hb t hlater hheld
    exact ⟨a, by simp [ha, hin], hsame⟩
  | claimed _ hkey hstart hd ha =>
    by_cases hm : x.marker keyPrefix = l.marker keyPrefix
    · obtain ⟨⟨hkind, hsame⟩, _⟩ := htidy hkey hm
      rw [hd, hm, Function.update_self] at hheld
      have hpos := ttl_pos x.enqueuer
      have hexp := held_starting_iff.mp hheld
      rw [ha]
      refine ⟨_, List.mem_append_right _ List.mem_cons_self, hkind, hsame, ?_⟩
      show t < s'.redis.now + x.enqueuer.ttl
      omega
    · rw [hd, Function.update_of_ne (Ne.symm hm)] at hheld
      obtain ⟨a, hin, hsame⟩ := hb t hlater hheld
      exact ⟨a, by simp [ha, hin], hsame⟩
  | stranded hkey hd ha hc =>
    by_cases hm : x.marker keyPrefix = l.marker keyPrefix
    · exact absurd (htidy hkey hm).2 hc
    · rw [hd, Function.update_of_ne (Ne.symm hm)] at hheld
      rw [ha]
      exact hb t hlater hheld

theorem backed_run {now : Int} {calls : List EnqueueCall}
    (hmeets : Meets (Calls.step keyPrefix float64) (Calls.Tidy keyPrefix float64 l) (.unused now) calls)
    (hrun : run (Calls.step keyPrefix float64) (.unused now) calls = some s) :
    Backed keyPrefix l s := by
  refine run_inv (I := Backed keyPrefix l) (fun s x s' hb htidy hs => ?_) ?_ hmeets hrun
  · obtain ⟨⟨s₁, r⟩, hcall, rfl⟩ := Option.map_eq_some_iff.mp hs
    exact backed_call hb htidy hcall
  · intro t _ hheld
    cases hheld

def Calls.AddedBy (l : EnqueueCall) (s s' : Calls) : Prop :=
  ∃ now, s'.added = s.added ++ [⟨l.enqueuer.message l.task now, s'.redis.now, l.enqueuer.ttl⟩]

theorem Calls.AddedBy.added (h : Calls.AddedBy l s s') :
    s'.Added l.kind l.task.idempotencyKey := by
  obtain ⟨now, ha⟩ := h
  have hpos := ttl_pos l.enqueuer
  unfold Calls.Added
  rw [ha]
  refine ⟨_, List.mem_append_right _ List.mem_cons_self, rfl, rfl, ?_⟩
  show s'.redis.now < s'.redis.now + l.enqueuer.ttl
  omega

theorem added_of_nil (hb : Backed keyPrefix l s) (hkey : l.task.idempotencyKey ≠ "")
    (h : s.call keyPrefix float64 l = some (s', none)) :
    s'.Added l.kind l.task.idempotencyKey := by
  obtain ⟨hnow, heffect⟩ := call_effect h
  cases heffect with
  | suppressed _ hd ha hheld =>
    unfold Calls.Added
    rw [ha]
    exact hb s'.redis.now hnow hheld
  | unkeyed _ hempty => exact absurd hempty hkey
  | claimed now _ _ _ ha => exact Calls.AddedBy.added ⟨now, ha⟩

theorem nil_cases (hb : Backed keyPrefix l s) (h : s.call keyPrefix float64 l = some (s', none)) :
    Calls.AddedBy l s s' ∨
      (l.task.idempotencyKey ≠ "" ∧ s'.Added l.kind l.task.idempotencyKey) := by
  obtain ⟨_, heffect⟩ := call_effect h
  cases heffect with
  | suppressed hkey => exact .inr ⟨hkey, added_of_nil hb hkey h⟩
  | unkeyed now _ _ ha | claimed now _ _ _ ha => exact .inl ⟨now, ha⟩

theorem call_of_run {q : Broker}
    (h : run (pacedEnqueue (x.env keyPrefix float64))
      ((s.redis.system keyPrefix x.kind).shared.broker, x.start) x.commands =
        some (q, .returned r)) : ∃ s', s.call keyPrefix float64 x = some (s', r) := by
  unfold Calls.call
  simp only
  rw [h]
  exact ⟨_, rfl⟩

theorem retry_returns (s : Calls) (hkind : l.kind ≠ "") (d₁ d₂ d₃ : Nat) :
    ∃ n s', s.call keyPrefix float64 (l.retry ([d₁, d₂, d₃].take n)) = some (s', none) := by
  have henv : sanitizeKind l.task.kind = (l.env keyPrefix float64).kind := rfl
  obtain ⟨n, q, hrun⟩ := call_returns (e := l.enqueuer)
    (q := (s.redis.system keyPrefix l.kind).shared.broker) hkind henv d₁ d₂ d₃
  obtain ⟨s', hcall⟩ := call_of_run (x := l.retry ([d₁, d₂, d₃].take n)) hrun
  exact ⟨n, s', hcall⟩

end

/-- A sequence of calls of `Enqueue`, then a call `l`. Where it returns nil for a key, it or
an earlier call within the lifetime of its marker has added that key; where a Redis command
made it fail, it can be repeated: with no command failing the second call returns nil, and it
adds the task, or the key has been added before. The condition is on the calls that have the
marker of `l`: they are for the same kind and key, and none of them, nor a failing `l`, has a
ZADD fail behind its SETNX. -/
theorem enqueue_nil_added (keyPrefix : String) (float64 : Int → Int) (now : Int)
    (calls : List EnqueueCall) (s s' : Calls) (l : EnqueueCall) (r : Option String)
    (hrun : run (Calls.step keyPrefix float64) (.unused now) calls = some s)
    (hmeets : Meets (Calls.step keyPrefix float64) (Calls.Tidy keyPrefix float64 l) (.unused now) calls)
    (hcall : s.call keyPrefix float64 l = some (s', r)) :
    (r = none → l.task.idempotencyKey ≠ "" → s'.Added l.kind l.task.idempotencyKey) ∧
      (r ≠ none → l.kind ≠ "" → s.completes keyPrefix float64 l → ∀ d₁ d₂ d₃ : Nat,
        ∃ n s'', s'.call keyPrefix float64 (l.retry ([d₁, d₂, d₃].take n)) = some (s'', none) ∧
          (Calls.AddedBy l s' s'' ∨
            (l.task.idempotencyKey ≠ "" ∧ s''.Added l.kind l.task.idempotencyKey))) := by
  have hb : Backed keyPrefix l s := backed_run hmeets hrun
  constructor
  · rintro rfl hkey
    exact added_of_nil hb hkey hcall
  · intro _ hkind hcomplete d₁ d₂ d₃
    have hb' : Backed keyPrefix l s' :=
      backed_call hb (fun _ _ => ⟨⟨rfl, rfl⟩, hcomplete⟩) hcall
    obtain ⟨n, s'', hretry⟩ := retry_returns s' hkind d₁ d₂ d₃
    refine ⟨n, s'', hretry, ?_⟩
    exact nil_cases (l := l.retry ([d₁, d₂, d₃].take n)) hb' hretry

/-! ## Markers without a message -/

def deliveryCall (key : String) (commands : List (Nat × Call)) : EnqueueCall :=
  ⟨⟨0, 0⟩, ⟨"webhook-delivery", key, key, 6, 0, 0⟩, commands⟩

/-- Delivery `d1` has been added and, a day later, its marker has expired; delivery `d2` has
been added too. -/
def deliveryCalls : List EnqueueCall :=
  [deliveryCall "d1" [(1, .ok), (1, .ok), (1, .ok)],
    deliveryCall "d2" [(86400000000000, .ok), (1, .ok), (1, .ok)]]

/-- SETNX fails, so there is no marker, and the second call adds the delivery. -/
theorem delivery_enqueued_on_retry :
    ∃ s s', run (Calls.step "" id) (.unused 0) deliveryCalls = some s ∧
      s.call "" id (deliveryCall "d1" [(1, .ok), (1, .fail "timeout")]) = some (s', some "timeout") ∧
      ∃ n s'', s'.call "" id ((deliveryCall "d1" [(1, .ok), (1, .fail "timeout")]).retry
          ([5, 1, 1].take n)) = some (s'', none) ∧
        s''.Added "webhook-delivery" "d1" := by
  obtain ⟨s, ⟨s', r⟩, hrun, hcall, hcomplete, rfl⟩ := reaches_then
    (P := fun (s : Calls) (p : Calls × Option String) =>
      s.completes "" id (deliveryCall "d1" [(1, .ok), (1, .fail "timeout")]) ∧ p.2 = some "timeout")
    (o := run (Calls.step "" id) (.unused 0) deliveryCalls)
    (f := fun s => s.call "" id (deliveryCall "d1" [(1, .ok), (1, .fail "timeout")])) (by decide +kernel)
  obtain ⟨n, s'', hretry, hadded⟩ := (enqueue_nil_added "" id 0 deliveryCalls s s' _ _ hrun
    (by decide +kernel) hcall).2 (by simp) (by decide +kernel) hcomplete 5 1 1
  refine ⟨s, s', hrun, hcall, n, s'', hretry, ?_⟩
  rcases hadded with hown | ⟨_, hearlier⟩
  · exact hown.added
  · exact hearlier

/-- ZADD fails behind SETNX: the second call returns nil, and nothing has been added. And the
marker of kind `mail` and key `a:b` is that of kind `mail:a` and key `b`. -/
theorem nil_without_addition :
    (∃ s' s'', (Calls.unused 0).call "" id
          (deliveryCall "d1" [(1, .ok), (1, .ok), (1, .fail "connection reset")]) =
        some (s', some "connection reset") ∧
      s'.call "" id ((deliveryCall "d1" []).retry [1, 1]) = some (s'', none) ∧ s''.added = []) ∧
    ∃ s' s'', (Calls.unused 0).call "" id
          ⟨⟨0, 0⟩, ⟨"mail", "x", "a:b", 3, 0, 0⟩, [(1, .ok), (1, .ok), (1, .ok)]⟩ = some (s', none) ∧
      s'.call "" id ⟨⟨0, 0⟩, ⟨"mail:a", "y", "b", 3, 0, 0⟩, [(1, .ok), (1, .ok)]⟩ =
        some (s'', none) ∧ ¬ s''.Added "mail:a" "b" := by
  constructor
  · obtain ⟨⟨s', r⟩, ⟨s'', r'⟩, hfirst, hsecond, rfl, rfl, hnone⟩ := reaches_then
      (P := fun p q : Calls × Option String =>
        p.2 = some "connection reset" ∧ q.2 = none ∧ q.1.added.length = 0)
      (o := (Calls.unused 0).call "" id
        (deliveryCall "d1" [(1, .ok), (1, .ok), (1, .fail "connection reset")]))
      (f := fun p => p.1.call "" id ((deliveryCall "d1" []).retry [1, 1])) (by decide +kernel)
    exact ⟨s', s'', hfirst, hsecond, List.length_eq_zero_iff.mp hnone⟩
  · obtain ⟨⟨s', r⟩, ⟨s'', r'⟩, hfirst, hsecond, rfl, rfl, hnone⟩ := reaches_then
      (P := fun p q : Calls × Option String =>
        p.2 = none ∧ q.2 = none ∧ ¬ q.1.Added "mail:a" "b")
      (o := (Calls.unused 0).call "" id
        ⟨⟨0, 0⟩, ⟨"mail", "x", "a:b", 3, 0, 0⟩, [(1, .ok), (1, .ok), (1, .ok)]⟩)
      (f := fun p => p.1.call "" id
        ⟨⟨0, 0⟩, ⟨"mail:a", "y", "b", 3, 0, 0⟩, [(1, .ok), (1, .ok)]⟩) (by decide +kernel)
    exact ⟨s', s'', hfirst, hsecond, hnone⟩

end TokoApi.Queue
