import Mathlib.Data.List.Infix
import TokoApi.Lib.Durations
import TokoApi.Lib.Text
import TokoApi.Lib.Threads

/-!
# The Redis lock

`Locker.WithLock` and `release` (redislock.go) on one key, one step for each command.
The token of a caller is its place among the callers, for a UUID that no other has. A
command succeeds, fails, or is executed and loses its reply. `release` deletes the key
by a script that compares the token; where the server does not know the command it
deletes the key without looking.

A caller that holds an unexpired lease is the one whose token is stored, as long as
this second way never meets the lease of another.
-/
namespace TokoApi.Lock

open Lib.Runs Lib.Text Lib.Threads

structure Lease where
  token : Nat
  expiresAt : Int
  deriving DecidableEq

structure Shared where
  now : Int
  key : Option Lease
  deriving DecidableEq

def Shared.live (s : Shared) : Option Lease := s.key.filter fun l => s.now < l.expiresAt

def Shared.setNX (s : Shared) (token : Nat) (ttl : Int) : Bool × Shared :=
  match s.live with
  | some _ => (false, s)
  | none => (true, { s with key := some ⟨token, s.now + ttl⟩ })

def Shared.delIfToken (s : Shared) (token : Nat) : Shared :=
  if s.live.any (·.token = token) then { s with key := none } else s

def Shared.del (s : Shared) : Shared := { s with key := none }

/-! ## WithLock -/

/-- What the caller passes: whether there is a client and a callback, and the lifetime. -/
structure Request where
  client : Bool
  callback : Bool
  ttl : Int

/-- `expires` is the end of the lease that the caller has taken. The one of `del` is
missing where the script has been executed. -/
inductive Pc where
  | setNX
  | waiting
  | inside (expires : Int)
  | eval (expires : Int) (result : Option String)
  | del (expires : Option Int) (result : Option String)
  | returned (err : Option String)
  deriving DecidableEq

structure Caller where
  ttl : Int
  pc : Pc
  deriving DecidableEq

inductive Input where
  | ok
  | fail (err : String)
  /-- The command is executed, and its reply is an error. -/
  | lost (err : String)
  /-- The context ends the pause. -/
  | canceled (err : String)
  /-- The callback returns. -/
  | finish (err : Option String)

def Caller.goto (t : Caller) (pc : Pc) : Caller := { t with pc := pc }

def start (r : Request) : Caller :=
  if r.client = false then ⟨r.ttl, .returned (some "lock: redis client not configured")⟩
  else if r.callback = false then ⟨r.ttl, .returned (some "lock: callback not provided")⟩
  else ⟨if r.ttl ≤ 0 then 30 * Lib.Durations.second else r.ttl, .setNX⟩

def unknownCommand (err : String) : Bool :=
  "unknown command".toList <:+: (toLower err).toList

/-- After the script has given an error. -/
def afterEval (err : String) (expires : Option Int) (result : Option String) : Pc :=
  if unknownCommand err then .del expires result else .returned result

def lockStep (i : Nat) (s : Shared) (t : Caller) (x : Input) : Option (Shared × Caller) :=
  match t.pc, x with
  | .setNX, .ok =>
    match s.setNX i t.ttl with
    | (false, s') => some (s', t.goto .waiting)
    | (true, s') => some (s', t.goto (.inside (s.now + t.ttl)))
  | .setNX, .fail err => some (s, t.goto (.returned (some err)))
  | .setNX, .lost err => some ((s.setNX i t.ttl).2, t.goto (.returned (some err)))
  | .waiting, .ok => some (s, t.goto .setNX)
  | .waiting, .canceled err => some (s, t.goto (.returned (some err)))
  | .inside expires, .finish err => some (s, t.goto (.eval expires err))
  | .eval _ result, .ok => some (s.delIfToken i, t.goto (.returned result))
  | .eval expires result, .fail err => some (s, t.goto (afterEval err (some expires) result))
  | .eval _ result, .lost err => some (s.delIfToken i, t.goto (afterEval err none result))
  -- the error of the second way is discarded
  | .del _ result, .ok => some (s.del, t.goto (.returned result))
  | .del _ result, .fail _ => some (s, t.goto (.returned result))
  | .del _ result, .lost _ => some (s.del, t.goto (.returned result))
  | _, _ => none

def lockMachine : Machine Shared Caller Request Input Nat where
  start := start
  lstep := lockStep
  estep s n := some { s with now := s.now + n }

abbrev State := Sys Shared Caller

abbrev Label := Act Request Input Nat

/-- The end of the lease that the caller has taken and not released. -/
def Caller.lease (t : Caller) : Option Int :=
  match t.pc with
  | .inside expires | .eval expires _ => some expires
  | .del expires _ => expires
  | _ => none

def OneHolder (c : State) : Prop :=
  ∀ (i j : Nat) (t u : Caller) (e f : Int), c.threads[i]? = some t → c.threads[j]? = some u →
    t.lease = some e → u.lease = some f → c.shared.now < e → c.shared.now < f → i = j

/-- No step of a caller takes away a lease under the token of another. -/
def KeepsOthers (c : State) (a : Label) : Prop :=
  ∀ d, lockMachine.step c a = some d → ∀ i x l, a = .act i x → c.shared.live = some l →
    d.shared.live ≠ some l → l.token = i

def Caller.deletes (t : Caller) : Input → Bool
  | .ok | .lost _ => match t.pc with
    | .del _ _ => true
    | _ => false
  | _ => false

/-- The key is deleted without looking only where no lease of another is stored. -/
def DeletesOwn (c : State) : Label → Prop
  | .act i x => ∀ t ∈ c.threads[i]?, t.deletes x = true → ∀ l ∈ c.shared.live, l.token = i
  | _ => True

instance (c : State) (a) : Decidable (DeletesOwn c a) := by
  cases a <;> dsimp only [DeletesOwn] <;> infer_instance

/-! ## What one step can do -/

inductive Effect (i : Nat) (s : Shared) (t : Caller) (x : Input) : Shared → Caller → Prop where
  | quiet {t' : Caller} (hd : t.deletes x = false)
      (hl : ∀ e, t'.lease = some e → t.lease = some e) : Effect i s t x s t'
  | takes {t' : Caller} {e} (hd : t.deletes x = false) (hs : s.live = none)
      (hl : ∀ f, t'.lease = some f → f = e) : Effect i s t x { s with key := some ⟨i, e⟩ } t'
  | releases {t' : Caller} (hd : t.deletes x = false) (hl : t'.lease = none) :
      Effect i s t x (s.delIfToken i) t'
  | deletes {t' : Caller} (hd : t.deletes x = true) (hl : t'.lease = none) : Effect i s t x s.del t'

variable {i j : Nat} {s s' : Shared} {t t' u : Caller} {x : Input} {c d : State} {a : Label}

theorem afterEval_lease {err : String} {expires : Option Int} {result : Option String} {e : Int}
    (h : (t.goto (afterEval err expires result)).lease = some e) : expires = some e := by
  unfold afterEval at h
  split at h
  · exact h
  · cases h

theorem lock_effect (h : lockStep i s t x = some (s', t')) : Effect i s t x s' t' := by
  unfold lockStep at h
  split at h <;> rename_i hpc
  · -- SETNX
    cases hlive : s.live with
    | some l =>
      simp only [Shared.setNX, hlive] at h
      cases h
      exact .quiet (by simp [Caller.deletes, hpc]) nofun
    | none =>
      simp only [Shared.setNX, hlive] at h
      cases h
      refine .takes (by simp [Caller.deletes, hpc]) hlive fun f hf => ?_
      exact (Option.some.inj hf).symm
  · cases h
    exact .quiet rfl nofun
  · cases hlive : s.live with
    | some l =>
      simp only [Shared.setNX, hlive] at h
      cases h
      exact .quiet (by simp [Caller.deletes, hpc]) nofun
    | none =>
      simp only [Shared.setNX, hlive] at h
      cases h
      exact .takes (by simp [Caller.deletes, hpc]) hlive nofun
  · cases h
    exact .quiet (by simp [Caller.deletes, hpc]) nofun
  · cases h
    exact .quiet rfl nofun
  · cases h
    refine .quiet rfl fun e he => ?_
    rw [Caller.lease, hpc]
    exact he
  · cases h
    exact .releases (by simp [Caller.deletes, hpc]) rfl
  · cases h
    refine .quiet rfl fun e he => ?_
    rw [Caller.lease, hpc]
    exact afterEval_lease he
  · cases h
    refine .releases (by simp [Caller.deletes, hpc]) ?_
    unfold afterEval
    split <;> rfl
  · cases h
    exact .deletes (by simp [Caller.deletes, hpc]) rfl
  · cases h
    exact .quiet rfl nofun
  · cases h
    exact .deletes (by simp [Caller.deletes, hpc]) rfl
  · cases h

theorem live_of_key {l : Lease} (h : s.key = some l) (hl : s.now < l.expiresAt) :
    s.live = some l := by
  simp [Shared.live, h, hl]

theorem Effect.keeps {l : Lease} (h : Effect i s t x s' t') (hl : s.live = some l)
    (htoken : l.token ≠ i) : t.deletes x = false ∧ s' = s ∨ t.deletes x = true ∧ s' = s.del := by
  cases h with
  | quiet hd _ => exact .inl ⟨hd, rfl⟩
  | takes _ hs _ =>
    rw [hl] at hs
    cases hs
  | releases hd _ =>
    refine .inl ⟨hd, ?_⟩
    simp [Shared.delIfToken, hl, htoken]
  | deletes hd _ => exact .inr ⟨hd, rfl⟩

/-! ## The caller and the stored token -/

/-- While its lease has not expired, the caller's token is stored. -/
def Stored (i : Nat) (s : Shared) (t : Caller) : Prop :=
  ∀ e, t.lease = some e → s.now < e → s.key = some ⟨i, e⟩

theorem start_lease (r : Request) : (start r).lease = none := by
  unfold start
  split
  · rfl
  · split <;> rfl

theorem stored_own (h : Stored i s t) (he : Effect i s t x s' t') : Stored i s' t' := by
  intro e hlease hnow
  cases he with
  | quiet _ hl => exact h e (hl e hlease) hnow
  | takes _ _ hl => rw [hl e hlease]
  | releases _ hl | deletes _ hl =>
    rw [hl] at hlease
    cases hlease

theorem stored_other (h : Stored j s u) (hj : j ≠ i) (he : Effect i s t x s' t')
    (hc : t.deletes x = true → ∀ l ∈ s.live, l.token = i) : Stored j s' u := by
  have hnow : s'.now = s.now := by
    cases he with
    | releases _ _ =>
      unfold Shared.delIfToken
      split <;> rfl
    | _ => rfl
  intro e hlease hlt
  rw [hnow] at hlt
  have hkey := h e hlease hlt
  have hlive := live_of_key hkey hlt
  rcases he.keeps hlive hj with ⟨_, rfl⟩ | ⟨hd, _⟩
  · exact hkey
  · exact absurd (hc hd _ hlive) hj

theorem stored_step (hg : Guarded (fun _ _ => True) Stored c) (hc : DeletesOwn c a)
    (h : lockMachine.step c a = some d) : Guarded (fun _ _ => True) Stored d := by
  refine guarded_step hg h ?_ ?_ ?_
  · intro r _
    refine ⟨trivial, fun e he => ?_⟩
    rw [show (lockMachine.start r).lease = none from start_lease r] at he
    cases he
  · rintro i x t s' t' rfl ht hl
    have heff := lock_effect hl
    exact ⟨trivial, stored_own (hg.2 i t ht) heff,
      fun j u hj hu => stored_other (hg.2 j u hu) hj heff (hc t ht)⟩
  · intro n s' he
    obtain rfl := Option.some.inj he
    refine ⟨trivial, fun j u hu e hlease hlt => hg.2 j u hu e hlease ?_⟩
    simp only at hlt
    omega

theorem oneHolder_of_stored (hg : Guarded (fun _ _ => True) Stored c) : OneHolder c := by
  intro i j t u e f hi hj ht hu he hf
  have hkey := (hg.2 i t hi e ht he).symm.trans (hg.2 j u hj f hu hf)
  exact congrArg Lease.token (Option.some.inj hkey)

theorem keepsOthers_iff (h : lockMachine.step c a = some d) :
    KeepsOthers c a ↔ DeletesOwn c a := by
  cases a with
  | spawn r | env n => exact iff_of_true (fun _ _ _ _ _ he => nomatch he) trivial
  | act i x =>
    obtain ⟨t, s', t', ht, hl, rfl⟩ := Machine.step_act h
    have heff := lock_effect hl
    constructor
    · intro hk u hu hd l hlive
      obtain rfl : t = u := Option.some.inj (ht.symm.trans hu)
      by_contra htoken
      rcases heff.keeps hlive htoken with ⟨hd', _⟩ | ⟨_, rfl⟩
      · rw [hd] at hd'
        cases hd'
      · exact htoken (hk _ h i x l rfl hlive (by simp [Shared.live, Shared.del]))
    · rintro hc d hd j y l heq hlive hgone
      cases heq
      obtain rfl : _ = d := Option.some.inj (h.symm.trans hd)
      by_contra htoken
      rcases heff.keeps hlive htoken with ⟨_, rfl⟩ | ⟨hdel, _⟩
      · exact hgone hlive
      · exact htoken (hc t ht hdel l hlive)

/-- Along every run of callers on a key that nobody holds, no release deletes a lease
under the token of another and at most one caller holds an unexpired lease, exactly
when no key is deleted without looking while it holds the lease of another. -/
theorem one_holder_iff (now : Int) (acts : List Label) (c : State)
    (hr : run lockMachine.step ⟨⟨now, none⟩, []⟩ acts = some c) :
    (∀ n d, run lockMachine.step ⟨⟨now, none⟩, []⟩ (acts.take n) = some d →
      OneHolder d ∧ ∀ a, acts[n]? = some a → KeepsOthers d a) ↔
      Meets lockMachine.step DeletesOwn ⟨⟨now, none⟩, []⟩ acts := by
  constructor
  · intro h
    refine (meets_iff hr).mpr fun n d a hd ha => ?_
    obtain ⟨e, he⟩ := run_next hr hd ha
    exact (keepsOthers_iff he).mp ((h n d hd).2 a ha)
  · intro hm n d hd
    refine ⟨oneHolder_of_stored (run_take_inv (fun _ _ _ hg hc hs => stored_step hg hc hs)
      (guarded_start trivial) hm hd), fun a ha => ?_⟩
    obtain ⟨e, he⟩ := run_next hr hd ha
    exact (keepsOthers_iff he).mpr ((meets_iff hr).mp hm n d a hd ha)

/-! ## Runs on one key -/

def locks (i : Nat) : List Label := [.spawn ⟨true, true, 10⟩, .act i .ok]

def releasesWithoutScript (i : Nat) : List Label :=
  [.act i (.finish none), .act i (.fail "ERR unknown command 'eval'"), .act i .ok]

theorem released_in_time :
    ∃ c, run lockMachine.step ⟨⟨0, none⟩, []⟩ (locks 0 ++ releasesWithoutScript 0 ++ locks 1) =
        some c ∧
      c.threads.map Caller.lease = [none, some 10] ∧ OneHolder c := by
  refine reaches_and (by decide +kernel) fun c hc _ => ?_
  have hall := (one_holder_iff 0 _ c hc).mpr (by decide +kernel)
  exact (hall _ c (run_take_length hc)).1

/-- Caller 0 outlives its lease and deletes that of caller 1, so that caller 2 gets the
lock as well. -/
theorem lease_of_another_deleted :
    (∃ c, run lockMachine.step ⟨⟨0, none⟩, []⟩
        (locks 0 ++ .env 10 :: locks 1 ++ releasesWithoutScript 0) = some c ∧
      c.shared.key = none ∧ c.threads.map Caller.lease = [none, some 20]) ∧
    ∃ d, run lockMachine.step ⟨⟨0, none⟩, []⟩
        (locks 0 ++ .env 10 :: locks 1 ++ releasesWithoutScript 0 ++ locks 2) = some d ∧
      d.shared.now = 10 ∧ d.threads.map Caller.lease = [none, some 20, some 20] :=
  ⟨reaches (by decide +kernel), reaches (by decide +kernel)⟩

end TokoApi.Lock
