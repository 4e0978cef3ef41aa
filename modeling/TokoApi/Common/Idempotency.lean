import TokoApi.Lib.Bytes
import TokoApi.Lib.Keys
import TokoApi.Lib.Threads

/-!
# The Idempotency-Key middleware

`Idem.Middleware` (common/idempotency.go) in front of the routes that write carts and
place orders. A request with a key sets a lock in Redis before it is handled, and is
refused where the lock is there. The lock is made of the key alone: not of the caller,
the method or the path. It is set before the outcome is known, and stays after a request
that has failed; `RequireAuth` stands behind the middleware, so this includes a request
that was never allowed.
-/
namespace TokoApi.Common

open Lib.Bytes Lib.Redis Lib.Runs Lib.Threads

/-- The fields of the middleware; `redis` says that there is a client. -/
structure Idem where
  redis : Bool
  ttl : Int
  sha256 : List UInt8 → List UInt8

def Idem.hashKey (i : Idem) (key : String) : String :=
  "idem:" ++ String.ofList (encodeHex (i.sha256 (textBytes key)))

/-- A request, with whoever sends it. The key is empty where the header is missing. -/
structure Request where
  caller : String
  method : String
  path : String
  idempotencyKey : String
  deriving DecidableEq

/-- `expiring` and `answered` are after the handler, which has written a status;
`replayed` is 409 IDEMPOTENT_REPLAY, and `unavailable` is 500 INTERNAL. -/
inductive Pc where
  | arrived
  | handling
  | expiring (status : Nat)
  | answered (status : Nat)
  | replayed
  | unavailable (err : String)
  deriving DecidableEq

structure Thread where
  request : Request
  pc : Pc
  deriving DecidableEq

structure Store where
  now : Int
  keys : Keys String

/-- The outcome of a call of Redis, or the status that the handler writes. -/
structure Input where
  call : Call
  status : Nat

def Idem.guards (i : Idem) (r : Request) : Bool := r.idempotencyKey ≠ "" && i.redis

def Idem.middlewareStep (i : Idem) (s : Store) (t : Thread) (x : Input) : Option (Store × Thread) :=
  match t.pc with
  | .arrived =>
    if i.guards t.request then
      match x.call with
      | .fail err => some (s, { t with pc := .unavailable err })
      | .ok =>
        match s.keys.setNX s.now i.ttl (i.hashKey t.request.idempotencyKey) with
        | (false, _) => some (s, { t with pc := .replayed })
        | (true, keys) => some ({ s with keys := keys }, { t with pc := .handling })
    else some (s, { t with pc := .handling })
  | .handling =>
    some (s, { t with pc := if i.guards t.request then .expiring x.status else .answered x.status })
  -- the deferred call, whose error is ignored
  | .expiring status =>
    match x.call with
    | .fail _ => some (s, { t with pc := .answered status })
    | .ok => some ({ s with keys := s.keys.expire s.now i.ttl (i.hashKey t.request.idempotencyKey) },
        { t with pc := .answered status })
  | .answered _ | .replayed | .unavailable _ => none

/-- Requests of any callers; the environment lets time pass. -/
def Idem.machine (i : Idem) : Machine Store Thread Request Input Nat where
  start r := ⟨r, .arrived⟩
  lstep _ s t x := i.middlewareStep s t x
  estep s d := some { s with now := s.now + d }

abbrev State := Sys Store Thread

def Thread.lock (i : Idem) (t : Thread) : Option String :=
  if i.guards t.request then
    match t.pc with
    | .handling | .expiring _ | .answered _ => some (i.hashKey t.request.idempotencyKey)
    | _ => none
  else none

def Thread.succeeded (t : Thread) : Bool :=
  match t.pc with
  | .expiring status | .answered status => 200 ≤ status && status < 300
  | _ => false

/-! ## Conditions on the steps of a run -/

/-- Redis answers, and no lock that was set has expired. -/
def Working (i : Idem) (c : State) : Act Request Input Nat → Prop
  | .act _ x => x.call = .ok ∧
      ∀ t ∈ c.threads, ∀ k ∈ t.lock i, (c.shared.keys k).held c.shared.now = true
  | _ => True

def replays (i : Idem) (c : State) (j : Nat) (x : Input) : Option Request :=
  (c.threads[j]?).bind fun t =>
    ((i.middlewareStep c.shared t x).filter fun p => p.2.pc = .replayed).map fun _ => t.request

/-- A request is answered as a replay only after one with the same caller, method, path and
key has been carried out with success. -/
def Justified (i : Idem) (c : State) : Act Request Input Nat → Prop
  | .act j x => ∀ r ∈ replays i c j x, ∃ t ∈ c.threads, t.request = r ∧ t.succeeded = true
  | _ => True

/-- The request that the middleware sees next, if it guards it. -/
def nextGuarded (i : Idem) (c : State) (j : Nat) : Option Request :=
  (c.threads[j]?).bind fun t => if t.pc = .arrived ∧ i.guards t.request then some t.request else none

/-- When a request with a key comes, whoever holds the lock of that key has sent the same
request, and it has been carried out with success. -/
def Orderly (i : Idem) (c : State) : Act Request Input Nat → Prop
  | .act j _ => ∀ r ∈ nextGuarded i c j, ∀ t ∈ c.threads,
      t.lock i = some (i.hashKey r.idempotencyKey) → t.request = r ∧ t.succeeded = true
  | _ => True

instance (i : Idem) (c : State) (a) : Decidable (Working i c a) := by
  cases a <;> dsimp only [Working] <;> infer_instance

instance (i : Idem) (c : State) (a) : Decidable (Justified i c a) := by
  cases a <;> dsimp only [Justified] <;> infer_instance

instance (i : Idem) (c : State) (a) : Decidable (Orderly i c a) := by
  cases a <;> dsimp only [Orderly] <;> infer_instance

/-! ## Locks and the requests that have set them -/

variable {i : Idem} {c d : State} {s s' : Store} {t t' : Thread} {x : Input} {j : Nat} {r : Request}

inductive MiddlewareEffect (i : Idem) (s : Store) (t : Thread) (x : Input) : Store → Thread → Prop where
  | passes (hpc : t.pc = .arrived) (hg : i.guards t.request = false) :
      MiddlewareEffect i s t x s { t with pc := .handling }
  | fails {err} (hx : x.call = .fail err) :
      MiddlewareEffect i s t x s { t with pc := .unavailable err }
  | refused (hpc : t.pc = .arrived) (hg : i.guards t.request = true)
      (hheld : (s.keys (i.hashKey t.request.idempotencyKey)).held s.now = true) :
      MiddlewareEffect i s t x s { t with pc := .replayed }
  | locks {keys} (hpc : t.pc = .arrived) (hg : i.guards t.request = true)
      (hset : s.keys.setNX s.now i.ttl (i.hashKey t.request.idempotencyKey) = (true, keys)) :
      MiddlewareEffect i s t x { s with keys := keys } { t with pc := .handling }
  | handled {pc} (hpc : t.pc = .handling)
      (hpc' : pc = if i.guards t.request then .expiring x.status else .answered x.status) :
      MiddlewareEffect i s t x s { t with pc := pc }
  | finished {status keys} (hpc : t.pc = .expiring status)
      (hkeys : ∀ k, keys k ≠ .absent → s.keys k ≠ .absent) :
      MiddlewareEffect i s t x { s with keys := keys } { t with pc := .answered status }

theorem middleware_effect (h : i.middlewareStep s t x = some (s', t')) :
    MiddlewareEffect i s t x s' t' := by
  obtain ⟨r, pc⟩ := t
  cases pc with
  | arrived =>
    simp only [Idem.middlewareStep] at h
    split at h
    · rename_i hg
      split at h
      · cases h
        exact .fails ‹_›
      · split at h
        · rename_i hset
          cases h
          exact .refused rfl hg (held_of_refused hset)
        · rename_i hset
          cases h
          exact .locks rfl hg hset
    · rename_i hg
      cases h
      exact .passes rfl (Bool.not_eq_true _ ▸ hg)
  | handling =>
    cases h
    exact .handled rfl rfl
  | expiring status =>
    simp only [Idem.middlewareStep] at h
    split at h <;> cases h
    · exact .finished rfl fun _ hk => hk
    · exact .finished rfl fun _ hk => expire_ne_absent hk
  | answered status | replayed | unavailable err => cases h

structure Locked (i : Idem) (c : State) : Prop where
  owned : ∀ k, c.shared.keys k ≠ .absent → ∃ t ∈ c.threads, t.lock i = some k
  once : Once (Thread.lock i) c.threads

theorem Locked.set (h : Locked i c) (ht : c.threads[j]? = some t)
    (hkeys : ∀ k, s'.keys k ≠ .absent → c.shared.keys k ≠ .absent) (hlock : t'.lock i = t.lock i) :
    Locked i ⟨s', c.threads.set j t'⟩ := by
  refine ⟨fun k hk => exists_mem_set ht (hlock ▸ id) (h.owned k (hkeys k hk)), h.once.set ?_⟩
  rintro k hk ⟨l, u, hlj, hl, hu⟩
  exact hlj (h.once l j u t k hl ht hu (hlock ▸ hk))

theorem lock_of_guards (hg : i.guards r = true) :
    (⟨r, .handling⟩ : Thread).lock i = some (i.hashKey r.idempotencyKey) := by
  unfold Thread.lock
  rw [if_pos hg]

theorem lock_of_not {pc : Pc} (hg : i.guards r = false) :
    (⟨r, pc⟩ : Thread).lock i = none := by
  unfold Thread.lock
  rw [hg]
  rfl

theorem lock_of_arrived : (⟨r, .arrived⟩ : Thread).lock i = none := by
  unfold Thread.lock
  split <;> rfl

theorem locked_act (h : Locked i c) (ht : c.threads[j]? = some t) (hw : Working i c (.act j x))
    (hs : i.middlewareStep c.shared t x = some (s', t')) : Locked i ⟨s', c.threads.set j t'⟩ := by
  obtain ⟨r, pc⟩ := t
  cases middleware_effect hs with
  | passes hpc hg => exact h.set ht (fun _ hk => hk) ((lock_of_not hg).trans (lock_of_not hg).symm)
  | fails hx => cases hw.1.symm.trans hx
  | refused hpc hg _ =>
    cases hpc
    refine h.set ht (fun _ hk => hk) (Eq.trans ?_ lock_of_arrived.symm)
    unfold Thread.lock
    split <;> rfl
  | @locks keys hpc hg hset =>
    cases hpc
    obtain ⟨hfree, rfl⟩ := taken_inv hset
    refine ⟨fun k hk => ?_, h.once.set ?_⟩
    · by_cases hkey : k = i.hashKey r.idempotencyKey
      · exact (exists_mem_set_iff_others ht).mpr (.inl (hkey ▸ lock_of_guards hg))
      · dsimp only at hk
        rw [Function.update_of_ne hkey] at hk
        refine exists_mem_set ht (fun hself => ?_) (h.owned k hk)
        cases lock_of_arrived.symm.trans hself
    · -- a request with this lock would still hold it
      rintro k hk ⟨l, u, -, hl, hu⟩
      cases (lock_of_guards hg).symm.trans hk
      rw [hw.2 u (List.mem_of_getElem? hl) _ hu] at hfree
      cases hfree
  | handled hpc hpc' =>
    cases hpc
    refine h.set ht (fun _ hk => hk) ?_
    rw [hpc']
    unfold Thread.lock
    cases hg : i.guards r <;> simp
  | finished hpc hkeys =>
    cases hpc
    refine h.set ht hkeys ?_
    unfold Thread.lock
    rfl

theorem locked_step {a : Act Request Input Nat} (h : Locked i c) (hw : Working i c a)
    (hs : i.machine.step c a = some d) : Locked i d := by
  cases Machine.step_effect hs with
  | spawn r =>
    refine ⟨fun k hk => ?_, h.once.concat lock_of_arrived⟩
    obtain ⟨t, ht, hlk⟩ := h.owned k hk
    exact ⟨t, List.mem_append_left _ ht, hlk⟩
  | act ht hl =>
    exact locked_act h ht hw hl
  | env hl =>
    cases hl
    exact ⟨h.owned, h.once⟩

theorem replays_iff (hx : x.call = .ok) :
    r ∈ replays i c j x ↔ r ∈ nextGuarded i c j ∧
      (c.shared.keys (i.hashKey r.idempotencyKey)).held c.shared.now = true := by
  unfold replays nextGuarded
  cases c.threads[j]? with
  | none => simp
  | some t =>
    obtain ⟨r', pc⟩ := t
    simp only [Option.bind_some, Idem.middlewareStep, hx]
    cases pc with
    | arrived =>
      cases hg : i.guards r' with
      | false => simp
      | true =>
        simp only [if_true, and_self]
        cases hheld : (c.shared.keys (i.hashKey r'.idempotencyKey)).held c.shared.now with
        | true =>
          rw [setNX_refused hheld]
          refine (and_iff_left_of_imp fun hr => ?_).symm
          cases Option.some.inj hr
          exact hheld
        | false =>
          rw [setNX_taken hheld]
          refine iff_of_false (Option.not_mem_none r) fun h => ?_
          cases Option.some.inj h.1
          rw [hheld] at h
          cases h.2
    | handling => cases i.guards r' <;> simp
    | _ => simp

theorem nextGuarded_guards (h : r ∈ nextGuarded i c j) : i.guards r = true := by
  obtain ⟨t, _, ht⟩ := Option.bind_eq_some_iff.mp h
  split at ht
  · rename_i hg
    cases ht
    exact hg.2
  · cases ht

theorem succeeded_lock (hg : i.guards r = true) (hr : t.request = r)
    (hs : t.succeeded = true) : t.lock i = some (i.hashKey r.idempotencyKey) := by
  obtain ⟨r', pc⟩ := t
  cases hr
  unfold Thread.lock
  cases pc with
  | expiring status | answered status => rw [if_pos hg]
  | _ => cases hs

theorem justified_iff_orderly {a : Act Request Input Nat} (h : Locked i c) (hw : Working i c a) :
    Justified i c a ↔ Orderly i c a := by
  cases a with
  | spawn r | env e => exact Iff.rfl
  | act j x =>
    constructor
    · intro hj r hr t ht hlock
      have hreplay := (replays_iff hw.1).mpr ⟨hr, hw.2 t ht _ hlock⟩
      obtain ⟨u, hu, hreq, hsucc⟩ := hj r hreplay
      -- only one request has set the lock
      have hulock := succeeded_lock (nextGuarded_guards hr) hreq hsucc
      obtain ⟨a, ha⟩ := List.mem_iff_getElem?.mp ht
      obtain ⟨b, hb⟩ := List.mem_iff_getElem?.mp hu
      obtain rfl := h.once a b t u _ ha hb hlock hulock
      cases ha.symm.trans hb
      exact ⟨hreq, hsucc⟩
    · intro ho r hr
      obtain ⟨hnext, hheld⟩ := (replays_iff hw.1).mp hr
      have hset : c.shared.keys (i.hashKey r.idempotencyKey) ≠ .absent := by
        intro habsent
        rw [habsent] at hheld
        cases hheld
      obtain ⟨t, ht, hlock⟩ := h.owned _ hset
      exact ⟨t, ht, ho r hnext t ht hlock⟩

/-- In every run of requests by any callers, in any interleaving, while Redis answers and no
lock expires: requests are refused as replays only for ones that the same caller has made
with success exactly if, whenever a request with a key comes, the one that has set the lock
of this key was the same and has succeeded. -/
theorem replays_justified_iff (i : Idem) (s₀ : Store) (hempty : ∀ k, s₀.keys k = .absent)
    (acts : List (Act Request Input Nat)) (c : State)
    (hr : run i.machine.step ⟨s₀, []⟩ acts = some c)
    (hworking : Meets i.machine.step (Working i) ⟨s₀, []⟩ acts) :
    Meets i.machine.step (Justified i) ⟨s₀, []⟩ acts ↔
      Meets i.machine.step (Orderly i) ⟨s₀, []⟩ acts := by
  have hstart : Locked i ⟨s₀, []⟩ := ⟨fun k hk => absurd (hempty k) hk, Once.nil⟩
  exact meets_congr_of_meets (fun _ _ _ h hw hs => locked_step h hw hs)
    (fun _ _ _ h hw _ => justified_iff_orderly h hw) hstart hworking hr

def dayIdem : Idem := ⟨true, 86400, id⟩

def carriedOut (j : Nat) (r : Request) (status : Nat) : List (Act Request Input Nat) :=
  .spawn r :: List.replicate 3 (.act j ⟨.ok, status⟩)

def refusedAt (j : Nat) (r : Request) : List (Act Request Input Nat) :=
  [.env 1, .spawn r, .act j ⟨.ok, 0⟩]

def checkoutBy (caller : String) : Request := ⟨caller, "POST", "/api/v1/checkout", "1"⟩

/-- A customer sends the checkout again after it was answered with the status. -/
def sentAgain (status : Nat) : List (Act Request Input Nat) :=
  carriedOut 0 (checkoutBy "user-1") status ++ refusedAt 1 (checkoutBy "user-1")

/-- The second customer's checkout has the key of the first one's cart. -/
def sharedKey : List (Act Request Input Nat) :=
  carriedOut 0 ⟨"user-1", "POST", "/api/v1/carts", "1"⟩ 201 ++ refusedAt 1 (checkoutBy "user-2")

def serving (acts : List (Act Request Input Nat)) : Option State :=
  run dayIdem.machine.step ⟨⟨0, .empty⟩, []⟩ acts

theorem repeated_checkout_justified :
    ∃ c, serving (sentAgain 201) = some c ∧ c.threads.map Thread.pc = [.answered 201, .replayed] ∧
      Meets dayIdem.machine.step (Justified dayIdem) ⟨⟨0, .empty⟩, []⟩ (sentAgain 201) :=
  reaches_and (by decide +kernel) fun c hc _ =>
    (replays_justified_iff dayIdem ⟨0, .empty⟩ (fun _ => rfl) _ c hc (by decide +kernel)).mpr
      (by decide +kernel)

/-- A customer is refused because another one has used the key, and one whose session had
expired (401) is refused after logging in again. -/
theorem keys_block_others :
    (Meets dayIdem.machine.step (Working dayIdem) ⟨⟨0, .empty⟩, []⟩ sharedKey ∧
      ¬ Meets dayIdem.machine.step (Justified dayIdem) ⟨⟨0, .empty⟩, []⟩ sharedKey ∧
      ∃ c, serving sharedKey = some c ∧ c.threads.map Thread.pc = [.answered 201, .replayed]) ∧
    Meets dayIdem.machine.step (Working dayIdem) ⟨⟨0, .empty⟩, []⟩ (sentAgain 401) ∧
      ¬ Meets dayIdem.machine.step (Justified dayIdem) ⟨⟨0, .empty⟩, []⟩ (sentAgain 401) ∧
      ∃ c, serving (sentAgain 401) = some c ∧
        c.threads.map Thread.pc = [.answered 401, .replayed] :=
  ⟨⟨by decide +kernel, by decide +kernel, reaches (by decide +kernel)⟩, by decide +kernel,
    by decide +kernel, reaches (by decide +kernel)⟩

end TokoApi.Common
