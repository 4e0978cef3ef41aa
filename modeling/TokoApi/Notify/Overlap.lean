import TokoApi.Lock.WithLock
import TokoApi.Notify.Effects

/-!
# Processors that overlap

`WorkOnce`, `DeliverByID` and `DeliveryWorker.Handle` side by side, one step for each
call that reads or writes deliveries, next to `Schedule` and `ReplayDelivery`. `Handle`
works under the Redis lock of its delivery and the other two without. Every processor
goes on with the row as it has read it, and its updates ask for nothing but the key.

A row that is DELIVERED or DLQ should stay so until it is reset. A processor that has
the row in hand when another one settles it breaks this: its next update takes the row
back. Where that does not happen, whatever a processor has in hand is open, and so no
update finds a settled row.
-/
namespace TokoApi.Notify

open Lib.Durations Lib.Runs Lib.Text Lib.Threads

structure DeliveryWorker where
  dispatcher : Dispatcher
  lockTTL : Int

structure World where
  now : Int
  store : Store
  locks : String → Option Lock.Lease

/-- What the lock's commands see of a key. -/
def World.lock (s : World) (key : String) : Lock.Shared := ⟨s.now, s.locks key⟩

inductive Request where
  | workOnce (batch : Int)
  | deliverByID (deliveryID : String)
  | handle (payload : String)

/-- Where a processor stands. `batch` has the rows that `WorkOnce` has read and not yet
come to. -/
inductive Processor where
  | dequeue (batch : Int)
  | batch (pc : HandlePc) (rest : List (Nat × WebhookDelivery))
  | single (pc : HandlePc)
  | locking (key payload : String) (lock : Lock.Caller)
  | locked (key payload : String) (lock : Lock.Caller) (pc : HandlePc)
  | done

inductive Answer where
  | dequeue (c : Call)
  | deliver (a : Answers)
  | lock (x : Lock.Input)

namespace DeliveryWorker

variable (w : DeliveryWorker)

def start : Request → Processor
  | .workOnce batch =>
    if w.dispatcher.enabled then .dequeue (if batch ≤ 0 then 1 else batch) else .done
  | .deliverByID deliveryID => .single (.load deliveryID)
  | .handle payload =>
    let deliveryID := trimSpace payload
    if deliveryID = "" then .done
    else
      let ttl := if w.lockTTL ≤ 0 then 30 * second else w.lockTTL
      .locking ("lock:delivery:" ++ deliveryID) payload (Lock.start ⟨true, true, ttl⟩)

def nextRow : List (Nat × WebhookDelivery) → Processor
  | [] => .done
  | (id, del) :: rest => .batch (.process id del) rest

def afterLock (key payload : String) (lock : Lock.Caller) : Processor :=
  match lock.pc with
  | .inside _ => .locked key payload lock (.deliver payload)
  | _ => .locking key payload lock

/-- One statement of a delivery, and what the processor does after it. -/
def advance (s : World) (a : Answers) (pc : HandlePc) (more : HandlePc → Processor)
    (finish : Next → Option Processor) : Option (World × Processor) :=
  match deliverStep w.dispatcher s.now s.store a pc with
  | none => none
  | some (store, .inl pc') => some ({ s with store := store }, more pc')
  | some (store, .inr next) => (finish next).map fun t => ({ s with store := store }, t)

def processorStep (i : Nat) (s : World) : Processor → Answer → Option (World × Processor)
  | .dequeue _, .dequeue (.fail _) => some (s, .done)
  | .dequeue batch, .dequeue .ok =>
    some (s, nextRow (dequeueDueDeliveries s.store s.now batch.toNat))
  -- the error of a delivery is recorded, and the loop goes on
  | .batch pc rest, .deliver a =>
    w.advance s a pc (fun pc' => .batch pc' rest) fun _ => some (nextRow rest)
  | .single pc, .deliver a => w.advance s a pc .single fun _ => some .done
  | .locking key payload lock, .lock x =>
    (Lock.lockStep i (s.lock key) lock x).map fun p =>
      ({ s with locks := Function.update s.locks key p.1.key }, afterLock key payload p.2)
  | .locked key payload lock pc, .deliver a =>
    w.advance s { a with lock := .ok } pc (.locked key payload lock) fun next =>
      let err := match next with
        | .ret err => err
        | .enqueue _ => none
      (Lock.lockStep i (s.lock key) lock (.finish err)).map fun p => .locking key payload p.2
  | _, _ => none

end DeliveryWorker

inductive Change where
  | tick (n : Nat)
  | schedule (event : Nat) (cs : List Call)
  | replayDelivery (id : Nat) (reset delete release : Call)

def changeStep (d : Dispatcher) (s : World) : Change → Option World
  | .tick n => some { s with now := s.now + n }
  | .schedule event cs => some { s with store := (d.schedule s.now s.store event cs).1 }
  | .replayDelivery id reset delete release =>
    some { s with store := d.replayDelivery s.now s.store id reset delete release }

def processors (w : DeliveryWorker) : Machine World Processor Request Answer Change where
  start := w.start
  lstep := w.processorStep
  estep := changeStep w.dispatcher

abbrev Overlapping := Sys World Processor

abbrev OverlapStep := Act Request Answer Change

/-! ## Rows in hand -/

def HandlePc.inHand : HandlePc → Option Nat
  | .process id _ | .send id _ | .settle id _ _ => some id
  | _ => none

/-- The rows that a processor has read and will still write to. -/
def Processor.inHand : Processor → List Nat
  | .batch pc rest => pc.inHand.toList ++ rest.map Prod.fst
  | .single pc | .locked _ _ _ pc => pc.inHand.toList
  | _ => []

def HandlePc.settles (a : Answers) : HandlePc → Option Nat
  | .settle id del o =>
    if o.success then if a.markDelivered = .ok then some id else none
    else if Dispatcher.exhausted del ∧ a.moveToDLQ = .ok then some id
    else none
  | _ => none

def Processor.settles : Processor → Answer → Option Nat
  | .batch pc _, .deliver a | .single pc, .deliver a | .locked _ _ _ pc, .deliver a => pc.settles a
  | _, _ => none

/-- No row is settled while another processor has it in hand. -/
def SettlesAlone (c : Overlapping) : OverlapStep → Prop
  | .act i x => ∀ t ∈ c.threads[i]?, ∀ id ∈ t.settles x, ∀ u ∈ c.threads.eraseIdx i, id ∉ u.inHand
  | _ => True

instance (c : Overlapping) (a) : Decidable (SettlesAlone c a) := by
  cases a <;> dsimp only [SettlesAlone] <;> infer_instance

def resets : OverlapStep → Option Nat
  | .env (.replayDelivery id _ _ _) => some id
  | _ => none

/-! ## What one statement does -/

variable {d : Dispatcher} {w : DeliveryWorker} {now : Int} {s s' : Store} {id : Nat} {a : Answers}
  {pc : HandlePc} {r : HandlePc ⊕ Next}

open Dispatcher (settledStatus)

theorem status_updateDelivery {f : WebhookDelivery → WebhookDelivery} {v : DeliveryStatus}
    (hf : ∀ row, (f row).status = v) (k : Nat) :
    ((updateDelivery s id f).deliveries.row k).status =
      if k = id ∧ id ∈ s.deliveries.ids then v else (s.deliveries.row k).status := by
  by_cases hk : k = id
  · subst k
    by_cases hid : id ∈ s.deliveries.ids
    · simp [updateDelivery_self hid, hf, hid]
    · simp [updateDelivery, hid]
  · rw [updateDelivery_other hk, if_neg fun h => hk h.1]

theorem HandlePc.inHand_of_settles (h : pc.settles a = some id) : pc.inHand = some id := by
  cases pc with
  | settle k del o =>
    simp only [HandlePc.settles] at h
    split at h
    · split at h <;> cases h
      rfl
    · split at h <;> cases h
      rfl
  | _ => cases h

/-- What the processor has in hand after a statement that does not settle it: what it
had, or an open row that it has just read. -/
def Holds (s : Store) (a : Answers) (pc : HandlePc) : HandlePc ⊕ Next → Prop
  | .inl pc' => pc.settles a = none ∧ (pc'.inHand = pc.inHand ∨
      pc.inHand = none ∧ ∃ k ∈ s.deliveries.ids, pc'.inHand = some k ∧
        settledStatus (s.deliveries.row k).status = false)
  | .inr _ => True

/-- Only the row in hand is written, and only a settling statement leaves it settled. -/
structure Worked (s : Store) (a : Answers) (pc : HandlePc) (s' : Store) (r : HandlePc ⊕ Next) :
    Prop where
  ids : s'.deliveries.ids = s.deliveries.ids
  nextID : s'.nextID = s.nextID
  other : ∀ k, pc.inHand ≠ some k → s'.deliveries.row k = s.deliveries.row k
  settled : ∀ k, settledStatus (s'.deliveries.row k).status = true →
    settledStatus (s.deliveries.row k).status = true ∨ pc.settles a = some k
  next : Holds s a pc r

theorem worked_update {f : WebhookDelivery → WebhookDelivery} {v : DeliveryStatus}
    (hpc : pc.inHand = some id) (hf : ∀ row, (f row).status = v)
    (hv : settledStatus v = true → pc.settles a = some id) (hr : Holds s a pc r) :
    Worked s a pc (updateDelivery s id f) r := by
  refine ⟨updateDelivery_ids, updateDelivery_nextID, fun k hk => ?_, fun k hk => ?_, hr⟩
  · exact updateDelivery_other fun hki => hk (hki ▸ hpc)
  · rw [status_updateDelivery hf] at hk
    split at hk
    · rename_i hid
      exact .inr (hid.1 ▸ hv hk)
    · exact .inl hk

theorem worked_same (hr : Holds s a pc r) : Worked s a pc s r :=
  ⟨rfl, rfl, fun _ _ => rfl, fun _ h => .inl h, hr⟩

theorem Worked.congr {s'' : Store} (h : Worked s a pc s' r) (hd : s''.deliveries = s'.deliveries)
    (hn : s''.nextID = s'.nextID) : Worked s a pc s'' r := by
  refine ⟨hd ▸ h.ids, hn.trans h.nextID, ?_, ?_, h.next⟩
  · rw [hd]
    exact h.other
  · rw [hd]
    exact h.settled

theorem settle_worked {del : WebhookDelivery} {o : Outcome} {next : Next}
    (h : Settled now s id del a o s') : Worked s a (.settle id del o) s' (.inr next) := by
  cases h with
  | delivered ho ha =>
    exact worked_update rfl (fun _ => rfl) (fun _ => by simp [HandlePc.settles, ho, ha]) trivial
  | postponed ho hx ha =>
    exact worked_update rfl (fun _ => rfl) (fun h => absurd h (by decide)) trivial
  | unwritten ha => exact worked_same trivial
  | buried ho hx =>
    unfold Dispatcher.bury
    cases hm : a.moveToDLQ with
    | fail err =>
      have hsame : Worked s a (.settle id del o) s (.inr next) := worked_same trivial
      cases a.insertDlq <;> exact hsame.congr rfl rfl
    | ok =>
      have hmoved : ∀ reason, Worked s a (.settle id del o) (moveToDLQ s id reason) (.inr next) :=
        fun _ => worked_update rfl (fun _ => rfl)
          (fun _ => by simp [HandlePc.settles, ho, hx, hm]) trivial
      cases a.insertDlq <;> exact (hmoved _).congr rfl rfl

theorem deliverStep_worked (h : deliverStep d now s a pc = some (s', r)) : Worked s a pc s' r := by
  cases pc with
  | deliver payload =>
    simp only [deliverStep] at h
    split at h <;> cases h
    · exact worked_same trivial
    · exact worked_same ⟨rfl, .inl rfl⟩
  | load deliveryID =>
    simp only [deliverStep] at h
    split at h
    · cases h
      exact worked_same trivial
    · rename_i k del he
      cases h
      obtain ⟨⟨hk, hrow⟩, hopen⟩ := eligible_row he
      refine worked_same ⟨rfl, .inr ⟨rfl, k, hk, rfl, ?_⟩⟩
      rw [hrow]
      exact hopen
  | process k del =>
    simp only [deliverStep] at h
    split at h <;> cases h
    · exact worked_same trivial
    · exact worked_update rfl (fun _ => rfl) (fun h => absurd h (by decide)) ⟨rfl, .inl rfl⟩
  | send k del =>
    rcases hat : d.attempt now s del a with ⟨s₁, o⟩
    have hframe := attempt_frame d now s del a
    simp only [deliverStep, hat] at h hframe
    obtain ⟨guard, log, rfl⟩ := hframe
    cases h
    have hsame : Worked s a (.send k del) s (.inl (.settle k del o)) :=
      worked_same ⟨rfl, .inl rfl⟩
    exact hsame.congr rfl rfl
  | settle k del o =>
    obtain ⟨rfl, rfl⟩ := Prod.mk.inj (Option.some.inj h)
    exact settle_worked (settle_settled d now s k del a o)
  | enqueue pc => cases h

/-! ## What one step of a processor does -/

/-- The loop of `WorkOnce` is at one of its rows. -/
def Processor.Loaded : Processor → Prop
  | .batch pc _ => pc.inHand ≠ none
  | _ => True

/-- What a processor has in hand is open, and it has no row twice. -/
structure HoldsOpen (s : World) (t : Processor) : Prop where
  nodup : t.inHand.Nodup
  opened : ∀ k ∈ t.inHand,
    k ∈ s.store.deliveries.ids ∧ settledStatus (s.store.deliveries.row k).status = false
  loaded : t.Loaded

/-- What is in hand after a statement. -/
def held : HandlePc ⊕ Next → List Nat
  | .inl pc => pc.inHand.toList
  | .inr _ => []

/-- A step leaves the store alone and leaves what is in hand open, or it is a statement of a delivery
next to rows that have to wait. -/
inductive Moved (s : World) (t : Processor) (x : Answer) : World → Processor → Prop where
  | quiet {s' : World} {t'} (hs : s'.store = s.store) (hx : t.settles x = none)
      (ht : HoldsOpen s t') : Moved s t x s' t'
  | works {a : Answers} {pc : HandlePc} {store : Store} {r : HandlePc ⊕ Next} {rest : List Nat}
      {t' : Processor} (hw : Worked s.store a pc store r) (hx : t.settles x = pc.settles a)
      (hin : t.inHand = pc.inHand.toList ++ rest) (hrest : pc.inHand = none → rest = [])
      (hout : t'.inHand = held r ++ rest) (hloaded : t'.Loaded) :
      Moved s t x { s with store := store } t'

variable {i j : Nat} {x : Answer} {t t' u : Processor} {v v' : World}

theorem nextRow_inHand (rows : List (Nat × WebhookDelivery)) :
    (DeliveryWorker.nextRow rows).inHand = rows.map Prod.fst := by
  cases rows <;> rfl

theorem nextRow_loaded (rows : List (Nat × WebhookDelivery)) :
    (DeliveryWorker.nextRow rows).Loaded := by
  cases rows with
  | nil => trivial
  | cons p rows => exact Option.some_ne_none p.1

theorem nextRow_holdsOpen {limit : Nat} (hk : Keyed v.store) :
    HoldsOpen v (DeliveryWorker.nextRow (dequeueDueDeliveries v.store now limit)) := by
  refine ⟨?_, fun k hin => ?_, nextRow_loaded _⟩
  · rw [nextRow_inHand]
    exact dequeued_nodup hk.nodup
  · rw [nextRow_inHand] at hin
    obtain ⟨p, hp, rfl⟩ := List.mem_map.mp hin
    obtain ⟨hid, hrow, hdue⟩ := dequeued_row hp
    refine ⟨hid, ?_⟩
    rw [hrow]
    cases hs : p.2.status <;> simp [WebhookDelivery.due, hs] at hdue <;> rfl

theorem holdsOpen_of_none (h : t.inHand = []) (hl : t.Loaded) : HoldsOpen v t :=
  ⟨h ▸ List.nodup_nil, fun k hk => by simp [h] at hk, hl⟩

theorem afterLock_holdsOpen (key payload : String) (lock : Lock.Caller) :
    HoldsOpen v (DeliveryWorker.afterLock key payload lock) := by
  unfold DeliveryWorker.afterLock
  split <;> exact holdsOpen_of_none rfl trivial

theorem advance_moved {more : HandlePc → Processor}
    {finish : Next → Option Processor} {rest : List Nat}
    (h : w.advance v a pc more finish = some (v', t')) (hx : t.settles x = pc.settles a)
    (hin : t.inHand = pc.inHand.toList ++ rest) (hrest : pc.inHand = none → rest = [])
    (hmore : ∀ pc', (more pc').inHand = pc'.inHand.toList ++ rest)
    (hloaded : ∀ pc', (pc.inHand ≠ none → pc'.inHand ≠ none) → (more pc').Loaded)
    (hfinish : ∀ next t', finish next = some t' → t'.inHand = rest ∧ t'.Loaded) :
    Moved v t x v' t' := by
  unfold DeliveryWorker.advance at h
  split at h
  · cases h
  · rename_i store pc' hd
    cases h
    have hw := deliverStep_worked hd
    refine .works hw hx hin hrest (hmore pc') (hloaded pc' fun hsome => ?_)
    obtain ⟨_, hsame | ⟨hnone, _⟩⟩ := hw.next
    · rwa [hsame]
    · exact absurd hnone hsome
  · rename_i store next hd
    obtain ⟨t₁, ht₁, heq⟩ := Option.map_eq_some_iff.mp h
    cases heq
    obtain ⟨hin', hl⟩ := hfinish next _ ht₁
    exact .works (deliverStep_worked hd) hx hin hrest (by rw [hin']; rfl) hl

theorem processorStep_moved (hk : Keyed v.store) (ht : HoldsOpen v t)
    (h : w.processorStep i v t x = some (v', t')) : Moved v t x v' t' := by
  unfold DeliveryWorker.processorStep at h
  split at h
  · cases h
    exact .quiet rfl rfl (holdsOpen_of_none rfl trivial)
  · cases h
    exact .quiet rfl rfl (nextRow_holdsOpen hk)
  · rename_i pc rest a
    have hpc : pc.inHand ≠ none := ht.loaded
    refine advance_moved h rfl rfl (fun hnone => absurd hnone hpc) (fun _ => rfl)
      (fun _ hkeep => hkeep hpc) ?_
    intro next t' heq
    cases heq
    exact ⟨nextRow_inHand rest, nextRow_loaded rest⟩
  · rename_i pc a
    refine advance_moved h rfl (List.append_nil _).symm (fun _ => rfl)
      (fun _ => (List.append_nil _).symm) (fun _ _ => trivial) ?_
    intro next t' heq
    cases heq
    exact ⟨rfl, trivial⟩
  · rename_i key payload lock y
    obtain ⟨p, _, heq⟩ := Option.map_eq_some_iff.mp h
    cases heq
    exact .quiet rfl rfl (afterLock_holdsOpen key payload p.2)
  · rename_i key payload lock pc a
    have hx : Processor.settles (.locked key payload lock pc) (.deliver a) =
        pc.settles { a with lock := .ok } := by
      cases pc <;> rfl
    refine advance_moved h hx (List.append_nil _).symm (fun _ => rfl)
      (fun _ => (List.append_nil _).symm) (fun _ _ => trivial) ?_
    intro next t' heq
    obtain ⟨p, _, rfl⟩ := Option.map_eq_some_iff.mp heq
    exact ⟨rfl, trivial⟩
  · cases h

/-! ## What a processor has in hand stays open -/

theorem Worked.keyed {store store' : Store} (h : Worked store a pc store' r) (hk : Keyed store) :
    Keyed store' := by
  refine ⟨fun k hid => ?_, h.ids ▸ hk.nodup⟩
  rw [h.nextID]
  exact hk.fresh k (h.ids ▸ hid)

theorem Moved.keyed (h : Moved v t x v' t') (hk : Keyed v.store) : Keyed v'.store := by
  cases h with
  | quiet hs => exact hs ▸ hk
  | works hw => exact hw.keyed hk

theorem Moved.open (h : Moved v t x v' t') {k : Nat} (hk : k ∈ v.store.deliveries.ids)
    (ho : settledStatus (v.store.deliveries.row k).status = false) (hx : t.settles x ≠ some k) :
    k ∈ v'.store.deliveries.ids ∧
      settledStatus (v'.store.deliveries.row k).status = false := by
  cases h with
  | quiet hs => exact hs ▸ ⟨hk, ho⟩
  | works hw hx' =>
    refine ⟨hw.ids ▸ hk, eq_false_of_ne_true fun hset => ?_⟩
    rcases hw.settled k hset with h | h
    · simp [ho] at h
    · exact hx (hx' ▸ h)

theorem Moved.own (h : Moved v t x v' t') (ht : HoldsOpen v t) : HoldsOpen v' t' := by
  cases h with
  | quiet hs hx ht' => exact ⟨ht'.nodup, fun k hk => hs ▸ ht'.opened k hk, ht'.loaded⟩
  | @works a pc store r rest _ hw hx hin hrest hout hloaded =>
    have hstay : ∀ k ∈ t.inHand, pc.settles a ≠ some k → k ∈ store.deliveries.ids ∧
        settledStatus (store.deliveries.row k).status = false := fun k hk hne =>
      (Moved.works hw hx hin hrest hout hloaded).open (ht.opened k hk).1 (ht.opened k hk).2
        (hx ▸ hne)
    have hnodup : (pc.inHand.toList ++ rest).Nodup := hin ▸ ht.nodup
    cases r with
    | inr next =>
      refine ⟨?_, fun k hk => ?_, hloaded⟩
      · rw [hout]
        exact (List.nodup_append.mp hnodup).2.1
      · rw [hout] at hk
        refine hstay k (hin ▸ List.mem_append_right _ hk) fun hset => ?_
        have hmem : k ∈ pc.inHand.toList := by simp [HandlePc.inHand_of_settles hset]
        exact (List.nodup_append.mp hnodup).2.2 k hmem k hk rfl
    | inl pc' =>
      obtain ⟨hnone, hsame | ⟨hfree, k, hk, hnew, hopen⟩⟩ := hw.next
      · have hinHand : t'.inHand = t.inHand := by rw [hout, hin, held, hsame]
        refine ⟨hinHand ▸ ht.nodup, fun k hk => hstay k (hinHand ▸ hk) ?_, hloaded⟩
        simp [hnone]
      · have hinHand : t'.inHand = [k] := by rw [hout, hrest hfree, held, hnew]; rfl
        refine ⟨by simp [hinHand], fun k' hk' => ?_, hloaded⟩
        obtain rfl : k' = k := by simpa [hinHand] using hk'
        refine (Moved.works hw hx hin hrest hout hloaded).open hk hopen ?_
        simp [hx, hnone]

/-- The proof outline: keys are in order, and what is in hand is open. -/
def AllHoldOpen : Overlapping → Prop := Guarded (fun _ v => Keyed v.store) fun _ v t => HoldsOpen v t

theorem HoldsOpen.mono (h : HoldsOpen v u)
    (hkeep : ∀ k ∈ u.inHand, k ∈ v.store.deliveries.ids →
      settledStatus (v.store.deliveries.row k).status = false → k ∈ v'.store.deliveries.ids ∧
        settledStatus (v'.store.deliveries.row k).status = false) : HoldsOpen v' u :=
  ⟨h.nodup, fun k hk => hkeep k hk (h.opened k hk).1 (h.opened k hk).2, h.loaded⟩

theorem start_holdsOpen (q : Request) : HoldsOpen v (w.start q) := by
  cases q with
  | workOnce batch | handle payload =>
    simp only [DeliveryWorker.start]
    split <;> exact holdsOpen_of_none rfl trivial
  | deliverByID deliveryID => exact holdsOpen_of_none rfl trivial

theorem changeStep_open {e : Change} (h : changeStep d v e = some v') (hk : Keyed v.store) :
    Keyed v'.store ∧ ∀ k ∈ v.store.deliveries.ids,
      settledStatus (v.store.deliveries.row k).status = false →
      k ∈ v'.store.deliveries.ids ∧
        settledStatus (v'.store.deliveries.row k).status = false := by
  cases e with
  | tick n =>
    cases h
    exact ⟨hk, fun k hid ho => ⟨hid, ho⟩⟩
  | schedule event cs =>
    cases h
    have hins := schedule_inserted d v.now event cs hk
    refine ⟨hins.keyed, fun k hid ho => ?_⟩
    obtain ⟨hid', hrow⟩ := hins.old k hid
    exact ⟨hid', hrow.symm ▸ ho⟩
  | replayDelivery id reset delete release =>
    cases h
    have hrep := replayDelivery_replayed d v.now v.store id reset delete release
    generalize d.replayDelivery v.now v.store id reset delete release = store at hrep
    cases hrep with
    | unchanged h => exact ⟨hk, fun k hid ho => ⟨hid, ho⟩⟩
    | @reset f guard dlq log hid hr hf hdlq =>
      have hkeyed := hk.update id f
      refine ⟨⟨hkeyed.fresh, hkeyed.nodup⟩, fun k hid' ho => ⟨updateDelivery_ids.symm ▸ hid', ?_⟩⟩
      change settledStatus ((updateDelivery v.store id f).deliveries.row k).status = false
      rw [status_updateDelivery (fun row => (hf row).1) k]
      split
      · rfl
      · exact ho

theorem allHoldOpen_step {c c' : Overlapping} {l : OverlapStep} (hg : AllHoldOpen c)
    (hc : SettlesAlone c l) (hs : (processors w).step c l = some c') : AllHoldOpen c' := by
  refine guarded_step hg hs (fun q _ => ⟨hg.1, start_holdsOpen q⟩) ?_ ?_
  · rintro i x t v' t' rfl ht hl
    have hmoved := processorStep_moved hg.1 (hg.2 i t ht) hl
    refine ⟨hmoved.keyed hg.1, hmoved.own (hg.2 i t ht), fun j u hji hu => ?_⟩
    refine (hg.2 j u hu).mono fun k hk hid ho => hmoved.open hid ho fun hset => ?_
    exact hc t ht k hset u (List.mem_eraseIdx_iff_getElem?.mpr ⟨j, hji, hu⟩) hk
  · intro e v' he
    obtain ⟨hk, hopen⟩ := changeStep_open he hg.1
    exact ⟨hk, fun j u hu => (hg.2 j u hu).mono fun k _ hid ho => hopen k hid ho⟩

/-! ## Settled rows stay -/

theorem settled_step {c c' : Overlapping} {l : OverlapStep} (hg : AllHoldOpen c)
    (hs : (processors w).step c l = some c') (hid : id ∈ c.shared.store.deliveries.ids)
    (hset : settledStatus (c.shared.store.deliveries.row id).status = true)
    (hl : resets l ≠ some id) :
    id ∈ c'.shared.store.deliveries.ids ∧
      c'.shared.store.deliveries.row id = c.shared.store.deliveries.row id := by
  cases Machine.step_effect hs with
  | spawn q =>
    exact ⟨hid, rfl⟩
  | @act i _ t _ _ ht hstep =>
    have hheld := hg.2 i t ht
    cases processorStep_moved hg.1 hheld hstep with
    | quiet hv =>
      dsimp only
      rw [hv]
      exact ⟨hid, rfl⟩
    | @works a pc store r rest _ hw hx hin =>
      refine ⟨hw.ids ▸ hid, hw.other id fun hpc => ?_⟩
      have hopen := (hheld.opened id (by simp [hin, hpc])).2
      simp [hset] at hopen
  | @env e _ hstep =>
    cases e with
    | tick n =>
      cases hstep
      exact ⟨hid, rfl⟩
    | schedule event cs =>
      cases hstep
      exact (schedule_inserted w.dispatcher c.shared.now event cs hg.1).old id hid
    | replayDelivery k reset delete release =>
      cases hstep
      have hne : id ≠ k := fun h => hl (h ▸ rfl)
      have hrep := replayDelivery_replayed w.dispatcher c.shared.now c.shared.store k reset delete
        release
      dsimp only
      generalize w.dispatcher.replayDelivery c.shared.now c.shared.store k reset delete release =
        store at hrep
      cases hrep with
      | unchanged h => exact ⟨hid, rfl⟩
      | reset hk hr hf hdlq => exact ⟨updateDelivery_ids.symm ▸ hid, updateDelivery_other hne⟩

/-- In every run in which no row is settled while another processor has it in hand, a
row that is DELIVERED or DLQ keeps its status until it is reset. -/
theorem settled_until_reset (w : DeliveryWorker) (s₀ : World) (hk : Keyed s₀.store)
    (before after : List OverlapStep) (b e : Overlapping)
    (hm : Meets (processors w).step SettlesAlone ⟨s₀, []⟩ (before ++ after))
    (hb : run (processors w).step ⟨s₀, []⟩ before = some b)
    (he : run (processors w).step b after = some e) (id : Nat)
    (hid : id ∈ b.shared.store.deliveries.ids)
    (hset : (b.shared.store.deliveries.row id).status = .delivered ∨
      (b.shared.store.deliveries.row id).status = .dlq)
    (hreset : ∀ l ∈ after, resets l ≠ some id) :
    (e.shared.store.deliveries.row id).status = (b.shared.store.deliveries.row id).status := by
  obtain ⟨hbefore, hafter⟩ := hm.append hb
  have hheld : AllHoldOpen b := run_inv (fun _ _ _ => allHoldOpen_step) (guarded_start hk) hbefore hb
  have hset' : settledStatus (b.shared.store.deliveries.row id).status = true := by
    rcases hset with h | h <;> rw [h] <;> rfl
  -- until a reset the whole row stays, and with it what makes the next step keep it
  have hrow := run_inv (I := fun x : Overlapping => AllHoldOpen x ∧
      id ∈ x.shared.store.deliveries.ids ∧
      x.shared.store.deliveries.row id = b.shared.store.deliveries.row id)
    (fun x l y hx hc hs => ⟨allHoldOpen_step hx.1 hc.1 hs, by
      obtain ⟨hid', hrow'⟩ := settled_step hx.1 hs hx.2.1 (hx.2.2 ▸ hset') hc.2
      exact ⟨hid', hrow'.trans hx.2.2⟩⟩)
    ⟨hheld, hid, rfl⟩ (hafter.and (meets_of_forall hreset)) he
  rw [hrow.2.2]

/-! ## One delivery and two processors -/

/-- Locks last half a minute. -/
def unguarded : DeliveryWorker := ⟨unprotected, 0⟩

def idle : World := ⟨0, oneEndpoint.store, fun _ => none⟩

def created : OverlapStep := .env (.schedule 2 [.ok])

def answers (status : Int) : Answer := .deliver (reply (.response ⟨status, "", .ok ""⟩ none))

/-- Processor `i` is the queue's handler: it takes the lock, delivers and releases. -/
def handled (i : Nat) : List OverlapStep :=
  [.spawn (.handle firstDelivery), .act i (.lock .ok), .act i (answers 200), .act i (answers 200),
    .act i (answers 200), .act i (answers 200), .act i (answers 200), .act i (.lock .ok)]

def polled (i : Nat) : List OverlapStep := [.spawn (.workOnce 1), .act i (.dequeue .ok)]

theorem delivered_before_poll :
    ∃ b, run (processors unguarded).step ⟨idle, []⟩ (created :: handled 0) = some b ∧
      (b.shared.store.deliveries.row 0).status = .delivered ∧
      ∃ e, run (processors unguarded).step b (polled 1) = some e ∧
        (e.shared.store.deliveries.row 0).status = (b.shared.store.deliveries.row 0).status := by
  obtain ⟨b, hb, hid, hdel, hnext⟩ := reaches
    (P := fun b : Overlapping => 0 ∈ b.shared.store.deliveries.ids ∧
      (b.shared.store.deliveries.row 0).status = .delivered ∧
      (run (processors unguarded).step b (polled 1)).isSome = true)
    (o := run (processors unguarded).step ⟨idle, []⟩ (created :: handled 0)) (by decide +kernel)
  obtain ⟨e, he⟩ := Option.isSome_iff_exists.mp hnext
  refine ⟨b, hb, hdel, e, he, ?_⟩
  refine settled_until_reset unguarded idle ⟨fun id h => ?_, List.nodup_nil⟩ _ _ b e
    (by decide +kernel) hb he 0 hid (.inl hdel) ?_
  · cases h
  · intro l hl
    rcases List.mem_pair.mp hl with rfl | rfl <;> decide

/-- A `WorkOnce` that has read the row before the handler takes it goes on after the
handler has delivered it, and its failure takes the delivered row back. -/
theorem delivered_row_fails :
    (∃ b, run (processors unguarded).step ⟨idle, []⟩ (created :: polled 0 ++ handled 1) = some b ∧
      (b.shared.store.deliveries.row 0).status = .delivered) ∧
    ∃ e, run (processors unguarded).step ⟨idle, []⟩ (created :: polled 0 ++ handled 1 ++
        [.act 0 (answers 500), .act 0 (answers 500), .act 0 (answers 500)]) = some e ∧
      (e.shared.store.deliveries.row 0).status = .failed :=
  ⟨reaches (by decide +kernel), reaches (by decide +kernel)⟩

end TokoApi.Notify
