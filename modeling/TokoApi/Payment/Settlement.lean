import TokoApi.Payment.Effects

/-!
# An order is settled at most once

The handler decides to settle by a status it read without a lock, and
`UpdatePaymentStatus` overwrites any status by any other. An order is settled
once along the runs in which a payment that is PAID in the database is never
written by a handler that would take it out of PAID or that had read another
status; `KeepsPaid` is that condition on one step. The invariant ties
the settlement log to the committed status of the order's newest payment, and
the uncommitted status of a row to the handler that holds its lock.
-/
namespace TokoApi.Payment

open Db Lib.Rows Lib.Threads Lib.Runs

/-- No transaction is open on a payment and nothing has been settled yet. -/
structure Fresh (s : Store) : Prop where
  free : ∀ id, (s.payments.row id).draft = none
  unsettled : s.settled = []

/-- The payment that the next statement overwrites, as the handler has read it. -/
def Pc.target : Pc → Option (Nat × Payment)
  | .updatePayment pid p => some (pid, p)
  | _ => none

/-- `UpdatePaymentStatus` meets a payment of order `o` that is PAID in the
database only when it writes PAID again, for a handler that has read PAID. -/
def KeepsPaid (o : Nat) (c : Sys Store Thread) : Act Request Call Nat → Prop
  | .act i .ok => ∀ t ∈ c.threads[i]?, ∀ w ∈ t.pc.target, w.2.orderID = o →
      (c.shared.payments.row w.1).committed.status = .paid →
        t.newStatus = .paid ∧ w.2.status = .paid
  | _ => True

instance (o : Nat) (c : Sys Store Thread) (a) : Decidable (KeepsPaid o c a) := by
  rcases a with _ | ⟨_, _ | _⟩ | _ <;> dsimp only [KeepsPaid] <;> infer_instance

/-! ## The columns that no statement changes -/

structure SameColumns (s₀ s : Store) : Prop where
  ids : s.payments.ids = s₀.payments.ids
  row : ∀ id, (s.payments.row id).Holds fun p =>
    p.orderID = (s₀.payments.row id).committed.orderID ∧
      p.createdAt = (s₀.payments.row id).committed.createdAt

theorem SameColumns.latest {s₀ s : Store} (h : SameColumns s₀ s) (o : Nat) :
    latestPaymentID s o = latestPaymentID s₀ o := by
  have ho : ∀ id, (s.payments.row id).committed.orderID =
      (s₀.payments.row id).committed.orderID := fun id => (h.row id).1.1
  have hc : ∀ id, (s.payments.row id).committed.createdAt =
      (s₀.payments.row id).committed.createdAt := fun id => (h.row id).1.2
  simp only [latestPaymentID, h.ids, ho, hc]

theorem latest_order {s : Store} {o pid : Nat} (h : latestPaymentID s o = some pid) :
    pid ∈ s.payments.ids ∧ (s.payments.row pid).committed.orderID = o := by
  simpa using List.mem_filter.mp (newest_mem h)

theorem SameColumns.step {s₀ s s' : Store} {i : Nat} {t t' : Thread} (h : SameColumns s₀ s)
    (he : PaymentEffect i s t s' t') : SameColumns s₀ s' := by
  refine ⟨he.ids.trans h.ids, fun id => (he.access id).holds ?_ (h.row id)⟩
  rintro f ⟨status, rfl⟩ b hb
  exact hb

/-! ## The proof outline -/

section

variable (s₀ : Store) (o : Nat)

/-- The log has the order at most once, and then its newest payment is PAID. -/
def Once (s : Store) : Prop :=
  s.settled.count o = 0 ∨
    s.settled.count o = 1 ∧
      ∃ pid, latestPaymentID s₀ o = some pid ∧ (s.payments.row pid).committed.status = .paid

structure Inv (n : Nat) (s : Store) : Prop where
  columns : SameColumns s₀ s
  owners : ∀ id i p, (s.payments.row id).draft = some (i, p) → i < n
  once : Once s₀ o s

structure Written (i : Nat) (s : Store) (t : Thread) (pid : Nat) (p : Payment) : Prop where
  latest : latestPaymentID s₀ p.orderID = some pid
  draft : ∃ q, (s.payments.row pid).draft = some (i, q) ∧ q.status = t.newStatus
  keeps : p.orderID = o → (s.payments.row pid).committed.status = .paid →
    t.newStatus = .paid ∧ p.status = .paid

structure Outline (i : Nat) (s : Store) (t : Thread) : Prop where
  target : ∀ pid p, t.pc = .updatePayment pid p → latestPaymentID s₀ p.orderID = some pid
  wrote : ∀ pid p, t.pc.wrote = some (pid, p) → Written s₀ o i s t pid p
  owns : ∀ id q, (s.payments.row id).draft = some (i, q) → ∃ p, t.pc.wrote = some (id, p)

end

variable {s₀ s s' : Store} {o n i j : Nat} {t t' u : Thread}

theorem Once.of_eq (h : Once s₀ o s) (hl : s'.settled = s.settled)
    (hp : ∀ id, (s'.payments.row id).committed = (s.payments.row id).committed) :
    Once s₀ o s' := by
  unfold Once at *
  rw [hl]
  simpa only [hp] using h

theorem outline_idle (hu : ∀ pid p, t.pc ≠ .updatePayment pid p) (hw : t.pc.wrote = none)
    (ho : ∀ id q, (s.payments.row id).draft ≠ some (i, q)) : Outline s₀ o i s t where
  target pid p hpc := absurd hpc (hu pid p)
  wrote pid p h := by rw [hw] at h; cases h
  owns id q hd := absurd hd (ho id q)

theorem read_order (hi : Inv s₀ o n s) {id pid : Nat} (hl : latestPaymentID s id = some pid) :
    latestPaymentID s₀ ((s.payments.row pid).read i).orderID = some pid := by
  have hrow := hi.columns.row pid
  have hid := (latest_order hl).2
  have hread : ((s.payments.row pid).read i).orderID = id := by
    unfold Row.read
    split
    · rename_i k a hd
      split
      · rw [(hrow.2 k a hd).1, ← hrow.1.1, hid]
      · exact hid
    · exact hid
  rw [hread, ← hi.columns.latest, hl]

theorem outline_other (he : PaymentEffect i s t s' t') (hj : j ≠ i) (ha : Outline s₀ o j s u) :
    Outline s₀ o j s' u := by
  refine ⟨ha.target, fun pid p h => ?_, fun id q hd => ?_⟩
  · obtain ⟨hlat, ⟨q, hq, hst⟩, hk⟩ := ha.wrote pid p h
    have hrow := (he.access pid).other hj (.inl hq)
    exact ⟨hlat, ⟨q, by rw [hrow, hq], hst⟩, by rwa [hrow]⟩
  · have hrow := (he.access id).other hj (.inr hd)
    exact ha.owns id q (hrow ▸ hd)

theorem owners_step (he : PaymentEffect i s t s' t') (hin : i < n)
    (h : ∀ id k p, (s.payments.row id).draft = some (k, p) → k < n) :
    ∀ id k p, (s'.payments.row id).draft = some (k, p) → k < n := by
  intro id k p hd
  obtain rfl | hd' := (he.access id).owner hd
  · exact hin
  · exact h id k p hd'

section

variable (hi : Inv s₀ o n s) (ha : Outline s₀ o i s t)
include hi ha

theorem quiet_own (hp : s'.payments = s.payments) (hr : t'.result = t.result)
    (hw : t'.pc.wrote = t.pc.wrote)
    (hu : ∀ pid p, t'.pc = .updatePayment pid p → ∃ id, latestPaymentID s id = some pid ∧
      p = (s.payments.row pid).read i) :
    Outline s₀ o i s' t' := by
  have hn : t'.newStatus = t.newStatus := by simp only [Thread.newStatus, hr]
  refine ⟨fun pid p hpc => ?_, fun pid p h => ?_, fun id q hd => ?_⟩
  · obtain ⟨id, hl, rfl⟩ := hu pid p hpc
    exact read_order hi hl
  · obtain ⟨hlat, hd, hk⟩ := ha.wrote pid p (hw ▸ h)
    exact ⟨hlat, by rwa [hp, hn], by rwa [hp, hn]⟩
  · rw [hw]
    exact ha.owns id q (hp ▸ hd)

theorem write_own {pid : Nat} {p : Payment} (hpc : t.pc = .updatePayment pid p)
    (hk : p.orderID = o → (s.payments.row pid).committed.status = .paid → t.newStatus = .paid ∧
      p.status = .paid)
    (hm : s.payments.modify pid (Row.update i (Payment.withStatus t.newStatus)) = some s'.payments) :
    Outline s₀ o i s' (t.goto (.insertEvent pid p)) := by
  have hlat := ha.target pid p hpc
  have hnone : ∀ id q, (s.payments.row id).draft ≠ some (i, q) := by
    intro id q hd
    obtain ⟨p', hw⟩ := ha.owns id q hd
    rw [hpc] at hw
    cases hw
  have hd := Table.modify_draft hm (hi.columns.ids ▸ (latest_order hlat).1) (hnone pid)
  refine ⟨by simp, fun pid' p' h => ?_, fun id q hq => ?_⟩
  · cases h
    exact ⟨hlat, ⟨_, hd, by simp⟩, by rw [Table.modify_committed hm]; exact hk⟩
  · by_cases hid : id = pid
    · subst id
      exact ⟨p, rfl⟩
    · rw [Table.modify_row_ne hm hid] at hq
      exact absurd hq (hnone id q)

theorem commit_once {l : Loaded} (hpc : t.pc = .commit l) (hs : s' = commitSettlement i s t l) :
    Once s₀ o s' := by
  obtain ⟨hlat, ⟨q, hq, hst⟩, hk⟩ := ha.wrote l.paymentID l.payment (by rw [hpc]; rfl)
  have hown : (s'.payments.row l.paymentID).committed = q := by
    rw [hs]
    exact congrArg Row.committed (Row.commit_own hq)
  have hother : ∀ id, id ≠ l.paymentID → s'.payments.row id = s.payments.row id := by
    intro id hid
    rw [hs]
    refine Row.commit_other fun b hb => ?_
    obtain ⟨p, hw⟩ := ha.owns id b hb
    rw [hpc] at hw
    cases hw
    exact hid rfl
  have hlog : s'.settled =
      if t.shouldSettle l.payment then s.settled ++ [l.payment.orderID] else s.settled := by
    simp only [hs, commitSettlement]
  by_cases ho : l.payment.orderID = o
  · -- the order's newest payment is the one that is published
    rw [ho] at hlat
    by_cases hset : t.shouldSettle l.payment = true
    · rw [if_pos hset, ho] at hlog
      simp only [Thread.shouldSettle, Bool.and_eq_true, decide_eq_true_eq, bne_iff_ne] at hset
      obtain h0 | ⟨_, pid, hpid, hpaid⟩ := hi.once
      · refine .inr ⟨by rw [hlog]; simp [h0], l.paymentID, hlat, ?_⟩
        rw [hown, hst, hset.1]
      · obtain rfl : pid = l.paymentID := Option.some.inj (hpid.symm.trans hlat)
        exact absurd (hk ho hpaid).2 hset.2
    · rw [if_neg hset] at hlog
      obtain h0 | ⟨h1, pid, hpid, hpaid⟩ := hi.once
      · exact .inl (by rw [hlog, h0])
      · obtain rfl : pid = l.paymentID := Option.some.inj (hpid.symm.trans hlat)
        exact .inr ⟨by rw [hlog, h1], l.paymentID, hlat, by rw [hown, hst, (hk ho hpaid).1]⟩
  · have hcount : s'.settled.count o = s.settled.count o := by
      rw [hlog]
      split
      · simp [ho]
      · rfl
    obtain h0 | ⟨h1, pid, hpid, hpaid⟩ := hi.once
    · exact .inl (by rw [hcount, h0])
    · have hne : pid ≠ l.paymentID := by
        rintro rfl
        exact ho ((latest_order hlat).2.symm.trans (latest_order hpid).2)
      exact .inr ⟨by rw [hcount, h1], pid, hpid, by rw [hother pid hne, hpaid]⟩

theorem once_step (he : PaymentEffect i s t s' t') :
    Once s₀ o s' := by
  cases he with
  | quiet hp hl => exact hi.once.of_eq hl fun id => by rw [hp]
  | write _ hm hl _ => exact hi.once.of_eq hl (Table.modify_committed hm)
  | abort hs =>
    exact hi.once.of_eq (by rw [hs]; rfl) fun id => by rw [hs]; exact Row.rollback_committed
  | commit hpc hs => exact commit_once hi ha hpc hs

theorem own_step (he : PaymentEffect i s t s' t')
    (hk : ∀ w ∈ t.pc.target, t'.pc = .insertEvent w.1 w.2 → w.2.orderID = o → (s.payments.row w.1).committed.status = .paid →
      t.newStatus = .paid ∧ w.2.status = .paid) :
    Outline s₀ o i s' t' := by
  cases he with
  | quiet hp _ hr hw hu => exact quiet_own hi ha hp hr hw hu
  | @write pid p hpc hm _ ht =>
    rw [ht]
    exact write_own hi ha hpc (hk (pid, p) (by rw [hpc]; rfl) (by rw [ht]; rfl)) hm
  | abort hs ht => rw [ht]; exact outline_idle (by simp) rfl fun _ _ => hs ▸ Row.rollback_free
  | commit _ hs ht => rw [ht]; exact outline_idle (by simp) rfl fun _ _ => hs ▸ Row.commit_free

end

theorem updated_ok {h : Webhook} {x : Call} {w : Nat × Payment} (hw : w ∈ t.pc.target)
    (hpc : t'.pc = .insertEvent w.1 w.2) (hs : webhookStep h i s t x = some (s', t')) : x = .ok := by
  cases x with
  | ok => rfl
  | fail err =>
    unfold Pc.target at hw
    split at hw <;> cases hw
    rename_i hupdate
    simp only [webhookStep, hupdate] at hs
    cases hs
    cases hpc

theorem guarded_settlement {h : Webhook} {c d : Sys Store Thread} {a : Act Request Call Nat}
    (hg : Guarded (Inv s₀ o) (Outline s₀ o) c) (hc : KeepsPaid o c a)
    (hs : (webhookMachine h).step c a = some d) : Guarded (Inv s₀ o) (Outline s₀ o) d := by
  refine guarded_step hg hs ?_ ?_ ?_
  · intro r _
    refine ⟨{ hg.1 with owners := fun id i p hd => ?_ }, ?_⟩
    · have := hg.1.owners id i p hd
      omega
    · obtain ⟨hu, hw⟩ := start_idle r
      refine outline_idle hu hw fun id q hd => ?_
      exact absurd (hg.1.owners id _ q hd) (by omega)
  · rintro i x t s' t' rfl ht hl
    have he := payment_effect (step_effect hl)
    have hin : i < c.threads.length := (List.getElem?_eq_some_iff.mp ht).1
    have ha := hg.2 i t ht
    refine ⟨⟨hg.1.columns.step he, owners_step he hin hg.1.owners, once_step hg.1 ha he⟩,
      own_step hg.1 ha he fun w hw hpc => ?_, fun j u hj hu => outline_other he hj (hg.2 j u hu)⟩
    obtain rfl := updated_ok hw hpc hl
    exact hc t ht w hw
  · intro e s' he
    obtain rfl := Option.some.inj he
    exact ⟨{ hg.1 with columns := { hg.1.columns with } }, fun j u hu =>
      { hg.2 j u hu with wrote := fun pid p h => { (hg.2 j u hu).wrote pid p h with } }⟩

theorem fresh_inv (hf : Fresh s₀) : Inv s₀ o 0 s₀ where
  columns := ⟨rfl, fun id => ⟨⟨rfl, rfl⟩, fun u a hd => by rw [hf.free] at hd; cases hd⟩⟩
  owners id i p hd := by rw [hf.free] at hd; cases hd
  once := .inl (by rw [hf.unsettled]; rfl)

/-- Along every run of webhook requests in which each `UpdatePaymentStatus` that
meets a PAID payment of the order keeps it PAID for a handler that knows it, the
order is settled at most once. -/
theorem settled_at_most_once (h : Webhook) (o : Nat) (s₀ : Store) (hf : Fresh s₀)
    (acts : List (Act Request Call Nat)) (c : Sys Store Thread)
    (hm : Meets (webhookMachine h).step (KeepsPaid o) ⟨s₀, []⟩ acts)
    (hr : run (webhookMachine h).step ⟨s₀, []⟩ acts = some c) :
    c.shared.settled.count o ≤ 1 := by
  have hg := run_inv (I := Guarded (Inv s₀ o) (Outline s₀ o))
    (fun c a d hg hc hs => guarded_settlement hg hc hs) (guarded_start (fresh_inv hf)) hm hr
  obtain h0 | ⟨h1, _⟩ := hg.1.once
  · omega
  · omega

/-! ## Runs on one order -/

def unpaidOrder : Store :=
  { emptyStore with
    orders := ⟨[7], fun _ => .free ⟨some 1, none, .pendingPayment, 0, 0, 0, 0, 0, none, 0⟩⟩
    orderItems := [⟨7, 2, some 3, 1, 0, 0⟩]
    payments := ⟨[5], fun _ => .free ⟨7, .pending, none, 0, none⟩⟩
    variants := ⟨[3], fun _ => .free ⟨2, 0, 10⟩⟩ }

/-- A provider whose notification is the bare status of order 7. -/
def plainProvider : Webhook where
  providers name := if name = "plain" then some fun r => .valid ⟨"7", 0, r.body⟩ else none
  replay := true
  replayTTL := 3600
  voucher := true
  sha256Hex := id
  toUUID id := if id = "7" then some 7 else none

def request (i : Nat) (status : String) (n : Nat) : List (Act Request Call Nat) :=
  .spawn ⟨"plain", "", status⟩ :: List.replicate n (.act i .ok)

/-- A second PAID notification whose handler reads the payment as PAID. -/
theorem settled_once_on_repeat :
    ∃ c, run (webhookMachine plainProvider).step ⟨unpaidOrder, []⟩
        (request 0 "PAID" 10 ++ request 1 "SUCCESS" 7) = some c ∧
      c.shared.settled ≠ [] ∧ c.shared.settled.count 7 ≤ 1 :=
  reaches_and (by decide) fun c hc _ =>
    settled_at_most_once plainProvider 7 unpaidOrder ⟨fun _ => rfl, rfl⟩ _ c (by decide) hc

/-- A refund between two PAID notifications, or two of them that both read the
payment before either has written it, settle the order twice and take the stock
twice. -/
theorem settled_twice :
    ((run (webhookMachine plainProvider).step ⟨unpaidOrder, []⟩
        (request 0 "PAID" 10 ++ request 1 "REFUNDED" 7 ++ request 2 "SUCCESS" 10)).map fun c =>
      (c.shared.settled.count 7, (c.shared.variants.row 3).committed.stock)) = some (2, 8) ∧
    ((run (webhookMachine plainProvider).step ⟨unpaidOrder, []⟩
        (request 0 "PAID" 3 ++ request 1 "SUCCESS" 3 ++ List.replicate 7 (.act 0 .ok) ++
          List.replicate 7 (.act 1 .ok))).map fun c =>
      (c.shared.settled.count 7, (c.shared.variants.row 3).committed.stock)) = some (2, 8) := by
  decide

end TokoApi.Payment
