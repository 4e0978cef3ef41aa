import TokoApi.Payment.Settlement
import TokoApi.Payment.Intent

/-!
# One open payment per order

Calls of `CreateIntent` and notifications of the provider in any interleaving. A call
looks for a payment that can be reused, asks the provider and then inserts, and a
notification may set the newest payment back to PENDING whatever other payment has been
opened. The amount of a payment is the total of its order in every case. At most one
payment of the order is open in every state exactly when each statement that makes an
open payment visible finds no other.
-/
namespace TokoApi.Payment

open Db Voucher Lib.Rows Lib.Threads Lib.Runs

def intentMachine (svc : Service) : Machine Store (IntentArgs × IntentPc) IntentArgs Call Nat where
  start a := (a, intentStart svc a)
  lstep i s t x := (intentStep svc i s t.1 t.2 x).map fun p => (p.1, t.1, p.2)
  estep := tick

abbrev TillThread := Thread ⊕ IntentArgs × IntentPc

abbrev TillState := Sys Store TillThread

abbrev TillLabel := Act (Request ⊕ IntentArgs) Call Nat

def till (h : Webhook) (svc : Service) : Machine Store TillThread (Request ⊕ IntentArgs) Call Nat :=
  (webhookMachine h).beside (intentMachine svc)

/-- The payments of an order that are PENDING and have not expired. -/
def openPayments (s : Store) (order : Nat) : List Nat :=
  s.payments.ids.filter fun id =>
    (s.payments.row id).committed.orderID = order && reusable (s.payments.row id).committed s.now

def OneOpen (order : Nat) (s : Store) : Prop :=
  ∀ a ∈ openPayments s order, ∀ b ∈ openPayments s order, a = b

def Priced (order : Nat) (s : Store) : Prop :=
  ∀ id ∈ s.payments.ids, (s.payments.row id).committed.orderID = order →
    (s.payments.row id).committed.amount = some (s.orders.row order).committed.pricingTotal

/-- The payment that the next statement makes visible, if it succeeds: the one that a
handler has updated when it commits, or a new one. -/
def publishes (s : Store) : TillThread → Option (Nat × Payment)
  | .inl t =>
    match t.pc with
    | .commit l => if t.aborted then none else some (l.paymentID, l.payment.withStatus t.newStatus)
    | _ => none
  | .inr (_, .createPayment id expected expiresAt) =>
    some (s.nextID, ⟨id, .pending, some expected, s.now, some expiresAt⟩)
  | .inr _ => none

/-- An open payment of the order becomes visible only while no other is open. -/
def KeepsOneOpen (order : Nat) (c : TillState) : TillLabel → Prop
  | .act i .ok => ∀ t ∈ c.threads[i]?, ∀ p ∈ publishes c.shared t, p.2.orderID = order →
      reusable p.2 c.shared.now = true → ∀ k ∈ openPayments c.shared order, k = p.1
  | _ => True

instance (order : Nat) (c : TillState) (l) : Decidable (KeepsOneOpen order c l) := by
  rcases l with _ | ⟨_, _ | _⟩ | _ <;> dsimp only [KeepsOneOpen] <;> infer_instance

/-- No transaction is open on an order or a payment, and keys are new. -/
structure AtRest (s : Store) : Prop where
  orders : ∀ id, (s.orders.row id).draft = none
  payments : ∀ id, (s.payments.row id).draft = none
  fresh : ∀ id ∈ s.payments.ids, id < s.nextID

/-- The columns of a payment that no statement changes. -/
def bare (p : Payment) : Payment := p.withStatus .pending

theorem withStatus_eq {p q : Payment} (h : bare p = bare q) (status : PaymentStatus) :
    p.withStatus status = q.withStatus status := by
  have hboth := congrArg (Payment.withStatus status) h
  exact hboth

theorem bare_columns {p q : Payment} (h : bare p = bare q) :
    p.orderID = q.orderID ∧ p.amount = q.amount := by
  have horder := congrArg Payment.orderID h
  have hamount := congrArg Payment.amount h
  exact ⟨horder, hamount⟩

theorem access_bare {i : Nat} {r r' : Row Payment} (ha : Row.Access i StatusUpdate r r')
    (hr : r.Agrees bare) : r'.Agrees bare ∧ bare r'.committed = bare r.committed := by
  refine ha.agrees ?_ hr
  rintro f ⟨status, rfl⟩ p
  rfl

/-! ## What the handlers rely on -/

section

variable (s₀ : Store) (order : Nat)

structure Ledger (n : Nat) (s : Store) : Prop where
  fresh : ∀ id ∈ s.payments.ids, id < s.nextID
  drafts : ∀ id i p, (s.payments.row id).draft = some (i, p) → id ∈ s.payments.ids ∧ i < n
  totals : ∀ id, (s.orders.row id).Holds fun o =>
    o.pricingTotal = (s₀.orders.row id).committed.pricingTotal
  columns : ∀ id, (s.payments.row id).Agrees bare
  amounts : ∀ id ∈ s.payments.ids, (s.payments.row id).committed.orderID = order →
    (s.payments.row id).committed.amount = some (s₀.orders.row order).committed.pricingTotal

/-- A notification is about a payment that exists, and holds the lock on the one it has
written. -/
structure Handling (i : Nat) (s : Store) (t : Thread) : Prop where
  target : ∀ pid p, t.pc = .updatePayment pid p →
    pid ∈ s.payments.ids ∧ bare p = bare (s.payments.row pid).committed
  wrote : ∀ pid p, t.pc.wrote = some (pid, p) →
    (s.payments.row pid).draft = some (i, p.withStatus t.newStatus)
  owns : ∀ id q, (s.payments.row id).draft = some (i, q) → ∃ p, t.pc.wrote = some (id, p)

def IntentPc.expected : IntentPc → Option (Nat × Int)
  | .getPayment id expected => some (id, expected)
  | .createPayment id expected _ => some (id, expected)
  | _ => none

structure Opening (i : Nat) (s : Store) (pc : IntentPc) : Prop where
  expected : ∀ e ∈ pc.expected, e.2 = (s₀.orders.row e.1).committed.pricingTotal
  owns : ∀ id q, (s.payments.row id).draft ≠ some (i, q)

def TillOutline (i : Nat) (s : Store) : TillThread → Prop
  | .inl t => Handling i s t
  | .inr t => Opening s₀ i s t.2

/-- What a statement of thread `i` does to the rows that others depend on. -/
structure Moves (i : Nat) (s s' : Store) : Prop where
  kept : ∀ id ∈ s.payments.ids, id ∈ s'.payments.ids
  row : ∀ id ∈ s.payments.ids, Row.Access i StatusUpdate (s.payments.row id) (s'.payments.row id)
  free : ∀ id, id ∉ s.payments.ids → (s'.payments.row id).draft = none
  fresh : ∀ id ∈ s'.payments.ids, id < s'.nextID
  inserted : ∀ id ∈ s'.payments.ids, id ∉ s.payments.ids →
    (s'.payments.row id).committed.amount =
      some (s₀.orders.row (s'.payments.row id).committed.orderID).committed.pricingTotal
  orders : ∀ id, Row.Access i StatusChange (s.orders.row id) (s'.orders.row id)

end

variable {h : Webhook} {svc : Service} {s₀ s s' : Store} {order n i j : Nat} {x : Call}
  {c d : TillState} {l : TillLabel}

theorem Moves.ledger (hm : Moves s₀ i s s') (hi : i < n) (hl : Ledger s₀ order n s) :
    Ledger s₀ order n s' where
  fresh := hm.fresh
  drafts := by
    intro id k p hd
    by_cases hid : id ∈ s.payments.ids
    · refine ⟨hm.kept id hid, ?_⟩
      obtain rfl | hold := (hm.row id hid).owner hd
      · exact hi
      · exact (hl.drafts id k p hold).2
    · rw [hm.free id hid] at hd
      cases hd
  totals := by
    intro id
    refine (hm.orders id).holds ?_ (hl.totals id)
    rintro f ⟨status, rfl⟩ o ho
    exact ho
  columns := by
    intro id
    by_cases hid : id ∈ s.payments.ids
    · exact (access_bare (hm.row id hid) (hl.columns id)).1
    · exact .of_free (hm.free id hid)
  amounts := by
    intro id hid ho
    by_cases hold : id ∈ s.payments.ids
    · obtain ⟨horder, hamount⟩ :=
        bare_columns (access_bare (hm.row id hold) (hl.columns id)).2
      rw [hamount]
      exact hl.amounts id hold (horder.symm.trans ho)
    · rw [hm.inserted id hid hold, ho]

theorem Moves.locked (hm : Moves s₀ i s s') (hj : j ≠ i) {id : Nat} {q : Payment}
    (hd : (s'.payments.row id).draft = some (j, q)) : (s.payments.row id).draft = some (j, q) := by
  by_cases hid : id ∈ s.payments.ids
  · rw [← (hm.row id hid).other hj (.inr hd)]
    exact hd
  · rw [hm.free id hid] at hd
    cases hd

theorem Handling.other {u : Thread} (hu : Handling j s u) (hl : Ledger s₀ order n s)
    (hm : Moves s₀ i s s') (hj : j ≠ i) : Handling j s' u where
  target := by
    intro pid p hpc
    obtain ⟨hid, hb⟩ := hu.target pid p hpc
    refine ⟨hm.kept pid hid, hb.trans ?_⟩
    exact (access_bare (hm.row pid hid) (hl.columns pid)).2.symm
  wrote := by
    intro pid p hw
    have hd := hu.wrote pid p hw
    rw [(hm.row pid (hl.drafts _ _ _ hd).1).other hj (.inl hd)]
    exact hd
  owns := fun id q hd => hu.owns id q (hm.locked hj hd)

theorem Opening.other {pc : IntentPc} (hu : Opening s₀ j s pc) (hm : Moves s₀ i s s') (hj : j ≠ i) :
    Opening s₀ j s' pc :=
  ⟨hu.expected, fun id q hd => hu.owns id q (hm.locked hj hd)⟩

/-! ## A notification -/

section

variable {t t' : Thread}

theorem PaymentEffect.free (he : PaymentEffect i s t s' t') {id : Nat}
    (hid : id ∉ s.payments.ids) (hd : (s.payments.row id).draft = none) :
    (s'.payments.row id).draft = none := by
  cases he with
  | quiet hp _ _ _ _ => rwa [hp]
  | @write pid p _ hm _ _ =>
    obtain ⟨_, hp⟩ | ⟨hin, r, _, hp⟩ := Table.modify_inv hm
    · rwa [hp]
    · rwa [hp, Table.set_row_ne _ _ (ne_of_mem_of_not_mem hin hid).symm]
  | abort hs _ =>
    rw [hs]
    exact (congrArg Row.draft (Row.rollback_other (by simp [hd]))).trans hd
  | commit _ hs _ =>
    rw [hs]
    exact (congrArg Row.draft (Row.commit_other (by simp [hd]))).trans hd

theorem Ledger.unlocked (hl : Ledger s₀ order n s) {id : Nat} (hid : id ∉ s.payments.ids) :
    (s.payments.row id).draft = none := by
  cases hd : (s.payments.row id).draft with
  | none => rfl
  | some d => exact absurd (hl.drafts id d.1 d.2 hd).1 hid

theorem notification_moves (hl : Ledger s₀ order n s) (he : Effect h i s t s' t') :
    Moves s₀ i s s' where
  kept id hid := (payment_effect he).ids ▸ hid
  row id _ := (payment_effect he).access id
  free id hid := (payment_effect he).free hid (hl.unlocked hid)
  fresh id hid := by
    rw [he.frame.nextID]
    exact hl.fresh id ((payment_effect he).ids ▸ hid)
  inserted id hid hnew := absurd ((payment_effect he).ids ▸ hid) hnew
  orders id := he.orders_access id

theorem handling_step (hl : Ledger s₀ order n s) (ht : Handling i s t) (he : Effect h i s t s' t') :
    Handling i s' t' := by
  cases payment_effect he with
  | quiet hp _ hr hw hu =>
    have hn : t'.newStatus = t.newStatus := by simp only [Thread.newStatus, hr]
    refine ⟨fun pid p hpc => ?_, fun pid p h' => ?_, fun id q hd => ?_⟩
    · obtain ⟨id, hlatest, rfl⟩ := hu pid p hpc
      have hmem := newest_mem hlatest
      rw [hp]
      exact ⟨(List.mem_filter.mp hmem).1, Row.read_holds (hl.columns pid) i⟩
    · rw [hp, hn]
      exact ht.wrote pid p (hw ▸ h')
    · rw [hw]
      exact ht.owns id q (hp ▸ hd)
  | @write pid p hpc hm _ hgo =>
    obtain ⟨hid, hb⟩ := ht.target pid p hpc
    have hnone : ∀ id q, (s.payments.row id).draft ≠ some (i, q) := by
      intro id q hd
      obtain ⟨p', hw⟩ := ht.owns id q hd
      rw [hpc] at hw
      cases hw
    rw [hgo]
    refine ⟨by simp, fun pid' p' hw => ?_, fun id q hq => ?_⟩
    · cases hw
      rw [Table.modify_draft hm hid (hnone pid), Thread.goto_newStatus, withStatus_eq hb]
    · by_cases hne : id = pid
      · exact ⟨p, by rw [hne]; rfl⟩
      · rw [Table.modify_row_ne hm hne] at hq
        exact absurd hq (hnone id q)
  | abort hs hgo =>
    rw [hgo]
    refine ⟨by simp, by rintro _ _ ⟨⟩, fun id q hd => ?_⟩
    rw [hs] at hd
    exact absurd hd Row.rollback_free
  | commit _ hs hgo =>
    rw [hgo]
    refine ⟨by simp, by rintro _ _ ⟨⟩, fun id q hd => ?_⟩
    rw [hs] at hd
    exact absurd hd Row.commit_free

end

/-! ## A call of CreateIntent -/

section

variable {a : IntentArgs} {pc pc' : IntentPc}

/-- A statement of `CreateIntent` inserts the payment, or leaves the table alone. -/
inductive IntentEffect (i : Nat) (s : Store) (pc : IntentPc) (x : Call) (s' : Store)
    (pc' : IntentPc) : Prop where
  | quiet (hp : s'.payments = s.payments) (ho : s'.orders = s.orders)
      (hn : s'.nextID = s.nextID) (ht : s'.now = s.now)
      (hx : x = .ok → ∀ id e at_, pc ≠ .createPayment id e at_)
      (he : ∀ e ∈ pc'.expected, pc.expected = some e ∨
        ∃ o, getOrderByID i s e.1 = some o ∧ e.2 = o.pricingTotal)
  | opens {id expected expiresAt} (hpc : pc = .createPayment id expected expiresAt) (hx : x = .ok)
      (hs : s' = createPayment s ⟨id, .pending, some expected, s.now, some expiresAt⟩)
      (he : pc'.expected = none)

theorem openIntent_expected {id : Nat} {expected now : Int} :
    ∀ e ∈ (openIntent svc a id expected now).expected, e = (id, expected) := by
  intro e he
  unfold openIntent at he
  dsimp only at he
  split at he
  · cases he
  · exact (Option.some.inj he).symm

theorem intent_effect (hs : intentStep svc i s a pc x = some (s', pc')) :
    IntentEffect i s pc x s' pc' := by
  cases pc with
  | getOrder id =>
    have hquiet : ∀ r, IntentEffect i s (.getOrder id) x s (.returned r) := fun r =>
      .quiet rfl rfl rfl rfl (fun _ _ _ _ => by simp) forall_mem_none
    cases x <;> simp only [intentStep] at hs
    · split at hs
      · cases hs
        exact hquiet _
      · rename_i o ho
        split at hs
        · cases hs
          exact hquiet _
        · split at hs <;> cases hs
          · exact hquiet _
          · refine .quiet rfl rfl rfl rfl (fun _ _ _ _ => by simp) fun e he => .inr ?_
            obtain rfl := Option.some.inj he
            exact ⟨o, ho, rfl⟩
    · cases hs
      exact hquiet _
  | getPayment id expected =>
    have hquiet : ∀ pc', (∀ e ∈ pc'.expected, e = (id, expected)) →
        IntentEffect i s (.getPayment id expected) x s pc' := by
      intro pc' he
      refine .quiet rfl rfl rfl rfl (fun _ _ _ _ => by simp) fun e hmem => .inl ?_
      rw [he e hmem]
      rfl
    cases x <;> simp only [intentStep] at hs
    · split at hs
      · cases hs
        exact hquiet _ openIntent_expected
      · split at hs
        · cases hs
          exact hquiet _ forall_mem_none
        · split at hs <;> cases hs
          · exact hquiet _ forall_mem_none
          · exact hquiet _ openIntent_expected
    · cases hs
      exact hquiet _ forall_mem_none
  | createPayment id expected expiresAt =>
    cases x <;> simp only [intentStep] at hs <;> cases hs
    · exact .opens rfl rfl rfl rfl
    · exact .quiet rfl rfl rfl rfl (by simp) forall_mem_none
  | insertEvent p pid =>
    cases x <;> simp only [intentStep] at hs <;> cases hs <;>
      exact .quiet rfl rfl rfl rfl (fun _ _ _ _ => by simp) forall_mem_none
  | returned r =>
    simp only [intentStep] at hs
    cases hs

section

variable (hl : Ledger s₀ order n s) (ht : Opening s₀ i s pc) (he : IntentEffect i s pc x s' pc')
include hl ht he

theorem intent_moves : Moves s₀ i s s' := by
  cases he with
  | quiet hp ho hn _ _ _ =>
    refine ⟨?_, ?_, ?_, ?_, ?_, ?_⟩
    · rw [hp]
      exact fun _ hid => hid
    · rw [hp]
      exact fun _ _ => .same
    · rw [hp]
      exact fun _ hid => hl.unlocked hid
    · rw [hp, hn]
      exact hl.fresh
    · rw [hp]
      exact fun id hid hnew => absurd hid hnew
    · rw [ho]
      exact fun _ => .same
  | @opens id expected expiresAt hpc _ hs _ =>
    subst hs
    have hexpected := ht.expected (id, expected) (by rw [hpc]; rfl)
    have hold : ∀ k ∈ s.payments.ids, k ≠ s.nextID := fun k hk => Nat.ne_of_lt (hl.fresh k hk)
    refine ⟨fun k => List.mem_append_left _, fun k hk => ?_, fun k hk => ?_, ?_,
      fun k hk hnew => ?_, fun _ => .same⟩
    · simp only [createPayment, Table.insert, Function.update_of_ne (hold k hk)]
      exact .same
    · by_cases hnext : k = s.nextID
      · simp [createPayment, Table.insert, hnext]
      · simp only [createPayment, Table.insert, Function.update_of_ne hnext]
        exact hl.unlocked hk
    · exact forall_mem_concat (Nat.lt_succ_self _) fun k hk => Nat.lt_succ_of_lt (hl.fresh k hk)
    · obtain rfl : k = s.nextID := by
        simpa [createPayment, Table.insert, hnew] using hk
      simpa [createPayment, Table.insert] using hexpected

theorem opening_step : Opening s₀ i s' pc' := by
  cases he with
  | quiet hp _ _ _ _ hexpected =>
    refine ⟨fun e hmem => ?_, fun id q hd => ht.owns id q (hp ▸ hd)⟩
    obtain hold | ⟨o, ho, he⟩ := hexpected e hmem
    · exact ht.expected e hold
    · obtain ⟨r, hr, rfl⟩ := Option.map_eq_some_iff.mp ho
      obtain ⟨_, rfl⟩ := Table.get?_eq_some.mp hr
      exact he.trans (Row.read_holds (hl.totals e.1) i)
  | opens _ _ hs hnone =>
    subst hs
    refine ⟨forall_mem_of_none hnone, fun id q hd => ?_⟩
    by_cases hnext : id = s.nextID
    · simp [createPayment, Table.insert, hnext] at hd
    · simp only [createPayment, Table.insert, Function.update_of_ne hnext] at hd
      exact ht.owns id q hd

end

end

/-! ## Every interleaving -/

theorem till_moves {t t' : TillThread} (hl : Ledger s₀ order n s) (ht : TillOutline s₀ i s t)
    (hs : (till h svc).lstep i s t x = some (s', t')) :
    Moves s₀ i s s' ∧ TillOutline s₀ i s' t' := by
  obtain ⟨u, u', rfl, rfl, hu⟩ | ⟨u, u', rfl, rfl, hu⟩ := Machine.beside_lstep hs
  · have he := step_effect hu
    exact ⟨notification_moves hl he, handling_step hl ht he⟩
  · obtain ⟨pc', hstep, rfl⟩ := lifted_inv hu
    have he := intent_effect hstep
    exact ⟨intent_moves hl ht he, opening_step hl ht he⟩

theorem till_other {u : TillThread} (hl : Ledger s₀ order n s) (hm : Moves s₀ i s s') (hj : j ≠ i)
    (hu : TillOutline s₀ j s u) : TillOutline s₀ j s' u := by
  cases u with
  | inl u => exact Handling.other hu hl hm hj
  | inr u => exact Opening.other hu hm hj

abbrev TillInv (s₀ : Store) (order : Nat) : TillState → Prop :=
  Guarded (Ledger s₀ order) (TillOutline s₀)

theorem tillInv_step (hg : TillInv s₀ order c) (hs : (till h svc).step c l = some d) :
    TillInv s₀ order d := by
  refine guarded_step hg hs ?_ ?_ ?_
  · intro r _
    have hfree : ∀ id q, (c.shared.payments.row id).draft ≠ some (c.threads.length, q) :=
      fun id q hd => Nat.lt_irrefl _ (hg.1.drafts id _ q hd).2
    refine ⟨{ hg.1 with drafts := fun id i p hd => ?_ }, ?_⟩
    · obtain ⟨hid, hlt⟩ := hg.1.drafts id i p hd
      exact ⟨hid, Nat.lt_succ_of_lt hlt⟩
    · cases r with
      | inl r =>
        obtain ⟨hu, hw⟩ := start_idle r
        exact ⟨fun pid p hpc => absurd hpc (hu pid p), fun pid p h' => (by cases hw.symm.trans h'),
          fun id q hd => absurd hd (hfree id q)⟩
      | inr a =>
        refine ⟨?_, hfree⟩
        change ∀ e ∈ (intentStart svc a).expected, _
        unfold intentStart
        split <;> exact forall_mem_none
  · intro i x t s' t' _ ht hl
    obtain ⟨hm, hown⟩ := till_moves hg.1 (hg.2 i t ht) hl
    exact ⟨hm.ledger (List.getElem?_eq_some_iff.mp ht).1 hg.1, hown,
      fun j u hj hu => till_other hg.1 hm hj (hg.2 j u hu)⟩
  · intro e s' he
    obtain rfl := Option.some.inj he
    refine ⟨{ hg.1 with }, ?_⟩
    rintro j (u | u) hu
    · exact { (hg.2 j _ hu : Handling ..) with }
    · exact { (hg.2 j _ hu : Opening ..) with }

theorem Ledger.priced (hl : Ledger s₀ order n s) : Priced order s := by
  intro id hid ho
  rw [hl.amounts id hid ho, (hl.totals order).1]

theorem AtRest.ledger (hs : AtRest s₀) (hp : Priced order s₀) : Ledger s₀ order 0 s₀ where
  fresh := hs.fresh
  drafts id i p hd := by
    rw [hs.payments id] at hd
    cases hd
  totals id := ⟨rfl, fun u o hd => by rw [hs.orders id] at hd; cases hd⟩
  columns id := .of_free (hs.payments id)
  amounts := hp

/-! ## The payments that are open -/

theorem mem_openPayments {id : Nat} : id ∈ openPayments s order ↔
    id ∈ s.payments.ids ∧ (s.payments.row id).committed.orderID = order ∧
      reusable (s.payments.row id).committed s.now = true := by
  simp [openPayments]

/-- What is visible of the payments: one changes, or none does. -/
inductive Publication (s : Store) (t : TillThread) (x : Call) (s' : Store) : Prop where
  | same (hids : s'.payments.ids = s.payments.ids) (hnow : s'.now = s.now)
      (hrow : ∀ id, (s'.payments.row id).committed = (s.payments.row id).committed)
      (hx : x = .ok → publishes s t = none)
  | one {p : Nat × Payment} (hp : publishes s t = some p) (hx : x = .ok) (hnow : s'.now = s.now)
      (hids : ∀ k, k ∈ s'.payments.ids ↔ k = p.1 ∨ k ∈ s.payments.ids)
      (hself : (s'.payments.row p.1).committed = p.2)
      (hrow : ∀ k, k ≠ p.1 → (s'.payments.row k).committed = (s.payments.row k).committed)

theorem commit_publication {t t' : Thread} {l : Loaded} (hl : Ledger s₀ order n s)
    (ht : Handling i s t) (hpc : t.pc = .commit l)
    (hs : webhookStep h i s t x = some (s', t')) : Publication s (.inl t) x s' := by
  have hsame : ∀ r, abort i s t r = some (s', t') → (x = .ok → publishes s (.inl t) = none) →
      Publication s (.inl t) x s' := by
    intro r hr hx
    cases hr
    exact .same rfl rfl (fun _ => Row.rollback_committed) hx
  cases x with
  | fail err =>
    simp only [webhookStep, hpc] at hs
    exact hsame _ hs (by simp)
  | ok =>
    simp only [webhookStep, hpc] at hs
    split at hs
    · rename_i ha
      exact hsame _ hs fun _ => by simp [publishes, hpc, ha]
    · rename_i ha
      cases hs
      have hd := ht.wrote l.paymentID l.payment (by rw [hpc]; rfl)
      refine .one (p := (l.paymentID, l.payment.withStatus t.newStatus)) ?_ rfl rfl ?_ ?_ ?_
      · simp [publishes, hpc, ha]
      · intro k
        exact ⟨.inr, fun hk => hk.elim (fun hk => hk ▸ (hl.drafts _ _ _ hd).1) fun hk => hk⟩
      · exact congrArg Row.committed (Row.commit_own hd)
      · intro k hk
        refine congrArg Row.committed (Row.commit_other fun b hb => ?_)
        obtain ⟨p, hw⟩ := ht.owns k b hb
        rw [hpc] at hw
        cases hw
        exact hk rfl

theorem notification_publication {t t' : Thread} (hl : Ledger s₀ order n s) (ht : Handling i s t)
    (hs : webhookStep h i s t x = some (s', t')) : Publication s (.inl t) x s' := by
  by_cases hc : ∃ l, t.pc = .commit l
  · obtain ⟨l, hpc⟩ := hc
    exact commit_publication hl ht hpc hs
  · have he := step_effect hs
    have hnone : publishes s (.inl t) = none := by
      cases hpc : t.pc with
      | commit l => exact absurd ⟨l, hpc⟩ hc
      | _ => simp only [publishes, hpc]
    refine .same (payment_effect he).ids he.frame.now (fun id => ?_) fun _ => hnone
    cases payment_effect he with
    | quiet hp _ _ _ _ => rw [hp]
    | write _ hm _ _ => exact Table.modify_committed hm id
    | abort hs _ =>
      rw [hs]
      exact Row.rollback_committed
    | commit hpc _ _ => exact absurd ⟨_, hpc⟩ hc

theorem intent_publication {a : IntentArgs} {pc pc' : IntentPc}
    (he : IntentEffect i s pc x s' pc') : Publication s (.inr (a, pc)) x s' := by
  cases he with
  | quiet hp _ _ ht hx _ =>
    refine .same (by rw [hp]) ht (fun id => by rw [hp]) fun hok => ?_
    cases pc with
    | createPayment id e at_ => exact absurd rfl (hx hok id e at_)
    | _ => rfl
  | @opens id expected expiresAt hpc hx hs _ =>
    subst hpc hs
    refine .one rfl hx rfl (fun k => ?_) ?_ fun k hk => ?_
    · simp [createPayment, Table.insert, or_comm]
    · simp [createPayment, Table.insert]
    · simp [createPayment, Table.insert, hk]

theorem Publication.oneOpen_iff {t : TillThread} (hone : OneOpen order s)
    (hp : Publication s t x s') :
    OneOpen order s' ↔ (x = .ok → ∀ p ∈ publishes s t, p.2.orderID = order →
      reusable p.2 s.now = true → ∀ k ∈ openPayments s order, k = p.1) := by
  cases hp with
  | same hids hnow hrow hx =>
    refine iff_of_true ?_ fun hok p hp => ?_
    · simpa only [OneOpen, openPayments, hids, hnow, hrow] using hone
    · rw [hx hok] at hp
      cases hp
  | @one p hp hx hnow hids hself hrow =>
    have hother : ∀ k, k ≠ p.1 → (k ∈ openPayments s' order ↔ k ∈ openPayments s order) := by
      intro k hk
      rw [mem_openPayments, mem_openPayments, hids, hrow k hk, hnow, or_iff_right hk]
    have hnew : p.1 ∈ openPayments s' order ↔
        p.2.orderID = order ∧ reusable p.2 s.now = true := by
      rw [mem_openPayments, hids, hself, hnow]
      exact and_iff_right (.inl rfl)
    refine (sole_put_iff (A := (· ∈ openPayments s order)) hother hone).trans ?_
    rw [hnew]
    constructor
    · intro hall _ q hq ho hopen
      obtain rfl : p = q := Option.some.inj (hp.symm.trans hq)
      exact hall ⟨ho, hopen⟩
    · exact fun hall hpair => hall hx p hp hpair.1 hpair.2

theorem reusable_of_later {p : Payment} {now : Int} {k : Nat} (h : reusable p (now + k) = true) :
    reusable p now = true := by
  unfold reusable at h ⊢
  cases he : p.expiresAt with
  | none => simpa [he] using h
  | some e =>
    simp only [he, Bool.and_eq_true, decide_eq_true_eq] at h ⊢
    exact ⟨h.1, by omega⟩

theorem oneOpen_tick {k : Nat} (hone : OneOpen order s) :
    OneOpen order { s with now := s.now + k } := by
  have hback : ∀ id, id ∈ openPayments { s with now := s.now + k } order →
      id ∈ openPayments s order := by
    intro id hid
    obtain ⟨hin, ho, hopen⟩ := mem_openPayments.mp hid
    exact mem_openPayments.mpr ⟨hin, ho, reusable_of_later hopen⟩
  exact fun a ha b hb => hone a (hback a ha) b (hback b hb)

theorem oneOpen_step_iff (hg : TillInv s₀ order c) (hone : OneOpen order c.shared)
    (hs : (till h svc).step c l = some d) : OneOpen order d.shared ↔ KeepsOneOpen order c l := by
  cases Machine.step_effect hs with
  | spawn r =>
    exact iff_of_true hone trivial
  | env he =>
    cases he
    exact iff_of_true (oneOpen_tick hone) trivial
  | @act i x t s' _ ht hl =>
    have hpub : Publication c.shared t x s' := by
      obtain ⟨u, u', rfl, rfl, hu⟩ | ⟨u, u', rfl, rfl, hu⟩ := Machine.beside_lstep hl
      · exact notification_publication hg.1 (hg.2 i _ ht) hu
      · obtain ⟨pc', hstep, rfl⟩ := lifted_inv hu
        exact intent_publication (intent_effect hstep)
    refine (hpub.oneOpen_iff hone).trans ?_
    cases x <;> simp [KeepsOneOpen, ht]

/-- Along every interleaving each payment of the order carries the total of the order,
and at most one is open in every state exactly when each statement keeps to one. -/
theorem one_open_payment_iff (h : Webhook) (svc : Service) (order : Nat) (s₀ : Store)
    (hs : AtRest s₀) (hp : Priced order s₀) (hone : OneOpen order s₀) (acts : List TillLabel)
    (c : TillState) (hr : run (till h svc).step ⟨s₀, []⟩ acts = some c) :
    (∀ n d, run (till h svc).step ⟨s₀, []⟩ (acts.take n) = some d → Priced order d.shared) ∧
      ((∀ n d, run (till h svc).step ⟨s₀, []⟩ (acts.take n) = some d → OneOpen order d.shared) ↔
        Meets (till h svc).step (KeepsOneOpen order) ⟨s₀, []⟩ acts) := by
  have hstart : TillInv s₀ order ⟨s₀, []⟩ := guarded_start (hs.ledger hp)
  constructor
  · intro n d hd
    have hg := run_inv (I := TillInv s₀ order) (fun c a d hg (_ : True) hs => tillInv_step hg hs)
      hstart (meets_true _ _) hd
    exact hg.1.priced
  · exact always_iff_meets (I := TillInv s₀ order) (P := fun c => OneOpen order c.shared)
      (fun _ _ _ hg _ hs => tillInv_step hg hs) (fun _ _ _ hg ho hs => oneOpen_step_iff hg ho hs)
      hstart hone hr

/-! ## An order that waits for its payment -/

def awaitsPayment : Store :=
  { emptyStore with
    nextID := 10
    orders := ⟨[7], fun _ => .free ⟨some 1, none, .pendingPayment, 100, 0, 0, 0, 100, none, 0⟩⟩ }

/-- A provider that leaves the time of expiry to the service. -/
def plainIntents : Service where
  createIntent _ _ := .ok 0
  intentTTL := 900
  callbackBaseURL := ""
  toUUID id := if id = "7" then .ok 7 else .error "invalid UUID"

def intends : TillLabel := .spawn (.inr ⟨"7", 100, "qris", ""⟩)

def notifies (status : String) : TillLabel := .spawn (.inl ⟨"plain", "", status⟩)

def statements (i n : Nat) : List TillLabel := List.replicate n (.act i .ok)

/-- A payment is opened, found again by a second call, and paid. -/
def paidInTurn : List TillLabel :=
  intends :: statements 0 4 ++ intends :: statements 1 2 ++ notifies "PAID" :: statements 2 9

theorem atRest_awaitsPayment : AtRest awaitsPayment :=
  ⟨fun _ => rfl, fun _ => rfl, List.forall_mem_nil _⟩

theorem paid_in_turn_one_open :
    ∃ c, run (till plainProvider plainIntents).step ⟨awaitsPayment, []⟩ paidInTurn = some c ∧
      c.shared.payments.ids = [10] ∧ (c.shared.payments.row 10).committed.status = .paid ∧
      Priced 7 c.shared ∧ OneOpen 7 c.shared := by
  refine reaches_imp (P := fun c : TillState =>
      c.shared.payments.ids = [10] ∧ (c.shared.payments.row 10).committed.status = .paid)
    (by decide +kernel) fun c hc ⟨hids, hpaid⟩ => ⟨hids, hpaid, ?_⟩
  obtain ⟨hpriced, hopen⟩ := one_open_payment_iff plainProvider plainIntents 7 awaitsPayment
    atRest_awaitsPayment (List.forall_mem_nil _) (List.forall_mem_nil _) paidInTurn c hc
  have hlast := run_take_length hc
  exact ⟨hpriced _ c hlast, hopen.mpr (by decide +kernel) _ c hlast⟩

/-- Two calls both look for a payment before either has inserted one. -/
theorem two_open_payments :
    ∃ c, run (till plainProvider plainIntents).step ⟨awaitsPayment, []⟩
        ([intends, intends] ++ statements 0 2 ++ statements 1 2 ++ statements 0 2 ++
          statements 1 2) = some c ∧
      openPayments c.shared 7 = [10, 11] :=
  reaches (by decide +kernel)

end TokoApi.Payment
