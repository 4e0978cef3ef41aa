import TokoApi.Payment.Settlement

/-!
# A notification that is refused

One request to the payment webhook, with any of its calls failing. What it writes inside
its transaction is gone with an answer other than 204. The voucher service works on the
pool, so the usage it has recorded stays when the transaction is not committed after it.
-/
namespace TokoApi.Payment

open Db Voucher Lib.Rows Lib.Threads Lib.Runs

def Unchanged (s s' : Store) : Prop :=
  s'.payments = s.payments ∧ s'.paymentEvents = s.paymentEvents ∧ s'.orders = s.orders ∧
    s'.variants = s.variants ∧ s'.vouchers = s.vouchers ∧ s'.usages = s.usages

def Thread.insertsUsage (t : Thread) : Call → Bool
  | .fail _ => false
  | .ok =>
    match t.pc with
    | .settle _ (.insertUsage _) => true
    | _ => false

variable {h : Webhook} {i : Nat} {s₀ s s' : Store} {t t' : Thread} {x : Call}

/-! ## Inside the transaction -/

/-- The store as it was, but for what is written outside the transaction. -/
def outside (s₀ s : Store) : Store :=
  { s₀ with replay := s.replay, vouchers := s.vouchers, usages := s.usages }

/-- Until the commit a rollback gives the store back, and there is nothing to roll back
before the first write. -/
def Undoable (i : Nat) (s₀ s : Store) (t : Thread) : Prop :=
  t.pc = .done noContent ∨
    (s.rollback i = outside s₀ s ∧ (t.pc.wrote = none → s = outside s₀ s))

theorem rollback_twice : (s.rollback i).rollback i = s.rollback i := by
  have hrow : ∀ {α : Type} (T : Table (Row α)),
      (T.mapRows (Row.rollback i)).mapRows (Row.rollback i) = T.mapRows (Row.rollback i) := by
    intro α T
    exact congrArg (Table.mk T.ids) (funext fun k => Row.rollback_rollback)
  simp only [Store.rollback, hrow]

theorem Undoable.written (hu : s.rollback i = outside s₀ s) (hr : s'.rollback i = s.rollback i)
    (ho : outside s₀ s' = outside s₀ s) (hw : t'.pc.wrote ≠ none) : Undoable i s₀ s' t' :=
  .inr ⟨by rw [hr, hu, ho], fun hn => absurd hn hw⟩

theorem undoable_step (he : Effect h i s t s' t') (hlive : ∀ r, t.pc ≠ .done r)
    (hu : Undoable i s₀ s t) : Undoable i s₀ s' t' := by
  obtain hdone | ⟨hback, hclean⟩ := hu
  · exact absurd hdone (hlive _)
  · cases he with
    | move _ hw _ _ _ => exact .inr ⟨hback, fun hn => hclean (hw ▸ hn)⟩
    | @claim keys hpc _ =>
      have hs := hclean (by rw [hpc]; rfl)
      refine .inr ⟨?_, fun _ => ?_⟩
      · exact congrArg (fun s : Store => { s with replay := keys }) hback
      · exact congrArg (fun s : Store => { s with replay := keys }) hs
    | load hpc _ => exact .inr ⟨hback, fun _ => hclean (by rw [hpc]; rfl)⟩
    | payment _ hs =>
      obtain ⟨ps, hm, rfl⟩ := Option.map_eq_some_iff.mp hs
      exact .written hback (by simp only [Store.rollback, Table.modify_rollback hm]) rfl (by simp [Pc.wrote])
    | paid _ hs | canceled _ hs =>
      obtain ⟨os, hm, rfl⟩ := Option.map_eq_some_iff.mp hs
      exact .written hback (by simp only [Store.rollback, Table.modify_rollback hm]) rfl (by simp [Pc.wrote])
    | @stock l v q rest _ _ hs =>
      obtain ⟨vs, hm, rfl⟩ := Option.map_eq_some_iff.mp hs
      refine .written hback (by simp only [Store.rollback, Table.modify_rollback hm]) rfl ?_
      rw [Thread.goto_pc, afterItems_wrote h l rest]
      exact Option.some_ne_none _
    | voucher _ hs =>
      refine .inr ⟨?_, nofun⟩
      rw [settleStep_frame hs]
      exact congrArg (fun s : Store => { s with usages := s'.usages, vouchers := s'.vouchers }) hback
    | abort r _ =>
      refine .inr ⟨rollback_twice.trans hback, fun _ => hback⟩
    | commit _ _ => exact .inl rfl

/-! ## Outside the transaction -/

def Pc.settling : Pc → Option SettlePc
  | .settle _ pc => some pc
  | _ => none

def AtStart (pc : Pc) : Prop := ∀ p, pc.settling = some p → p = .returned none ∨ p = .getVoucher

theorem atStart_of_none {pc : Pc} (hpc : pc.settling = none) : AtStart pc := by
  intro p hp
  rw [hpc] at hp
  cases hp

theorem afterItems_atStart (l : Loaded) (items : List (Nat × Int)) :
    AtStart (h.afterItems l items) := by
  cases items with
  | cons it rest => exact atStart_of_none rfl
  | nil =>
    simp only [Webhook.afterItems, Webhook.afterStock]
    split
    · intro p hp
      obtain rfl := Option.some.inj hp
      unfold settleStart
      split
      · exact .inl rfl
      · exact .inr rfl
    · exact atStart_of_none rfl

theorem step_atStart (hs : webhookStep h i s t x = some (s', t')) (hpc : t.pc.settling = none) :
    AtStart t'.pc := by
  cases webhookStep_executes hs with
  | claims _ _ =>
    refine atStart_of_none ?_
    simp only [Thread.goto_pc, Webhook.afterReplay]
    split <;> rfl
  | insertsEvent _ _ hpc' _ => exact atStart_of_none (by rw [hpc']; rfl)
  | @getsOrder pid p o _ _ _ =>
    obtain ⟨_, he⟩ | ⟨_, he⟩ | ⟨_, he⟩ := afterOrder_cases t ⟨pid, p, o⟩ <;>
      exact atStart_of_none (by rw [Thread.goto_pc, he]; rfl)
  | @listsItems l _ => exact afterItems_atStart l _
  | @decrements l _ _ rest _ _ _ => exact afterItems_atStart l rest
  | settles hp _ | settled hp =>
    rw [hp] at hpc
    cases hpc
  | _ => exact atStart_of_none rfl

/-- The statements as far as the tables of vouchers go. -/
inductive UsageEffect (s : Store) (t : Thread) (x : Call) (s' : Store) (t' : Thread) : Prop where
  | quiet (hv : s'.vouchers = s.vouchers) (hu : s'.usages = s.usages)
      (hx : t.insertsUsage x = false) (hold : ∀ v, t.pc.settling ≠ some (.increaseUsed v))
      (hnew : ∀ v, t'.pc.settling ≠ some (.increaseUsed v))
      (hlooked : ∀ l v, t'.pc = .settle l (.insertUsage v) →
        hasVoucherUsage s v l.payment.orderID = false)
  | inserts {l v} (hpc : t.pc = .settle l (.insertUsage v)) (hx : x = .ok)
      (hs : s' = insertVoucherUsage s ((settleArgs l).usage v))
      (ht : t'.pc = .settle l (.increaseUsed v))
  | counts {v} (hpc : t.pc.settling = some (.increaseUsed v)) (hu : s'.usages = s.usages)
      (ht : t'.pc.settling = some (.returned none))

theorem insertsUsage_none (hpc : ∀ l v, t.pc ≠ .settle l (.insertUsage v)) :
    t.insertsUsage x = false := by
  cases x with
  | fail err => rfl
  | ok =>
    simp only [Thread.insertsUsage]

theorem usage_effect_outside (hs : webhookStep h i s t x = some (s', t'))
    (hpc : t.pc.settling = none) : UsageEffect s t x s' t' := by
  have hstart := step_atStart hs hpc
  have htables : s'.vouchers = s.vouchers ∧ s'.usages = s.usages := by
    cases step_effect hs with
    | payment _ hw | paid _ hw | canceled _ hw | stock _ hw =>
      obtain ⟨_, _, rfl⟩ := Option.map_eq_some_iff.mp hw
      exact ⟨rfl, rfl⟩
    | voucher hp _ =>
      rw [hp] at hpc
      cases hpc
    | _ => exact ⟨rfl, rfl⟩
  refine .quiet htables.1 htables.2 ?_ ?_ ?_ ?_
  · refine insertsUsage_none fun l v he => ?_
    rw [he] at hpc
    cases hpc
  · intro v he
    rw [hpc] at he
    cases he
  · intro v he
    obtain h' | h' := hstart _ he <;> cases h'
  · intro l v he
    obtain h' | h' := hstart (.insertUsage v) (by rw [he]; rfl) <;> cases h'

theorem usage_effect (hs : webhookStep h i s t x = some (s', t')) : UsageEffect s t x s' t' := by
  cases hp : t.pc with
  | settle l pc =>
    cases pc with
    | returned err =>
      have hno : t.insertsUsage x = false := insertsUsage_none (by simp [hp])
      cases err <;> simp only [webhookStep, hp, abort] at hs <;> cases hs <;>
        exact .quiet rfl rfl hno (by simp [hp, Pc.settling]) (by simp [Pc.settling]) (by simp)
    | getVoucher =>
      have hno : t.insertsUsage x = false := insertsUsage_none (by simp [hp])
      cases x <;> simp only [webhookStep, hp, settleStep] at hs
      · split at hs <;> cases hs <;>
          exact .quiet rfl rfl hno (by simp [hp, Pc.settling]) (by simp [Pc.settling]) (by simp)
      · cases hs
        exact .quiet rfl rfl hno (by simp [hp, Pc.settling]) (by simp [Pc.settling]) (by simp)
    | getUsage v =>
      have hno : t.insertsUsage x = false := insertsUsage_none (by simp [hp])
      cases x <;> simp only [webhookStep, hp, settleStep] at hs
      · split at hs <;> cases hs
        · exact .quiet rfl rfl hno (by simp [hp, Pc.settling]) (by simp [Pc.settling]) (by simp)
        · rename_i hfree
          refine .quiet rfl rfl hno (by simp [hp, Pc.settling]) (by simp [Pc.settling]) ?_
          intro l' v' he
          cases he
          exact Bool.eq_false_of_not_eq_true hfree
      · cases hs
        exact .quiet rfl rfl hno (by simp [hp, Pc.settling]) (by simp [Pc.settling]) (by simp)
    | insertUsage v =>
      cases x <;> simp only [webhookStep, hp, settleStep] at hs <;> cases hs
      · exact .inserts hp rfl rfl rfl
      · exact .quiet rfl rfl rfl (by simp [hp, Pc.settling]) (by simp [Pc.settling]) (by simp)
    | increaseUsed v =>
      cases x <;> simp only [webhookStep, hp, settleStep] at hs <;> cases hs
      · refine .counts (v := v) (by rw [hp]; rfl) ?_ rfl
        simp only [increaseVoucherUsedCount]
        split <;> rfl
      · exact .counts (v := v) (by rw [hp]; rfl) rfl rfl
  | _ => exact usage_effect_outside hs (by rw [hp]; rfl)

/-- Either nothing has been recorded, or there is a usage more than there was. -/
def Recorded (s₀ s : Store) (t : Thread) : Prop :=
  s₀.usages.length < s.usages.length ∨
    (s.vouchers = s₀.vouchers ∧ s.usages = s₀.usages ∧
      ∀ v, t.pc.settling ≠ some (.increaseUsed v))

def Looked (s : Store) (t : Thread) : Prop :=
  ∀ l v, t.pc = .settle l (.insertUsage v) → hasVoucherUsage s v l.payment.orderID = false

def SameVouchers (s₀ s : Store) : Prop := s.vouchers = s₀.vouchers ∧ s.usages = s₀.usages

theorem SameVouchers.not_grown (h : SameVouchers s₀ s) : ¬ s₀.usages.length < s.usages.length := by
  rw [h.2]
  exact Nat.lt_irrefl _

theorem recorded_step (he : UsageEffect s t x s' t') (hr : Recorded s₀ s t) (hl : Looked s t) :
    Recorded s₀ s' t' ∧ Looked s' t' ∧
      (SameVouchers s₀ s' ↔ SameVouchers s₀ s ∧ t.insertsUsage x = false) := by
  cases he with
  | quiet hv hu hx hold hnew hlooked =>
    refine ⟨?_, ?_, ?_⟩
    · obtain hg | ⟨hv₀, hu₀, _⟩ := hr
      · exact .inl (hu ▸ hg)
      · exact .inr ⟨hv.trans hv₀, hu.trans hu₀, hnew⟩
    · intro l v hpc
      simpa only [hasVoucherUsage, hu] using hlooked l v hpc
    · simp only [SameVouchers, hv, hu, hx, and_true]
  | @inserts l v hpc hx hs ht =>
    have hfree : hasVoucherUsage s v l.payment.orderID = false := hl l v hpc
    have hgrown : s'.usages.length = s.usages.length + 1 := by
      rw [hs]
      simp [insertVoucherUsage, SettleArgs.usage, settleArgs, hfree]
    have hlt : s₀.usages.length < s'.usages.length := by
      obtain hg | ⟨_, hu₀, _⟩ := hr
      · omega
      · rw [hgrown, hu₀]
        exact Nat.lt_succ_self _
    refine ⟨.inl hlt, ?_, ?_⟩
    · intro l' v' hpc'
      rw [ht] at hpc'
      cases hpc'
    · have hins : t.insertsUsage x = true := by simp [Thread.insertsUsage, hx, hpc]
      exact iff_of_false (fun hsame => hsame.not_grown hlt) (by simp [hins])
  | @counts v hpc hu ht =>
    obtain hg | ⟨_, _, hnone⟩ := hr
    · have hlt : s₀.usages.length < s'.usages.length := hu ▸ hg
      refine ⟨.inl hlt, ?_, ?_⟩
      · intro l' v' hpc'
        rw [hpc'] at ht
        cases ht
      · exact iff_of_false (fun hsame => hsame.not_grown hlt) (fun hsame => hsame.1.not_grown hg)
    · exact absurd hpc (hnone v)

/-! ## One request -/

theorem start_settling (h : Webhook) (r : Request) : (h.start r).pc.settling = none := by
  obtain ⟨a, hpc⟩ | hpc | ⟨id, hpc⟩ := start_cases h r <;> rw [hpc] <;> rfl

/-- A request that is answered otherwise than with 204 leaves the tables of the
settlement as they were exactly when it has recorded no usage of a voucher. -/
theorem refused_unchanged_iff (h : Webhook) (i : Nat) (s : Store) (hidle : s.rollback i = s)
    (r : Request) (xs : List Call) (s' : Store) (t' : Thread)
    (hr : (webhookMachine h).alone i (s, h.start r) xs = some (s', t')) (answer : Response)
    (hdone : t'.pc = .done answer) (hrefused : answer.status ≠ 204) :
    Unchanged s s' ↔
      Meets (fun p x => (webhookMachine h).lstep i p.1 p.2 x)
        (fun p x => p.2.insertsUsage x = false) (s, h.start r) xs := by
  have hback : Undoable i s s' t' := by
    refine Machine.alone_inv (J := fun p => Undoable i s p.1 p.2) ?_ ?_ hr
    · intro p x q hu hl
      refine undoable_step (step_effect hl) (fun a ha => ?_) hu
      simp only [webhookMachine, webhookStep, ha] at hl
      cases hl
    · exact .inr ⟨hidle, fun _ => rfl⟩
  have hsame : s' = outside s s' := by
    obtain h204 | ⟨_, hclean⟩ := hback
    · rw [hdone] at h204
      cases h204
      exact absurd rfl hrefused
    · exact hclean (by rw [hdone]; rfl)
  have hvouchers := last_iff_meets (I := fun p : Store × Thread => Recorded s p.1 p.2 ∧ Looked p.1 p.2)
    (P := fun p => SameVouchers s p.1) (A := fun _ => True)
    (fun p x q hp _ hl => ⟨(recorded_step (usage_effect hl) hp.1 hp.2).1,
      (recorded_step (usage_effect hl) hp.1 hp.2).2.1⟩)
    (fun p x q hp _ hl => (recorded_step (usage_effect hl) hp.1 hp.2).2.2)
    (s := (s, h.start r)) ⟨.inr ⟨rfl, rfl, by simp [start_settling]⟩, by
      intro l v hpc
      have := start_settling h r
      rw [hpc] at this
      cases this⟩ (fun _ _ => trivial) hr
  have htables : Unchanged s s' ↔ SameVouchers s s' := by
    constructor
    · rintro ⟨_, _, _, _, hv, hu⟩
      exact ⟨hv, hu⟩
    · rintro ⟨hv, hu⟩
      refine ⟨?_, ?_, ?_, ?_, hv, hu⟩ <;> rw [hsame] <;> rfl
  rw [htables, hvouchers.2]
  exact and_iff_right ⟨rfl, rfl⟩

/-! ## An order with a voucher -/

/-- Order 7 waits for payment 5, holds one piece of variant 3 and carries voucher 9. -/
def voucherOrder : Store :=
  { emptyStore with
    nextID := 10
    orders := ⟨[7], fun _ =>
      .free ⟨some 1, none, .pendingPayment, 100, 10, 0, 0, 90, some "SAVE", 0⟩⟩
    orderItems := [⟨7, 2, some 3, 1, 100, 100⟩]
    payments := ⟨[5], fun _ => .free ⟨7, .pending, none, 0, none⟩⟩
    variants := ⟨[3], fun _ => .free ⟨2, 100, 10⟩⟩
    vouchers := ⟨[9], fun _ =>
      ⟨"SAVE", .fixedAmount, 10, none, 0, none, none, 0, none, none, [], [], []⟩⟩ }

/-- A notification that order 7 is paid, all of whose calls succeed but the last. -/
def failsAt (n : Nat) : Option (Store × Thread) :=
  (webhookMachine plainProvider).alone 0 (voucherOrder, plainProvider.start ⟨"plain", "", "PAID"⟩)
    (List.replicate n .ok ++ [.fail "connection reset"])

/-- The stock update fails. -/
theorem stock_failure_unchanged :
    ∃ p, failsAt 8 = some p ∧ p.2.pc = .done ⟨500, "STOCK_UPDATE_ERROR", "connection reset"⟩ ∧
      Unchanged voucherOrder p.1 :=
  reaches_and (by decide +kernel) fun p hp hdone =>
    (refused_unchanged_iff plainProvider 0 voucherOrder rfl _ _ p.1 p.2 hp _ hdone (by decide)).mpr
      (by decide +kernel)

/-- The commit fails after the voucher has been settled: the usage and the counter
stay. -/
theorem commit_failure_keeps_usage :
    ∃ p, failsAt 14 = some p ∧ p.2.pc = .done ⟨500, "TX_COMMIT_ERROR", "connection reset"⟩ ∧
      p.1.usages = [⟨9, some 1, 7, 10⟩] ∧ (p.1.vouchers.row 9).usedCount = 1 ∧
      (p.1.payments.row 5).committed.status = .pending ∧
      (p.1.orders.row 7).committed.status = .pendingPayment :=
  reaches (by decide +kernel)

end TokoApi.Payment
