import TokoApi.Voucher.Settle

/-!
# The counter of a voucher and its usages

`Settle` inserts a usage and then increments the counter of the voucher, in two
statements that know nothing of each other. The insertion does nothing where the order
has a usage already, and the increment follows all the same; the increment does nothing
where the limit is reached, and its error is discarded. Calls run side by side,
statement by statement. When all have returned, counter and usages agree exactly if as
many increments came to nothing as insertions did.
-/
namespace TokoApi.Voucher

open Db Lib.Rows Lib.Threads Lib.Runs

/-- Calls of `Settle` on the connection pool. -/
def settleMachine : Machine Store (SettleArgs × SettlePc) SettleArgs Call Nat where
  start a := (a, settleStart a)
  lstep _ s t x := (settleStep s t.1 t.2 x).map fun p => (p.1, t.1, p.2)
  estep := tick

abbrev Settlements := Sys Store (SettleArgs × SettlePc)

def SettlePc.isReturned : SettlePc → Bool
  | .returned _ => true
  | _ => false

def usedCount (s : Store) (v : Nat) : Int := (s.vouchers.row v).usedCount

/-- The increments of the voucher that a call is about to execute. -/
def increments (v : Nat) (t : SettleArgs × SettlePc) : Nat := if t.2 = .increaseUsed v then 1 else 0

/-- The statement is an insertion for an order that has a usage of the voucher. -/
def conflicts (v : Nat) (s : Store) (t : SettleArgs × SettlePc) (x : Call) : Nat :=
  if t.2 = .insertUsage v ∧ x = .ok ∧ hasVoucherUsage s v t.1.orderID then 1 else 0

/-- The increment is counted: it does not fail and finds the voucher below its limit. -/
def Counted (v : Nat) (s : Store) (x : Call) : Prop :=
  x = .ok ∧ v ∈ s.vouchers.ids ∧ (s.vouchers.row v).hasQuota = true

instance (v : Nat) (s : Store) (x : Call) : Decidable (Counted v s x) :=
  inferInstanceAs (Decidable (_ ∧ _ ∧ _))

/-- The statement is an increment that is not counted. -/
def uncounted (v : Nat) (s : Store) (t : SettleArgs × SettlePc) (x : Call) : Nat :=
  if t.2 = .increaseUsed v ∧ ¬ Counted v s x then 1 else 0

/-! ## One statement -/

/-- What a statement does to the counters and the usages. -/
inductive CountEffect (s : Store) (a : SettleArgs) (x : Call) : SettlePc → Store → SettlePc → Prop where
  | quiet {pc pc'} (hpc : ∀ v, pc ≠ .insertUsage v ∨ x ≠ .ok) (hold : ∀ v, pc ≠ .increaseUsed v)
      (hnew : ∀ v, pc' ≠ .increaseUsed v) : CountEffect s a x pc s pc'
  | inserts {v} (hx : x = .ok) :
      CountEffect s a x (.insertUsage v) (insertVoucherUsage s (a.usage v)) (.increaseUsed v)
  | counts {v} (hx : x = .ok) :
      CountEffect s a x (.increaseUsed v) (increaseVoucherUsedCount s v) (.returned none)
  | fails {v} (hx : x ≠ .ok) : CountEffect s a x (.increaseUsed v) s (.returned none)

variable {s s' : Store} {a : SettleArgs} {pc pc' : SettlePc} {x : Call} {v : Nat}

theorem settleStep_count (h : settleStep s a pc x = some (s', pc')) : CountEffect s a x pc s' pc' := by
  cases pc <;> cases x <;> simp only [settleStep] at h
  case getVoucher.ok => split at h <;> cases h <;> exact .quiet (by simp) (by simp) (by simp)
  case getUsage.ok v => split at h <;> cases h <;> exact .quiet (by simp) (by simp) (by simp)
  case insertUsage.ok v =>
    cases h
    exact .inserts rfl
  case increaseUsed.ok v =>
    cases h
    exact .counts rfl
  case increaseUsed.fail v err =>
    cases h
    exact .fails (by simp)
  all_goals cases h <;> exact .quiet (by simp) (by simp) (by simp)

theorem usedCount_insert (u : VoucherUsage) : usedCount (insertVoucherUsage s u) v = usedCount s v := by
  unfold insertVoucherUsage
  split <;> rfl

theorem usedCount_increase (w : Nat) :
    usedCount (increaseVoucherUsedCount s w) v =
      usedCount s v + if w = v ∧ Counted v s .ok then 1 else 0 := by
  simp only [increaseVoucherUsedCount, Counted, true_and]
  by_cases hwv : w = v
  · subst hwv
    by_cases hq : w ∈ s.vouchers.ids ∧ (s.vouchers.row w).hasQuota = true <;>
      simp [hq, usedCount]
  · simp only [hwv, false_and, if_false, Int.add_zero]
    split
    · simp only [usedCount, Table.set_row_ne _ _ (Ne.symm hwv)]
    · rfl

theorem count_increase (w : Nat) :
    countVoucherUsage (increaseVoucherUsedCount s w) v = countVoucherUsage s v := by
  simp only [increaseVoucherUsedCount]
  split <;> rfl

/-- By how much the counter of the voucher exceeds the number of its usages. -/
def surplus (v : Nat) (s : Store) : Int := usedCount s v - countVoucherUsage s v

/-- One statement, for one voucher: an insertion owes an increment, and the increment
pays it. -/
theorem CountEffect.balance (h : CountEffect s a x pc s' pc') :
    surplus v s' + increments v (a, pc') + uncounted v s (a, pc) x =
      surplus v s + increments v (a, pc) + conflicts v s (a, pc) x := by
  cases h with
  | quiet hpc hold hnew =>
    have hno : ¬ (pc = .insertUsage v ∧ x = .ok ∧ hasVoucherUsage s v a.orderID = true) := by
      rintro ⟨h₁, h₂, _⟩
      exact (hpc v).elim (· h₁) (· h₂)
    simp [increments, uncounted, conflicts, hold v, hnew v, hno]
  | @inserts w hx =>
    by_cases hwv : w = v
    · subst hwv
      cases hhas : hasVoucherUsage s w a.orderID with
      | true => simp [surplus, increments, uncounted, conflicts, hx, hhas, insertVoucherUsage,
          SettleArgs.usage]
      | false =>
        have hrows := count_insert (s := s) (v := w) (a.usage w) hhas
        simp only [SettleArgs.usage, if_true] at hrows
        simp [surplus, increments, uncounted, conflicts, hhas, usedCount_insert, SettleArgs.usage,
          hrows]
        omega
    · have hrows : countVoucherUsage (insertVoucherUsage s (a.usage w)) v = countVoucherUsage s v := by
        cases hhas : hasVoucherUsage s w a.orderID with
        | true => simp [insertVoucherUsage, SettleArgs.usage, hhas]
        | false => simpa [SettleArgs.usage, hwv] using count_insert (s := s) (v := v) (a.usage w) hhas
      simp [surplus, increments, uncounted, conflicts, hwv, usedCount_insert, hrows]
  | @counts w hx =>
    subst hx
    simp only [surplus, usedCount_increase, count_increase, increments, uncounted, conflicts,
      SettlePc.increaseUsed.injEq]
    by_cases hwv : w = v <;> by_cases hc : Counted v s .ok <;> simp [hwv, hc]
    omega
  | @fails w hx =>
    have hc : ¬ Counted v s x := fun h => hx h.1
    simp only [increments, uncounted, conflicts, SettlePc.increaseUsed.injEq]
    by_cases hwv : w = v <;> simp [hwv, hc]

/-! ## Any number of calls -/

theorem settle_start (b : SettleArgs) : increments v (settleMachine.start b) = 0 := by
  simp only [settleMachine, settleStart, increments]
  split <;> simp

theorem surplus_run {c d : Settlements} {acts : List (Act SettleArgs Call Nat)}
    (hr : run settleMachine.step c acts = some d) :
    surplus v d.shared + (d.threads.map (increments v)).sum +
        tally settleMachine.step (ofThread (uncounted v)) c acts =
      surplus v c.shared + (c.threads.map (increments v)).sum +
        tally settleMachine.step (ofThread (conflicts v)) c acts := by
  refine Machine.run_tally settle_start ?_ ?_ hr
  · rintro i s ⟨a, pc⟩ x s' t' hl
    obtain ⟨pc', hs, rfl⟩ := lifted_inv hl
    exact (settleStep_count hs).balance
  · intro s d s' he
    obtain rfl := Option.some.inj he
    rfl

theorem increments_quiescent {ts : List (SettleArgs × SettlePc)}
    (h : ∀ t ∈ ts, t.2.isReturned = true) : (ts.map (increments v)).sum = 0 := by
  refine List.sum_eq_zero_iff_forall_eq_nat.mpr fun n hn => ?_
  obtain ⟨t, ht, rfl⟩ := List.mem_map.mp hn
  have hret := h t ht
  unfold increments
  split
  · rename_i hpc
    rw [hpc] at hret
    cases hret
  · rfl

/-- The counter of a voucher is the number of its usages, in a state that calls of
`Settle` have reached and in which all have returned, exactly when as many increments
were not counted as insertions met a usage of their order. -/
theorem used_count_iff (s : Store) (hnone : s.usages = [])
    (hzero : ∀ v ∈ s.vouchers.ids, (s.vouchers.row v).usedCount = 0)
    (acts : List (Act SettleArgs Call Nat)) (c : Settlements)
    (hr : run settleMachine.step ⟨s, []⟩ acts = some c)
    (hquiet : ∀ t ∈ c.threads, t.2.isReturned = true) (v : Nat) (hv : v ∈ s.vouchers.ids) :
    (c.shared.vouchers.row v).usedCount = countVoucherUsage c.shared v ↔
      tally settleMachine.step (ofThread (uncounted v)) ⟨s, []⟩ acts =
        tally settleMachine.step (ofThread (conflicts v)) ⟨s, []⟩ acts := by
  have hbalance := surplus_run (v := v) hr
  have hstart : surplus v s = 0 := by simp [surplus, usedCount, hzero v hv, countVoucherUsage, hnone]
  rw [increments_quiescent hquiet, hstart] at hbalance
  simp only [surplus, usedCount, List.map_nil, List.sum_nil] at hbalance
  omega

/-! ## Two orders -/

/-- Voucher 3 with a limit on its uses. -/
def limitedTo (limit : Option Int) : Store :=
  { emptyStore with
    nextID := 4
    vouchers := ⟨[3], fun _ =>
      ⟨"SAVE", .fixedAmount, 10, none, 0, limit, none, 0, none, none, [], [], []⟩⟩ }

/-- `Settle` for an order of user 1. -/
def settles (order : Nat) : Act SettleArgs Call Nat := .spawn ⟨"SAVE", order, some 1, 10⟩

/-- Two orders are settled, the first of them twice. -/
def oneAfterTheOther : List (Act SettleArgs Call Nat) :=
  settles 7 :: List.replicate 4 (.act 0 .ok) ++ settles 8 :: List.replicate 4 (.act 1 .ok) ++
    settles 7 :: List.replicate 2 (.act 2 .ok)

theorem counted_twice_used_twice :
    ∃ c, run settleMachine.step ⟨limitedTo none, []⟩ oneAfterTheOther = some c ∧
      (c.shared.vouchers.row 3).usedCount = countVoucherUsage c.shared 3 ∧
      countVoucherUsage c.shared 3 = 2 := by
  refine reaches_imp (P := fun c : Settlements =>
      (∀ t ∈ c.threads, t.2.isReturned = true) ∧ countVoucherUsage c.shared 3 = 2)
    (by decide +kernel) fun c hc ⟨hquiet, hcount⟩ => ⟨?_, hcount⟩
  exact (used_count_iff (limitedTo none) rfl (by simp [limitedTo]) _ c hc hquiet 3
    (by simp [limitedTo])).mpr (by decide +kernel)

/-- Two calls for one order both test for a usage before either inserts it. -/
def sameOrderTwice : List (Act SettleArgs Call Nat) :=
  [settles 7, settles 7, .act 0 .ok, .act 1 .ok, .act 0 .ok, .act 1 .ok, .act 0 .ok, .act 1 .ok,
    .act 0 .ok, .act 1 .ok]

/-- Two orders are settled one after the other. -/
def twoOrders : List (Act SettleArgs Call Nat) :=
  settles 7 :: List.replicate 4 (.act 0 .ok) ++ settles 8 :: List.replicate 4 (.act 1 .ok)

/-- Two calls for one order that overlap count it twice, and beyond the limit usages
are recorded that are not counted. -/
theorem counter_and_usages_differ :
    (∃ c, run settleMachine.step ⟨limitedTo none, []⟩ sameOrderTwice = some c ∧
      (∀ t ∈ c.threads, t.2.isReturned = true) ∧ (c.shared.vouchers.row 3).usedCount = 2 ∧
      countVoucherUsage c.shared 3 = 1) ∧
    ∃ c, run settleMachine.step ⟨limitedTo (some 1), []⟩ twoOrders = some c ∧
      (∀ t ∈ c.threads, t.2.isReturned = true) ∧ (c.shared.vouchers.row 3).usedCount = 1 ∧
      countVoucherUsage c.shared 3 = 2 :=
  ⟨reaches (by decide +kernel), reaches (by decide +kernel)⟩

end TokoApi.Voucher
