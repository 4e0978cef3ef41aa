import TokoApi.Lib.Threads
import TokoApi.Db.Tables

/-!
# Recording a voucher at settlement

`voucher.Service.Settle` as the statements it sends, one step for each. The
service works on the connection pool, so every statement is its own transaction
whoever calls it.
-/
namespace TokoApi.Voucher

open Db Lib.Text Lib.Threads

structure SettleArgs where
  code : String
  orderID : Nat
  userID : Option Nat
  amount : Int
  deriving DecidableEq

/-- The statement of `Settle` that is executed next. -/
inductive SettlePc where
  | getVoucher
  | getUsage (voucher : Nat)
  | insertUsage (voucher : Nat)
  | increaseUsed (voucher : Nat)
  | returned (err : Option String)
  deriving DecidableEq

/-- An empty code or a negative amount returns before the first statement. -/
def settleStart (a : SettleArgs) : SettlePc :=
  if trimSpace a.code = "" ∨ a.amount < 0 then .returned none else .getVoucher

def SettleArgs.usage (a : SettleArgs) (voucher : Nat) : VoucherUsage :=
  ⟨voucher, a.userID, a.orderID, a.amount⟩

def settleStep (s : Store) (a : SettleArgs) : SettlePc → Call → Option (Store × SettlePc)
  | .getVoucher, .fail err => some (s, .returned (some err))
  | .getVoucher, .ok =>
    match getVoucherByCode s a.code with
    | none => some (s, .returned none)
    | some (v, _) => some (s, .getUsage v)
  | .getUsage _, .fail err => some (s, .returned (some err))
  | .getUsage v, .ok =>
    if hasVoucherUsage s v a.orderID then some (s, .returned none) else some (s, .insertUsage v)
  | .insertUsage _, .fail err => some (s, .returned (some err))
  | .insertUsage v, .ok => some (insertVoucherUsage s (a.usage v), .increaseUsed v)
  -- the error of the counter update is discarded
  | .increaseUsed _, .fail _ => some (s, .returned none)
  | .increaseUsed v, .ok => some (increaseVoucherUsedCount s v, .returned none)
  | .returned _, _ => none

theorem settleStep_frame {s s' : Store} {a : SettleArgs} {pc pc' : SettlePc} {x : Call}
    (h : settleStep s a pc x = some (s', pc')) :
    s' = { s with usages := s'.usages, vouchers := s'.vouchers } := by
  have hin : ∀ u, insertVoucherUsage s u =
      { s with usages := (insertVoucherUsage s u).usages } := by
    intro u
    unfold insertVoucherUsage
    split <;> rfl
  have hup : ∀ v, increaseVoucherUsedCount s v =
      { s with vouchers := (increaseVoucherUsedCount s v).vouchers } := by
    intro v
    simp only [increaseVoucherUsedCount]
    split <;> rfl
  cases pc <;> cases x <;> simp only [settleStep] at h
  case getVoucher.ok => split at h <;> cases h <;> rfl
  case getUsage.ok => split at h <;> cases h <;> rfl
  case insertUsage.ok v =>
    cases h
    rw [hin]
  case increaseUsed.ok v =>
    cases h
    rw [hup]
  all_goals cases h <;> rfl

theorem count_insert {s : Store} {v : Nat} (u : VoucherUsage)
    (hnew : hasVoucherUsage s u.voucherID u.orderID = false) :
    countVoucherUsage (insertVoucherUsage s u) v =
      countVoucherUsage s v + if u.voucherID = v then 1 else 0 := by
  simp only [countVoucherUsage, insertVoucherUsage, hnew, Bool.false_eq_true, if_false,
    List.countP_append, List.countP_cons, List.countP_nil, decide_eq_true_eq, Nat.zero_add]

/-- The limits of a voucher, which no statement of the shop changes. -/
def limits (s : Store) (id : Nat) : Option Int × Option Int :=
  ((s.vouchers.row id).usageLimit, (s.vouchers.row id).perUserLimit)

theorem settleStep_usages {s s' : Store} {a : SettleArgs} {pc pc' : SettlePc} {x : Call}
    (h : settleStep s a pc x = some (s', pc')) :
    (∃ v, pc = .insertUsage v ∧ x = .ok ∧ s' = insertVoucherUsage s (a.usage v)) ∨
      ((∀ v, pc = .insertUsage v → x ≠ .ok) ∧ s'.usages = s.usages ∧
        ∀ id, limits s' id = limits s id) := by
  cases pc <;> cases x <;> simp only [settleStep] at h
  case getVoucher.ok => split at h <;> cases h <;> exact .inr ⟨by simp, rfl, fun _ => rfl⟩
  case getUsage.ok v => split at h <;> cases h <;> exact .inr ⟨by simp, rfl, fun _ => rfl⟩
  case insertUsage.ok v =>
    cases h
    exact .inl ⟨v, rfl, rfl, rfl⟩
  case increaseUsed.ok v =>
    cases h
    refine .inr ⟨by simp, ?_, fun id => ?_⟩
    · simp only [increaseVoucherUsedCount]
      split <;> rfl
    · simp only [increaseVoucherUsedCount]
      split
      · by_cases hid : id = v
        · subst id
          simp only [limits, Lib.Rows.Table.set_row_self]
        · simp only [limits, Lib.Rows.Table.set_row_ne _ _ hid]
      · rfl
  all_goals cases h <;> exact .inr ⟨by simp, rfl, fun _ => rfl⟩

end TokoApi.Voucher
