import TokoApi.Shop.Machine

/-!
# The limits of a voucher

The limits are tested when a voucher is put on a cart and when the cart is checked
out. A usage is recorded when the order is paid, with no test at all: any number
of orders may have passed the tests before the first of them is paid. So the
limits hold along a run exactly when every usage that is recorded finds quota left.
-/
namespace TokoApi.Shop

open Db Voucher Lib.Threads Lib.Runs

/-- The recorded usages are within the limits that the voucher has. -/
def WithinLimits (v : Nat) (s : Store) : Prop :=
  (∀ limit ∈ (limits s v).1, (countVoucherUsage s v : Int) ≤ limit) ∧
    ∀ limit ∈ (limits s v).2, ∀ user, (countVoucherUsageByUser s v user : Int) ≤ limit

/-- The usage that a statement records. -/
def Thread.records : Thread → Call → Option VoucherUsage
  | .payment t, .ok =>
    match t.pc with
    | .settle l (.insertUsage v) => some ((Payment.settleArgs l).usage v)
    | _ => none
  | _, _ => none

def records (c : State) : Label → Option VoucherUsage
  | .act i x => c.threads[i]?.bind fun t => t.records x
  | _ => none

/-- A usage of the voucher that is not there yet is recorded only while fewer than
the limits are. -/
abbrev QuotaLeft (v : Nat) (c : State) (a : Label) : Prop :=
  ∀ u ∈ records c a, u.voucherID = v → hasVoucherUsage c.shared v u.orderID = false →
    (∀ limit ∈ (limits c.shared v).1, (countVoucherUsage c.shared v : Int) < limit) ∧
      ∀ limit ∈ (limits c.shared v).2, ∀ user ∈ u.userID,
        (countVoucherUsageByUser c.shared v user : Int) < limit

variable {cfg : Config} {i : Nat} {s s' : Store} {t t' : Thread} {x : Call} {v : Nat}

/-! ## What a statement records -/

theorem effect_usages {u u' : Payment.Thread} (hpc : ∀ l pc, u.pc ≠ .settle l pc)
    (he : Payment.Effect cfg.payment i s u s' u') :
    s'.usages = s.usages ∧ ∀ id, limits s' id = limits s id := by
  cases he with
  | payment _ hs | paid _ hs | canceled _ hs | stock _ hs =>
    obtain ⟨_, _, rfl⟩ := Option.map_eq_some_iff.mp hs
    exact ⟨rfl, fun _ => rfl⟩
  | voucher hsettle _ => exact absurd hsettle (hpc _ _)
  | _ => exact ⟨rfl, fun _ => rfl⟩

/-- The statements of the webhook outside `Settle` record nothing, and those of
`Settle` what `settleStep` does. -/
theorem payment_usages {u u' : Payment.Thread}
    (h : Payment.webhookStep cfg.payment i s u x = some (s', u')) :
    (∀ id, limits s' id = limits s id) ∧
      ((∃ w, Thread.records (.payment u) x = some w ∧
          s'.usages = (insertVoucherUsage s w).usages) ∨
        (Thread.records (.payment u) x = none ∧ s'.usages = s.usages)) := by
  by_cases hset : ∃ l pc, u.pc = .settle l pc
  · obtain ⟨l, pc, hpc⟩ := hset
    by_cases hret : ∃ err, pc = .returned err
    · obtain ⟨err, rfl⟩ := hret
      have hr : Thread.records (.payment u) x = none := by
        cases x <;> simp [Thread.records, hpc]
      cases err <;> simp only [Payment.webhookStep, hpc, Payment.abort] at h <;> cases h <;>
        exact ⟨fun _ => rfl, .inr ⟨hr, rfl⟩⟩
    · have hs : ∃ pc', settleStep s (Payment.settleArgs l) pc x = some (s', pc') := by
        cases pc with
        | returned err => exact absurd ⟨err, rfl⟩ hret
        | _ =>
          simp only [Payment.webhookStep, hpc] at h
          obtain ⟨⟨s₁, pc'⟩, hs, he⟩ := Option.map_eq_some_iff.mp h
          cases he
          exact ⟨pc', hs⟩
      obtain ⟨pc', hs⟩ := hs
      obtain ⟨w, rfl, rfl, rfl⟩ | ⟨hno, hu, hl⟩ := settleStep_usages hs
      · refine ⟨fun id => ?_, .inl ⟨_, by simp [Thread.records, hpc], rfl⟩⟩
        unfold insertVoucherUsage
        split <;> rfl
      · refine ⟨hl, .inr ⟨?_, hu⟩⟩
        cases x with
        | fail err => rfl
        | ok =>
          simp only [Thread.records, hpc]
          split
          · rename_i l' w he
            cases he
            exact absurd rfl (hno w rfl)
          · rfl
  · have hr : Thread.records (.payment u) x = none := by
      cases x with
      | fail err => rfl
      | ok =>
        simp only [Thread.records]
        split
        · rename_i l w hpc
          exact absurd ⟨l, _, hpc⟩ hset
        · rfl
    obtain ⟨hu, hl⟩ := effect_usages (fun l pc hpc => hset ⟨l, pc, hpc⟩) (Payment.step_effect h)
    exact ⟨hl, .inr ⟨hr, hu⟩⟩

theorem usages_step (h : shopStep cfg i s t x = some (s', t')) :
    (∀ id, limits s' id = limits s id) ∧
      ((∃ w, t.records x = some w ∧ s'.usages = (insertVoucherUsage s w).usages) ∨
        (t.records x = none ∧ s'.usages = s.usages)) := by
  obtain ⟨u, u', rfl, rfl, hs⟩ | ⟨hp, _, hc⟩ := step_change h
  · exact payment_usages hs
  · have hr : t.records x = none := by
      cases t with
      | payment u => cases hp
      | _ => cases x <;> rfl
    cases hc.touches with
    | beside hs _ =>
      rw [hs]
      exact ⟨fun _ => rfl, .inr ⟨hr, rfl⟩⟩
    | status | ordered | claimed => exact ⟨fun _ => rfl, .inr ⟨hr, rfl⟩⟩

/-! ## Counting -/

theorem countByUser_insert (u : VoucherUsage) (user : Nat)
    (hnew : hasVoucherUsage s u.voucherID u.orderID = false) :
    countVoucherUsageByUser (insertVoucherUsage s u) v user =
      countVoucherUsageByUser s v user + if u.voucherID = v ∧ u.userID = some user then 1 else 0 := by
  simp only [countVoucherUsageByUser, insertVoucherUsage, hnew, Bool.false_eq_true, if_false,
    List.countP_append, List.countP_cons, List.countP_nil, decide_eq_true_eq, Nat.zero_add]

theorem within_congr (hl : limits s' v = limits s v) (hu : s'.usages = s.usages) :
    WithinLimits v s' ↔ WithinLimits v s := by
  simp only [WithinLimits, hl, countVoucherUsage, countVoucherUsageByUser, hu]

/-- A usage that is recorded keeps the limits exactly when there is quota left. -/
theorem within_insert (u : VoucherUsage) (hw : WithinLimits v s)
    (hl : limits s' v = limits s v) (hu : s'.usages = (insertVoucherUsage s u).usages) :
    WithinLimits v s' ↔ (u.voucherID = v → hasVoucherUsage s v u.orderID = false →
      (∀ limit ∈ (limits s v).1, (countVoucherUsage s v : Int) < limit) ∧
        ∀ limit ∈ (limits s v).2, ∀ user ∈ u.userID,
          (countVoucherUsageByUser s v user : Int) < limit) := by
  have hcount : countVoucherUsage s' v = countVoucherUsage (insertVoucherUsage s u) v := by
    simp only [countVoucherUsage, hu]
  have huser : ∀ user, countVoucherUsageByUser s' v user =
      countVoucherUsageByUser (insertVoucherUsage s u) v user := by
    intro user
    simp only [countVoucherUsageByUser, hu]
  by_cases hnew : u.voucherID = v ∧ hasVoucherUsage s v u.orderID = false
  · obtain ⟨rfl, hnew⟩ := hnew
    simp only [WithinLimits, hl, hcount, huser, count_insert u hnew, countByUser_insert u _ hnew,
      if_true, true_and, hnew, forall_const]
    refine and_congr (forall₂_congr fun limit _ => ?_) (forall₂_congr fun limit hlim => ?_)
    · push_cast
      omega
    · constructor
      · intro h user huser
        have := h user
        rw [if_pos (Option.mem_def.mp huser)] at this
        push_cast at this
        omega
      · intro h user
        have hold := hw.2 limit hlim user
        split
        · rename_i huser
          have := h user huser
          push_cast
          omega
        · simpa using hold
  · have hsame : (∀ user, countVoucherUsageByUser s' v user = countVoucherUsageByUser s v user) ∧
        countVoucherUsage s' v = countVoucherUsage s v := by
      by_cases hold : hasVoucherUsage s u.voucherID u.orderID = true
      · have he : insertVoucherUsage s u = s := by simp only [insertVoucherUsage, hold, if_true]
        exact ⟨fun user => by rw [huser, he], by rw [hcount, he]⟩
      · have hne : ¬ u.voucherID = v := by
          rintro rfl
          exact hnew ⟨rfl, by simpa using hold⟩
        have hfree : hasVoucherUsage s u.voucherID u.orderID = false := by simpa using hold
        refine ⟨fun user => ?_, ?_⟩
        · rw [huser, countByUser_insert u user hfree, if_neg (fun h => hne h.1), Nat.add_zero]
        · rw [hcount, count_insert u hfree, if_neg hne, Nat.add_zero]
    refine ⟨fun _ hv hf => absurd ⟨hv, hf⟩ hnew, fun _ => ?_⟩
    simpa only [WithinLimits, hl, hsame.1, hsame.2] using hw

theorem within_step_iff {c d : State} {a : Label} (hw : WithinLimits v c.shared)
    (h : (shopMachine cfg).step c a = some d) : WithinLimits v d.shared ↔ QuotaLeft v c a := by
  cases Machine.step_effect h with
  | spawn r =>
    exact iff_of_true hw (by simp [QuotaLeft, records])
  | act ht hl =>
    obtain ⟨hlim, ⟨w, hr, hu⟩ | ⟨hr, hu⟩⟩ := usages_step hl
    · rw [within_insert w hw (hlim v) hu]
      simp only [QuotaLeft, records, ht, Option.bind_some, hr, Option.mem_def, Option.some.injEq,
        forall_eq']
    · rw [within_congr (hlim v) hu]
      exact iff_of_true hw (by simp [QuotaLeft, records, ht, hr])
  | env he =>
    cases he
    exact iff_of_true hw (by simp [QuotaLeft, records])

/-- Along every run of the shop that starts within the limits of a voucher, the
recorded usages never exceed them exactly when every usage that is recorded finds
quota left. -/
theorem within_limits_iff (cfg : Config) (v : Nat) (s₀ : Store) (hw : WithinLimits v s₀)
    (acts : List Label) (c : State) (hr : run (shopMachine cfg).step ⟨s₀, []⟩ acts = some c) :
    (∀ n d, run (shopMachine cfg).step ⟨s₀, []⟩ (acts.take n) = some d → WithinLimits v d.shared) ↔
      Meets (shopMachine cfg).step (QuotaLeft v) ⟨s₀, []⟩ acts :=
  always_iff_meets (I := fun _ => True) (P := fun c : State => WithinLimits v c.shared)
    (fun _ _ _ _ _ _ => trivial) (fun _ _ _ _ hw h => within_step_iff hw h) trivial hw hr

/-! ## Runs on one voucher -/

/-- Voucher 20 with its limits, the carts 11 and 13 of user 1 and 12 of user 2. -/
def voucherStore (usageLimit perUserLimit : Option Int) : Store :=
  { emptyStore with
    nextID := 100
    vouchers := ⟨[20], fun _ => ⟨"SAVE", .fixedAmount, 10, none, 0, usageLimit, perUserLimit, 0, none,
      none, [], [], []⟩⟩
    carts := ⟨[11, 12, 13], fun id => ⟨if id = 12 then some 2 else some 1, none, none, 0, none, 1⟩⟩
    cartItems := [11, 12, 13].map fun cart =>
      ⟨cart + 10, cart, 30, none, "", "", 1, 100, 100⟩ }

def numeral (text : String) : Except String Nat :=
  ([1, 2, 11, 12, 13, 100, 101].find? fun n => toString n = text).elim (.error "invalid UUID") .ok

/-- A shop whose identifiers are numerals and whose provider sends the order that
has been paid. -/
def numeralShop : Config where
  payment :=
    { providers := fun _ => some fun r => .valid ⟨r.body, 0, "PAID"⟩
      replay := true
      replayTTL := 3600
      voucher := true
      sha256Hex := id
      toUUID := fun text => (numeral text).toOption }
  intents := ⟨fun _ _ => .ok 0, 900, "", numeral⟩
  courier := ⟨600, id, fun _ => none, fun _ => none, fun text => (numeral text).toOption⟩
  orders := ⟨fun text => (numeral text).toOption, some⟩
  checkout := ⟨⟨0, 0, none, numeral⟩, 0⟩

/-- Requests `i` and `i + 1`: the voucher is put on a cart, and the cart checked
out. -/
def buys (i : Nat) (user cart : String) : List Label :=
  request i (.applyVoucher ⟨cart, "SAVE"⟩) 6 ++
    request (i + 1) (.checkout ⟨some user, some "1", cart, 0⟩) 10

/-- Requests `i` and `i + 1`: a payment is opened for an order, and settled. -/
def pays (i : Nat) (order : String) : List Label :=
  request i (.intent ⟨order, 0, "", ""⟩) 4 ++
    request (i + 1) (.payment ⟨"plain", "", order⟩) 14

theorem one_usage_within_limits :
    ∃ c, run (shopMachine numeralShop).step ⟨voucherStore (some 1) (some 1), []⟩
        (buys 0 "1" "11" ++ pays 2 "100") = some c ∧
      countVoucherUsage c.shared 20 = 1 ∧ WithinLimits 20 c.shared := by
  refine reaches_and (by decide +kernel) fun c hc _ => ?_
  have hstart : WithinLimits 20 (voucherStore (some 1) (some 1)) := by
    refine ⟨by decide, fun limit hl user => ?_⟩
    cases hl
    exact Int.zero_le_ofNat 1
  have hall := (within_limits_iff numeralShop 20 _ hstart _ c hc).mpr (by decide +kernel)
  exact hall _ c (run_take_length hc)

/-- Two users check out with the last voucher before either of them pays; one user
checks out two carts. -/
theorem limits_exceeded :
    ((run (shopMachine numeralShop).step ⟨voucherStore (some 1) (some 1), []⟩
        (buys 0 "1" "11" ++ buys 2 "2" "12" ++ pays 4 "100" ++ pays 6 "101")).map fun c =>
      countVoucherUsage c.shared 20) = some 2 ∧
    ((run (shopMachine numeralShop).step ⟨voucherStore (some 5) (some 1), []⟩
        (buys 0 "1" "11" ++ buys 2 "1" "13" ++ pays 4 "100" ++ pays 6 "101")).map fun c =>
      countVoucherUsageByUser c.shared 20 1) = some 2 := by
  decide +kernel

end TokoApi.Shop
