import TokoApi.Shop.Discounts

/-!
# Usages of vouchers that were refused

`Create` copies the voucher code of the cart to the order also where the voucher was
refused and the discount is zero, and the webhook settles whatever code the order names,
with an amount of zero. So a usage stands for a lower price exactly when every usage that
is recorded is one of an order with a discount; and this is so as long as every checkout
that names a voucher has granted one, as it does where no call of the evaluation fails and
the rule gives more than zero on the lines at each of them.
-/
namespace TokoApi.Shop

open Db Cart Voucher Lib.Rows Lib.Text Lib.Threads Lib.Runs

abbrev HasDiscount (s : Store) (order : Nat) : Prop :=
  order ∈ s.orders.ids ∧ 0 < (s.orders.row order).committed.pricingDiscount

/-- Every usage is one of an order whose price has been lowered. -/
def UsagesLowered (s : Store) : Prop := ∀ u ∈ s.usages, HasDiscount s u.orderID

/-- A usage that is not there yet is recorded only for an order with a discount. -/
abbrev RecordsLowered (c : State) (a : Label) : Prop :=
  ∀ u ∈ records c a, hasVoucherUsage c.shared u.voucherID u.orderID = false →
    HasDiscount c.shared u.orderID

/-- The order names a voucher only where it has a discount. -/
abbrev Deserved (o : Order) : Prop :=
  trimSpace (voucherCode o.appliedVoucherCode) ≠ "" → 0 < o.pricingDiscount

def Thread.places : Thread → Call → Option Order
  | .checkout u, .ok =>
    match u.pc with
    | .commit o _ => some o
    | _ => none
  | _, _ => none

/-- No checkout commits an order with the code of a voucher that was refused. -/
def Honoured (c : State) : Label → Prop
  | .act i x => ∀ t ∈ c.threads[i]?, ∀ o ∈ t.places x, Deserved o
  | _ => True

/-- The cart whose voucher is evaluated. -/
def evaluated : Checkout.Pc → Option Cart
  | .getCartAgain cart _ | .eval cart _ _ _ | .createOrder cart _ _ => some cart
  | _ => none

/-- The calls of `EvaluateVoucher` succeed, the cart and lines are there when it reads them,
the rule grants more than zero on the lines as the tables stand at each of its calls, and the
lines of the order come to more than zero. -/
def grants (svc : Cart.Service) (s : Store) (x : Call) (t : Checkout.Thread) : Bool :=
  match t.pc with
  | .getCartAgain _ _ => x = .ok && (getCartByID s t.ids.cart).isSome
  | .eval _ _ a .listItems => x = .ok && listCartItems s a.cartID ≠ []
  | .eval _ _ a (.getVoucher lines _) =>
    x = .ok && 0 < granted svc s a.userID a.code (lines.map ruleLine)
  | .eval _ _ _ pc => x = .ok && 0 < ahead s pc
  | .createOrder _ items _ => x ≠ .ok || 0 < items.foldl Checkout.lineTotal 0
  | _ => true

/-- No checkout of a cart that names a voucher has it refused. -/
def Granting (cfg : Config) (c : State) : Label → Prop
  | .act i x => ∀ t ∈ c.threads[i]?.bind Thread.checkout?, ∀ cart ∈ evaluated t.pc,
    trimSpace (voucherCode cart.appliedVoucherCode) ≠ "" →
      grants cfg.checkout.cartSvc c.shared x t = true
  | _ => True

instance (cfg : Config) (c : State) : ∀ a : Label, Decidable (Granting cfg c a)
  | .act _ _ => inferInstanceAs (Decidable (∀ t ∈ _, ∀ cart ∈ _, _))
  | .spawn _ | .env _ => .isTrue trivial

variable {cfg : Config} {i j : Nat} {s s' : Store} {t t' : Thread} {x : Call} {c d : State} {a : Label}
  {u u' : Payment.Thread} {pc pc' : Payment.Pc}

/-! ## What a statement does to orders and usages -/

theorem records_inv {w : VoucherUsage} (h : t.records x = some w) :
    ∃ u l v, t = .payment u ∧ u.pc = .settle l (.insertUsage v) ∧ x = .ok ∧
      w = (Payment.settleArgs l).usage v := by
  unfold Thread.records at h
  split at h
  · split at h <;> cases h
    exact ⟨_, _, _, rfl, ‹_›, rfl, rfl⟩
  · cases h

theorem records_orders {w : VoucherUsage} (hr : t.records x = some w)
    (h : shopStep cfg i s t x = some (s', t')) : s'.orders = s.orders := by
  obtain ⟨u, l, v, rfl, hpc, rfl, -⟩ := records_inv hr
  obtain ⟨u', hs, rfl⟩ := lifted_inv h
  simp only [Payment.webhookStep, hpc, settleStep, Option.map_some] at hs
  cases hs
  unfold insertVoucherUsage
  split <;> rfl

theorem hasDiscount_step {order : Nat} (hf : Filed s) (ho : HasDiscount s order)
    (h : shopStep cfg i s t x = some (s', t')) : HasDiscount s' order := by
  obtain ⟨hmem, _, hrow⟩ := order_kept hf ho.1 h
  have hdiscount := congrArg Order.pricingDiscount hrow
  simp only [placedAs, Order.withStatus] at hdiscount
  exact ⟨hmem, hdiscount ▸ ho.2⟩

theorem usages_insert (w : VoucherUsage) :
    (insertVoucherUsage s w).usages =
      if hasVoucherUsage s w.voucherID w.orderID then s.usages else s.usages ++ [w] := by
  unfold insertVoucherUsage
  split <;> rfl

theorem lowered_act_iff (hf : Filed c.shared) (hl : UsagesLowered c.shared)
    (ht : c.threads[i]? = some t) (hs : shopStep cfg i c.shared t x = some (s', t')) :
    UsagesLowered s' ↔ RecordsLowered c (.act i x) := by
  have hrecords : records c (.act i x) = t.records x := by rw [records, ht, Option.bind_some]
  have hold : ∀ u ∈ c.shared.usages, HasDiscount s' u.orderID :=
    fun u hu => hasDiscount_step hf (hl u hu) hs
  unfold RecordsLowered UsagesLowered
  rw [hrecords]
  obtain ⟨-, ⟨w, hw, hu⟩ | ⟨hw, hu⟩⟩ := usages_step hs
  · rw [hw, hu, usages_insert]
    cases hhas : hasVoucherUsage c.shared w.voucherID w.orderID with
    | true =>
      refine iff_of_true (by simpa using hold) ?_
      rintro u ⟨⟩ hnew
      cases hhas.symm.trans hnew
    | false =>
      have hsame : HasDiscount s' w.orderID ↔ HasDiscount c.shared w.orderID := by
        unfold HasDiscount
        rw [records_orders hw hs]
      constructor
      · rintro h u ⟨⟩ _
        exact hsame.mp (h w (by simp))
      · intro h
        exact forall_mem_concat (hsame.mpr (h w rfl hhas)) hold
  · rw [hw, hu]
    exact iff_of_true hold forall_mem_none

theorem lowered_step_iff (hf : Filed c.shared) (hl : UsagesLowered c.shared)
    (h : (shopMachine cfg).step c a = some d) : UsagesLowered d.shared ↔ RecordsLowered c a := by
  cases Machine.step_effect h with
  | spawn r =>
    exact iff_of_true hl (by simp [RecordsLowered, records])
  | act ht hs =>
    exact lowered_act_iff hf hl ht hs
  | env he =>
    cases he
    exact iff_of_true hl (by simp [RecordsLowered, records])

theorem filed_run_step (hf : Filed c.shared) (h : (shopMachine cfg).step c a = some d) :
    Filed d.shared := by
  cases Machine.step_effect h with
  | spawn r =>
    exact hf
  | act ht hs =>
    exact filed_step hf hs
  | env he =>
    cases he
    exact hf.tick _

/-! ## What the webhook knows of the order -/

def loaded : Payment.Pc → Option Payment.Loaded
  | .updateOrder l | .listItems l | .decrement l _ _ _ | .settle l _ | .cancelOrder l | .commit l =>
    some l
  | _ => none

/-- The webhook settles the voucher of the order as it stands in the table, and only where
the order names one. -/
structure Charged (s : Store) (u : Payment.Thread) : Prop where
  order : ∀ l ∈ loaded u.pc, l.payment.orderID ∈ s.orders.ids ∧
    placedAs l.order = placedAs (s.orders.row l.payment.orderID).committed
  named : ∀ l pc, u.pc = .settle l pc → (Payment.settleArgs l).code ≠ ""

theorem afterItems_loaded (h : Payment.Webhook) (l : Payment.Loaded) (items : List (Nat × Int)) :
    loaded (h.afterItems l items) = some l ∧
      ∀ l' pc, h.afterItems l items = .settle l' pc → (Payment.settleArgs l').code ≠ "" := by
  cases items with
  | cons it rest => exact ⟨rfl, by rintro _ _ ⟨⟩⟩
  | nil =>
    simp only [Payment.Webhook.afterItems, Payment.Webhook.afterStock]
    split
    · rename_i hcode
      refine ⟨rfl, ?_⟩
      rintro _ _ ⟨⟩
      exact hcode.2
    · exact ⟨rfl, by rintro _ _ ⟨⟩⟩

theorem afterOrder_loaded (u : Payment.Thread) (l : Payment.Loaded) :
    loaded (Payment.Webhook.afterOrder u l) = some l ∧
      ∀ l' pc, Payment.Webhook.afterOrder u l ≠ .settle l' pc := by
  obtain ⟨_, h⟩ | ⟨_, h⟩ | ⟨_, h⟩ := Payment.afterOrder_cases u l <;> rw [h] <;>
    exact ⟨rfl, by rintro _ _ ⟨⟩⟩

/-- What is known of the order after a step of the webhook in the store `s`. -/
def Informed (i : Nat) (s : Store) (pc pc' : Payment.Pc) : Prop :=
  (∀ l ∈ loaded pc', loaded pc = some l ∨ getOrderByID i s l.payment.orderID = some l.order) ∧
    ∀ l p, pc' = .settle l p → (Payment.settleArgs l).code ≠ ""

theorem Informed.none (h : loaded pc' = none) : Informed i s pc pc' := by
  refine ⟨forall_mem_of_none h, ?_⟩
  rintro l p rfl
  cases h

theorem Informed.kept {l : Payment.Loaded} (h : loaded pc = some l)
    (h' : loaded pc' = some l)
    (hnamed : ∀ l' p, pc' = .settle l' p → (Payment.settleArgs l').code ≠ "") :
    Informed i s pc pc' := by
  refine ⟨fun l' hl' => .inl ?_, hnamed⟩
  rw [h, ← h']
  exact hl'

theorem Informed.read {l : Payment.Loaded} (h' : loaded pc' = some l)
    (hread : getOrderByID i s l.payment.orderID = some l.order)
    (hset : ∀ l' p, pc' ≠ .settle l' p) : Informed i s pc pc' := by
  refine ⟨fun l' hl' => .inr ?_, fun l' p hp => absurd hp (hset l' p)⟩
  obtain rfl := Option.some.inj (h'.symm.trans hl')
  exact hread

theorem webhook_informed {h : Payment.Webhook}
    (hs : Payment.webhookStep h i s u x = some (s', u'))
    (hnamed : ∀ l p, u.pc = .settle l p → (Payment.settleArgs l).code ≠ "") :
    Informed i s u.pc u'.pc := by
  cases Payment.webhookStep_executes hs with
  | refuses r hpc | begins hpc | loads hpc hg hm | updatesPayment hpc hw | aborts r hr hc
  | commits hpc hx ha => exact .none rfl
  | claims hpc hk =>
    refine .none ?_
    simp only [Payment.Thread.goto_pc, Payment.Webhook.afterReplay]
    split <;> rfl
  | insertsEvent hpc hr hpc' hk =>
    refine .none ?_
    rw [hpc']
    rfl
  | @getsOrder pid p o hpc ha ho =>
    obtain ⟨hload, hset⟩ := afterOrder_loaded u ⟨pid, p, o⟩
    rw [Payment.Thread.goto_pc]
    exact .read hload ho hset
  | updatesOrder hpc hw | settled hpc | cancelsOrder hpc hw | failsToCancel hpc =>
    exact .kept (by rw [hpc]; rfl) rfl (by rintro _ _ ⟨⟩)
  | listsItems hpc | decrements hpc hw =>
    obtain ⟨hload, hset⟩ := afterItems_loaded h _ _
    rw [Payment.Thread.goto_pc]
    exact .kept (by rw [hpc]; rfl) hload hset
  | settles hpc hw =>
    refine .kept (by rw [hpc]; rfl) rfl ?_
    rintro _ _ ⟨⟩
    exact hnamed _ _ hpc

theorem Charged.idle (h : loaded u.pc = none) : Charged s u := by
  refine ⟨forall_mem_of_none h, fun l p hpc => ?_⟩
  rw [hpc] at h
  cases h

theorem start_unloaded (h : Payment.Webhook) (r : Payment.Request) : loaded (h.start r).pc = none := by
  obtain ⟨a, hpc⟩ | hpc | ⟨id, hpc⟩ := Payment.start_cases h r <;> rw [hpc] <;> rfl

theorem charged_other (hf : Filed s) (hu : Charged s u)
    (h : shopStep cfg i s t x = some (s', t')) : Charged s' u := by
  refine ⟨fun l hl => ?_, hu.named⟩
  obtain ⟨hmem, hrow⟩ := hu.order l hl
  obtain ⟨hmem', -, hrow'⟩ := order_kept hf hmem h
  exact ⟨hmem', hrow.trans hrow'.symm⟩

theorem charged_own (hf : Filed s) (hu : Charged s u)
    (h : shopStep cfg i s (.payment u) x = some (s', .payment u')) : Charged s' u' := by
  obtain ⟨_, hs, ⟨⟩⟩ := lifted_inv h
  obtain ⟨hload, hnamed⟩ := webhook_informed hs hu.named
  refine charged_other hf ⟨fun l hl => ?_, hnamed⟩ h
  rcases hload l hl with hold | hread
  · exact hu.order l hold
  · obtain ⟨row, hget, hrow⟩ := Option.map_eq_some_iff.mp hread
    obtain ⟨hmem, rfl⟩ := Table.get?_eq_some.mp hget
    refine ⟨hmem, ?_⟩
    rw [← hrow]
    exact Row.read_holds (hf.rows l.payment.orderID) i

/-! ## What the evaluation grants -/

/-- A checkout that gets to its order with the code of a voucher has a discount for it. -/
def Deserving : Checkout.Pc → Prop
  | .eval cart _ a pc => a.code = voucherCode cart.appliedVoucherCode ∧
    ∀ lines n, pc = .getVoucher lines n → n = subtotalOf lines
  | .createOrder cart _ discount =>
    trimSpace (voucherCode cart.appliedVoucherCode) ≠ "" → 0 < discount
  | .createItem order _ _ | .commit order _ => Deserved order
  | _ => True

theorem evalStep_subtotal {svc : Cart.Service} {a : EvalArgs} {pc : EvalPc} {lines : List CartItem} {n : Int}
    (h : evalStep svc s a pc x = some (.getVoucher lines n)) : n = subtotalOf lines := by
  cases x with
  | fail err => cases pc <;> cases h
  | ok =>
    by_cases hlist : pc = .listItems
    · subst hlist
      simp only [evalStep] at h
      split at h <;> cases h
      rfl
    · cases pastVoucher_step hlist h

theorem evalStep_granting {svc : Cart.Service} {v : Checkout.Thread} {cart : Cart} {items : List CartItem}
    {a : EvalArgs} {pc pc' : EvalPc} (hpc : v.pc = .eval cart items a pc) (hcode : a.code ≠ "")
    (hsub : ∀ lines n, pc = .getVoucher lines n → n = subtotalOf lines)
    (hg : grants svc s x v = true) (h : evalStep svc s a pc x = some pc')
    (hpast : pastVoucher pc' = true) : 0 < ahead s pc' := by
  simp only [grants, hpc] at hg
  cases pc with
  | listItems =>
    simp only [Bool.and_eq_true, decide_eq_true_eq] at hg
    obtain ⟨rfl, hne⟩ := hg
    simp only [evalStep] at h
    cases h
    cases hpast
  | getVoucher lines n =>
    simp only [Bool.and_eq_true, decide_eq_true_eq] at hg
    obtain ⟨rfl, hpos⟩ := hg
    obtain rfl := hsub lines n rfl
    rwa [ahead_getVoucher hcode h]
  | _ =>
    simp only [Bool.and_eq_true, decide_eq_true_eq] at hg
    obtain ⟨rfl, hpos⟩ := hg
    rwa [ahead_step rfl h]

theorem deserving_afterItem {order : Order} {done rest : List OrderItem} (h : Deserved order) :
    Deserving (Checkout.afterItem order done rest) := by
  unfold Checkout.afterItem
  split <;> exact h

theorem deserving_afterEval {cart : Cart} {items : List CartItem} {a : EvalArgs} {pc : EvalPc}
    (ha : a.code = voucherCode cart.appliedVoucherCode)
    (hsub : ∀ lines n, pc = .getVoucher lines n → n = subtotalOf lines)
    (hpos : trimSpace (voucherCode cart.appliedVoucherCode) ≠ "" → pastVoucher pc = true → 0 < ahead s pc) :
    Deserving (Checkout.afterEval cart items a pc) := by
  cases pc with
  | returned r => cases r <;> exact fun hnamed => hpos hnamed rfl
  | _ => exact ⟨ha, hsub⟩

theorem deserving_step {svc : Checkout.Service} {v v' : Checkout.Thread}
    (hg : ∀ cart ∈ evaluated v.pc, trimSpace (voucherCode cart.appliedVoucherCode) ≠ "" →
      grants svc.cartSvc s x v = true)
    (hp : Deserving v.pc) (h : Checkout.checkoutStep svc s v x = some (s', v')) : Deserving v'.pc := by
  have hblank : trimSpace "" = "" := by decide
  obtain ⟨pc, rfl, he⟩ := Checkout.checkoutStep_executes h
  show Deserving pc
  cases he with
  | fails | begins | getsCart | commits => trivial
  | listsItems =>
    unfold Checkout.afterItems
    split
    · rename_i hcode
      exact fun hnamed => absurd (hcode ▸ hblank) hnamed
    · trivial
  | skipsVoucher hpc hnone =>
    intro hnamed
    have hgrants := hg _ (by rw [hpc]; rfl) hnamed
    simp only [grants, hpc, Bool.and_eq_true, decide_eq_true_eq] at hgrants
    rw [hnone hgrants.1] at hgrants
    cases hgrants.2
  | @getsCartAgain cart now items hpc =>
    refine deserving_afterEval (s := s) rfl ?_ ?_
    · unfold evalStart
      split <;> exact nofun
    · intro hnamed hpast
      unfold evalStart at hpast
      split at hpast
      · rename_i hcode
        exact absurd (hcode ▸ hblank) hnamed
      · cases hpast
  | evaluates hpc hstep =>
    rw [hpc] at hp hg
    refine deserving_afterEval (s := s) hp.1 ?_ fun hnamed hpast => ?_
    · rintro lines n rfl
      exact evalStep_subtotal hstep
    · refine evalStep_granting hpc (fun hcode => hnamed ?_) hp.2 (hg _ rfl hnamed) hstep hpast
      rw [← hp.1, hcode, hblank]
  | @creates cart items discount hpc hx =>
    rw [hpc] at hp hg
    refine deserving_afterItem fun hnamed => ?_
    have hgrants := hg _ rfl hnamed
    simp only [grants, hpc, hx, ne_eq, not_true_eq_false, decide_false, Bool.false_or,
      decide_eq_true_eq] at hgrants
    exact lt_min (hp hnamed) hgrants
  | createsItem hpc =>
    rw [hpc] at hp
    exact deserving_afterItem hp
  | createsNone hpc =>
    rw [hpc] at hp
    exact hp

abbrev AllDeserving : State → Prop :=
  Guarded (fun _ _ => True) fun _ _ t => ∀ v, t = .checkout v → Deserving v.pc

theorem allDeserving_step (hd : AllDeserving c) (hg : Granting cfg c a)
    (h : (shopMachine cfg).step c a = some d) : AllDeserving d := by
  refine guarded_step hd h ?_ ?_ ?_
  · intro r _
    refine ⟨trivial, fun v hv => ?_⟩
    cases r <;> cases hv
    unfold Checkout.start
    split <;> trivial
  · rintro i x t s' t' rfl ht hl
    refine ⟨trivial, fun v' hv' => ?_, fun j u _ hu => hd.2 j u hu⟩
    subst hv'
    cases t <;> obtain ⟨_, hs, he⟩ := lifted_inv hl <;> cases he
    exact deserving_step (hg _ (by rw [ht]; rfl)) (hd.2 i _ ht _ rfl) hs
  · exact fun e s' he => ⟨trivial, hd.2⟩

theorem honoured_of_deserving (hd : AllDeserving c) : Honoured c a := by
  cases a with
  | act i x =>
    intro t ht o ho
    unfold Thread.places at ho
    split at ho
    · split at ho <;> cases ho
      rename_i hpc
      have hdeserving := hd.2 i _ ht _ rfl
      rw [hpc] at hdeserving
      exact hdeserving
    · cases ho
  | _ => trivial

/-! ## Whole runs -/

structure Fair (s : Store) : Prop where
  filed : Filed s
  deserved : ∀ id ∈ s.orders.ids, Deserved (s.orders.row id).committed
  lowered : UsagesLowered s

abbrev AllFair : State → Prop :=
  Guarded (fun _ => Fair) fun _ s t => ∀ u, t = .payment u → Charged s u

theorem deserved_congr {o o' : Order} (h : placedAs o' = placedAs o) (ho : Deserved o) :
    Deserved o' := by
  have hcode := congrArg Order.appliedVoucherCode h
  have hdiscount := congrArg Order.pricingDiscount h
  simp only [placedAs, Order.withStatus] at hcode hdiscount
  unfold Deserved
  rw [hcode, hdiscount]
  exact ho

theorem deserved_step (hfair : Fair s) (hplaced : ∀ o ∈ t.places x, Deserved o)
    (h : shopStep cfg i s t x = some (s', t')) :
    ∀ id ∈ s'.orders.ids, Deserved (s'.orders.row id).committed := by
  cases hp : t.commits x with
  | none =>
    intro id hid
    rw [(keeps_of_step h hp).ids] at hid
    exact deserved_congr (order_kept hfair.filed hid h).2.2 (hfair.deserved id hid)
  | some p =>
    obtain ⟨u, o, rfl, rfl, hpc, -⟩ := commits_inv hp
    have ho : Deserved o := hplaced o (by simp [Thread.places, hpc])
    obtain ⟨u', o', hu, ho', -, rfl⟩ := commit_step hp h
    cases hu
    rw [hpc] at ho'
    cases ho'
    intro id hid
    by_cases hnew : id = s.nextID
    · subst hnew
      simpa [createOrder, Table.insert] using ho
    · have hold := (List.mem_append.mp hid).resolve_right fun h => hnew (List.mem_singleton.mp h)
      simpa [createOrder, Table.insert, Function.update_of_ne hnew] using hfair.deserved id hold

theorem charged_records (hfair : Fair c.shared) (ht : c.threads[i]? = some t)
    (hcharged : ∀ u, t = .payment u → Charged c.shared u) : RecordsLowered c (.act i x) := by
  intro w hw _
  rw [records, ht, Option.bind_some] at hw
  obtain ⟨u, l, v, rfl, hpc, -, rfl⟩ := records_inv hw
  obtain ⟨hmem, hrow⟩ := (hcharged u rfl).order l (by rw [hpc]; rfl)
  have hdeserved := deserved_congr hrow (hfair.deserved _ hmem)
  have hdiscount := congrArg Order.pricingDiscount hrow
  simp only [placedAs, Order.withStatus] at hdiscount
  refine ⟨hmem, ?_⟩
  have hpos := hdeserved ((hcharged u rfl).named l _ hpc)
  rw [hdiscount] at hpos
  exact hpos

theorem fair_step (hg : AllFair c) (hh : Honoured c a) (h : (shopMachine cfg).step c a = some d) :
    AllFair d := by
  refine guarded_step hg h ?_ ?_ ?_
  · intro r _
    refine ⟨hg.1, fun u hu => ?_⟩
    cases r <;> cases hu
    exact .idle (start_unloaded _ _)
  · rintro i x t s' t' rfl ht hl
    have hcharged := hg.2 i t ht
    refine ⟨⟨filed_step hg.1.filed hl, deserved_step hg.1 (hh t ht) hl, ?_⟩, fun u' hu' => ?_,
      fun j u _ hu v hv => charged_other hg.1.filed (hg.2 j u hu v hv) hl⟩
    · exact (lowered_act_iff hg.1.filed hg.1.lowered ht hl).mpr (charged_records hg.1 ht hcharged)
    · subst hu'
      obtain ⟨u, _, rfl, -, -⟩ | ⟨-, hnot, -⟩ := step_change hl
      · exact charged_own hg.1.filed (hcharged u rfl) hl
      · cases hnot
  · intro e s' he
    obtain rfl := Option.some.inj he
    exact ⟨{ hg.1 with filed := { hg.1.filed with } }, fun j u hu v hv => { hg.2 j u hu v hv with }⟩

/-- Along every run of the shop, usages are only there for orders whose price has been
lowered exactly when every usage that is recorded is one of an order with a discount. If the
orders at the start name no voucher without a discount, this is so in every run in which no
checkout commits an order with the code of a voucher that was refused, and so in every run in
which the rule grants something at each call of each evaluation. -/
theorem usages_lowered_iff (cfg : Config) (s₀ : Store) (hfiled : Filed s₀) (hlow : UsagesLowered s₀)
    (acts : List Label) (c : State) (hr : run (shopMachine cfg).step ⟨s₀, []⟩ acts = some c) :
    ((∀ n d, run (shopMachine cfg).step ⟨s₀, []⟩ (acts.take n) = some d → UsagesLowered d.shared) ↔
      Meets (shopMachine cfg).step RecordsLowered ⟨s₀, []⟩ acts) ∧
    ((∀ id ∈ s₀.orders.ids, Deserved (s₀.orders.row id).committed) →
      Meets (shopMachine cfg).step Honoured ⟨s₀, []⟩ acts ∨
        Meets (shopMachine cfg).step (Granting cfg) ⟨s₀, []⟩ acts →
      ∀ n d, run (shopMachine cfg).step ⟨s₀, []⟩ (acts.take n) = some d → UsagesLowered d.shared) := by
  refine ⟨always_iff_meets (I := fun c : State => Filed c.shared)
    (P := fun c : State => UsagesLowered c.shared) (fun _ _ _ hf _ h => filed_run_step hf h)
    (fun _ _ _ hf hl h => lowered_step_iff hf hl h) hfiled hlow hr, ?_⟩
  intro hdeserved hmeets n d hd
  have hstart : Fair s₀ := ⟨hfiled, hdeserved, hlow⟩
  rcases hmeets with hhonoured | hgranting
  · have hfair : AllFair d := run_take_inv (fun _ _ _ hg hh hs => fair_step hg hh hs)
      (guarded_start hstart) hhonoured hd
    exact hfair.1.lowered
  · have hfair := run_take_inv (I := fun c => AllFair c ∧ AllDeserving c)
      (fun _ _ _ hI hg hs =>
        ⟨fair_step hI.1 (honoured_of_deserving hI.2) hs, allDeserving_step hI.2 hg hs⟩)
      ⟨guarded_start hstart, guarded_start trivial⟩ hgranting hd
    exact hfair.1.1.lowered

/-! ## A voucher that is refused at checkout -/

/-- Cart 11 of user 1 and voucher 9, which takes 30 off a spend of 200 or more. -/
def savingCart : Store := { voucherCart with carts := emptyCart.carts }

/-- Three mugs are put into the cart, and the voucher is accepted. -/
def threeSaved : List Label := adds 0 3 ++ request 1 (.applyVoucher ⟨"11", "SAVE"⟩) 5

/-- The three mugs are bought and paid for. -/
def savedPurchase : List Label := threeSaved ++ checksOut 2 9 ++ pays 3 "101"

/-- The customer takes two mugs out again before the checkout. -/
def refusedPurchase : List Label := threeSaved ++ updates 2 1 ++ checksOut 3 9 ++ pays 4 "101"

def saving (acts : List Label) : Option State := run (shopMachine numeralShop).step ⟨savingCart, []⟩ acts

theorem three_mugs_lowered :
    ∃ c, saving savedPurchase = some c ∧ c.shared.usages = [⟨9, some 1, 101, 30⟩] ∧
      UsagesLowered c.shared := by
  refine reaches_and (by decide +kernel) fun c hc _ => ?_
  have hfiled : Filed savingCart :=
    ⟨List.forall_mem_nil _, List.forall_mem_nil _, List.forall_mem_nil _, fun _ => .of_free rfl⟩
  have hlowered := (usages_lowered_iff numeralShop savingCart hfiled (List.forall_mem_nil _)
    savedPurchase c hc).2 (List.forall_mem_nil _) (.inr (by decide +kernel))
  exact hlowered savedPurchase.length c (run_take_length hc)

/-- One mug does not reach the minimum spend, so the checkout refuses the voucher and the
price is not lowered; but when the order is paid, the voucher counts as used by the customer. -/
theorem refused_voucher_used :
    ∃ c, saving refusedPurchase = some c ∧ (c.shared.usages = [⟨9, some 1, 101, 0⟩] ∧
      (c.shared.orders.row 101).committed.pricingDiscount = 0 ∧
      countVoucherUsageByUser c.shared 9 1 = 1) :=
  reaches (by decide +kernel)

end TokoApi.Shop
