import TokoApi.Payment.OneOpen
import TokoApi.Payment.Xendit

/-!
# Paid orders and the amount of the notification

`Handle` compares the amount of a notification with that of the payment before it writes
anything, but only where the former is positive, and the providers have made it of the text
in the body: of a missing amount zero, of one with a fraction the next integer or the one
below. So along every interleaving with `CreateIntent` an order is set to PAID for the amount
of its payment, which is the total of the order, if the text stands for a positive integer
that is kept. With every other text there is a total that it is not and that it pays.
-/
namespace TokoApi.Payment

open Db Voucher Lib.Numbers Lib.Rows Lib.Text Lib.Threads Lib.Runs

inductive Provider where
  | midtrans (m : Midtrans)
  | xendit (x : Xendit)

def Provider.verify : Provider → Request → Verdict
  | midtrans m => m.provider
  | xendit x => x.provider

/-- The amount in the body, as the text that is read; blank if there is none. -/
def Provider.amountText : Provider → Request → String
  | midtrans _, r =>
    ((unmarshalPayload r.body.toUTF8.toList).map fun p => trimSpace p.grossAmount).getD ""
  | xendit _, r => ((unmarshalCallback r.body.toUTF8.toList).map XenditPayload.amount).getD ""

/-- The text stands for a positive integer of 64 bits, and has no fraction or exponent or
stands for a float. -/
def Exact (text : String) : Prop :=
  ∃ n : Int, decimal text = some (n : ℚ) ∧ 0 < n ∧ n < 2 ^ 63 ∧
    ((signedDigits text).isSome ∨ float64 n = n)

section

variable {text : String} {a : Int}

theorem exact_of_digits {n : Int} (h : signedDigits text = some n) :
    Exact text ↔ 0 < n ∧ n < 2 ^ 63 := by
  have hvalue := (decimal_of_digits h).1
  constructor
  · rintro ⟨m, hm, hpos, hlt, _⟩
    obtain rfl : n = m := by exact_mod_cast Option.some.inj (hvalue.symm.trans hm)
    exact ⟨hpos, hlt⟩
  · rintro ⟨hpos, hlt⟩
    exact ⟨n, hvalue, hpos, hlt, .inl (by simp [h])⟩

theorem exact_of_float {conv : ℚ → Int} (hconv : ∀ n : Int, conv n = n)
    (h : signedDigits text = none)
    (ha : (decimal text).isSome → ((parseFloat text).map fun f => toInt64 (conv f)).getD 0 = a) :
    (0 < a ∧ decimal text = some (a : ℚ)) ↔ Exact text := by
  cases hq : decimal text with
  | none => simp [Exact, hq]
  | some q => simpa [Exact, hq, h] using parseFloat_exact_iff hconv hq (ha (by simp [hq]))

theorem midtrans_exact_iff {m : Midtrans} {value : String}
    (ha : m.parseMidtransAmount value = some a) :
    (0 < a ∧ decimal (trimSpace value) = some (a : ℚ)) ↔ Exact (trimSpace value) := by
  unfold Midtrans.parseMidtransAmount at ha
  generalize trimSpace value = text at ha ⊢
  dsimp only at ha
  split at ha
  · rename_i hblank
    subst hblank
    obtain rfl := Option.some.inj ha
    exact exact_of_float truncate_intCast (by decide) fun h => absurd h (by decide +kernel)
  · split at ha
    · obtain ⟨hdigits, hrange⟩ := Option.filter_eq_some_iff.mp ha
      have hfits : -2 ^ 63 ≤ a ∧ a < 2 ^ 63 := of_decide_eq_true hrange
      rw [exact_of_digits hdigits, and_iff_left (decimal_of_digits hdigits).1, and_iff_left hfits.2]
    · rename_i hdot
      have hno : signedDigits text = none :=
        Option.eq_none_iff_forall_ne_some.mpr fun n hn => hdot (decimal_of_digits hn).2
      refine exact_of_float roundAway_intCast hno fun hdecimal => ?_
      rw [if_pos hdecimal] at ha
      rw [ha, Option.getD_some]

theorem xendit_exact_iff :
    (0 < Xendit.parseXenditAmount text ∧
      decimal text = some (Xendit.parseXenditAmount text : ℚ)) ↔ Exact text := by
  cases hdigits : signedDigits text with
  | none =>
    have hzero : int64Value text = 0 := by simp [int64Value, hdigits]
    exact exact_of_float truncate_intCast hdigits fun _ => by rw [Xendit.parseXenditAmount, if_pos hzero]
  | some n =>
    have hvalue := (decimal_of_digits hdigits).1
    have hclamped : int64Value text = max (-9223372036854775808) (min n 9223372036854775807) := by
      simp [int64Value, hdigits]
    rw [exact_of_digits hdigits, hvalue, Option.some_inj]
    unfold Xendit.parseXenditAmount
    split
    · -- zero again
      obtain rfl : n = 0 := by omega
      have hexact := parseFloat_exact_iff truncate_intCast hvalue rfl
      constructor
      · intro h
        obtain ⟨m, hm, hpos, _⟩ := hexact.mp h
        exact absurd (by exact_mod_cast hm : (0 : Int) = m) hpos.ne
      · rintro ⟨hpos, _⟩
        exact absurd hpos (lt_irrefl 0)
    · rw [hclamped, Int.cast_inj]
      omega

theorem Provider.exact_iff {p : Provider} {r : Request} {v : WebhookVerifyResult}
    (h : p.verify r = .valid v) :
    (0 < v.amount ∧ decimal (p.amountText r) = some (v.amount : ℚ)) ↔ Exact (p.amountText r) := by
  cases p with
  | midtrans m =>
    obtain ⟨q, hq, hok⟩ := m.provider_valid h
    have hamount := (Midtrans.verifyPayload_ok hok).2.2.2.1
    rw [amountText, hq, Option.map_some, Option.getD_some]
    exact midtrans_exact_iff hamount
  | xendit x =>
    obtain ⟨q, hq, rfl⟩ := x.provider_valid h
    rw [amountText, hq, Option.map_some, Option.getD_some]
    exact xendit_exact_iff

end

/-- The payment that the handler has read, until it answers. -/
def Pc.payment : Pc → Option Payment
  | .updatePayment _ p => some p
  | pc => pc.wrote.map Prod.snd

/-- The result is one that a provider has verified. -/
def Verified (h : Webhook) (v : WebhookVerifyResult) : Prop :=
  ∃ r verify, h.providers (Webhook.providerKey r) = some verify ∧ verify r = .valid v

/-- A handler at work has a verified notification, and one that has read the payment has
compared the amounts. -/
structure Checked (h : Webhook) (total : Nat → Int) (t : Thread) : Prop where
  verified : (∃ r, t.pc = .done r) ∨ Verified h t.result
  compared : ∀ p ∈ t.pc.payment, amountMismatch t.result p = false ∧
    p.amount = some (total p.orderID)

def SetsPaid (i order : Nat) (s s' : Store) : Prop :=
  ∃ o, (s'.orders.row order).draft = some (i, o) ∧ o.status = .paid ∧
    (s.orders.row order).draft ≠ some (i, o)

instance (i order : Nat) (s s' : Store) : Decidable (SetsPaid i order s s') :=
  decidable_of_iff (∃ v ∈ (s'.orders.row order).draft, v.1 = i ∧ v.2.status = .paid ∧
      (s.orders.row order).draft ≠ some v)
    ⟨fun ⟨(_, o), hv, hi, hpaid, hnew⟩ => ⟨o, hi ▸ hv, hpaid, hi ▸ hnew⟩,
      fun ⟨o, hd, hpaid, hnew⟩ => ⟨(i, o), hd, rfl, hpaid, hnew⟩⟩

section

variable {h : Webhook} {svc : Service} {total : Nat → Int} {s s' s₀ : Store} {i : Nat}
  {t t' : Thread} {x : Call} {pc : Pc}

theorem payment_of_wrote {w : Nat × Payment} (hw : pc.wrote = some w) : pc.payment = some w.2 := by
  cases pc <;> cases hw <;> rfl

theorem checked_done (r : Response) : Checked h total (t.goto (.done r)) :=
  ⟨.inl ⟨r, rfl⟩, forall_mem_none⟩

theorem Checked.goto (hc : Checked h total t) (hlive : ∀ r, t.pc ≠ .done r)
    (hp : pc.payment = none ∨ pc.payment = t.pc.payment) : Checked h total (t.goto pc) := by
  refine ⟨.inr ?_, ?_⟩
  · exact hc.verified.resolve_left fun ⟨r, hr⟩ => hlive r hr
  · show ∀ p ∈ pc.payment, _
    rcases hp with hp | hp <;> rw [hp]
    · exact forall_mem_none
    · exact hc.compared

theorem afterReplay_payment (r : WebhookVerifyResult) : (h.afterReplay r).payment = none := by
  unfold Webhook.afterReplay
  split <;> rfl

theorem checked_start (r : Request) : Checked h total (h.start r) := by
  unfold Webhook.start
  split
  · exact ⟨.inl ⟨_, rfl⟩, forall_mem_none⟩
  · rename_i verify hverify
    split
    · exact ⟨.inl ⟨_, rfl⟩, forall_mem_none⟩
    · exact ⟨.inl ⟨_, rfl⟩, forall_mem_none⟩
    · rename_i v hv
      refine ⟨.inr ⟨r, verify, hverify, hv⟩, fun p hp => ?_⟩
      dsimp only at hp
      split at hp
      · cases hp
      · rw [afterReplay_payment] at hp
        cases hp

theorem load_total {n id pid : Nat} {p : Payment} (hl : ∀ order, Ledger s₀ order n s)
    (hg : getLatestPaymentByOrder i s id = some (pid, p)) :
    p.amount = some (s₀.orders.row p.orderID).committed.pricingTotal := by
  obtain ⟨k, hlatest, heq⟩ := Option.map_eq_some_iff.mp hg
  cases heq
  have hid := (List.mem_filter.mp (newest_mem hlatest)).1
  obtain ⟨horder, hamount⟩ := bare_columns (Row.read_holds ((hl 0).columns pid) i)
  rw [hamount, horder]
  exact (hl _).amounts pid hid rfl

theorem checked_step {n : Nat} (hl : ∀ order, Ledger s₀ order n s)
    (hc : Checked h (fun o => (s₀.orders.row o).committed.pricingTotal) t)
    (he : Executes h i s t x s' t') :
    Checked h (fun o => (s₀.orders.row o).committed.pricingTotal) t' := by
  cases he with
  | refuses r | aborts r | commits => exact checked_done _
  | claims hpc => exact hc.goto (by simp [hpc]) (.inl (afterReplay_payment _))
  | begins hpc => exact hc.goto (by simp [hpc]) (.inl rfl)
  | loads hpc hg hm =>
    have hverified := hc.verified.resolve_left (by simp [hpc])
    refine ⟨.inr hverified, fun p hp => ?_⟩
    cases hp
    exact ⟨hm, load_total hl hg⟩
  | updatesPayment hpc => exact hc.goto (by simp [hpc]) (.inr (by rw [hpc]; rfl))
  | insertsEvent hpc hr hpc' =>
    have hverified := hc.verified.resolve_left (by simp [hpc])
    have hcompared := hc.compared
    rw [hpc] at hcompared
    refine ⟨.inr (hr ▸ hverified), ?_⟩
    rw [hpc', hr]
    exact hcompared
  | @getsOrder pid p o hpc =>
    have hp := payment_of_wrote (afterOrder_wrote t ⟨pid, p, o⟩)
    exact hc.goto (by simp [hpc]) (.inr (by rw [hp, hpc]; rfl))
  | @listsItems l hpc =>
    have hp := payment_of_wrote (afterItems_wrote h l (listOrderItemsForStock s l.payment.orderID))
    exact hc.goto (by simp [hpc]) (.inr (by rw [hp, hpc]; rfl))
  | @decrements l v q rest _ hpc =>
    have hp := payment_of_wrote (afterItems_wrote h l rest)
    exact hc.goto (by simp [hpc]) (.inr (by rw [hp, hpc]; rfl))
  | updatesOrder hpc | settles hpc | settled hpc | cancelsOrder hpc =>
    exact hc.goto (by simp [hpc]) (.inr (by rw [hpc]; rfl))
  | failsToCancel hpc =>
    have hverified := hc.verified.resolve_left (by simp [hpc])
    have hcompared := hc.compared
    rw [hpc] at hcompared
    exact ⟨.inr hverified, hcompared⟩

/-- UpdateOrderStatus with PAID is the only statement that makes an order PAID. -/
theorem setsPaid_inv {order : Nat} (he : Executes h i s t x s' t') (hs : SetsPaid i order s s') :
    ∃ l, t.pc = .updateOrder l ∧ l.payment.orderID = order := by
  obtain ⟨o, hd, hpaid, hnew⟩ := hs
  have hstatus : ∀ {id v s₁}, updateOrderStatusTx i s id v = some s₁ →
      (s₁.orders.row order).draft = some (i, o) → id = order ∧ o.status = v := by
    intro id v s₁ hu hd
    obtain ⟨os, hm, rfl⟩ := Option.map_eq_some_iff.mp hu
    obtain ⟨_, rfl⟩ | ⟨_, r, hr, rfl⟩ := Table.modify_inv hm
    · exact absurd hd hnew
    · by_cases hid : order = id
      · subst hid
        rw [Table.set_row_self] at hd
        obtain ⟨_, ⟨_, hr⟩ | ⟨b, _, hr⟩⟩ := Row.update_inv hr <;>
          · rw [hr] at hd
            cases hd
            exact ⟨rfl, rfl⟩
      · rw [Table.set_row_ne _ _ hid] at hd
        exact absurd hd hnew
  cases he with
  | updatesOrder hpc hu => exact ⟨_, hpc, (hstatus hu hd).1⟩
  | cancelsOrder hpc hu =>
    have hcanceled := (hstatus hu hd).2
    rw [hpaid] at hcanceled
    cases hcanceled
  | aborts => exact absurd hd Row.rollback_free
  | commits => exact absurd hd Row.commit_free
  | updatesPayment _ hu | decrements _ hu =>
    obtain ⟨_, _, rfl⟩ := Option.map_eq_some_iff.mp hu
    exact absurd hd hnew
  | settles _ hu =>
    rw [settleStep_frame hu] at hd
    exact absurd hd hnew
  | _ => exact absurd hd hnew

end

section

variable {h : Webhook} {svc : Service} {s₀ : Store} {c d : TillState} {l : TillLabel}

/-- The totals of the orders, which no statement changes. -/
def totals (s₀ : Store) (order : Nat) : Int := (s₀.orders.row order).committed.pricingTotal

def TillChecked (h : Webhook) (s₀ : Store) : TillThread → Prop
  | .inl t => Checked h (totals s₀) t
  | .inr _ => True

structure Compared (h : Webhook) (s₀ : Store) (c : TillState) : Prop where
  ledger : ∀ order, TillInv s₀ order c
  threads : Guarded (fun _ _ => True) (fun _ _ t => TillChecked h s₀ t) c

theorem compared_step (hc : Compared h s₀ c) (hs : (till h svc).step c l = some d) :
    Compared h s₀ d := by
  refine ⟨fun order => tillInv_step (hc.ledger order) hs, ?_⟩
  refine guarded_step hc.threads hs ?_ ?_ fun _ _ _ => ⟨trivial, hc.threads.2⟩
  · rintro (r | a) _
    · exact ⟨trivial, checked_start r⟩
    · exact ⟨trivial, trivial⟩
  · intro i x t s' t' _ ht hl
    refine ⟨trivial, ?_, fun j u _ hu => hc.threads.2 j u hu⟩
    obtain ⟨u, u', rfl, rfl, hu⟩ | ⟨u, u', rfl, rfl, _⟩ := Machine.beside_lstep hl
    · exact checked_step (fun order => (hc.ledger order).1) (hc.threads.2 i _ ht)
        (webhookStep_executes hu)
    · trivial

theorem compared_run (hs : AtRest s₀) (hnone : s₀.payments.ids = []) {acts : List TillLabel}
    (hr : run (till h svc).step ⟨s₀, []⟩ acts = some c) : Compared h s₀ c := by
  have hpriced : ∀ order, Priced order s₀ := by
    intro order id hid
    rw [hnone] at hid
    cases hid
  have hstart : Compared h s₀ ⟨s₀, []⟩ :=
    ⟨fun order => guarded_start (hs.ledger (hpriced order)), guarded_start trivial⟩
  exact run_inv (fun _ _ _ hc (_ : True) hs => compared_step hc hs) hstart (meets_true _ _) hr

theorem matches_iff {r : WebhookVerifyResult} {p : Payment} {total : Int}
    (hp : p.amount = some total) : amountMismatch r p = false ↔ r.amount ≤ 0 ∨ total = r.amount := by
  simp only [amountMismatch, hp]
  grind

theorem passes_only_iff {sender : Provider} {r : Request} {v : WebhookVerifyResult} {p : Payment}
    (h : sender.verify r = .valid v) :
    (∀ total, amountMismatch v { p with amount := some total } = false →
      decimal (sender.amountText r) = some (total : ℚ)) ↔ Exact (sender.amountText r) := by
  rw [← Provider.exact_iff h]
  constructor
  · intro hall
    have hown := hall v.amount ((matches_iff rfl).mpr (.inr rfl))
    refine ⟨?_, hown⟩
    by_contra hneg
    have hnext := hall (v.amount + 1) ((matches_iff rfl).mpr (.inl (by omega)))
    have heq : v.amount = v.amount + 1 := by exact_mod_cast Option.some.inj (hown.symm.trans hnext)
    omega
  · rintro ⟨hpos, hdecimal⟩ total hpass
    rw [((matches_iff rfl).mp hpass).resolve_left (by omega)]
    exact hdecimal

end

/-- Notifications of the two providers and calls of `CreateIntent` in any interleaving, from a
store without payments. A step that sets an order to PAID is UpdateOrderStatus of a handler
with a verified notification, and the amount of its payment is the total of the order. For a
notification with this result, the comparison has let no total pass but the amount in the body
exactly if the text of that is exact; and then the amount is the total of the order. -/
theorem paid_only_for_total (h : Webhook) (svc : Service) (s₀ : Store) (hs : AtRest s₀)
    (hnone : s₀.payments.ids = []) (acts : List TillLabel) (c d : TillState)
    (hr : run (till h svc).step ⟨s₀, []⟩ acts = some c) (i order : Nat) (x : Call)
    (hstep : (till h svc).step c (.act i x) = some d)
    (hpaid : SetsPaid i order c.shared d.shared) :
    ∃ t l, c.threads[i]? = some (.inl t) ∧ t.pc = .updateOrder l ∧ l.payment.orderID = order ∧
      Verified h t.result ∧
      l.payment.amount = some (c.shared.orders.row order).committed.pricingTotal ∧
      ∀ (r : Request) (p : Provider), h.providers (Webhook.providerKey r) = some p.verify →
        p.verify r = .valid t.result →
        ((∀ total, amountMismatch t.result { l.payment with amount := some total } = false →
            decimal (p.amountText r) = some (total : ℚ)) ↔ Exact (p.amountText r)) ∧
        (Exact (p.amountText r) → decimal (p.amountText r) =
          some ((c.shared.orders.row order).committed.pricingTotal : ℚ)) := by
  have hc : Compared h s₀ c := compared_run hs hnone hr
  obtain ⟨t, s', t', ht, hl, rfl⟩ := Machine.step_act hstep
  obtain ⟨u, u', rfl, rfl, hu⟩ | ⟨⟨a, pc⟩, u', rfl, rfl, hu⟩ := Machine.beside_lstep hl
  · obtain ⟨l, hpc, rfl⟩ := setsPaid_inv (webhookStep_executes hu) hpaid
    have hchecked : Checked h (totals s₀) u := hc.threads.2 i _ ht
    have hpayment : u.pc.payment = some l.payment := by rw [hpc]; rfl
    obtain ⟨hm, hamount⟩ := hchecked.compared l.payment hpayment
    have htotal : (c.shared.orders.row l.payment.orderID).committed.pricingTotal =
        totals s₀ l.payment.orderID := ((hc.ledger l.payment.orderID).1.totals _).1
    rw [← htotal] at hamount
    have hverified := hchecked.verified.resolve_left (by simp [hpc])
    refine ⟨u, l, ht, hpc, rfl, hverified, hamount, fun r p _ hvalid => ?_⟩
    have honly := passes_only_iff (p := l.payment) hvalid
    refine ⟨honly, fun hexact => honly.mpr hexact _ ?_⟩
    rw [← hamount]
    exact hm
  · obtain ⟨pc', hintent, rfl⟩ := lifted_inv hu
    obtain ⟨o, hd, _, hnew⟩ := hpaid
    rw [(intentStep_frame hintent).1] at hd
    exact absurd hd hnew

/-! ## Notifications of other amounts -/

/-- An account whose keyed hash is the length of the body. -/
def openXendit : Xendit where
  secretKey := "key"
  hmacSha256Hex _ body := toString body.length

def bothProviders : Webhook :=
  { plainProvider with
    providers := fun name =>
      if name = "midtrans" then some openMidtrans.provider
      else if name = "xendit" then some openXendit.provider else none }

/-- A payment of order 7 is opened by request 0; request 1 is the notification, and stands
before its statement on the order. -/
def untilPaid (r : Request) : List TillLabel :=
  intends :: statements 0 4 ++ .spawn (.inl r) :: statements 1 6

/-- A callback with these members between the id and the status. -/
def xenditPaid (amount length : String) : Request :=
  ⟨"xendit", length, "\x7b\"external_id\":\"7\"," ++ amount ++ "\"status\":\"PAID\"\x7d"⟩

def midtransPaid (amount : String) : Request :=
  ⟨"midtrans", "", "\x7b\"order_id\":\"7\",\"gross_amount\":\"" ++ amount ++
    "\",\"signature_key\":\"mac-7" ++ amount ++ "key\",\"transaction_status\":\"capture\"\x7d"⟩

/-- The notification of request 1 is verified and sets order 7, with a total of 100, to PAID. -/
abbrev PaysHundred (p : Provider) (r : Request) (c d : TillState) : Prop :=
  SetsPaid 1 7 c.shared d.shared ∧ (c.shared.orders.row 7).committed.pricingTotal = 100 ∧
    ∃ t ∈ c.threads[1]?.bind Sum.getLeft?, p.verify r = .valid t.result

def Pays (p : Provider) (r : Request) : Prop :=
  ∃ c d, run (till bothProviders plainIntents).step ⟨awaitsPayment, []⟩ (untilPaid r) = some c ∧
    (till bothProviders plainIntents).step c (.act 1 .ok) = some d ∧ PaysHundred p r c d

/-- The amount is written with a fraction of zero. -/
theorem midtrans_paid_for_total :
    Pays (.midtrans openMidtrans) (midtransPaid "100.00") ∧ Exact "100.00" ∧
      decimal "100.00" = some 100 := by
  have hpays : Pays (.midtrans openMidtrans) (midtransPaid "100.00") := reaches_then (by decide +kernel)
  have htext : (Provider.midtrans openMidtrans).amountText (midtransPaid "100.00") = "100.00" := by
    decide +kernel
  have hexact : Exact "100.00" :=
    ⟨100, by decide +kernel, by decide, by decide, .inr (by decide +kernel)⟩
  obtain ⟨c, d, hrun, hstep, hpaid, htotal, t, ht, hvalid⟩ := hpays
  obtain ⟨u, l, hu, _, _, _, _, hamount⟩ := paid_only_for_total bothProviders plainIntents
    awaitsPayment atRest_awaitsPayment rfl _ c d hrun 1 7 .ok hstep hpaid
  obtain rfl : u = t := by simpa [hu] using ht
  have hkey : Webhook.providerKey (midtransPaid "100.00") = "midtrans" := by decide +kernel
  have hvalue := (hamount (midtransPaid "100.00") (.midtrans openMidtrans) (by rw [hkey]; rfl) hvalid).2
  rw [htext, htotal] at hvalue
  exact ⟨⟨c, d, hrun, hstep, hpaid, htotal, u, ht, hvalid⟩, hexact, hvalue hexact⟩

/-- An order with a total of 100 is set to PAID by a notification of either provider that says
nothing about the amount, by 100.9 of the one and by 100.49 of the other. -/
theorem paid_for_other_amounts :
    (∀ p ∈ [(Provider.xendit openXendit, xenditPaid "" "35"), (.midtrans openMidtrans, midtransPaid ""),
        (.xendit openXendit, xenditPaid "\"amount\":100.9," "50"),
        (.midtrans openMidtrans, midtransPaid "100.49")],
      Pays p.1 p.2 ∧ p.1.amountText p.2 ∈ ["", "100.9", "100.49"]) ∧
    ∀ text ∈ ["", "100.9", "100.49"], decimal text ≠ some 100 := by
  refine ⟨?_, by decide +kernel⟩
  simp only [List.forall_mem_cons, List.not_mem_nil, false_imp_iff, implies_true, and_true]
  exact ⟨⟨reaches_then (by decide +kernel), by decide +kernel⟩,
    ⟨reaches_then (by decide +kernel), by decide +kernel⟩,
    ⟨reaches_then (by decide +kernel), by decide +kernel⟩,
    reaches_then (by decide +kernel), by decide +kernel⟩

end TokoApi.Payment
