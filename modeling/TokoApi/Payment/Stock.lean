import TokoApi.Payment.Effects

/-!
# What the payment webhook does to the stock

A handler that settles an order lists its items once and takes them from the stock
one after the other. `toTake` is what it has still to take: all items of the order
from the decision to settle on, none of them at the commit. The decrements are
uncommitted until then, so that another handler waits for the rows.
-/
namespace TokoApi.Payment

open Db Voucher Lib.Rows Lib.Threads

/-- The order that is being settled, and those of its items that have not been taken
from the stock yet. -/
def Pc.toTake (s : Store) (settle : Payment → Bool) : Pc → Option (Nat × List (Nat × Int))
  | .updateOrder l | .listItems l =>
    some (l.payment.orderID, listOrderItemsForStock s l.payment.orderID)
  | .decrement l v q rest => some (l.payment.orderID, (v, q) :: rest)
  | .settle l _ => some (l.payment.orderID, [])
  | .commit l => if settle l.payment then some (l.payment.orderID, []) else none
  | _ => none

/-- The branch that the handler has taken is the one for its notification. -/
def Pc.OnBranch (settle : Payment → Bool) : Pc → Prop
  | .updateOrder l | .listItems l | .decrement l _ _ _ | .settle l _ => settle l.payment = true
  | .cancelOrder l => settle l.payment = false
  | _ => True

def Thread.toTake (s : Store) (t : Thread) : Option (Nat × List (Nat × Int)) :=
  t.pc.toTake s t.shouldSettle

def Thread.OnBranch (t : Thread) : Prop := t.pc.OnBranch t.shouldSettle

def Pc.commits : Pc → Bool
  | .commit _ => true
  | _ => false

/-- The order whose settlement the next statement commits. -/
def Thread.settles (t : Thread) : Option Nat :=
  match t.pc with
  | .commit l => if !t.aborted && t.shouldSettle l.payment then some l.payment.orderID else none
  | _ => none

/-- The steps as far as the stock and the settlement log go. -/
inductive StockEffect (i : Nat) (s : Store) (t : Thread) (x : Call) (s' : Store) (t' : Thread) :
    Prop where
  | quiet (hn : x = .ok → t.settles = none) (hv : s'.variants = s.variants)
      (hl : s'.settled = s.settled) (ht : t'.toTake s = t.toTake s)
  | decide {o} (hn : t.settles = none) (hs : s' = s) (ho : o ∈ s.orders.ids)
      (ht : t.toTake s = none) (ht' : t'.toTake s = some (o, listOrderItemsForStock s o))
  | take {o v q rest} (hn : t.settles = none) (ht : t.toTake s = some (o, (v, q) :: rest))
      (hm : s.variants.modify v (Row.update i (Variant.decrement q)) = some s'.variants)
      (hl : s'.settled = s.settled) (ht' : t'.toTake s = some (o, rest))
  | abort (hn : x = .ok → t.settles = none)
      (hv : s'.variants = s.variants.mapRows (Row.rollback i)) (hl : s'.settled = s.settled)
      (ht' : t'.toTake s = none)
  | commit (hx : x = .ok) (ht : t.toTake s = t.settles.map fun o => (o, []))
      (hv : s'.variants = s.variants.mapRows (Row.commit i))
      (hl : s'.settled = s.settled ++ t.settles.toList) (ht' : t'.toTake s = none)

variable {h : Webhook} {i : Nat} {s s' : Store} {t t' : Thread} {x : Call} {l : Loaded}
  {settle : Payment → Bool}

theorem shouldSettle_congr (hr : t'.result = t.result) : t'.shouldSettle = t.shouldSettle := by
  unfold Thread.shouldSettle Thread.newStatus
  rw [hr]

theorem toTake_congr (hr : t'.result = t.result) : t'.toTake s = t'.pc.toTake s t.shouldSettle := by
  rw [Thread.toTake, shouldSettle_congr hr]

theorem onBranch_congr (hr : t'.result = t.result) : t'.OnBranch ↔ t'.pc.OnBranch t.shouldSettle := by
  rw [Thread.OnBranch, shouldSettle_congr hr]

theorem commit_toTake (hb : settle l.payment = true) :
    (Pc.commit l).toTake s settle = some (l.payment.orderID, []) := if_pos hb

theorem commit_toTake_none (hb : settle l.payment = false) : (Pc.commit l).toTake s settle = none :=
  if_neg (ne_true_of_eq_false hb)

theorem toTake_store (h : ∀ o rest, t.toTake s = some (o, rest) →
    listOrderItemsForStock s' o = listOrderItemsForStock s o) : t.toTake s' = t.toTake s := by
  unfold Thread.toTake at h ⊢
  generalize t.shouldSettle = settle at h ⊢
  cases hpc : t.pc with
  | updateOrder l | listItems l =>
    rw [hpc] at h
    exact congrArg (fun items => some (l.payment.orderID, items)) (h _ _ rfl)
  | _ => rfl

theorem afterItems_toTake {items : List (Nat × Int)} (hb : settle l.payment = true) :
    (h.afterItems l items).toTake s settle = some (l.payment.orderID, items) ∧
      (h.afterItems l items).OnBranch settle := by
  cases items with
  | cons it rest => exact ⟨rfl, hb⟩
  | nil =>
    simp only [Webhook.afterItems, Webhook.afterStock]
    split
    · exact ⟨rfl, hb⟩
    · exact ⟨commit_toTake hb, trivial⟩

theorem afterReplay_toTake {r : WebhookVerifyResult} :
    (h.afterReplay r).toTake s settle = none ∧ (h.afterReplay r).OnBranch settle := by
  unfold Webhook.afterReplay
  split <;> exact ⟨rfl, trivial⟩

theorem shouldSettle_iff : t.shouldSettle l.payment = true ↔ t.marks l = some .paid := by
  unfold Thread.shouldSettle Thread.marks
  generalize t.newStatus = status
  cases status <;> simp [marking]

theorem afterOrder_toTake (t : Thread) (l : Loaded) :
    ((Webhook.afterOrder t l).toTake s t.shouldSettle = none ∨
      (Webhook.afterOrder t l).toTake s t.shouldSettle =
        some (l.payment.orderID, listOrderItemsForStock s l.payment.orderID)) ∧
      (Webhook.afterOrder t l).OnBranch t.shouldSettle := by
  have hiff := @shouldSettle_iff t l
  have hcases := afterOrder_cases t l
  generalize t.shouldSettle = settle at hiff ⊢
  generalize Webhook.afterOrder t l = pc at hcases ⊢
  obtain ⟨hm, rfl⟩ | ⟨hm, rfl⟩ | ⟨hm, rfl⟩ := hcases <;> rw [hm] at hiff
  · exact ⟨.inl (commit_toTake_none (by simpa using hiff)), trivial⟩
  · exact ⟨.inr rfl, hiff.mpr rfl⟩
  · have hfalse : settle l.payment = false := by simpa using hiff
    exact ⟨.inl rfl, hfalse⟩

/-! ## One step -/

theorem settles_none {pc : Pc} (hpc : t.pc = pc) (hc : pc.commits = false) : t.settles = none := by
  unfold Thread.settles
  split
  · rename_i l hl
    rw [← hpc, hl] at hc
    cases hc
  · rfl

theorem settles_of_aborted (hc : ∀ l, t.pc = .commit l → t.aborted = true) : t.settles = none := by
  unfold Thread.settles
  split
  · rename_i l hl
    simp [hc l hl]
  · rfl

theorem quiet_stock (hv : s'.variants = s.variants) (hl : s'.settled = s.settled)
    (hr : t'.result = t.result) {pc pc' : Pc} (hpc : t.pc = pc) (hc : pc.commits = false)
    (hpc' : t'.pc = pc') (ht : pc'.toTake s t.shouldSettle = pc.toTake s t.shouldSettle)
    (hb : pc'.OnBranch t.shouldSettle) : StockEffect i s t x s' t' ∧ t'.OnBranch := by
  have hn := settles_none hpc hc
  subst hpc hpc'
  exact ⟨.quiet (fun _ => hn) hv hl ((toTake_congr hr).trans ht), (onBranch_congr hr).mpr hb⟩

theorem decide_stock {o : Nat} (ho : o ∈ s.orders.ids) (hr : t'.result = t.result) {pc pc' : Pc}
    (hpc : t.pc = pc) (hc : pc.commits = false) (hpc' : t'.pc = pc')
    (ht : pc.toTake s t.shouldSettle = none)
    (ht' : pc'.toTake s t.shouldSettle = some (o, listOrderItemsForStock s o))
    (hb : pc'.OnBranch t.shouldSettle) : StockEffect i s t x s t' ∧ t'.OnBranch := by
  have hn := settles_none hpc hc
  subst hpc hpc'
  exact ⟨.decide hn rfl ho ht ((toTake_congr hr).trans ht'), (onBranch_congr hr).mpr hb⟩

theorem take_stock {v : Nat} {q : Int} {rest : List (Nat × Int)} {vs : Table (Row Variant)}
    (hm : s.variants.modify v (Row.update i (Variant.decrement q)) = some vs)
    (hpc : t.pc = .decrement l v q rest) (hb : t.shouldSettle l.payment = true) :
    StockEffect i s t x { s with variants := vs } (t.goto (h.afterItems l rest)) ∧
      (t.goto (h.afterItems l rest)).OnBranch := by
  have hr : (t.goto (h.afterItems l rest)).result = t.result := rfl
  have ht : t.toTake s = some (l.payment.orderID, (v, q) :: rest) := by
    rw [Thread.toTake, hpc]
    rfl
  obtain ⟨ht', hb'⟩ := @afterItems_toTake h s l _ rest hb
  exact ⟨.take (settles_none hpc rfl) ht hm rfl ((toTake_congr hr).trans ht'), (onBranch_congr hr).mpr hb'⟩

theorem commit_stock (hpc : t.pc = .commit l) (ha : t.aborted = false) :
    StockEffect i s t .ok (commitSettlement i s t l) (t.goto (.done noContent)) := by
  have hs : t.settles = if t.shouldSettle l.payment then some l.payment.orderID else none := by
    rw [Thread.settles, hpc]
    simp only [ha, Bool.not_false, Bool.true_and]
  refine .commit rfl ?_ rfl ?_ rfl
  · rw [Thread.toTake, hpc, Pc.toTake, hs]
    split <;> rfl
  · rw [hs, commitSettlement]
    split <;> simp

theorem stock_effect (hb : t.OnBranch) (hs : webhookStep h i s t x = some (s', t')) :
    StockEffect i s t x s' t' ∧ t'.OnBranch := by
  unfold Thread.OnBranch at hb
  cases webhookStep_executes hs with
  | refuses r hpc =>
    obtain hpc | ⟨id, hpc⟩ := hpc <;> exact quiet_stock rfl rfl rfl hpc rfl rfl rfl trivial
  | claims hpc _ =>
    exact quiet_stock rfl rfl rfl hpc rfl rfl afterReplay_toTake.1 (afterReplay_toTake (s := s)).2
  | begins hpc | loads hpc _ _ => exact quiet_stock rfl rfl rfl hpc rfl rfl rfl trivial
  | insertsEvent hpc hr hpc' _ => exact quiet_stock rfl rfl hr hpc rfl hpc' rfl trivial
  | updatesPayment hpc hw =>
    obtain ⟨ps, _, rfl⟩ := Option.map_eq_some_iff.mp hw
    exact quiet_stock rfl rfl rfl hpc rfl rfl rfl trivial
  | @getsOrder pid p o hpc _ ho =>
    obtain ⟨r, hr, _⟩ := Option.map_eq_some_iff.mp ho
    have hafter := @afterOrder_toTake s t ⟨pid, p, o⟩
    generalize Webhook.afterOrder t ⟨pid, p, o⟩ = pc at hafter ⊢
    obtain ⟨ht | ht, hb'⟩ := hafter
    · exact quiet_stock rfl rfl rfl hpc rfl rfl ht hb'
    · exact decide_stock (Table.get?_eq_some.mp hr).1 rfl hpc rfl rfl rfl ht hb'
  | updatesOrder hpc hw =>
    rw [hpc] at hb
    obtain ⟨os, _, rfl⟩ := Option.map_eq_some_iff.mp hw
    exact quiet_stock rfl rfl rfl hpc rfl rfl rfl hb
  | @listsItems l hpc =>
    rw [hpc] at hb
    obtain ⟨ht, hb'⟩ := @afterItems_toTake h s l _ (listOrderItemsForStock s l.payment.orderID) hb
    exact quiet_stock rfl rfl rfl hpc rfl rfl ht hb'
  | decrements hpc hw =>
    rw [hpc] at hb
    obtain ⟨vs, hm, rfl⟩ := Option.map_eq_some_iff.mp hw
    exact take_stock hm hpc hb
  | settles hpc hw =>
    rw [hpc] at hb
    have hf := settleStep_frame hw
    exact quiet_stock (by rw [hf]) (by rw [hf]) rfl hpc rfl rfl rfl hb
  | settled hpc =>
    rw [hpc] at hb
    exact quiet_stock rfl rfl rfl hpc rfl rfl (commit_toTake hb) trivial
  | cancelsOrder hpc hw =>
    rw [hpc] at hb
    obtain ⟨os, _, rfl⟩ := Option.map_eq_some_iff.mp hw
    exact quiet_stock rfl rfl rfl hpc rfl rfl (commit_toTake_none hb) trivial
  | failsToCancel hpc =>
    rw [hpc] at hb
    exact quiet_stock rfl rfl rfl hpc rfl rfl (commit_toTake_none hb) trivial
  | aborts r _ hc => exact ⟨.abort (fun hx => settles_of_aborted (hc hx)) rfl rfl rfl, trivial⟩
  | commits hpc hx ha =>
    subst hx
    exact ⟨commit_stock hpc ha, trivial⟩

/-- A decrement is all that the statements on a variant do. -/
def IsDecrement (f : Variant → Variant) : Prop := ∃ q, f = Variant.decrement q

theorem StockEffect.access (he : StockEffect i s t x s' t') (id : Nat) :
    Row.Access i IsDecrement (s.variants.row id) (s'.variants.row id) := by
  cases he with
  | quiet _ hv => exact hv ▸ .same
  | decide _ hs => exact hs ▸ .same
  | take _ _ hm _ _ => exact Table.modify_access hm ⟨_, rfl⟩ id
  | abort _ hv => exact hv ▸ .rollback
  | commit _ _ hv => exact hv ▸ .commit

theorem StockEffect.ids (he : StockEffect i s t x s' t') : s'.variants.ids = s.variants.ids := by
  cases he with
  | quiet _ hv => rw [hv]
  | abort _ hv | commit _ _ hv => rw [hv, Table.mapRows_ids]
  | decide _ hs => rw [hs]
  | take _ _ hm => exact Table.modify_ids hm

theorem StockEffect.settled (he : StockEffect i s t x s' t') {o : Nat} (ho : o ∈ s'.settled) :
    o ∈ s.settled ∨ t.toTake s = some (o, []) := by
  cases he with
  | quiet _ _ hl | take _ _ _ hl | abort _ _ hl => exact .inl (hl ▸ ho)
  | decide _ hs => exact .inl (hs ▸ ho)
  | commit _ ht _ hl =>
    rw [hl, List.mem_append, Option.mem_toList] at ho
    refine ho.imp_right fun ho => ?_
    rw [ht, ho, Option.map_some]

theorem start_toTake (h : Webhook) (r : Request) :
    (h.start r).toTake s = none ∧ (h.start r).OnBranch := by
  unfold Thread.toTake Thread.OnBranch
  obtain ⟨a, hpc⟩ | hpc | ⟨id, hpc⟩ := start_cases h r <;> rw [hpc] <;> exact ⟨rfl, trivial⟩

end TokoApi.Payment
