import Mathlib.Algebra.BigOperators.Group.Finset.Basic
import Mathlib.Algebra.Order.BigOperators.Group.List
import Mathlib.Algebra.Order.Group.Int
import TokoApi.Payment.Stock
import TokoApi.Shop.Lines

/-!
# Stock and settled orders

The stock of a variant is read once, when a line is added, and nothing is
reserved. The webhook takes the items of an order from it when the order is
settled, not below zero, and an order may be settled more than once. So the stock is the
initial one without what the settled orders hold exactly when every settlement
is committed on a stock that covers it and for an order that had not been settled.

The invariant ties the uncommitted version of the row to the handler that holds
its lock: it is the committed one without what the handler has taken so far.
-/
namespace TokoApi.Shop

open Db Lib.Rows Lib.Threads Lib.Runs

def quantitiesOf (v : Nat) (items : List (Nat × Int)) : List Int :=
  (items.filter fun p => p.1 = v).map Prod.snd

def units (s : Store) (v o : Nat) : Int := (quantitiesOf v (listOrderItemsForStock s o)).sum

def sold (s : Store) (v : Nat) : Int := ∑ o ∈ s.settled.toFinset, units s v o

def stockOf (s : Store) (v : Nat) : Int := (s.variants.row v).committed.stock

/-- What the settled orders hold is missing from the stock, and nothing else. -/
def Conserved (v : Nat) (initial : Int) (s : Store) : Prop := stockOf s v = initial - sold s v

def Thread.settles : Thread → Option Nat
  | .payment u => u.settles
  | _ => none

/-- A settlement that is committed holds no piece of the variant, or the order had not
been settled and the stock covers it. Without stock, a second one takes nothing. -/
def Covered (v : Nat) (c : State) : Label → Prop
  | .act i .ok => ∀ t ∈ c.threads[i]?, ∀ o ∈ t.settles, units c.shared v o = 0 ∨
      if o ∈ c.shared.settled then stockOf c.shared v = 0
      else units c.shared v o ≤ stockOf c.shared v
  | _ => True

instance (v : Nat) (c : State) (a) : Decidable (Covered v c a) := by
  rcases a with _ | ⟨_, _ | _⟩ | _ <;> dsimp only [Covered] <;> infer_instance

/-- No transaction is open on the variant and no order has been settled; new keys are
new, and quantities are positive as the check on lines demands. -/
structure Stocked (v : Nat) (s : Store) : Prop where
  present : v ∈ s.variants.ids
  free : (s.variants.row v).draft = none
  unsettled : s.settled = []
  fresh : ∀ id ∈ s.orders.ids, id < s.nextID
  lines : ∀ it ∈ s.cartItems, 0 < it.qty
  items : ∀ it ∈ s.orderItems, 0 < it.qty

/-! ## Decrements -/

section

variable {v : Nat} {qs : List Int} {q : Int} {x : Variant}

theorem quantitiesOf_append (a b : List (Nat × Int)) :
    quantitiesOf v (a ++ b) = quantitiesOf v a ++ quantitiesOf v b := by
  rw [quantitiesOf, List.filter_append, List.map_append]
  rfl

def decrements (qs : List Int) (x : Variant) : Variant := qs.foldl (fun x q => x.decrement q) x

theorem sum_positive (hqs : ∀ q ∈ qs, 0 < q) : 0 ≤ qs.sum ∧ (qs.sum = 0 ↔ qs = []) := by
  refine ⟨List.sum_nonneg fun q hq => le_of_lt (hqs q hq), fun hzero => ?_, fun hnil => hnil ▸ rfl⟩
  by_contra hne
  exact (List.sum_pos qs hqs hne).ne' hzero

theorem decrements_stock (hqs : ∀ q ∈ qs, 0 < q) (hne : qs ≠ []) :
    (decrements qs x).stock = max 0 (x.stock - qs.sum) := by
  induction qs generalizing x with
  | nil => exact absurd rfl hne
  | cons q qs ih =>
    obtain ⟨hq, hqs⟩ := List.forall_mem_cons.mp hqs
    rw [List.sum_cons]
    by_cases hnil : qs = []
    · subst hnil
      show max 0 (x.stock - q) = _
      simp
    · have hrest : (decrements qs (x.decrement q)).stock =
          max 0 (max 0 (x.stock - q) - qs.sum) := ih hqs hnil
      have := (sum_positive hqs).1
      show (decrements qs (x.decrement q)).stock = _
      rw [hrest]
      omega

theorem decrements_iff (hqs : ∀ q ∈ qs, 0 < q) :
    ((decrements qs x).stock = x.stock - qs.sum ↔ qs.sum = 0 ∨ qs.sum ≤ x.stock) ∧
      ((decrements qs x).stock = x.stock ↔ qs.sum = 0 ∨ x.stock = 0) := by
  obtain ⟨hsum, hzero⟩ := sum_positive hqs
  by_cases hnil : qs = []
  · subst hnil
    simp [decrements]
  · rw [decrements_stock hqs hnil]
    have := mt hzero.mp hnil
    omega

end

/-! ## The uncommitted version of the row -/

section

variable {i j : Nat} {qs : List Int} {q : Int} {r r' : Row Variant}

/-- Transaction `i` has taken these quantities: none, and then it holds no lock. -/
def Drafted (i : Nat) (r : Row Variant) : List Int → Prop
  | [] => ∀ a, r.draft ≠ some (i, a)
  | qs => r.draft = some (i, decrements qs r.committed)

theorem drafted_update (h : Drafted i r qs) (hu : r.update i (Variant.decrement q) = some r') :
    Drafted i r' (qs ++ [q]) := by
  obtain ⟨hc, hcases⟩ := Row.update_inv hu
  have hdecr : decrements (qs ++ [q]) r'.committed = (decrements qs r.committed).decrement q := by
    rw [decrements, List.foldl_append, hc]
    rfl
  have hgoal : r'.draft = some (i, (decrements qs r.committed).decrement q) := by
    cases qs with
    | nil =>
      obtain ⟨_, hd⟩ | ⟨a, ha, _⟩ := hcases
      · exact hd
      · exact absurd ha (h a)
    | cons p qs =>
      obtain ⟨hn, _⟩ | ⟨a, ha, hd⟩ := hcases
      · rw [h] at hn
        cases hn
      · cases ha.symm.trans h
        exact hd
  rw [← hdecr] at hgoal
  cases qs <;> exact hgoal

theorem drafted_commit (h : Drafted i r qs) : (r.commit i).committed = decrements qs r.committed := by
  cases qs with
  | nil =>
    rw [Row.commit_other h]
    rfl
  | cons q qs => rw [Row.commit_own h]

theorem drafted_other {F : (Variant → Variant) → Prop} (h : Row.Access i F r r') (hj : j ≠ i)
    (hd : Drafted j r qs) : Drafted j r' qs := by
  cases qs with
  | nil =>
    intro a ha
    exact hd a (h.other hj (.inr ha) ▸ ha)
  | cons q qs =>
    rw [h.other hj (.inl hd)]
    exact hd

end

/-! ## The proof outline -/

def Thread.toTake (s : Store) : Thread → Option (Nat × List (Nat × Int))
  | .payment u => u.toTake s
  | _ => none

def Thread.OnBranch : Thread → Prop
  | .payment u => u.OnBranch
  | _ => True

/-- The quantities of an order that is being written. -/
def Thread.quantities : Thread → List Int
  | .checkout u => u.pc.quantities
  | _ => []

/-- The items of the order are those that transaction `i` has taken from the variant,
and the rest. -/
def Taken (v i : Nat) (s : Store) : Option (Nat × List (Nat × Int)) → Prop
  | none => Drafted i (s.variants.row v) []
  | some (o, rest) => o ∈ s.orders.ids ∧ ∃ done, listOrderItemsForStock s o = done ++ rest ∧
      Drafted i (s.variants.row v) (quantitiesOf v done)

structure StockInv (v n : Nat) (s : Store) : Prop where
  present : v ∈ s.variants.ids
  owners : ∀ i a, (s.variants.row v).draft = some (i, a) → i < n
  fresh : ∀ id ∈ s.orders.ids, id < s.nextID
  settled : ∀ o ∈ s.settled, o ∈ s.orders.ids
  lines : ∀ it ∈ s.cartItems, 0 < it.qty
  items : ∀ it ∈ s.orderItems, 0 < it.qty

structure StockOutline (v i : Nat) (s : Store) (t : Thread) : Prop where
  branch : t.OnBranch
  taken : Taken v i s (t.toTake s)
  positive : ∀ q ∈ t.quantities, 0 < q

structure Grows (s s' : Store) : Prop where
  ids : s.orders.ids ⊆ s'.orders.ids
  fresh : (∀ id ∈ s.orders.ids, id < s.nextID) → ∀ id ∈ s'.orders.ids, id < s'.nextID
  items : ∀ o ∈ s.orders.ids, o < s.nextID →
    listOrderItemsForStock s' o = listOrderItemsForStock s o

variable {cfg : Config} {v i j n : Nat} {s s' : Store} {t t' u : Thread} {x : Call} {c d : State}
  {a : Label}

theorem listOrderItemsForStock_congr (h : s'.orderItems = s.orderItems) (o : Nat) :
    listOrderItemsForStock s' o = listOrderItemsForStock s o := by
  rw [listOrderItemsForStock, listOrderItemsForStock, h]

theorem grows_of_same (hi : s'.orderItems = s.orderItems) (ho : s'.orders.ids = s.orders.ids)
    (hn : s.nextID ≤ s'.nextID) : Grows s s' where
  ids := by rw [ho]; exact List.Subset.refl _
  fresh h id hid := by
    have := h id (ho ▸ hid)
    omega
  items o _ _ := listOrderItemsForStock_congr hi o

theorem grows_createOrder (o : Order) (items : List OrderItem) :
    Grows s (createOrder s o items) where
  ids := List.subset_append_left _ _
  fresh h := forall_mem_concat (Nat.lt_succ_self _) fun id hid => Nat.lt_succ_of_lt (h id hid)
  items k _ hk := by
    have hnone : (items.map fun it => { it with orderID := s.nextID }).filterMap (fun it =>
        if it.orderID = k then it.variantID.map fun v => (v, it.qty) else none) = [] := by
      rw [List.filterMap_eq_nil_iff]
      refine List.forall_mem_map.mpr fun it _ => if_neg ?_
      show s.nextID ≠ k
      omega
    rw [listOrderItemsForStock, createOrder, List.filterMap_append, hnone, List.append_nil]
    rfl

/-- What a request other than the webhook does: variants and log stay as they are. -/
structure Bystander (s : Store) (t : Thread) (s' : Store) : Prop where
  variants : s'.variants = s.variants
  settled : s'.settled = s.settled
  grows : Grows s s'
  positive : (∀ it ∈ s.orderItems, 0 < it.qty) → (∀ q ∈ t.quantities, 0 < q) →
    ∀ it ∈ s'.orderItems, 0 < it.qty

theorem bystander_of_change (h : Change cfg s t x s') : Bystander s t s' := by
  have hsame : ∀ {s' : Store}, s'.variants = s.variants → s'.settled = s.settled →
      s'.orderItems = s.orderItems → s'.orders.ids = s.orders.ids → s.nextID ≤ s'.nextID →
      Bystander s t s' :=
    fun hv hl hi ho hn => ⟨hv, hl, grows_of_same hi ho hn, fun hp _ => hi ▸ hp⟩
  cases h.touches with
  | beside hs hn => exact hsame (by rw [hs]) (by rw [hs]) (by rw [hs]) (by rw [hs]) hn
  | @ordered u o items ht hpc =>
    refine ⟨rfl, rfl, grows_createOrder o items, fun hp hq => ?_⟩
    refine List.forall_mem_append.mpr ⟨hp, List.forall_mem_map.mpr fun it hit => hq it.qty ?_⟩
    rw [ht, Thread.quantities, hpc]
    exact List.mem_map_of_mem hit
  | status | claimed => exact hsame rfl rfl rfl rfl le_rfl

theorem Taken.mono {p : Option (Nat × List (Nat × Int))} (h : Taken v i s p) (hi : StockInv v n s)
    (hg : Grows s s')
    (hrow : ∀ qs, Drafted i (s.variants.row v) qs → Drafted i (s'.variants.row v) qs) :
    Taken v i s' p := by
  match p, h with
  | none, h => exact hrow [] h
  | some (o, rest), ⟨ho, done, hitems, hd⟩ =>
    exact ⟨hg.ids ho, done, (hg.items o ho (hi.fresh o ho)).trans hitems, hrow _ hd⟩

theorem toTake_grows (h : Taken v i s (t.toTake s)) (hi : StockInv v n s) (hg : Grows s s') :
    t.toTake s' = t.toTake s := by
  cases t with
  | payment u =>
    refine Payment.toTake_store fun o rest hu => ?_
    rw [Thread.toTake, hu] at h
    exact hg.items o h.1 (hi.fresh o h.1)
  | _ => rfl

theorem StockOutline.other {F : (Variant → Variant) → Prop} (ho : StockOutline v j s u) (hj : j ≠ i)
    (hi : StockInv v n s) (hg : Grows s s')
    (hrow : Row.Access i F (s.variants.row v) (s'.variants.row v)) : StockOutline v j s' u where
  branch := ho.branch
  taken := by
    rw [toTake_grows ho.taken hi hg]
    exact ho.taken.mono hi hg fun _ hd => drafted_other hrow hj hd
  positive := ho.positive

theorem taken_take {o w : Nat} {q : Int} {rest : List (Nat × Int)} {vs : Table (Row Variant)}
    (hi : StockInv v n s) (h : Taken v i s (some (o, (w, q) :: rest)))
    (hm : s.variants.modify w (Row.update i (Variant.decrement q)) = some vs) :
    ∃ done, listOrderItemsForStock s o = done ++ rest ∧
      Drafted i (vs.row v) (quantitiesOf v done) := by
  obtain ⟨_, done, hitems, hd⟩ := h
  refine ⟨done ++ [(w, q)], by rw [hitems, List.append_assoc]; rfl, ?_⟩
  rw [quantitiesOf_append]
  by_cases hw : w = v
  · subst hw
    obtain ⟨hout, _⟩ | ⟨_, r', hr, rfl⟩ := Table.modify_inv hm
    · exact absurd hi.present hout
    · rw [Table.set_row_self]
      simpa [quantitiesOf] using drafted_update hd hr
  · rw [Table.modify_row_ne hm (Ne.symm hw)]
    simpa [quantitiesOf, hw] using hd

theorem payment_taken {u u' : Payment.Thread} (he : Payment.StockEffect i s u x s' u')
    (hi : StockInv v n s) (hg : Grows s s') (h : Taken v i s (u.toTake s)) :
    Taken v i s' (u'.toTake s) := by
  cases he with
  | quiet _ hv _ ht =>
    rw [ht]
    exact h.mono hi hg fun qs hd => by rwa [hv]
  | @decide o _ hs ho ht ht' =>
    rw [ht] at h
    rw [ht']
    subst hs
    exact ⟨ho, [], rfl, h⟩
  | take _ ht hm _ ht' =>
    rw [ht] at h
    rw [ht']
    obtain ⟨done, hitems, hd⟩ := taken_take hi h hm
    exact ⟨hg.ids h.1, done, (hg.items _ h.1 (hi.fresh _ h.1)).trans hitems, hd⟩
  | abort _ hv _ ht' =>
    rw [ht', Taken, hv]
    exact fun a => Row.rollback_free
  | commit _ _ hv _ ht' =>
    rw [ht', Taken, hv]
    exact fun a => Row.commit_free

theorem payment_grows {u u' : Payment.Thread} (h : Payment.webhookStep cfg.payment i s u x = some (s', u')) :
    Grows s s' ∧ s'.orderItems = s.orderItems := by
  have he := Payment.step_effect h
  exact ⟨grows_of_same he.frame.orderItems he.frame.orderIDs (le_of_eq he.frame.nextID.symm),
    he.frame.orderItems⟩

theorem quantities_step (hi : StockInv v n s) (hq : ∀ q ∈ t.quantities, 0 < q)
    (h : shopStep cfg i s t x = some (s', t')) : ∀ q ∈ t'.quantities, 0 < q := by
  cases t <;> obtain ⟨u', hs, rfl⟩ := lifted_inv h
  case checkout u =>
    intro q hmem
    obtain hmem | ⟨it, hit, rfl⟩ := Checkout.checkoutStep_quantities hs hmem
    · exact hq q hmem
    · exact hi.lines it hit
  all_goals exact nofun

/-- What a statement of thread `i` does to the variant and to the orders. -/
structure GoodsStep (v i n : Nat) (s s' : Store) (t' : Thread) : Prop where
  access : Row.Access i Payment.IsDecrement (s.variants.row v) (s'.variants.row v)
  grows : Grows s s'
  inv : StockInv v n s'
  own : StockOutline v i s' t'

theorem owners_step (hi : StockInv v n s) (hin : i < n)
    (h : Row.Access i Payment.IsDecrement (s.variants.row v) (s'.variants.row v)) :
    ∀ k a, (s'.variants.row v).draft = some (k, a) → k < n := by
  intro k a hd
  obtain rfl | hd' := h.owner hd
  · exact hin
  · exact hi.owners k a hd'

theorem goods_step (hi : StockInv v n s) (hin : i < n) (ho : StockOutline v i s t)
    (h : shopStep cfg i s t x = some (s', t')) : GoodsStep v i n s s' t' := by
  have hlines := (lines_of_step h).positive hi.lines
  have hq := quantities_step hi ho.positive h
  obtain ⟨u, u', rfl, rfl, hs⟩ | ⟨hp, hp', hc⟩ := step_change h
  · obtain ⟨he, hb⟩ := Payment.stock_effect ho.branch hs
    obtain ⟨hg, hitems⟩ := payment_grows hs
    have hsettled : ∀ o ∈ s'.settled, o ∈ s'.orders.ids := by
      intro o hmem
      obtain hmem | htake := he.settled hmem
      · exact hg.ids (hi.settled o hmem)
      · have htaken := ho.taken
        rw [Thread.toTake, htake] at htaken
        exact hg.ids htaken.1
    refine ⟨he.access v, hg, ⟨he.ids ▸ hi.present, owners_step hi hin (he.access v), hg.fresh hi.fresh,
      hsettled, hlines, hitems ▸ hi.items⟩, hb, ?_, hq⟩
    have hstore : u'.toTake s' = u'.toTake s :=
      Payment.toTake_store fun o _ _ => listOrderItemsForStock_congr hitems o
    rw [Thread.toTake, hstore]
    exact payment_taken he hi hg ho.taken
  · obtain ⟨hv, hl, hg, hpos⟩ := bystander_of_change hc
    have hsame : Row.Access i Payment.IsDecrement (s.variants.row v) (s'.variants.row v) := hv ▸ .same
    have hnone : ∀ {w : Thread} {s : Store}, w.isPayment = false → w.toTake s = none := by
      intro w s hw
      cases w <;> first | rfl | cases hw
    have hbranch : t'.OnBranch := by
      cases t' <;> trivial
    refine ⟨hsame, hg, ⟨hv ▸ hi.present, owners_step hi hin hsame, hg.fresh hi.fresh, ?_, hlines,
      hpos hi.items ho.positive⟩, hbranch, ?_, hq⟩
    · rw [hl]
      exact fun o hmem => hg.ids (hi.settled o hmem)
    · have htaken := ho.taken
      rw [hnone hp] at htaken
      rw [hnone hp', Taken, hv]
      exact htaken

theorem guarded_stock (hg : Guarded (StockInv v) (StockOutline v) c)
    (h : (shopMachine cfg).step c a = some d) : Guarded (StockInv v) (StockOutline v) d := by
  refine guarded_step hg h ?_ ?_ ?_
  · intro r _
    refine ⟨{ hg.1 with owners := fun i a hd => (hg.1.owners i a hd).trans (Nat.lt_succ_self _) }, ?_⟩
    have hidle : ∀ a, (c.shared.variants.row v).draft ≠ some (c.threads.length, a) :=
      fun a hd => absurd (hg.1.owners _ a hd) (Nat.lt_irrefl _)
    cases r with
    | payment r =>
      obtain ⟨htake, hb⟩ := Payment.start_toTake (s := c.shared) cfg.payment r
      refine ⟨hb, ?_, nofun⟩
      show Taken v _ c.shared ((cfg.payment.start r).toTake c.shared)
      rw [htake]
      exact hidle
    | checkout r =>
      refine ⟨trivial, hidle, fun q hq => ?_⟩
      have hstart : (Checkout.start cfg.checkout r).pc.quantities = [] := by
        unfold Checkout.start
        split <;> rfl
      rw [show ((shopMachine cfg).start (.checkout r)).quantities = [] from hstart] at hq
      cases hq
    | _ => exact ⟨trivial, hidle, nofun⟩
  · intro i x t s' t' _ ht hl
    have hin : i < c.threads.length := (List.getElem?_eq_some_iff.mp ht).1
    have hstep := goods_step hg.1 hin (hg.2 i t ht) hl
    exact ⟨hstep.inv, hstep.own,
      fun j u hj hu => (hg.2 j u hu).other hj hg.1 hstep.grows hstep.access⟩
  · intro e s' he
    obtain rfl := Option.some.inj he
    refine ⟨{ hg.1 with }, fun j u hu => ?_⟩
    have ho := hg.2 j u hu
    exact ho.other (i := j + 1) (by omega) hg.1 (grows_of_same rfl rfl le_rfl)
      (F := Payment.IsDecrement) .same

/-! ## What a commit publishes -/

/-- Stock and log stay as they are, or an order is settled. -/
inductive Settlement (v : Nat) (s : Store) (t : Thread) (x : Call) (s' : Store) : Prop where
  | none (hn : x = .ok → t.settles = none)
      (hc : (s'.variants.row v).committed = (s.variants.row v).committed)
      (hl : s'.settled = s.settled)
  | one {o : Nat} (hx : x = .ok) (hs : t.settles = some o) (hid : o ∈ s.orders.ids)
      (hc : (s'.variants.row v).committed =
        decrements (quantitiesOf v (listOrderItemsForStock s o)) (s.variants.row v).committed)
      (hl : s'.settled = s.settled ++ [o])

theorem settlement_of_step (ho : StockOutline v i s t) (h : shopStep cfg i s t x = some (s', t')) :
    Settlement v s t x s' := by
  obtain ⟨u, u', rfl, rfl, hs⟩ | ⟨hp, _, hc⟩ := step_change h
  · obtain ⟨he, _⟩ := Payment.stock_effect ho.branch hs
    cases he with
    | quiet hn hv hl => exact .none hn (by rw [hv]) hl
    | decide hn hs => exact .none (fun _ => hn) (by rw [hs]) (by rw [hs])
    | take hn _ hm hl => exact .none (fun _ => hn) (Table.modify_committed hm v) hl
    | abort hn hv hl => exact .none hn (by rw [hv]; exact Row.rollback_committed) hl
    | commit hx ht hv hl =>
      have htaken : Taken v i s (u.settles.map fun o => (o, [])) := ht ▸ ho.taken
      cases hsettles : u.settles with
      | none =>
        rw [hsettles] at htaken hl
        have hd : Drafted i (s.variants.row v) [] := htaken
        refine .none (fun _ => hsettles) ?_ (by simpa using hl)
        rw [hv, Table.mapRows_row, drafted_commit hd]
        rfl
      | some o =>
        rw [hsettles] at htaken hl
        obtain ⟨hid, done, hitems, hd⟩ := htaken
        refine .one hx hsettles hid ?_ hl
        rw [hv, Table.mapRows_row, drafted_commit hd, hitems, List.append_nil]
  · have hb := bystander_of_change hc
    refine .none (fun _ => ?_) (by rw [hb.variants]) hb.settled
    cases t <;> first | rfl | cases hp

/-! ## Conservation -/

theorem quantities_positive (hi : StockInv v n s) (o : Nat) :
    ∀ q ∈ quantitiesOf v (listOrderItemsForStock s o), 0 < q := by
  intro q hq
  obtain ⟨p, hp, rfl⟩ := List.mem_map.mp hq
  obtain ⟨it, hit, he⟩ := List.mem_filterMap.mp (List.mem_filter.mp hp).1
  split at he
  · obtain ⟨_, _, rfl⟩ := Option.map_eq_some_iff.mp he
    exact hi.items it hit
  · cases he

section

variable (hi : StockInv v n s) (hg : Grows s s')
include hi hg

theorem units_grows {o : Nat} (ho : o ∈ s.orders.ids) :
    units s' v o = units s v o := by
  rw [units, hg.items o ho (hi.fresh o ho), units]

theorem sold_grows (hl : s'.settled = s.settled) :
    sold s' v = sold s v := by
  rw [sold, hl, sold]
  exact Finset.sum_congr rfl fun o ho =>
    units_grows hi hg (hi.settled o (List.mem_toFinset.mp ho))

theorem sold_settled {o : Nat} (ho : o ∈ s.orders.ids) (hl : s'.settled = s.settled ++ [o]) :
    sold s' v = sold s v + if o ∈ s.settled then 0 else units s v o := by
  have hsum : sold s' v = ∑ k ∈ insert o s.settled.toFinset, units s v k := by
    rw [sold, hl, List.toFinset_append, List.toFinset_cons, List.toFinset_nil, Finset.union_comm,
      Finset.insert_union, Finset.empty_union]
    refine Finset.sum_congr rfl fun k hk => units_grows hi hg ?_
    rcases Finset.mem_insert.mp hk with rfl | hk
    · exact ho
    · exact hi.settled k (List.mem_toFinset.mp hk)
  by_cases hmem : o ∈ s.settled
  · rw [hsum, Finset.insert_eq_of_mem (List.mem_toFinset.mpr hmem), if_pos hmem, add_zero]
    rfl
  · rw [hsum, Finset.sum_insert (mt List.mem_toFinset.mp hmem), if_neg hmem, add_comm]
    rfl

theorem conserved_settled_iff {initial : Int} {o : Nat} (hcons : Conserved v initial s)
    (hid : o ∈ s.orders.ids)
    (hc : (s'.variants.row v).committed = decrements (quantitiesOf v (listOrderItemsForStock s o))
      (s.variants.row v).committed)
    (hl : s'.settled = s.settled ++ [o]) :
    Conserved v initial s' ↔ units s v o = 0 ∨
      if o ∈ s.settled then stockOf s v = 0 else units s v o ≤ stockOf s v := by
  have hpos := quantities_positive hi o
  unfold Conserved at hcons ⊢
  rw [sold_settled hi hg hid hl, stockOf, hc]
  by_cases hmem : o ∈ s.settled
  · rw [if_pos hmem, if_pos hmem, add_zero, ← hcons]
    exact (decrements_iff hpos).2
  · rw [if_neg hmem, if_neg hmem, ← sub_sub, ← hcons]
    exact (decrements_iff hpos).1

end

theorem conserved_step_iff {initial : Int} (hg : Guarded (StockInv v) (StockOutline v) c)
    (hcons : Conserved v initial c.shared) (h : (shopMachine cfg).step c a = some d) :
    Conserved v initial d.shared ↔ Covered v c a := by
  cases Machine.step_effect h with
  | spawn r =>
    exact iff_of_true hcons trivial
  | env hs =>
    cases hs
    exact iff_of_true hcons trivial
  | @act i x t s' _ ht hl =>
    have hin : i < c.threads.length := (List.getElem?_eq_some_iff.mp ht).1
    have hgrows := (goods_step hg.1 hin (hg.2 i t ht) hl).grows
    cases settlement_of_step (hg.2 i t ht) hl with
    | none hn hc hlog =>
      refine iff_of_true ?_ ?_
      · show stockOf s' v = initial - sold s' v
        rw [sold_grows hg.1 hgrows hlog, stockOf, hc]
        exact hcons
      · cases x with
        | ok => simp [Covered, ht, hn rfl]
        | fail err => trivial
    | one hx hs hid hc hlog =>
      subst hx
      rw [conserved_settled_iff hg.1 hgrows hcons hid hc hlog]
      simp [Covered, ht, hs]

theorem decrements_nonneg {qs : List Int} {x : Variant} (h : 0 ≤ x.stock) :
    0 ≤ (decrements qs x).stock := by
  induction qs generalizing x with
  | nil => exact h
  | cons q qs ih => exact ih (Int.le_max_left 0 _)

theorem stock_nonneg_step (hg : Guarded (StockInv v) (StockOutline v) c)
    (hpos : 0 ≤ stockOf c.shared v) (h : (shopMachine cfg).step c a = some d) :
    0 ≤ stockOf d.shared v := by
  cases Machine.step_effect h with
  | spawn r =>
    exact hpos
  | env hs =>
    cases hs
    exact hpos
  | @act i _ t s' _ ht hl =>
    show 0 ≤ stockOf s' v
    cases settlement_of_step (hg.2 i t ht) hl with
    | none _ hc _ => rwa [stockOf, hc]
    | one _ _ _ hc _ =>
      rw [stockOf, hc]
      exact decrements_nonneg hpos

theorem stocked_guarded (h : Stocked v s) :
    Guarded (StockInv v) (StockOutline v) (⟨s, []⟩ : State) :=
  guarded_start
    { present := h.present
      owners := fun i a hd => by rw [h.free] at hd; cases hd
      fresh := h.fresh
      settled := fun o ho => by rw [h.unsettled] at ho; cases ho
      lines := h.lines
      items := h.items }

/-- Along every run of the shop, in every state the committed stock of the variant is
the initial one without the pieces of the orders that have been settled, and these are no
more than the initial stock where that is not negative, exactly when every settlement is
covered. -/
theorem stock_conserved_iff (cfg : Config) (v : Nat) (s₀ : Store) (hs : Stocked v s₀)
    (acts : List Label) (c : State) (hr : run (shopMachine cfg).step ⟨s₀, []⟩ acts = some c) :
    (∀ n d, run (shopMachine cfg).step ⟨s₀, []⟩ (acts.take n) = some d →
      stockOf d.shared v = stockOf s₀ v - sold d.shared v ∧
        (0 ≤ stockOf s₀ v → sold d.shared v ≤ stockOf s₀ v)) ↔
      Meets (shopMachine cfg).step (Covered v) ⟨s₀, []⟩ acts := by
  have hstart : Conserved v (stockOf s₀ v) s₀ := by
    rw [Conserved, sold, hs.unsettled]
    exact (sub_zero _).symm
  rw [← always_iff_meets (I := Guarded (StockInv v) (StockOutline v))
    (P := fun c : State => Conserved v (stockOf s₀ v) c.shared)
    (fun _ _ _ hg _ h => guarded_stock hg h) (fun _ _ _ hg hcons h => conserved_step_iff hg hcons h)
    (stocked_guarded hs) hstart hr]
  refine ⟨fun h n d hd => (h n d hd).1, fun h n d hd => ⟨h n d hd, fun hpos => ?_⟩⟩
  have hnonneg := run_inv
    (I := fun c : State => Guarded (StockInv v) (StockOutline v) c ∧ 0 ≤ stockOf c.shared v)
    (fun _ _ _ hc _ h => ⟨guarded_stock hc.1 h, stock_nonneg_step hc.1 hc.2 h⟩)
    ⟨stocked_guarded hs, hpos⟩ (meets_true _ _) hd
  have hcons : stockOf d.shared v = stockOf s₀ v - sold d.shared v := h n d hd
  omega

/-! ## Three pieces in stock -/

/-- Cart 11 of user 1, and variant 12 of product 2 with three pieces. -/
def threeInStock : Store := { emptyCart with variants := ⟨[12], fun _ => .free ⟨2, 100, 3⟩⟩ }

/-- User 1 orders pieces of the variant as order 101 and opens a payment. -/
def orders (qty : Int) : List Label :=
  request 0 (.cart (.edit (.addItem "11" "2" (some "12") qty))) 6 ++
    request 1 (.checkout ⟨some "1", some "1", "11", 0⟩) 6 ++ request 2 (.intent ⟨"101", 0, "", ""⟩) 4

theorem stocked_threeInStock : Stocked 12 threeInStock where
  present := by decide
  free := rfl
  unsettled := rfl
  fresh := nofun
  lines := nofun
  items := nofun

theorem two_of_three_sold :
    ∃ c, run (shopMachine numeralShop).step ⟨threeInStock, []⟩
        (orders 2 ++ request 3 (.payment ⟨"plain", "", "101"⟩) 10) = some c ∧
      c.shared.settled = [101] ∧ stockOf c.shared 12 = 3 - sold c.shared 12 ∧
      sold c.shared 12 ≤ 3 := by
  refine reaches_and (by decide +kernel) fun c hc _ => ?_
  have hall := (stock_conserved_iff numeralShop 12 threeInStock stocked_threeInStock _ c hc).mpr
    (by decide +kernel)
  obtain ⟨hstock, hsold⟩ := hall _ c (run_take_length hc)
  exact ⟨hstock, hsold (by decide)⟩

/-- Four of three pieces are sold; and of an order of one piece, settled twice by
notifications that overlap, two pieces are taken. -/
theorem stock_not_conserved :
    ((run (shopMachine numeralShop).step ⟨threeInStock, []⟩
        (orders 4 ++ request 3 (.payment ⟨"plain", "", "101"⟩) 10)).map fun c =>
      (c.shared.settled, stockOf c.shared 12, sold c.shared 12)) = some ([101], 0, 4) ∧
    ((run (shopMachine numeralShop).step ⟨threeInStock, []⟩
        (orders 1 ++ request 3 (.payment ⟨"plain", "", "101"⟩) 3 ++
          request 4 (.payment ⟨"other", "", "101"⟩) 3 ++ List.replicate 7 (.act 3 .ok) ++
          List.replicate 7 (.act 4 .ok))).map fun c =>
      (c.shared.settled, stockOf c.shared 12, sold c.shared 12)) = some ([101, 101], 1, 1) := by
  decide +kernel

/-! ## The stock as the settlements leave it -/

/-- What the settlements hold, an order as often as it was settled. -/
def taken (s : Store) (v : Nat) : Int := (s.settled.map (units s v)).sum

theorem taken_grows (hi : StockInv v n s) (hg : Grows s s') {os : List Nat}
    (hl : s'.settled = s.settled ++ os) : taken s' v = taken s v + (os.map (units s' v)).sum := by
  have hold : s.settled.map (units s' v) = s.settled.map (units s v) :=
    List.map_congr_left fun o ho => units_grows hi hg (hi.settled o ho)
  rw [taken, hl, List.map_append, List.sum_append, hold]
  rfl

/-- A settlement stops at zero, and so does the difference to what was there before. -/
theorem stock_step {initial : Int} (hg : Guarded (StockInv v) (StockOutline v) c)
    (hstock : stockOf c.shared v = max 0 (initial - taken c.shared v))
    (h : (shopMachine cfg).step c a = some d) :
    stockOf d.shared v = max 0 (initial - taken d.shared v) := by
  cases Machine.step_effect h with
  | spawn r => exact hstock
  | env hs =>
    cases hs
    exact hstock
  | @act i _ t s' _ ht hl =>
    have hin : i < c.threads.length := (List.getElem?_eq_some_iff.mp ht).1
    have hgrows := (goods_step hg.1 hin (hg.2 i t ht) hl).grows
    show stockOf s' v = max 0 (initial - taken s' v)
    cases settlement_of_step (hg.2 i t ht) hl with
    | none _ hc hlog =>
      rw [taken_grows hg.1 hgrows (hlog.trans (List.append_nil _).symm), stockOf, hc]
      exact hstock.trans (by simp)
    | @one o _ _ hid hc hlog =>
      have hq := quantities_positive hg.1 o
      obtain ⟨hsum, hzero⟩ := sum_positive hq
      have hunits : units s' v o = (quantitiesOf v (listOrderItemsForStock c.shared o)).sum :=
        units_grows hg.1 hgrows hid
      rw [taken_grows hg.1 hgrows hlog, List.map_singleton, List.sum_singleton, hunits, stockOf, hc]
      rw [stockOf] at hstock
      by_cases hnil : quantitiesOf v (listOrderItemsForStock c.shared o) = []
      · rw [hnil]
        exact hstock.trans (by simp)
      · rw [decrements_stock hq hnil]
        omega

/-- Along every run the stock is the initial one without everything that the settlements hold,
repeated ones included, and zero where that is more. -/
theorem stock_after_settlements (cfg : Config) (v : Nat) (s₀ : Store) (hs : Stocked v s₀)
    (hpos : 0 ≤ stockOf s₀ v) (acts : List Label) (c : State)
    (hr : run (shopMachine cfg).step ⟨s₀, []⟩ acts = some c) :
    stockOf c.shared v = max 0 (stockOf s₀ v - taken c.shared v) := by
  have hstart : stockOf s₀ v = max 0 (stockOf s₀ v - taken s₀ v) := by
    simpa [taken, hs.unsettled] using hpos
  exact (run_inv (I := fun c : State => Guarded (StockInv v) (StockOutline v) c ∧
      stockOf c.shared v = max 0 (stockOf s₀ v - taken c.shared v))
    (fun _ _ _ hc _ h => ⟨guarded_stock hc.1 h, stock_step hc.1 hc.2 h⟩)
    ⟨stocked_guarded hs, hstart⟩ (meets_true _ _) hr).2

theorem four_of_three_taken :
    ∃ c, run (shopMachine numeralShop).step ⟨threeInStock, []⟩
        (orders 4 ++ request 3 (.payment ⟨"plain", "", "101"⟩) 10) = some c ∧
      taken c.shared 12 = 4 ∧ stockOf c.shared 12 = max 0 (3 - taken c.shared 12) :=
  reaches_and (by decide +kernel) fun c hc _ =>
    stock_after_settlements numeralShop 12 threeInStock stocked_threeInStock (by decide) _ c hc

end TokoApi.Shop
