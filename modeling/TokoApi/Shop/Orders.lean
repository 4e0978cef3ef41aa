import TokoApi.Shop.Tenants

/-!
# What checkout writes

`Create` reads the lines of the cart once and writes the order and its items from what
it has read, whatever other requests do to the cart in between. A call that has not
returned an order has written nothing. One that has, has written exactly one order: its
items are the lines of the cart in one state of the run, and its header adds up to them.
-/
namespace TokoApi.Shop

open Db Cart Lib.Rows Lib.Threads Lib.Runs Lib.Wrap

def amounts (o : Order) : Checkout.Summary :=
  ⟨o.pricingSubtotal, o.pricingDiscount, o.pricingTax, o.pricingShipping, o.pricingTotal⟩

def itemsOf (s : Store) (order : Nat) : List OrderItem :=
  s.orderItems.filter fun it => it.orderID = order

def orderLine (order : Nat) (it : CartItem) : OrderItem :=
  { Checkout.newItem it with orderID := order }

def itemsTotal (items : List OrderItem) : Int :=
  items.foldl (fun n it => int64 (n + int64 (it.qty * it.unitPrice))) 0

structure OrderOf (svc : Checkout.Service) (shippingPrice : Int) (lines : List CartItem) (s : Store)
    (id : Nat) : Prop where
  present : id ∈ s.orders.ids
  items : itemsOf s id = lines.map (orderLine id)
  subtotal : (s.orders.row id).committed.pricingSubtotal = itemsTotal (itemsOf s id)
  header : amounts (s.orders.row id).committed =
    Checkout.compute lines (s.orders.row id).committed.pricingDiscount svc.taxBps
      (max 0 shippingPrice)

/-- What the statements of thread `i` add to a table. -/
def growth (cfg : Config) (i : Nat) (size : Store → Nat) (c : State) : Label → Nat
  | .act j x =>
    if j = i then
      ((shopMachine cfg).step c (.act j x)).elim 0 fun d => size d.shared - size c.shared
    else 0
  | _ => 0

def ordersAdded (cfg : Config) (i : Nat) : State → Label → Nat :=
  growth cfg i fun s => s.orders.ids.length

def itemsAdded (cfg : Config) (i : Nat) : State → Label → Nat :=
  growth cfg i fun s => s.orderItems.length

def Reading (i : Nat) (u : State) : Prop :=
  ∃ t cart, u.threads[i]? = some (.checkout t) ∧ t.pc = .listItems cart

variable {cfg : Config} {svc : Checkout.Service} {i j n : Nat} {s s' : Store} {t t' : Thread}
  {x : Call} {c d : State} {a : Label} {V : State → Prop}

/-! ## Pricing -/

theorem compute_discount (items : List CartItem) (voucher taxBps shipping : Int) :
    Checkout.compute items (Checkout.compute items voucher taxBps shipping).discount taxBps shipping =
      Checkout.compute items voucher taxBps shipping := by
  simp only [Checkout.compute, Int.min_assoc, Int.min_self]

theorem subtotal_eq_itemsTotal {items : List CartItem} (hpos : ∀ it ∈ items, 0 < it.qty)
    (order : Nat) :
    items.foldl Checkout.lineTotal 0 = itemsTotal (items.map (orderLine order)) := by
  unfold itemsTotal
  generalize (0 : Int) = n
  induction items generalizing n with
  | nil => rfl
  | cons it items ih =>
    have hit : ¬ it.qty ≤ 0 := Int.not_le.mpr (hpos it List.mem_cons_self)
    simp only [List.foldl_cons, List.map_cons]
    rw [ih fun it' h => hpos it' (List.mem_cons_of_mem _ h)]
    simp only [Checkout.lineTotal, if_neg hit, orderLine, Checkout.newItem]

/-! ## The tables that a statement leaves -/

/-- The columns of an order that no statement changes. -/
def placedAs (o : Order) : Order := o.withStatus .pendingPayment

/-- Keys of orders are given out in order, the quantities in the carts are positive as
the check on lines demands, and the versions of an order differ in the status at most. -/
structure Filed (s : Store) : Prop where
  orders : ∀ id ∈ s.orders.ids, id < s.nextID
  items : ∀ it ∈ s.orderItems, it.orderID < s.nextID
  lines : ∀ it ∈ s.cartItems, 0 < it.qty
  rows : ∀ id, (s.orders.row id).Agrees placedAs

theorem Filed.tick (hf : Filed s) (now : Int) : Filed { s with now := now } :=
  ⟨hf.orders, hf.items, hf.lines, hf.rows⟩

theorem access_placedAs {r r' : Row Order} (h : Row.Access i Payment.StatusChange r r')
    (hr : r.Agrees placedAs) :
    r'.Agrees placedAs ∧ placedAs r'.committed = placedAs r.committed := by
  refine h.agrees ?_ hr
  rintro f ⟨status, rfl⟩ o
  rfl

theorem lines_step (hpos : ∀ it ∈ s.cartItems, 0 < it.qty)
    (h : shopStep cfg i s t x = some (s', t')) : ∀ it ∈ s'.cartItems, 0 < it.qty := by
  cases step_cart h with
  | kept _ _ hi _ _ => rwa [hi]
  | outcome ho => exact ho.lines.positive hpos

variable {o : Order} {items : List OrderItem} {id : Nat} {u : Checkout.Thread} {s₀ : Store}
  {acts : List Label}

theorem itemsOf_createOrder (hid : id < s.nextID) :
    itemsOf (createOrder s o items) id = itemsOf s id := by
  have hnone : (items.map fun it => { it with orderID := s.nextID }).filter
      (fun it => decide (it.orderID = id)) = [] := by
    refine List.filter_eq_nil_iff.mpr (List.forall_mem_map.mpr fun it _ => ?_)
    simpa using Nat.ne_of_gt hid
  simp only [itemsOf, createOrder, List.filter_append, hnone, List.append_nil]

section

variable (hf : Filed s)
include hf

theorem itemsOf_new : itemsOf (createOrder s o items) s.nextID =
      items.map fun it => { it with orderID := s.nextID } := by
  have hold : s.orderItems.filter (fun it => decide (it.orderID = s.nextID)) = [] := by
    refine List.filter_eq_nil_iff.mpr fun it hit => ?_
    simpa using Nat.ne_of_lt (hf.items it hit)
  have hnew : (items.map fun it => { it with orderID := s.nextID }).filter
      (fun it => decide (it.orderID = s.nextID)) =
        items.map fun it => { it with orderID := s.nextID } := by
    refine List.filter_eq_self.mpr (List.forall_mem_map.mpr fun it _ => ?_)
    simp
  simp only [itemsOf, createOrder, List.filter_append, hold, hnew, List.nil_append]

theorem filed_createOrder : Filed (createOrder s o items) where
  orders :=
    forall_mem_concat (Nat.lt_succ_self _) fun id hid => Nat.lt_succ_of_lt (hf.orders id hid)
  items := by
    intro it hit
    rcases List.mem_append.mp hit with hit | hit
    · exact Nat.lt_succ_of_lt (hf.items it hit)
    · obtain ⟨_, _, rfl⟩ := List.mem_map.mp hit
      exact Nat.lt_succ_self _
  lines := hf.lines
  rows := by
    intro id
    by_cases hid : id = s.nextID
    · subst hid
      exact .of_free (by simp [createOrder, Table.insert])
    · simp only [createOrder, Table.insert, Function.update_of_ne hid]
      exact hf.rows id

theorem filed_step (h : shopStep cfg i s t x = some (s', t')) : Filed s' := by
  cases hp : t.commits x with
  | none =>
    have hk := keeps_of_step h hp
    have hn := (rowStep_of_step h).next
    refine ⟨fun id hid => ?_, fun it hit => ?_, lines_step hf.lines h, fun id => ?_⟩
    · exact Nat.lt_of_lt_of_le (hf.orders id (hk.ids ▸ hid)) hn
    · exact Nat.lt_of_lt_of_le (hf.items it (hk.items ▸ hit)) hn
    · exact (access_placedAs (hk.rows id) (hf.rows id)).1
  | some p =>
    obtain ⟨u, o, _, _, _, rfl⟩ := commit_step hp h
    exact filed_createOrder hf

theorem order_kept (hid : id ∈ s.orders.ids) (h : shopStep cfg i s t x = some (s', t')) :
    id ∈ s'.orders.ids ∧ itemsOf s' id = itemsOf s id ∧
      placedAs (s'.orders.row id).committed = placedAs (s.orders.row id).committed := by
  cases hp : t.commits x with
  | none =>
    have hk := keeps_of_step h hp
    refine ⟨hk.ids ▸ hid, ?_, (access_placedAs (hk.rows id) (hf.rows id)).2⟩
    rw [itemsOf, itemsOf, hk.items]
  | some p =>
    obtain ⟨u, o, _, _, _, rfl⟩ := commit_step hp h
    have hlt : id < s.nextID := hf.orders id hid
    refine ⟨List.mem_append_left _ hid, itemsOf_createOrder hlt, ?_⟩
    simp [createOrder, Table.insert, Nat.ne_of_lt hlt]

theorem OrderOf.step {shippingPrice : Int} {lines : List CartItem}
    (ho : OrderOf svc shippingPrice lines s id) (h : shopStep cfg i s t x = some (s', t')) :
    OrderOf svc shippingPrice lines s' id := by
  obtain ⟨hid, hitems, hrow⟩ := order_kept hf ho.present h
  have hamounts : amounts (s'.orders.row id).committed = amounts (s.orders.row id).committed := by
    have hboth := congrArg amounts hrow
    exact hboth
  have hsubtotal := congrArg Checkout.Summary.subtotal hamounts
  have hdiscount := congrArg Checkout.Summary.discount hamounts
  simp only [amounts] at hsubtotal hdiscount
  refine ⟨hid, hitems.trans ho.items, ?_, ?_⟩
  · rw [hsubtotal, hitems, ho.subtotal]
  · rw [hamounts, hdiscount, ho.header]

theorem orderOf_createOrder {cart : Cart} {lines : List CartItem} {discount : Int}
    (hpos : ∀ it ∈ lines, 0 < it.qty) :
    OrderOf svc u.shippingPrice lines
      (createOrder s (Checkout.newOrder svc u cart lines discount) (lines.map Checkout.newItem))
      s.nextID := by
  have hitems : itemsOf (createOrder s (Checkout.newOrder svc u cart lines discount)
      (lines.map Checkout.newItem)) s.nextID = lines.map (orderLine s.nextID) := by
    rw [itemsOf_new hf, List.map_map]
    rfl
  refine ⟨List.mem_append_right _ (List.mem_singleton_self _), hitems, ?_, ?_⟩
  · rw [hitems]
    refine Eq.trans ?_ (subtotal_eq_itemsTotal hpos s.nextID)
    simp [createOrder, Table.insert, Checkout.newOrder, Checkout.compute]
  · simp only [createOrder, Table.insert, Function.update_self, Row.free_committed]
    exact (compute_discount lines discount svc.taxBps (max 0 u.shippingPrice)).symm

end

/-! ## The calls -/

def Thread.checkout? : Thread → Option Checkout.Thread
  | .checkout t => some t
  | _ => none

theorem thread_of_checkout?
    (h : u ∈ c.threads[i]?.bind Thread.checkout?) : c.threads[i]? = some (.checkout u) := by
  obtain ⟨t, ht, hu⟩ := Option.bind_eq_some_iff.mp h
  cases t <;> cases hu
  exact ht

/-- The lines are those that the call found in the cart in a state of the run. -/
def Snapshot (V : State → Prop) (i : Nat) (ids : Checkout.Ids) (lines : List CartItem) : Prop :=
  (∀ it ∈ lines, 0 < it.qty) ∧ ∃ u, V u ∧ Reading i u ∧ lines = listCartItems u.shared ids.cart

structure Drafting (V : State → Prop) (svc : Checkout.Service) (i : Nat) (s : Store)
    (t : Checkout.Thread) : Prop where
  lines : ∀ lines ∈ t.pc.lines, Snapshot V i t.ids lines
  written : ∀ w ∈ t.pc.written, ∃ lines cart discount, Snapshot V i t.ids lines ∧
    w = (Checkout.newOrder svc t cart lines discount, lines.map Checkout.newItem)
  placed : ∀ id ∈ t.pc.placed, ∃ lines, Snapshot V i t.ids lines ∧
    OrderOf svc t.shippingPrice lines s id

def Thread.Drafts (V : State → Prop) (cfg : Config) (i : Nat) (s : Store) : Thread → Prop
  | .checkout t => Drafting V cfg.checkout i s t
  | _ => True

theorem drafting_idle (hl : u.pc.lines = none) (hw : u.pc.written = none)
    (hp : u.pc.placed = none) : Drafting V svc i s u where
  lines := forall_mem_of_none hl
  written := forall_mem_of_none hw
  placed := forall_mem_of_none hp

theorem drafting_step {u' : Checkout.Thread} (hV : V c) (hf : Filed c.shared)
    (hu : c.threads[i]? = some (.checkout u)) (hd : Drafting V svc i c.shared u)
    (h : Checkout.checkoutStep svc c.shared u x = some (s', u')) : Drafting V svc i s' u' := by
  obtain ⟨pc, rfl, hprog⟩ := Checkout.checkoutStep_progress h
  cases hprog with
  | idle hl hw hp => exact drafting_idle hl hw hp
  | reads hpc hl hw hp =>
    refine ⟨fun lines hmem => ?_, ?_, ?_⟩
    · obtain rfl := Option.some.inj (hl.symm.trans hmem)
      refine ⟨fun it hit => hf.lines it ?_, c, hV, ⟨u, _, hu, hpc⟩, rfl⟩
      exact (List.mem_filter.mp ((List.mem_insertionSort _).mp hit)).1
    · exact forall_mem_of_none hw
    · exact forall_mem_of_none hp
  | goes hl hw hp =>
    refine ⟨fun lines hmem => ?_, fun w hmem => ?_, ?_⟩
    · exact hd.lines lines (hl.symm.trans hmem)
    · exact hd.written w (hw.symm.trans hmem)
    · exact forall_mem_of_none hp
  | @creates cart items discount hpc =>
    obtain ⟨hw, hl, hp⟩ := Checkout.afterItem_written
      (Checkout.newOrder svc u cart items discount) [] (items.map Checkout.newItem)
    refine ⟨?_, fun w hmem => ?_, ?_⟩
    · exact forall_mem_of_none hl
    · refine ⟨items, cart, discount, hd.lines items (by rw [hpc]; rfl), ?_⟩
      exact (Option.some.inj (hw.symm.trans hmem)).symm
    · exact forall_mem_of_none hp
  | @commits order items hpc _ =>
    refine ⟨forall_mem_none, forall_mem_none, fun id hmem => ?_⟩
    obtain rfl := Option.some.inj hmem
    obtain ⟨lines, cart, discount, hsnap, hw⟩ := hd.written (order, items) (by rw [hpc]; rfl)
    cases hw
    exact ⟨lines, hsnap, orderOf_createOrder hf hsnap.1⟩

theorem drafting_other (hf : Filed s) (hd : Drafting V svc j s u)
    (h : shopStep cfg i s t x = some (s', t')) : Drafting V svc j s' u := by
  refine ⟨hd.lines, hd.written, fun id hid => ?_⟩
  obtain ⟨lines, hsnap, ho⟩ := hd.placed id hid
  exact ⟨lines, hsnap, ho.step hf h⟩

abbrev OrdersDrafted (V : State → Prop) (cfg : Config) : State → Prop :=
  Guarded (fun _ => Filed) fun i s t => t.Drafts V cfg i s

theorem drafts_start (r : Request) : (start cfg r).Drafts V cfg i s := by
  cases r with
  | checkout r =>
    simp only [start, Checkout.start]
    split <;> exact drafting_idle rfl rfl rfl
  | _ => trivial

theorem drafts_step (hV : V c) (hf : Filed c.shared) (ht : c.threads[i]? = some t)
    (hd : t.Drafts V cfg i c.shared) (h : shopStep cfg i c.shared t x = some (s', t')) :
    t'.Drafts V cfg i s' := by
  cases t <;> obtain ⟨u', hs, rfl⟩ := lifted_inv h
  case checkout u => exact drafting_step hV hf ht hd hs
  all_goals trivial

theorem drafted_step (hg : OrdersDrafted V cfg c) (hV : V c) (h : (shopMachine cfg).step c a = some d) :
    OrdersDrafted V cfg d := by
  refine guarded_step hg h (fun r _ => ⟨hg.1, drafts_start r⟩) ?_ ?_
  · intro i x t s' t' _ ht hl
    refine ⟨filed_step hg.1 hl, drafts_step hV hg.1 ht (hg.2 i t ht) hl, fun j u _ hu => ?_⟩
    cases u with
    | checkout u => exact drafting_other hg.1 (hg.2 j _ hu) hl
    | _ => trivial
  · intro e s' he
    obtain rfl := Option.some.inj he
    refine ⟨{ hg.1 with }, fun j u hu => ?_⟩
    cases u with
    | checkout u =>
      have hd : Drafting V cfg.checkout j c.shared u := hg.2 j _ hu
      refine ⟨hd.lines, hd.written, fun id hid => ?_⟩
      obtain ⟨lines, hsnap, ho⟩ := hd.placed id hid
      exact ⟨lines, hsnap, ho.present, ho.items, ho.subtotal, ho.header⟩
    | _ => trivial

/-! ## What each call adds -/

def Thread.placed : Thread → Option Nat
  | .checkout t => t.pc.placed
  | _ => none

theorem placed_none (h : shopStep cfg i s t x = some (s', t')) : t.placed = none := by
  cases t with
  | checkout u =>
    obtain ⟨_, hs, _⟩ := Option.map_eq_some_iff.mp h
    cases hpc : u.pc with
    | returned r =>
      simp only [Checkout.checkoutStep, hpc] at hs
      cases hs
    | _ => simp only [Thread.placed, hpc, Checkout.Pc.placed]
  | _ => rfl

theorem placed_kept (h : shopStep cfg i s t x = some (s', t')) (hc : t.commits x = none) :
    t'.placed = none := by
  cases t <;> obtain ⟨u', hs, rfl⟩ := lifted_inv h
  case checkout u =>
    obtain ⟨pc, rfl, hprog⟩ := Checkout.checkoutStep_progress hs
    cases hprog with
    | idle _ _ hp | reads _ _ _ hp | goes _ _ hp => exact hp
    | creates hpc => exact (Checkout.afterItem_written _ _ _).2.2
    | commits hpc hx =>
      subst hx
      simp [Thread.commits, hpc] at hc
  all_goals rfl

theorem placed_commit {p : Checkout.Ids × List OrderItem} (hp : t.commits x = some p)
    (h : shopStep cfg i s t x = some (s', t')) : t'.placed = some s.nextID := by
  obtain ⟨u, o, rfl, rfl, hpc, _⟩ := commits_inv hp
  obtain ⟨u', hs, rfl⟩ := lifted_inv h
  simp only [Checkout.checkoutStep, hpc] at hs
  cases hs
  rfl

/-- How much of a table belongs to the order that thread `i` has created. -/
def share (amount : Store → Nat → Nat) (i : Nat) (c : State) : Nat :=
  (c.threads[i]?.bind Thread.placed).elim 0 (amount c.shared)

theorem share_step {amount : Store → Nat → Nat} {size : Store → Nat}
    (hg : OrdersDrafted V cfg c) (h : (shopMachine cfg).step c a = some d)
    (htick : ∀ s k id, amount { s with now := k } id = amount s id)
    (hkeep : ∀ (i : Nat) (s s' : Store) (t t' : Thread) (x : Call) (id : Nat), Filed s →
      id ∈ s.orders.ids → shopStep cfg i s t x = some (s', t') → amount s' id = amount s id)
    (hsame : ∀ (i : Nat) (s s' : Store), Keeps i s s' → size s' = size s)
    (hnew : ∀ (s : Store) (o : Order) (items : List OrderItem), Filed s →
      size (createOrder s o items) = size s + amount (createOrder s o items) s.nextID) :
    share amount i d = share amount i c + growth cfg i size c a := by
  cases a with
  | spawn r =>
    obtain rfl := Option.some.inj h
    have hthread : (c.threads ++ [start cfg r])[i]?.bind Thread.placed =
        c.threads[i]?.bind Thread.placed := by
      have hstart : (start cfg r).placed = none := by
        cases r with
        | checkout r =>
          simp only [start, Checkout.start]
          split <;> rfl
        | _ => rfl
      rcases Nat.lt_or_ge i c.threads.length with hlt | hge
      · rw [List.getElem?_append_left hlt]
      · rw [List.getElem?_append_right hge, List.getElem?_eq_none hge, List.getElem?_singleton]
        split
        · exact hstart
        · rfl
    simp only [share, growth, shopMachine, hthread, Nat.add_zero]
  | env k =>
    obtain ⟨s', hs, rfl⟩ := Machine.step_env h
    cases hs
    simp only [share, growth, Nat.add_zero]
    cases c.threads[i]?.bind Thread.placed with
    | none => rfl
    | some id => exact htick c.shared _ id
  | act j x =>
    have hstep := h
    obtain ⟨t, s', t', ht, hl, rfl⟩ := Machine.step_act h
    by_cases hj : j = i
    · subst hj
      have hlt : j < c.threads.length := (List.getElem?_eq_some_iff.mp ht).1
      simp only [share, growth, if_true, hstep, Option.elim_some, ht, Option.bind_some,
        List.getElem?_set_self hlt, placed_none hl, Option.elim_none, Nat.zero_add]
      cases hp : t.commits x with
      | none =>
        rw [placed_kept hl hp, hsame j c.shared s' (keeps_of_step hl hp), Nat.sub_self]
        rfl
      | some p =>
        obtain ⟨u, o, _, _, _, rfl⟩ := commit_step hp hl
        rw [placed_commit hp hl, hnew c.shared o p.2 hg.1, Nat.add_sub_cancel_left]
        rfl
    · simp only [share, growth, if_neg hj, Nat.add_zero, List.getElem?_set_ne hj]
      cases hplaced : c.threads[i]?.bind Thread.placed with
      | none => rfl
      | some id =>
        obtain ⟨u, hu, hid⟩ := Option.bind_eq_some_iff.mp hplaced
        have hmem : id ∈ c.shared.orders.ids := by
          cases u with
          | checkout u =>
            obtain ⟨_, _, ho⟩ := (hg.2 i _ hu : Drafting V cfg.checkout i c.shared u).placed id hid
            exact ho.present
          | _ => cases hid
        exact hkeep j c.shared s' t t' x id hg.1 hmem hl

theorem share_run {amount : Store → Nat → Nat} {size : Store → Nat} (hf : Filed s₀)
    (hstep : ∀ c a d, OrdersDrafted (fun _ => True) cfg c → (shopMachine cfg).step c a = some d →
      share amount i d = share amount i c + growth cfg i size c a)
    (hr : run (shopMachine cfg).step ⟨s₀, []⟩ acts = some c) :
    tally (shopMachine cfg).step (growth cfg i size) ⟨s₀, []⟩ acts = share amount i c := by
  have hbalance : (share amount i c : Int) +
      tally (shopMachine cfg).step (fun _ _ => 0) ⟨s₀, []⟩ acts =
        share amount i (⟨s₀, []⟩ : State) +
          tally (shopMachine cfg).step (growth cfg i size) ⟨s₀, []⟩ acts := by
    refine run_tally (I := OrdersDrafted (fun _ => True) cfg) (f := fun c => share amount i c)
      (fun c a d hg hs => drafted_step hg trivial hs) (fun c a d hg hs => ?_) (guarded_start hf) hr
    rw [hstep c a d hg hs]
    omega
  have hstart : share amount i (⟨s₀, []⟩ : State) = 0 := by simp [share]
  rw [tally_zero, hstart] at hbalance
  omega

section

variable (hf : Filed s₀) (hr : run (shopMachine cfg).step ⟨s₀, []⟩ acts = some c)
include hf hr

theorem ordersAdded_run :
    tally (shopMachine cfg).step (ordersAdded cfg i) ⟨s₀, []⟩ acts = share (fun _ _ => 1) i c := by
  refine share_run hf (fun c a d hg hs => share_step hg hs (fun _ _ _ => rfl)
    (fun _ _ _ _ _ _ _ _ _ _ => rfl) (fun i s s' hk => by rw [hk.ids]) fun s o items _ => ?_) hr
  simp [createOrder, Table.insert]

theorem itemsAdded_run :
    tally (shopMachine cfg).step (itemsAdded cfg i) ⟨s₀, []⟩ acts =
      share (fun s id => (itemsOf s id).length) i c := by
  refine share_run hf (fun c a d hg hs => share_step hg hs (fun _ _ _ => rfl)
    (fun i s s' t t' x id hf hid hl => ?_) (fun i s s' hk => by rw [hk.items])
    fun s o items hf => ?_) hr
  · rw [(order_kept hf hid hl).2.1]
  · rw [itemsOf_new hf]
    simp [createOrder]

end

/-! ## Whole runs -/

theorem filed_of_ready (hready : Ready s₀) (hitems : ∀ it ∈ s₀.orderItems, it.orderID < s₀.nextID)
    (hpos : ∀ it ∈ s₀.cartItems, 0 < it.qty) : Filed s₀ :=
  ⟨hready.fresh, hitems, hpos, fun id => .of_free (hready.unlocked id)⟩

/-- In every state of the shop a checkout has added no row, and has not returned an
order, or it has added exactly one order, the checkout of the lines that it found in its
cart in one state of the run. -/
theorem checkout_all_or_nothing (cfg : Config) (s₀ : Store) (hready : Ready s₀)
    (hitems : ∀ it ∈ s₀.orderItems, it.orderID < s₀.nextID)
    (hpos : ∀ it ∈ s₀.cartItems, 0 < it.qty) (acts : List Label) (c : State)
    (hr : run (shopMachine cfg).step ⟨s₀, []⟩ acts = some c) (i : Nat) (t : Checkout.Thread)
    (ht : c.threads[i]? = some (.checkout t)) :
    ((∀ id status, t.pc ≠ .returned (.ok (id, status))) ∧
        tally (shopMachine cfg).step (ordersAdded cfg i) ⟨s₀, []⟩ acts = 0 ∧
        tally (shopMachine cfg).step (itemsAdded cfg i) ⟨s₀, []⟩ acts = 0) ∨
      ∃ id status u, t.pc = .returned (.ok (id, status)) ∧
        tally (shopMachine cfg).step (ordersAdded cfg i) ⟨s₀, []⟩ acts = 1 ∧
        tally (shopMachine cfg).step (itemsAdded cfg i) ⟨s₀, []⟩ acts =
          (itemsOf c.shared id).length ∧
        Visits (shopMachine cfg).step ⟨s₀, []⟩ acts u ∧ Reading i u ∧
        OrderOf cfg.checkout t.shippingPrice (listCartItems u.shared t.ids.cart) c.shared id := by
  have hf := filed_of_ready hready hitems hpos
  rw [ordersAdded_run hf hr, itemsAdded_run hf hr]
  have hg := run_inv (I := OrdersDrafted (Visits (shopMachine cfg).step ⟨s₀, []⟩ acts) cfg)
    (fun c a d hg hV hs => drafted_step hg hV hs) (guarded_start hf) (meets_visits hr) hr
  have hd : Drafting _ cfg.checkout i c.shared t := hg.2 i _ ht
  simp only [share, ht, Option.bind_some, Thread.placed]
  cases hplaced : t.pc.placed with
  | none =>
    refine .inl ⟨fun id status hpc => ?_, rfl, rfl⟩
    rw [hpc] at hplaced
    cases hplaced
  | some id =>
    obtain ⟨lines, ⟨_, u, hV, hread, rfl⟩, ho⟩ := hd.placed id hplaced
    obtain ⟨status, hpc⟩ : ∃ status, t.pc = .returned (.ok (id, status)) := by
      unfold Checkout.Pc.placed at hplaced
      split at hplaced
      · rename_i k status hpc
        cases hplaced
        exact ⟨status, hpc⟩
      · cases hplaced
    exact .inr ⟨id, status, u, hpc, rfl, rfl, hV, hread, ho⟩

/-! ## A cart that changes meanwhile -/

/-- A checkout of one mug; while it is under way the quantity in the cart is set to
five. -/
def editedMeanwhile : List Label :=
  adds 0 1 ++ request 1 (.checkout ⟨some "1", some "1", "11", 7⟩) 3 ++ updates 2 5 ++
    List.replicate 3 (.act 1 .ok)

/-- The order is for the one mug that was in the cart when its lines were read. -/
theorem edited_meanwhile_one_order :
    ∃ c id, run (shopMachine numeralShop).step ⟨emptyCart, []⟩ editedMeanwhile = some c ∧
      c.shared.cartItems.map CartItem.qty = [5] ∧
      (itemsOf c.shared id).map OrderItem.qty = [1] ∧
      tally (shopMachine numeralShop).step (ordersAdded numeralShop 1) ⟨emptyCart, []⟩
        editedMeanwhile = 1 ∧
      (c.shared.orders.row id).committed.pricingSubtotal = itemsTotal (itemsOf c.shared id) := by
  obtain ⟨c, hc, hqty, t, ht, hpc, hitems⟩ := reaches (P := fun c : State =>
      c.shared.cartItems.map CartItem.qty = [5] ∧ ∃ t ∈ c.threads[1]?.bind Thread.checkout?,
        t.pc = .returned (.ok (101, .pendingPayment)) ∧
          (itemsOf c.shared 101).map OrderItem.qty = [1])
    (o := run (shopMachine numeralShop).step ⟨emptyCart, []⟩ editedMeanwhile) (by decide +kernel)
  obtain ⟨hnot, _⟩ | ⟨id, status, u, hret, hadded, _, _, _, ho⟩ := checkout_all_or_nothing
    numeralShop emptyCart ⟨fun _ => rfl, List.forall_mem_nil _⟩ (List.forall_mem_nil _)
    (List.forall_mem_nil _) editedMeanwhile c hc 1 t (thread_of_checkout? ht)
  · exact absurd hpc (hnot _ _)
  · rw [hpc] at hret
    cases hret
    exact ⟨c, 101, hc, hqty, hitems, hadded, ho.subtotal⟩

/-! ## Orders afterwards -/

/-- The order is there in both states, with the same items and columns but for the status. -/
structure Stays (id : Nat) (s s' : Store) : Prop where
  present : id ∈ s'.orders.ids
  items : itemsOf s' id = itemsOf s id
  columns : placedAs (s'.orders.row id).committed = placedAs (s.orders.row id).committed

theorem Stays.step (hs : Stays id s₀ c.shared) (hf : Filed c.shared)
    (h : (shopMachine cfg).step c a = some d) : Stays id s₀ d.shared := by
  cases Machine.step_effect h with
  | spawn r => exact { hs with }
  | env he =>
    cases he
    exact { hs with }
  | act _ hl =>
    obtain ⟨hid, hitems, hcolumns⟩ := order_kept hf hs.present hl
    exact ⟨hid, hitems.trans hs.items, hcolumns.trans hs.columns⟩

/-- Whatever the requests of the shop do between two states of a run, every order of the first
is in the second, as it was placed. -/
theorem orders_stay (cfg : Config) (s₀ : Store) (hready : Ready s₀)
    (hitems : ∀ it ∈ s₀.orderItems, it.orderID < s₀.nextID)
    (hpos : ∀ it ∈ s₀.cartItems, 0 < it.qty) (acts rest : List Label) (c d : State)
    (hr : run (shopMachine cfg).step ⟨s₀, []⟩ acts = some c)
    (hrest : run (shopMachine cfg).step c rest = some d) :
    ∀ id ∈ c.shared.orders.ids, Stays id c.shared d.shared := by
  intro id hid
  have hstart : OrdersDrafted (fun _ => True) cfg ⟨s₀, []⟩ :=
    guarded_start (filed_of_ready hready hitems hpos)
  have hc := run_inv (fun _ _ _ hg (_ : True) hs => drafted_step hg trivial hs) hstart
    (meets_true _ acts) hr
  exact (run_inv
    (I := fun e : State => OrdersDrafted (fun _ => True) cfg e ∧ Stays id c.shared e.shared)
    (fun _ _ _ he (_ : True) hs => ⟨drafted_step he.1 trivial hs, he.2.step he.1.1 hs⟩)
    ⟨hc, hid, rfl, rfl⟩ (meets_true _ rest) hrest).2

def paysAfterwards : List Label :=
  request 3 (.intent ⟨"101", 0, "", ""⟩) 4 ++ request 4 (.payment ⟨"plain", "", "101"⟩) 9

theorem paid_order_stays :
    ∃ c d, run (shopMachine numeralShop).step ⟨emptyCart, []⟩ editedMeanwhile = some c ∧
      run (shopMachine numeralShop).step c paysAfterwards = some d ∧
      (d.shared.orders.row 101).committed.status = .paid ∧ Stays 101 c.shared d.shared := by
  obtain ⟨c, d, hc, hd, hid, hpaid⟩ := reaches_then (P := fun c d : State =>
      101 ∈ c.shared.orders.ids ∧ (d.shared.orders.row 101).committed.status = .paid)
    (o := run (shopMachine numeralShop).step ⟨emptyCart, []⟩ editedMeanwhile)
    (f := fun c => run (shopMachine numeralShop).step c paysAfterwards) (by decide +kernel)
  exact ⟨c, d, hc, hd, hpaid, orders_stay numeralShop emptyCart ⟨fun _ => rfl, List.forall_mem_nil _⟩
    (List.forall_mem_nil _) (List.forall_mem_nil _) _ _ c d hc hd 101 hid⟩

end TokoApi.Shop
