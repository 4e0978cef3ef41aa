import TokoApi.Payment.Stock
import TokoApi.Shop.StatusEdges
import TokoApi.Shop.ActiveCarts

/-!
# The tenant of an order

A cart takes the tenant of the request that creates it, and `EnsureCart` later
returns it to the same user under any tenant. `AddItem` finds a product by its key
alone. `Create` writes the tenant of its own request into the order. So the tenant
of an order is that of its cart and of its products exactly when every order is
committed under the tenant that the cart and the products have.
-/
namespace TokoApi.Shop

open Db Cart Lib.Rows Lib.Threads Lib.Runs

def tenantOfCart (s : Store) (cart : Nat) : Option Nat := (s.carts.get? cart).map Cart.tenantID

def tenantOfProduct (s : Store) (product : Nat) : Option Nat :=
  (s.products.get? product).map Product.tenantID

/-- Every order has the tenant of the cart it was created from and of the products of
its items. -/
abbrev Isolated (s : Store) : Prop :=
  ∀ id ∈ s.orders.ids,
    (∀ cart ∈ (s.orders.row id).committed.cartID,
      tenantOfCart s cart = some (s.orders.row id).committed.tenantID) ∧
    ∀ it ∈ s.orderItems, it.orderID = id →
      tenantOfProduct s it.productID = some (s.orders.row id).committed.tenantID

def Thread.commits : Thread → Call → Option (Checkout.Ids × List OrderItem)
  | .checkout u, .ok =>
    match u.pc with
    | .commit _ items => some (u.ids, items)
    | _ => none
  | _, _ => none

def commits (c : State) : Label → Option (Checkout.Ids × List OrderItem)
  | .act i x => c.threads[i]?.bind fun t => t.commits x
  | _ => none

/-- The tenant of the request is the tenant of the cart and of every product that was
in it. -/
abbrev UnderOneTenant (s : Store) (p : Checkout.Ids × List OrderItem) : Prop :=
  tenantOfCart s p.1.cart = some p.1.tenant ∧
    ∀ it ∈ p.2, tenantOfProduct s it.productID = some p.1.tenant

abbrev OwnTenant (c : State) (a : Label) : Prop := ∀ p ∈ commits c a, UnderOneTenant c.shared p

/-- Keys of carts and of orders are given out in order. -/
structure Issued (s : Store) : Prop where
  carts : ∀ k ∈ s.carts.ids, k < s.nextID
  items : ∀ it ∈ s.orderItems, it.orderID < s.nextID

/-! ## What a statement keeps -/

/-- What `Create` writes into an order and no statement changes. -/
def origin (o : Order) : Option Nat × Nat := (o.cartID, o.tenantID)

def Fixed (r : Row Order) : Prop := r.Holds fun o => origin o = origin r.committed

variable {cfg : Config} {i : Nat} {s s' : Store} {t t' : Thread} {x : Call} {c d : State}
  {a : Label}

theorem Fixed.access {r r' : Row Order} (hf : Fixed r)
    (h : Row.Access i Payment.StatusChange r r') :
    Fixed r' ∧ origin r'.committed = origin r.committed := by
  refine h.agrees ?_ hf
  rintro f ⟨status, rfl⟩ o
  rfl

/-- A statement that commits no order. -/
structure Keeps (i : Nat) (s s' : Store) : Prop where
  ids : s'.orders.ids = s.orders.ids
  rows : ∀ id, Row.Access i Payment.StatusChange (s.orders.row id) (s'.orders.row id)
  items : s'.orderItems = s.orderItems
  products : s'.products = s.products

variable {o : Order} {p : Checkout.Ids × List OrderItem}

theorem keeps_of_step (h : shopStep cfg i s t x = some (s', t'))
    (hc : t.commits x = none) : Keeps i s s' := by
  obtain ⟨u, u', rfl, rfl, hs⟩ | ⟨_, _, hch⟩ := step_change h
  · have he := Payment.step_effect hs
    exact ⟨he.frame.orderIDs, he.orders_access, he.frame.orderItems, he.frame.products⟩
  · cases hch.touches with
    | beside hs _ =>
      rw [hs]
      exact ⟨rfl, fun _ => .same, rfl, rfl⟩
    | status hget => exact ⟨rfl, set_access hget, rfl, rfl⟩
    | ordered ht hpc hx =>
      subst ht hx
      simp [Thread.commits, hpc] at hc
    | claimed _ _ => exact ⟨rfl, fun _ => .same, rfl, rfl⟩

theorem commits_inv (hp : t.commits x = some p) :
    ∃ u o, t = .checkout u ∧ x = .ok ∧ u.pc = .commit o p.2 ∧ p.1 = u.ids := by
  unfold Thread.commits at hp
  split at hp
  · rename_i u
    split at hp
    · rename_i o items hpc
      cases hp
      exact ⟨u, o, rfl, rfl, hpc, rfl⟩
    · cases hp
  · cases hp

theorem commit_step (hp : t.commits x = some p) (h : shopStep cfg i s t x = some (s', t')) :
    ∃ u o, t = .checkout u ∧ u.pc.order = some o ∧ p.1 = u.ids ∧ s' = createOrder s o p.2 := by
  obtain ⟨u, o, rfl, rfl, hpc, hids⟩ := commits_inv hp
  obtain ⟨u', hs, rfl⟩ := lifted_inv h
  simp only [Checkout.checkoutStep, hpc] at hs
  cases hs
  exact ⟨u, o, rfl, by rw [hpc]; rfl, hids, rfl⟩

theorem leaves_tenant {w : Write} {p : Nat × Cart} (h : leaves s w = some p)
    (hs : w.apply s = .ok s') :
    (p.1 = s.nextID ∧ s'.nextID = s.nextID + 1) ∨ tenantOfCart s p.1 = some p.2.tenantID := by
  have hset : ∀ {id : Nat} {f : Cart → Cart}, (∀ cart, (f cart).tenantID = cart.tenantID) →
      (s.carts.get? id).map (fun cart => (id, f cart)) = some p →
      tenantOfCart s p.1 = some p.2.tenantID := by
    intro id f hf hm
    obtain ⟨cart, hcart, rfl⟩ := Option.map_eq_some_iff.mp hm
    rw [tenantOfCart, hcart, Option.map_some, hf]
  cases w with
  | newCart userID anonID expires tenant =>
    cases tenant <;> cases h
    cases hs
    exact .inl ⟨rfl, rfl⟩
  | touch id expires =>
    exact .inr (hset (f := fun cart => { cart with updatedAt := s.now, expiresAt := some expires })
      (fun _ => rfl) h)
  | setVoucher id code =>
    exact .inr (hset (f := fun cart => { cart with appliedVoucherCode := code, updatedAt := s.now })
      (fun _ => rfl) h)
  | transfer id user =>
    exact .inr (hset
      (f := fun cart => { cart with userID := some user, anonID := none, updatedAt := s.now })
      (fun _ => rfl) h)
  | _ => cases h

theorem tenantOfCart_congr (h : s'.carts = s.carts) (k : Nat) :
    tenantOfCart s' k = tenantOfCart s k := by
  rw [tenantOfCart, tenantOfCart, h]

theorem tenantOfCart_mem {k T : Nat} (h : tenantOfCart s k = some T) :
    k ∈ s.carts.ids ∧ (s.carts.row k).tenantID = T := by
  obtain ⟨cart, hget, rfl⟩ := Option.map_eq_some_iff.mp h
  obtain ⟨hid, rfl⟩ := Table.get?_eq_some.mp hget
  exact ⟨hid, rfl⟩

theorem puts_tenant {w : Write} {p : Nat × Cart} (hl : leaves s w = some p)
    (hs : w.apply s = .ok s') (hp : Puts s s' p) (hfresh : ∀ k ∈ s.carts.ids, k < s.nextID)
    {k T : Nat} (h : tenantOfCart s k = some T) : tenantOfCart s' k = some T := by
  obtain ⟨hid, hT⟩ := tenantOfCart_mem h
  have hrow : (s'.carts.row k).tenantID = T := by
    by_cases hk : k = p.1
    · subst hk
      rw [hp.self]
      rcases leaves_tenant hl hs with ⟨hnew, _⟩ | hold
      · exact absurd (hfresh _ hid) (by omega)
      · exact Option.some.inj (hold.symm.trans h)
    · rw [hp.other k hk, hT]
  rw [tenantOfCart, Table.get?, if_pos ((hp.ids k).mpr (.inr hid)), Option.map_some, hrow]

theorem carts_step (hfresh : ∀ k ∈ s.carts.ids, k < s.nextID)
    (h : shopStep cfg i s t x = some (s', t')) (hn : s.nextID ≤ s'.nextID) :
    (∀ k T, tenantOfCart s k = some T → tenantOfCart s' k = some T) ∧
      ∀ k ∈ s'.carts.ids, k < s'.nextID := by
  have hsame : s'.carts = s.carts →
      (∀ k T, tenantOfCart s k = some T → tenantOfCart s' k = some T) ∧
        ∀ k ∈ s'.carts.ids, k < s'.nextID := by
    intro hc
    refine ⟨fun k T hk => by rw [tenantOfCart_congr hc, hk], fun k hk => ?_⟩
    exact Nat.lt_of_lt_of_le (hfresh k (hc ▸ hk)) hn
  cases step_cart h with
  | kept _ hc _ _ _ => exact hsame hc
  | outcome ho =>
    cases ho with
    | done _ _ hs =>
      rcases apply_puts hs with ⟨p, hl, hp⟩ | ⟨_, hc, _⟩
      · refine ⟨fun k T hk => puts_tenant hl hs hp hfresh hk, fun k hk => ?_⟩
        rcases (hp.ids k).mp hk with rfl | hk
        · rcases leaves_tenant hl hs with ⟨hkey, hnext⟩ | hold
          · omega
          · exact Nat.lt_of_lt_of_le (hfresh _ (tenantOfCart_mem hold).1) hn
        · exact Nat.lt_of_lt_of_le (hfresh k hk) hn
      · exact hsame hc
    | refused _ _ _ | none _ => exact hsame rfl

/-! ## Whole runs -/

/-- The order of a checkout carries what its request names. -/
def Thread.Ordering : Thread → Prop
  | .checkout u => ∀ o, u.pc.order = some o → origin o = (some u.ids.cart, u.ids.tenant)
  | _ => True

structure Traced (c : State) : Prop where
  orders : Guarded Inv Outline c
  issued : Issued c.shared
  fixed : ∀ id, Fixed (c.shared.orders.row id)
  ordering : ∀ t ∈ c.threads, t.Ordering

theorem ordering_start (r : Request) : (start cfg r).Ordering := by
  cases r with
  | checkout r =>
    intro o ho
    simp only [Checkout.start] at ho
    split at ho <;> cases ho
  | _ => trivial

theorem Thread.Ordering.step (ho : t.Ordering) (h : shopStep cfg i s t x = some (s', t')) :
    t'.Ordering := by
  cases t <;> obtain ⟨u', hs, rfl⟩ := lifted_inv h
  case checkout u =>
    intro o hord
    rw [Checkout.checkoutStep_ids hs]
    rcases Checkout.checkoutStep_order hs hord with hold | ⟨hcart, htenant⟩
    · exact ho o hold
    · rw [origin, hcart, htenant]
  all_goals trivial

theorem fixed_createOrder {items : List OrderItem} (hf : ∀ id, Fixed (s.orders.row id)) (id : Nat) :
    Fixed ((createOrder s o items).orders.row id) := by
  by_cases hid : id = s.nextID
  · subst hid
    simp [createOrder, Table.insert, Fixed, Row.Holds, Row.free]
  · simp only [createOrder, Table.insert, Function.update_of_ne hid]
    exact hf id

theorem traced_act (hc : Traced c) (ht : c.threads[i]? = some t)
    (hl : shopStep cfg i c.shared t x = some (s', t')) :
    Issued s' ∧ ∀ id, Fixed (s'.orders.row id) := by
  have ho := hc.orders.2 i t ht
  cases hp : t.commits x with
  | none =>
    have hk := keeps_of_step hl hp
    have hn := (rowStep_of_step hl).next
    refine ⟨⟨(carts_step hc.issued.carts hl hn).2, fun it hit => ?_⟩, fun id => ?_⟩
    · exact Nat.lt_of_lt_of_le (hc.issued.items it (hk.items ▸ hit)) hn
    · exact ((hc.fixed id).access (hk.rows id)).1
  | some p =>
    obtain ⟨u, o, _, _, _, rfl⟩ := commit_step hp hl
    refine ⟨⟨fun k hk => ?_, fun it hit => ?_⟩, fixed_createOrder hc.fixed⟩
    · exact Nat.lt_succ_of_lt (hc.issued.carts k hk)
    · rcases List.mem_append.mp hit with hit | hit
      · exact Nat.lt_succ_of_lt (hc.issued.items it hit)
      · obtain ⟨_, _, rfl⟩ := List.mem_map.mp hit
        exact Nat.lt_succ_self _

theorem traced_step (hc : Traced c) (h : (shopMachine cfg).step c a = some d) : Traced d := by
  have hord := guarded_orders hc.orders h
  cases Machine.step_effect h with
  | spawn r =>
    exact ⟨hord, hc.issued, hc.fixed, forall_mem_concat (ordering_start r) hc.ordering⟩
  | env hs =>
    cases hs
    exact ⟨hord, ⟨hc.issued.carts, hc.issued.items⟩, hc.fixed, hc.ordering⟩
  | @act _ _ t _ _ ht hl =>
    obtain ⟨hissued, hfixed⟩ := traced_act hc ht hl
    have hown := (hc.ordering t (List.mem_of_getElem? ht)).step hl
    exact ⟨hord, hissued, hfixed, forall_mem_set hown hc.ordering⟩

theorem Keeps.isolated (hk : Keeps i s s') (hf : ∀ id, Fixed (s.orders.row id))
    (hcarts : ∀ k T, tenantOfCart s k = some T → tenantOfCart s' k = some T)
    (h : Isolated s) : Isolated s' := by
  intro id hid
  obtain ⟨hcart, hitems⟩ := h id (hk.ids ▸ hid)
  obtain ⟨hcartID, htenant⟩ := Prod.mk.inj ((hf id).access (hk.rows id)).2
  rw [hcartID, htenant]
  refine ⟨fun k hmem => hcarts k _ (hcart k hmem), fun it hit horder => ?_⟩
  rw [tenantOfProduct, hk.products]
  exact hitems it (hk.items ▸ hit) horder

theorem isolated_createOrder_iff (hissued : Issued s) (hfresh : ∀ id ∈ s.orders.ids, id < s.nextID)
    (ho : origin o = (some p.1.cart, p.1.tenant)) (h : Isolated s) :
    Isolated (createOrder s o p.2) ↔ UnderOneTenant s p := by
  obtain ⟨hcartID, htenant⟩ := Prod.mk.inj ho
  have hnew : ((createOrder s o p.2).orders.row s.nextID).committed = o := by
    simp [createOrder, Table.insert, Row.free]
  constructor
  · intro hall
    obtain ⟨hcart, hitems⟩ := hall s.nextID (by simp [createOrder, Table.insert])
    rw [hnew, htenant] at hcart hitems
    refine ⟨hcart p.1.cart hcartID, fun it hit => ?_⟩
    have hmem : { it with orderID := s.nextID } ∈ (createOrder s o p.2).orderItems :=
      List.mem_append_right _ (List.mem_map_of_mem hit)
    exact hitems { it with orderID := s.nextID } hmem rfl
  · rintro ⟨hcart, hitems⟩ id hid
    rcases List.mem_append.mp hid with hold | hid
    · have hne : id ≠ s.nextID := Nat.ne_of_lt (hfresh id hold)
      have hrow : (createOrder s o p.2).orders.row id = s.orders.row id := by
        simp [createOrder, Table.insert, hne]
      rw [hrow]
      refine ⟨(h id hold).1, fun it hit horder => ?_⟩
      rcases List.mem_append.mp hit with hit | hit
      · exact (h id hold).2 it hit horder
      · obtain ⟨_, _, rfl⟩ := List.mem_map.mp hit
        exact absurd horder.symm hne
    · obtain rfl := List.mem_singleton.mp hid
      rw [hnew, hcartID, htenant]
      refine ⟨fun k hk => ?_, fun it hit horder => ?_⟩
      · obtain rfl := Option.some.inj hk
        exact hcart
      · rcases List.mem_append.mp hit with hit | hit
        · exact absurd horder (Nat.ne_of_lt (hissued.items it hit))
        · obtain ⟨it', hit', rfl⟩ := List.mem_map.mp hit
          exact hitems it' hit'

theorem isolated_step_iff (hc : Traced c) (hp : Isolated c.shared)
    (h : (shopMachine cfg).step c a = some d) : Isolated d.shared ↔ OwnTenant c a := by
  cases Machine.step_effect h with
  | spawn r =>
    exact iff_of_true hp (by simp [OwnTenant, commits])
  | env hs =>
    cases hs
    exact iff_of_true hp (by simp [OwnTenant, commits])
  | @act i x t _ _ ht hl =>
    have hcond : commits c (.act i x) = t.commits x := by simp [commits, ht]
    rw [OwnTenant, hcond]
    have ho := hc.orders.2 i t ht
    cases hcom : t.commits x with
    | none =>
      have hk := keeps_of_step hl hcom
      have hn := (rowStep_of_step hl).next
      exact iff_of_true (hk.isolated hc.fixed (carts_step hc.issued.carts hl hn).1 hp) (by simp)
    | some p =>
      obtain ⟨u, o, rfl, hord, hids, rfl⟩ := commit_step hcom hl
      have horigin := hc.ordering _ (List.mem_of_getElem? ht) o hord
      rw [← hids] at horigin
      rw [isolated_createOrder_iff hc.issued hc.orders.1.fresh horigin hp]
      simp

/-- Along every run of the shop from a store whose orders are with their tenants, they
are in every state, exactly when every order is committed under the tenant of its
cart and of its products. -/
theorem orders_isolated_iff (cfg : Config) (s₀ : Store) (hready : Ready s₀) (hissued : Issued s₀)
    (hiso : Isolated s₀) (acts : List Label) (c : State)
    (hr : run (shopMachine cfg).step ⟨s₀, []⟩ acts = some c) :
    (∀ n d, run (shopMachine cfg).step ⟨s₀, []⟩ (acts.take n) = some d → Isolated d.shared) ↔
      Meets (shopMachine cfg).step OwnTenant ⟨s₀, []⟩ acts := by
  have hstart : Traced ⟨s₀, []⟩ := by
    refine ⟨guarded_start ⟨fun id i o hd => ?_, hready.fresh⟩, hissued, fun id => ?_, by simp⟩
    · rw [hready.unlocked id] at hd
      cases hd
    · refine ⟨rfl, fun u o hd => ?_⟩
      rw [hready.unlocked id] at hd
      cases hd
  exact always_iff_meets (I := Traced) (P := fun c : State => Isolated c.shared)
    (fun _ _ _ hc _ hs => traced_step hc hs) (fun _ _ _ hc hp hs => isolated_step_iff hc hp hs)
    hstart hiso hr

/-! ## Two tenants -/

/-- Product 2 of tenant 1 and product 12 of tenant 2. -/
def twoTenants : Store :=
  { emptyStore with
    nextID := 100
    products := ⟨[2, 12], fun id => ⟨"mug", "mug", 100, none, none, if id = 2 then 1 else 2⟩⟩ }

/-- User 1 gets cart 100 under tenant 1, puts a product into it and checks it out. -/
def shops (product tenant : String) : List Label :=
  ensures 0 (some "1") none ++ request 1 (.cart (.edit (.addItem "100" product none 1))) 5 ++
    request 2 (.checkout ⟨some "1", some tenant, "100", 0⟩) 6

/-- The tenants of the orders, of their carts and of their items' products. -/
def tenants (s : Store) : List (Nat × Option Nat × List (Option Nat)) :=
  s.orders.ids.map fun id =>
    let o := (s.orders.row id).committed
    (o.tenantID, o.cartID.bind (tenantOfCart s), (s.orderItems.filter fun it => it.orderID = id).map
      fun it => tenantOfProduct s it.productID)

theorem one_tenant_isolated :
    ∃ c, run (shopMachine numeralShop).step ⟨twoTenants, []⟩ (shops "2" "1") = some c ∧
      tenants c.shared = [(1, some 1, [some 1])] ∧ Isolated c.shared := by
  refine reaches_and (by decide +kernel) fun c hc _ => ?_
  have hall := (orders_isolated_iff numeralShop twoTenants ⟨fun _ => rfl, nofun⟩ ⟨nofun, nofun⟩
    nofun _ c hc).mpr (by decide +kernel)
  exact hall _ c (run_take_length hc)

/-- A product of another tenant is put into the cart; the cart is checked out under
another tenant. -/
theorem tenants_mixed :
    (∃ c, run (shopMachine numeralShop).step ⟨twoTenants, []⟩ (shops "12" "1") = some c ∧
      tenants c.shared = [(1, some 1, [some 2])] ∧ ¬Isolated c.shared) ∧
    ∃ c, run (shopMachine numeralShop).step ⟨twoTenants, []⟩ (shops "2" "2") = some c ∧
      tenants c.shared = [(2, some 1, [some 1])] ∧ ¬Isolated c.shared :=
  ⟨reaches (by decide +kernel), reaches (by decide +kernel)⟩

end TokoApi.Shop
