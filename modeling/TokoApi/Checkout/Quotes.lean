import TokoApi.Cart.Handlers
import TokoApi.Checkout.Exact
import TokoApi.Voucher.Grant

/-!
# The price that is shown and the price that is stored

`Get`, `QuoteTax` and `Create` each collect lines, discount and shipping for
`pricing.Compute` on their own. On one store, at one instant and with no call failing,
`Get` and `Create` evaluate the voucher to the same discount, so the order has the tax
that was shown and the shipping on top of the total. `QuoteTax` leaves the discount out, and
its answer is the same where the tax on the discount is lost in the rounding.
-/
namespace TokoApi.Checkout

open Db Cart Voucher Lib.Rows Lib.Runs Lib.Threads Lib.Wrap

/-- A handler of the cart, every call of which succeeds, while nothing else happens. -/
def answers (h : Cart.Handler) (r : Cart.HandlerRequest) (s : Store) (n : Nat) :
    Option (Store × Cart.HandlerThread) :=
  h.machine.alone 0 (s, h.machine.start r) (.replicate n .ok)

def places (svc : Service) (r : Input) (s : Store) (n : Nat) : Option (Store × Thread) :=
  run (fun p x => checkoutStep svc p.1 p.2 x) (s, start svc r) (.replicate n .ok)

def Service.handler (svc : Service) (currency : String) : Cart.Handler :=
  ⟨svc.cartSvc, svc.taxBps, currency⟩

variable {svc : Service} {h : Cart.Handler} {c : Nat} {s s' : Store} {a : EvalArgs}
  {pc pc' : EvalPc} {cart : Cart} {items : List CartItem} {t t' : Thread}

/-! ## The discount -/

def offer (svc : Cart.Service) (s : Store) (c : Nat) (cart : Cart) : Int :=
  granted svc s cart.userID (cart.appliedVoucherCode.getD "") ((listCartItems s c).map ruleLine)

theorem offer_of_no_code {svc : Cart.Service} (hcode : cart.appliedVoucherCode.getD "" = "") :
    offer svc s c cart = 0 := if_pos hcode

/-- The evaluation for a cart with lines, up to the voucher and from then on. -/
def Evaluates (svc : Cart.Service) (s : Store) (a : EvalArgs) : EvalPc → Prop
  | .listItems => True
  | .getVoucher items n => items = listCartItems s a.cartID ∧ n = subtotalOf items
  | pc => ahead s pc = granted svc s a.userID a.code ((listCartItems s a.cartID).map ruleLine)

theorem evaluates_iff {svc : Cart.Service} (hpast : pastVoucher pc = true) :
    Evaluates svc s a pc ↔
      ahead s pc = granted svc s a.userID a.code ((listCartItems s a.cartID).map ruleLine) := by
  cases pc <;> first | exact Iff.rfl | cases hpast

theorem evaluates_start {svc : Cart.Service} (hcode : a.code ≠ "") :
    Evaluates svc s a (evalStart a) := by
  rw [evalStart, if_neg hcode]
  trivial

theorem evaluates_step {svc : Cart.Service} (hcode : a.code ≠ "")
    (hlines : listCartItems s a.cartID ≠ []) (he : Evaluates svc s a pc)
    (hs : evalStep svc s a pc .ok = some pc') : Evaluates svc s a pc' := by
  by_cases hlist : pc = .listItems
  · subst hlist
    simp only [evalStep] at hs
    cases hs
    exact ⟨rfl, rfl⟩
  · apply (evaluates_iff (pastVoucher_step hlist hs)).mpr
    by_cases hpast : pastVoucher pc = true
    · rw [ahead_step hpast hs]
      exact (evaluates_iff hpast).mp he
    · cases pc with
      | getVoucher items n =>
        obtain ⟨rfl, rfl⟩ := he
        exact ahead_getVoucher hcode hs
      | listItems => exact absurd rfl hlist
      | _ => exact absurd rfl hpast

/-! ## Get and QuoteTax -/

/-- What `Get` has read of the cart, and what it answers. -/
def Shows (h : Cart.Handler) (s : Store) (c : Nat) : Cart.HandlerPc → Prop
  | .getCart id | .listTaxed id => id = c
  | .clock id cart | .listItems id cart => id = c ∧ getCartByID s c = some cart
  | .eval cart items a pc =>
    a = ⟨c, cart.userID, cart.appliedVoucherCode.getD ""⟩ ∧ getCartByID s c = some cart ∧
      a.code ≠ "" ∧ items = listCartItems s c ∧ Evaluates h.svc s a pc
  | .done (.cart view) => ∃ cart, getCartByID s c = some cart ∧
      view.pricing = compute (listCartItems s c) (offer h.svc s c cart) h.taxBps 0
  | .done (.tax amount) => amount = (compute (listCartItems s c) 0 h.taxBps 0).tax
  | .done _ => True
  | .edit _ | .apply _ _ => False

theorem shows_afterEval (ha : a = ⟨c, cart.userID, cart.appliedVoucherCode.getD ""⟩)
    (hcart : getCartByID s c = some cart) (hcode : a.code ≠ "")
    (he : Evaluates h.svc s a pc) : Shows h s c (h.afterEval cart (listCartItems s c) a pc) := by
  cases pc with
  | returned r =>
    subst ha
    have hoffer : amount (.returned r) = offer h.svc s c cart := he
    cases r <;> exact ⟨cart, hcart, by rw [← hoffer]; rfl⟩
  | _ => exact ⟨ha, hcart, hcode, rfl, he⟩

theorem shows_start {id : String} (hid : h.svc.toUUID id = .ok c) :
    Shows h s c (h.handlerStart (.get id)) ∧ Shows h s c (h.handlerStart (.quoteTax id)) := by
  simp only [Cart.Handler.handlerStart, Cart.Handler.onCart, hid]
  exact ⟨rfl, rfl⟩

theorem shows_step {t t' : Cart.HandlerThread} (hlines : listCartItems s c ≠ [])
    (hshow : Shows h s c t.pc) (hs : h.handlerStep s t .ok = some (s', t')) :
    s' = s ∧ Shows h s c t'.pc := by
  cases hpc : t.pc with
  | edit | apply =>
    rw [hpc] at hshow
    exact hshow.elim
  | getCart id =>
    rw [hpc] at hshow
    cases hshow
    simp only [Cart.Handler.handlerStep, hpc, Cart.Handler.getStep] at hs
    cases hcart : getCartByID s c with
    | none =>
      simp only [hcart] at hs
      cases hs
      exact ⟨rfl, trivial⟩
    | some cart =>
      simp only [hcart] at hs
      cases hs
      exact ⟨rfl, rfl, hcart⟩
  | clock id cart =>
    rw [hpc] at hshow
    simp only [Cart.Handler.handlerStep, hpc, Cart.Handler.getStep] at hs
    split at hs <;> cases hs
    · exact ⟨rfl, trivial⟩
    · exact ⟨rfl, hshow⟩
  | listItems id cart =>
    rw [hpc] at hshow
    obtain ⟨rfl, hcart⟩ := hshow
    simp only [Cart.Handler.handlerStep, hpc, Cart.Handler.getStep] at hs
    cases hs
    refine ⟨rfl, ?_⟩
    show Shows h s id (h.afterItems id cart (listCartItems s id))
    unfold Cart.Handler.afterItems
    split
    · rename_i hcode
      exact ⟨cart, hcart, by rw [offer_of_no_code hcode]⟩
    · rename_i hcode
      exact shows_afterEval rfl hcart hcode (evaluates_start hcode)
  | eval cart items a pc =>
    rw [hpc] at hshow
    obtain ⟨ha, hcart, hcode, rfl, he⟩ := hshow
    simp only [Cart.Handler.handlerStep, hpc, Cart.Handler.getStep] at hs
    obtain ⟨pc₁, hstep, hpair⟩ := Option.map_eq_some_iff.mp hs
    obtain ⟨pc', hev, rfl⟩ := Option.map_eq_some_iff.mp hstep
    cases hpair
    have hlines' : listCartItems s a.cartID ≠ [] := by rwa [ha]
    exact ⟨rfl, shows_afterEval ha hcart hcode (evaluates_step hcode hlines' he hev)⟩
  | listTaxed id =>
    rw [hpc] at hshow
    cases hshow
    simp only [Cart.Handler.handlerStep, hpc, Cart.Handler.getStep] at hs
    cases hs
    exact ⟨rfl, rfl⟩
  | done reply =>
    simp only [Cart.Handler.handlerStep, hpc, Cart.Handler.getStep] at hs
    cases hs

theorem answers_shows {r : Cart.HandlerRequest} {n : Nat} {t : Cart.HandlerThread}
    (hlines : listCartItems s c ≠ []) (hstart : Shows h s c (h.handlerStart r))
    (hr : answers h r s n = some (s', t)) : Shows h s c t.pc := by
  have hend := run_inv (I := fun p : Store × Cart.HandlerThread => p.1 = s ∧ Shows h s c p.2.pc)
    ?_ ⟨rfl, hstart⟩ (meets_of_forall (A := fun x => x = Call.ok) fun x hx =>
      List.eq_of_mem_replicate hx) hr
  · exact hend.2
  · rintro ⟨s₁, t₁⟩ x ⟨s₂, t₂⟩ ⟨hs₁, hshow⟩ rfl hs
    cases hs₁
    exact shows_step hlines hshow hs

/-! ## Create -/

def PricedAs (svc : Service) (s : Store) (c : Nat) (shipping : Int) (cart : Cart) (o : Order) : Prop :=
  o.pricingTax =
      (compute (listCartItems s c) (offer svc.cartSvc s c cart) svc.taxBps (max 0 shipping)).tax ∧
    o.pricingTotal =
      (compute (listCartItems s c) (offer svc.cartSvc s c cart) svc.taxBps (max 0 shipping)).total

/-- What `Create` has read of the cart, and what it writes. -/
def Collects (svc : Service) (s : Store) (t : Thread) : Prop :=
  match t.pc with
  | .listItems cart => getCartByID s t.ids.cart = some cart
  | .getCartAgain cart items =>
    getCartByID s t.ids.cart = some cart ∧ cart.appliedVoucherCode.getD "" ≠ "" ∧
      listCartItems s t.ids.cart ≠ [] ∧ items = listCartItems s t.ids.cart
  | .eval cart items a pc =>
    a = ⟨t.ids.cart, cart.userID, cart.appliedVoucherCode.getD ""⟩ ∧
      getCartByID s t.ids.cart = some cart ∧ a.code ≠ "" ∧ listCartItems s t.ids.cart ≠ [] ∧
      items = listCartItems s t.ids.cart ∧ Evaluates svc.cartSvc s a pc
  | .createOrder cart items discount =>
    getCartByID s t.ids.cart = some cart ∧ listCartItems s t.ids.cart ≠ [] ∧
      items = listCartItems s t.ids.cart ∧ discount = offer svc.cartSvc s t.ids.cart cart
  | .createItem order _ _ | .commit order _ =>
    listCartItems s t.ids.cart ≠ [] ∧
      ∃ cart, getCartByID s t.ids.cart = some cart ∧
        PricedAs svc s t.ids.cart t.shippingPrice cart order
  | _ => True

theorem collects_afterEval
    (ha : a = ⟨t.ids.cart, cart.userID, cart.appliedVoucherCode.getD ""⟩)
    (hcart : getCartByID s t.ids.cart = some cart) (hcode : a.code ≠ "")
    (hlines : listCartItems s t.ids.cart ≠ []) (he : Evaluates svc.cartSvc s a pc) :
    Collects svc s (t.goto (afterEval cart (listCartItems s t.ids.cart) a pc)) := by
  cases pc with
  | returned r =>
    subst ha
    have hoffer : amount (.returned r) = offer svc.cartSvc s t.ids.cart cart := he
    cases r <;> exact ⟨hcart, hlines, rfl, hoffer⟩
  | _ => exact ⟨ha, hcart, hcode, hlines, rfl, he⟩

theorem collects_afterItem {order : Order} (done rest : List OrderItem)
    (ho : Collects svc s (t.goto (.commit order done))) :
    Collects svc s (t.goto (afterItem order done rest)) := by
  unfold afterItem
  split <;> exact ho

def Placed (svc : Service) (s s' : Store) (t : Thread) : Prop :=
  ∀ id ∈ t.pc.placed, listCartItems s t.ids.cart ≠ [] ∧ ∃ cart,
    getCartByID s t.ids.cart = some cart ∧
      PricedAs svc s t.ids.cart t.shippingPrice cart (s'.orders.row id).committed

theorem placed_of_none (hnone : t.pc.placed = none) : Placed svc s s' t := by
  intro id hid
  rw [hnone] at hid
  cases hid

theorem collects_step (hcollect : Collects svc s t)
    (hs : checkoutStep svc s t .ok = some (s', t')) :
    Placed svc s s' t' ∧ (s' = s ∧ Collects svc s t' ∨ ∃ r, t'.pc = .returned r) := by
  obtain ⟨pc, rfl, he⟩ := checkoutStep_executes hs
  unfold Collects at hcollect
  cases he with
  | fails | begins => exact ⟨placed_of_none rfl, .inl ⟨rfl, trivial⟩⟩
  | getsCart _ hcart => exact ⟨placed_of_none rfl, .inl ⟨rfl, hcart⟩⟩
  | listsItems hpc hne =>
    rw [hpc] at hcollect
    refine ⟨placed_of_none (afterItems_lines _ _).2.2, .inl ⟨rfl, ?_⟩⟩
    unfold afterItems
    split
    · rename_i hcode
      exact ⟨hcollect, hne, rfl, (offer_of_no_code hcode).symm⟩
    · rename_i hcode
      exact ⟨hcollect, hcode, hne, rfl⟩
  | skipsVoucher hpc hnone =>
    rw [hpc] at hcollect
    have hgone := hnone rfl
    rw [hcollect.1] at hgone
    cases hgone
  | @getsCartAgain cart now items hpc hnow =>
    rw [hpc] at hcollect
    obtain ⟨hcart, hcode, hne, rfl⟩ := hcollect
    obtain rfl : cart = now := Option.some.inj (hcart.symm.trans hnow)
    exact ⟨placed_of_none (afterEval_lines _ _ _ _).2.2,
      .inl ⟨rfl, collects_afterEval rfl hcart hcode hne (evaluates_start hcode)⟩⟩
  | evaluates hpc hev =>
    rw [hpc] at hcollect
    obtain ⟨ha, hcart, hcode, hne, rfl, he⟩ := hcollect
    have hnext := evaluates_step hcode (by rwa [ha]) he hev
    exact ⟨placed_of_none (afterEval_lines _ _ _ _).2.2,
      .inl ⟨rfl, collects_afterEval ha hcart hcode hne hnext⟩⟩
  | @creates cart items discount hpc =>
    rw [hpc] at hcollect
    obtain ⟨hcart, hne, rfl, rfl⟩ := hcollect
    exact ⟨placed_of_none (afterItem_written _ _ _).2.2,
      .inl ⟨rfl, collects_afterItem _ _ ⟨hne, cart, hcart, rfl, rfl⟩⟩⟩
  | createsItem hpc =>
    rw [hpc] at hcollect
    exact ⟨placed_of_none (afterItem_written _ _ _).2.2,
      .inl ⟨rfl, collects_afterItem _ _ hcollect⟩⟩
  | createsNone hpc =>
    rw [hpc] at hcollect
    exact ⟨placed_of_none rfl, .inl ⟨rfl, hcollect⟩⟩
  | @commits order items hpc =>
    rw [hpc] at hcollect
    refine ⟨fun id hid => ?_, .inr ⟨_, rfl⟩⟩
    cases hid
    have hrow : ((createOrder s order items).orders.row s.nextID).committed = order := by
      simp [createOrder, Table.insert, Row.free]
    show _ ∧ ∃ cart, _ ∧ PricedAs svc s t.ids.cart t.shippingPrice cart _
    rw [hrow]
    exact hcollect

/-- The call works on the cart and the shipping price of the request, or it has not begun. -/
def Named (svc : Service) (r : Input) (t : Thread) : Prop :=
  (svc.cartSvc.toUUID r.cartID = .ok t.ids.cart ∧ t.shippingPrice = r.shippingPrice) ∨
    ∃ err, t.pc = .returned (.error err)

theorem parseIds_cart {r : Input} {ids : Ids} (hids : parseIds svc r = .ok ids) :
    svc.cartSvc.toUUID r.cartID = .ok ids.cart := by
  unfold parseIds at hids
  split at hids
  · cases hids
  · split at hids
    · cases hids
    · split at hids
      · cases hids
      · obtain ⟨tenant, _, hids⟩ := bind_eq_ok hids
        obtain ⟨cart, hcart, hids⟩ := bind_eq_ok hids
        obtain ⟨user, _, hids⟩ := bind_eq_ok hids
        cases hids
        cases huuid : svc.cartSvc.toUUID r.cartID with
        | error err => simp [huuid] at hcart
        | ok cart' => simpa [huuid] using hcart

theorem places_placed {r : Input} {n : Nat} (hr : places svc r s n = some (s', t)) :
    Placed svc s s' t ∧ Named svc r t := by
  have hend := run_inv
    (I := fun p : Store × Thread => Placed svc s p.1 p.2 ∧ Named svc r p.2 ∧
      (p.1 = s ∧ Collects svc s p.2 ∨ ∃ r, p.2.pc = .returned r))
    ?_ ?_ (meets_of_forall (A := fun x => x = Call.ok) fun x hx => List.eq_of_mem_replicate hx) hr
  · exact ⟨hend.1, hend.2.1⟩
  · rintro ⟨s₁, t₁⟩ x ⟨s₂, t₂⟩ ⟨_, hnamed, hgo⟩ rfl hs
    have hrunning : ∀ res, t₁.pc ≠ .returned res := by
      intro res hpc
      simp only [checkoutStep, hpc] at hs
      cases hs
    obtain ⟨hs₁, hcollect⟩ | ⟨res, hpc⟩ := hgo
    · cases hs₁
      obtain ⟨pc, rfl, _⟩ := checkoutStep_executes hs
      obtain ⟨hplaced, hnext⟩ := collects_step hcollect hs
      refine ⟨hplaced, .inl (hnamed.resolve_right ?_), hnext⟩
      rintro ⟨err, hpc⟩
      exact hrunning _ hpc
    · exact absurd hpc (hrunning res)
  · unfold start
    split
    · exact ⟨placed_of_none rfl, .inr ⟨_, rfl⟩, .inr ⟨_, rfl⟩⟩
    · rename_i ids hids
      exact ⟨placed_of_none rfl, .inl ⟨parseIds_cart hids, rfl⟩, .inl ⟨rfl, trivial⟩⟩

/-! ## The three prices -/

theorem compute_shipping (lines : List CartItem) (discount taxBps shipping : Int) :
    (compute lines discount taxBps shipping).tax = (compute lines discount taxBps 0).tax ∧
      (compute lines discount taxBps shipping).total =
        int64 ((compute lines discount taxBps 0).total + shipping) := by
  refine ⟨rfl, ?_⟩
  simp only [compute, int64_add_int64, Int.add_zero]

/-- Lines whose value and whose tax fit into 64 bits. -/
structure Taxable (lines : List CartItem) (taxBps : Int) : Prop where
  qty : ∀ it ∈ lines, 1 ≤ it.qty
  price : ∀ it ∈ lines, 0 ≤ it.unitPrice
  rate : 0 ≤ taxBps
  value : itemsValue lines < 2 ^ 63
  taxed : itemsValue lines * taxBps < 2 ^ 63

theorem tax_eq {lines : List CartItem} {discount taxBps : Int} (h : Taxable lines taxBps)
    (hdiscount : 0 ≤ discount) : (compute lines discount taxBps 0).tax =
      (itemsValue lines * taxBps - min discount (itemsValue lines) * taxBps) / 10000 := by
  have hvalue := itemsValue_nonneg h.qty h.price
  have hrange : 0 ≤ taxableValue lines discount ∧ taxableValue lines discount ≤ itemsValue lines := by
    unfold taxableValue
    omega
  have hle := Int.mul_le_mul_of_nonneg_right hrange.2 h.rate
  have htaxed := h.taxed
  rw [compute_of_subtotal h.qty hvalue hdiscount h.value, ← Int.sub_mul, ← taxableValue]
  exact (basisPoints_exact_iff (Int.mul_nonneg hrange.1 h.rate)).mpr (by omega)

theorem tax_undiscounted_iff {lines : List CartItem} {discount taxBps : Int} (h : Taxable lines taxBps)
    (hdiscount : 0 ≤ discount) :
    (compute lines 0 taxBps 0).tax = (compute lines discount taxBps 0).tax ↔
      min discount (itemsValue lines) * taxBps ≤ itemsValue lines * taxBps % 10000 := by
  have hvalue := itemsValue_nonneg h.qty h.price
  have hmin : min 0 (itemsValue lines) = 0 := Int.min_eq_left hvalue
  have hless : 0 ≤ min discount (itemsValue lines) * taxBps :=
    Int.mul_nonneg (Int.le_min.mpr ⟨hdiscount, hvalue⟩) h.rate
  rw [tax_eq h le_rfl, tax_eq h hdiscount, hmin, Int.zero_mul, Int.sub_zero]
  omega

/-- On one store and at one instant, with no call failing, for a cart with these lines and the
discount that its voucher grants on them: the order has the tax that `Get` shows, and its total
is the one shown plus the shipping exactly if that sum fits into 64 bits. `QuoteTax` answers
that tax exactly if the taxes with and without the discount are the same, which for lines that
fit is that the rounding loses the tax on the discount. -/
theorem prices_agree (svc : Service) (currency : String) (r : Input) (s s₁ s₂ s₃ : Store)
    (n m k id c : Nat) (cart : Cart) (status : OrderStatus) (view : Cart.CartView) (quote : Int)
    (t : Thread) (hid : svc.cartSvc.toUUID r.cartID = .ok c) (hcart : getCartByID s c = some cart)
    (hget : answers (svc.handler currency) (.get r.cartID) s n =
      some (s₁, ⟨.get r.cartID, .done (.cart view)⟩))
    (hquote : answers (svc.handler currency) (.quoteTax r.cartID) s m =
      some (s₂, ⟨.quoteTax r.cartID, .done (.tax quote)⟩))
    (hplace : places svc r s k = some (s₃, t)) (hpc : t.pc = .returned (.ok (id, status))) :
    let lines := listCartItems s c
    let discount := offer svc.cartSvc s c cart
    (s₃.orders.row id).committed.pricingTax = view.pricing.tax ∧
      ((s₃.orders.row id).committed.pricingTotal = view.pricing.total + max r.shippingPrice 0 ↔
        (compute lines discount svc.taxBps 0).total + max r.shippingPrice 0 < 2 ^ 63) ∧
      (quote = view.pricing.tax ↔
        (compute lines 0 svc.taxBps 0).tax = (compute lines discount svc.taxBps 0).tax) ∧
      (Taxable lines svc.taxBps → (quote = view.pricing.tax ↔
        min discount (itemsValue lines) * svc.taxBps ≤ itemsValue lines * svc.taxBps % 10000)) := by
  obtain ⟨hplaced, hnamed⟩ := places_placed hplace
  obtain ⟨hid', hprice⟩ : svc.cartSvc.toUUID r.cartID = .ok t.ids.cart ∧
      t.shippingPrice = r.shippingPrice := by
    refine hnamed.resolve_right ?_
    rintro ⟨err, herr⟩
    rw [hpc] at herr
    cases herr
  obtain rfl : t.ids.cart = c := Except.ok.inj (hid'.symm.trans hid)
  obtain ⟨hlines, cart₁, hcart₁, htax, htotal⟩ := hplaced id (by rw [hpc]; rfl)
  obtain rfl : cart₁ = cart := Option.some.inj (hcart₁.symm.trans hcart)
  have hstart := shows_start (h := svc.handler currency) (s := s) hid
  obtain ⟨cart₂, hcart₂, hview⟩ : ∃ cart', getCartByID s t.ids.cart = some cart' ∧ view.pricing =
      compute (listCartItems s t.ids.cart) (offer svc.cartSvc s t.ids.cart cart') svc.taxBps 0 :=
    answers_shows hlines hstart.1 hget
  obtain rfl : cart₂ = cart₁ := Option.some.inj (hcart₂.symm.trans hcart)
  have hquoted : quote = (compute (listCartItems s t.ids.cart) 0 svc.taxBps 0).tax :=
    answers_shows hlines hstart.2 hquote
  have hship := compute_shipping (listCartItems s t.ids.cart)
    (offer svc.cartSvc s t.ids.cart cart₂) svc.taxBps (max 0 t.shippingPrice)
  rw [← htax, ← htotal, hprice, Int.max_comm] at hship
  intro lines discount
  rw [hview, hquoted]
  refine ⟨hship.1, ?_, Iff.rfl, fun hfits => tax_undiscounted_iff hfits (granted_nonneg ..)⟩
  rw [hship.2, int64_eq_self_iff]
  have hnonneg : 0 ≤ max r.shippingPrice 0 := Int.le_max_right _ _
  have hlow : -2 ^ 63 ≤ (compute lines discount svc.taxBps 0).total := (int64_range _).1
  constructor
  · exact And.right
  · exact fun hfits => ⟨Int.le_trans hlow (Int.le_add_of_nonneg_right hnonneg), hfits⟩

/-! ## A cart with a voucher -/

/-- Cart 11 of user 1 holds two mugs at 500 and carries the code of a voucher. -/
def savingCart (code : Option String) : Store :=
  { emptyStore with
    nextID := 30
    carts := ⟨[11], fun _ => ⟨some 1, none, code, 0, none, 1⟩⟩
    cartItems := [⟨20, 11, 5, none, "Mug", "mug", 2, 500, 1000⟩]
    vouchers := ⟨[9], fun _ =>
      ⟨"SAVE", .fixedAmount, 100, none, 0, none, none, 0, none, none, [], [], []⟩⟩ }

def taxed : Service where
  cartSvc := ⟨0, 0, none, fun id => match id with
    | "1" => .ok 1
    | "11" => .ok 11
    | _ => .error "invalid UUID length"⟩
  taxBps := 1100

def buys (shipping : Int) : Input := ⟨some "1", some "1", "11", shipping⟩

/-- The tax and the total that `Get` shows, the quote, and tax and total of the order. -/
def prices (code : Option String) (shipping : Int) : Option ((Int × Int) × Int × Int × Int) := do
  let got ← answers (taxed.handler "IDR") (.get "11") (savingCart code) (if code.isNone then 3 else 5)
  let quoted ← answers (taxed.handler "IDR") (.quoteTax "11") (savingCart code) 1
  let placed ← places taxed (buys shipping) (savingCart code) (if code.isNone then 6 else 9)
  match got.2.pc, quoted.2.pc, placed.2.pc with
  | .done (.cart view), .done (.tax quote), .returned (.ok (id, _)) =>
    let o := (placed.1.orders.row id).committed
    some ((view.pricing.tax, view.pricing.total), quote, o.pricingTax, o.pricingTotal)
  | _, _, _ => none

/-- At one basis point the three agree also with a voucher of 100. -/
theorem untaxed_prices_agree :
    let low := { taxed with taxBps := 1 }
    ∃ view p, answers (low.handler "IDR") (.get "11") (savingCart (some "SAVE")) 5 =
        some (savingCart (some "SAVE"), ⟨.get "11", .done (.cart view)⟩) ∧
      places low (buys 50) (savingCart (some "SAVE")) 9 = some p ∧ view.pricing.discount = 100 ∧
      (p.1.orders.row 30).committed.pricingTax = view.pricing.tax ∧ 0 = view.pricing.tax ∧
      (p.1.orders.row 30).committed.pricingTotal = view.pricing.total + 50 := by
  intro low
  have hget : answers (low.handler "IDR") (.get "11") (savingCart (some "SAVE")) 5 =
      some (savingCart (some "SAVE"), ⟨.get "11", .done (.cart ⟨11, none, some "SAVE",
        listCartItems (savingCart (some "SAVE")) 11, ⟨1000, 100, 0, 0, 900⟩, "IDR"⟩)⟩) := rfl
  have hquote : answers (low.handler "IDR") (.quoteTax "11") (savingCart (some "SAVE")) 1 =
      some (savingCart (some "SAVE"), ⟨.quoteTax "11", .done (.tax 0)⟩) := rfl
  obtain ⟨p, hp, hpc⟩ := reaches
    (P := fun p : Store × Thread => p.2.pc = .returned (.ok (30, .pendingPayment)))
    (o := places low (buys 50) (savingCart (some "SAVE")) 9) (by decide +kernel)
  obtain ⟨htax, htotal, _, hquoted⟩ := prices_agree low "IDR" (buys 50) _ _ _ p.1 5 1 9 30 11
    ⟨some 1, none, some "SAVE", 0, none, 1⟩ _ _ 0 p.2 rfl rfl hget hquote hp hpc
  have hfits : Taxable (listCartItems (savingCart (some "SAVE")) 11) 1 := by
    constructor <;> decide
  exact ⟨_, p, hget, hp, rfl, htax, (hquoted hfits).mpr (by decide +kernel), htotal.mpr (by decide +kernel)⟩

/-- With a voucher of 100 the quote has a tax on the full price; and a shipping price near
the end of the range makes the total of the order negative. -/
theorem quoted_tax_differs :
    prices (some "SAVE") 50 = some ((99, 999), 110, 99, 1049) ∧
      prices none (2 ^ 63 - 1) = some ((110, 1110), 110, 110, 1110 - 2 ^ 63 - 1) := by
  decide +kernel

end TokoApi.Checkout
