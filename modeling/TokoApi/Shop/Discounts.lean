import TokoApi.Voucher.Grant
import TokoApi.Shop.Orders

/-!
# The discount of an order

`Create` reads the lines of the cart in its transaction, and `EvaluateVoucher` reads
them once more on the pool. Requests that edit the cart come in between, so the discount
may be that of other lines than the order has. It is what the voucher grants on the
order's own items where the two readings agree, no call of the evaluation fails and the
rule grants no more than `Compute` sums up, which has then no need to reduce it.
-/
namespace TokoApi.Shop

open Db Cart Voucher Lib.Rows Lib.Threads Lib.Runs

/-- Requests that check out or edit carts. -/
def Request.shopping : Request → Bool
  | .checkout _ | .cart (.edit _) => true
  | _ => false

def Shopping : Label → Prop
  | .spawn r => r.shopping = true
  | _ => True

instance (l) : Decidable (Shopping l) := by
  unfold Shopping
  split <;> infer_instance

def Thread.shopping : Thread → Bool
  | .checkout _ | .cart (.edit _ _) => true
  | _ => false

/-- The two readings of the cart agree as far as the rule goes, no call of the
evaluation fails, and what the rule grants on the lines is not more than they come to. -/
def steady (svc : Cart.Service) (s : Store) (x : Call) : Checkout.Pc → Bool
  | .getCartAgain _ _ => x = .ok
  | .eval _ items a .listItems =>
    x = .ok && (listCartItems s a.cartID).map ruleLine = items.map ruleLine
  | .eval _ items a (.getVoucher _ _) =>
    x = .ok && granted svc s a.userID a.code (items.map ruleLine) ≤ items.foldl Checkout.lineTotal 0
  | .eval _ _ _ _ => x = .ok
  | .createOrder _ items _ => x ≠ .ok || 0 ≤ items.foldl Checkout.lineTotal 0
  | _ => true

def Steady (cfg : Config) (c : State) : Label → Prop
  | .act i x => ∀ t ∈ c.threads[i]?.bind Thread.checkout?,
    steady cfg.checkout.cartSvc c.shared x t.pc = true
  | _ => True

instance (cfg : Config) (c : State) (l) : Decidable (Steady cfg c l) := by
  cases l <;> dsimp only [Steady] <;> infer_instance

def ownerOf (s : Store) (cart : Nat) : Option Nat := (s.carts.row cart).userID

def voucherCode (code : Option String) : String := code.getD ""

/-- Thread `i` is a checkout whose evaluation is about to read the voucher. -/
def Evaluating (i : Nat) (u : State) : Prop :=
  ∃ t cart items a lines n, u.threads[i]? = some (.checkout t) ∧
    t.pc = .eval cart items a (.getVoucher lines n)

/-- The discount is what the voucher grants on the lines when the call evaluates it; an
order without a voucher is not evaluated. -/
def Quoted (V : State → Prop) (svc : Cart.Service) (i cart : Nat) (code : String)
    (lines : List RuleLine) (discount : Int) : Prop :=
  ∃ u, V u ∧ (code ≠ "" → Evaluating i u) ∧
    discount = granted svc u.shared (ownerOf u.shared cart) code lines

def itemLine (it : OrderItem) : RuleLine := (it.productID, it.subtotal)

variable {cfg : Config} {svc : Checkout.Service} {i j : Nat} {s₀ s s' : Store} {t t' : Thread}
  {x : Call} {c d : State} {a : Label} {V : State → Prop}

/-! ## What stays as it is -/

/-- The tables of the rule, and the owners of the carts. -/
structure Settled (s₀ s : Store) : Prop where
  filed : Filed s
  vouchers : s.vouchers = s₀.vouchers
  usages : s.usages = s₀.usages
  products : s.products = s₀.products
  carts : s.carts.ids = s₀.carts.ids
  owners : ∀ k, ownerOf s k = ownerOf s₀ k

theorem ownerOf_set {id : Nat} {cart : Cart} (h : cart.userID = ownerOf s id) (k : Nat) :
    ownerOf { s with carts := s.carts.set id cart } k = ownerOf s k := by
  unfold ownerOf
  by_cases hk : k = id
  · subst hk
    simp only [Table.set_row_self]
    exact h
  · simp only [Table.set_row_ne _ _ hk]

theorem edit_carts {pc : EditPc} (h : Cart.Outcome s pc.write x s') :
    s'.carts.ids = s.carts.ids ∧ ∀ k, ownerOf s' k = ownerOf s k := by
  cases h with
  | @done v _ hw _ hs =>
    cases v with
    | setLine id qty subtotal =>
      obtain ⟨_, _, rfl⟩ := updateCartItemQty_inv hs
      exact ⟨rfl, fun _ => rfl⟩
    | addLine item =>
      obtain ⟨_, _, rfl⟩ := createCartItem_inv hs
      exact ⟨rfl, fun _ => rfl⟩
    | dropLine id cart =>
      cases hs
      exact ⟨rfl, fun _ => rfl⟩
    | touch id expires =>
      cases hs
      unfold touchCart
      split
      · exact ⟨rfl, ownerOf_set rfl⟩
      · exact ⟨rfl, fun _ => rfl⟩
    | setVoucher id code =>
      cases hs
      unfold updateCartVoucher
      split
      · exact ⟨rfl, ownerOf_set rfl⟩
      · exact ⟨rfl, fun _ => rfl⟩
    | newCart userID anonID expires tenant | transfer id user => cases pc <;> cases hw
  | refused _ _ _ | none _ => exact ⟨rfl, fun _ => rfl⟩

theorem settled_step (hs : Settled s₀ s) (ht : t.shopping = true)
    (h : shopStep cfg i s t x = some (s', t')) : Settled s₀ s' ∧ t'.shopping = true := by
  have hfiled := filed_step hs.filed h
  cases t with
  | checkout u =>
    obtain ⟨u', hstep, rfl⟩ := lifted_inv h
    refine ⟨?_, rfl⟩
    obtain rfl | ⟨o, items, _, _, rfl⟩ := Checkout.checkoutStep_inv hstep
    · exact hs
    · exact ⟨hfiled, hs.vouchers, hs.usages, hs.products, hs.carts, hs.owners⟩
  | cart u =>
    obtain ⟨u', hstep, rfl⟩ := lifted_inv h
    cases u with
    | edit r pc =>
      obtain ⟨pc', hedit, rfl⟩ := lifted_inv hstep
      have hout := edit_outcome hedit
      obtain ⟨hids, howners⟩ := edit_carts hout
      have hframe := hout.frame.1
      refine ⟨⟨hfiled, ?_, ?_, ?_, hids.trans hs.carts, fun k => (howners k).trans (hs.owners k)⟩, rfl⟩
      · rw [hframe]
        exact hs.vouchers
      · rw [hframe]
        exact hs.usages
      · rw [hframe]
        exact hs.products
    | _ => cases ht
  | _ => cases ht

/-! ## The evaluation -/

/-- The discount of an order is quoted for its items. -/
def QuotedFor (V : State → Prop) (svc : Cart.Service) (i cart : Nat) (o : Order)
    (items : List OrderItem) : Prop :=
  Quoted V svc i cart (voucherCode o.appliedVoucherCode) (items.map itemLine) o.pricingDiscount

/-- An evaluation on the lines, until it has read the voucher and from then on. -/
def Underway (V : State → Prop) (svc : Cart.Service) (i : Nat) (s₀ : Store) (a : EvalArgs)
    (items : List CartItem) : EvalPc → Prop
  | .listItems => True
  | .getVoucher lines n => lines.map ruleLine = items.map ruleLine ∧ n = subtotalOf lines
  | pc => Quoted V svc i a.cartID a.code (items.map ruleLine) (ahead s₀ pc) ∧
    ahead s₀ pc ≤ items.foldl Checkout.lineTotal 0

theorem underway_iff {a : EvalArgs} {items : List CartItem} {pc : EvalPc} {svc : Cart.Service}
    (h : pastVoucher pc = true) :
    Underway V svc i s₀ a items pc ↔
      Quoted V svc i a.cartID a.code (items.map ruleLine) (ahead s₀ pc) ∧
        ahead s₀ pc ≤ items.foldl Checkout.lineTotal 0 := by
  cases pc <;> first | exact Iff.rfl | cases h

theorem underway_step {a : EvalArgs} {items : List CartItem} {pc pc' : EvalPc} {svc : Cart.Service}
    (hs : Settled s₀ c.shared) (hV : V c) (howner : a.userID = ownerOf s₀ a.cartID)
    (hcode : a.code ≠ "") (hitems : items ≠ [])
    (hread : pc = .listItems → (listCartItems c.shared a.cartID).map ruleLine = items.map ruleLine)
    (hvoucher : ∀ lines n, pc = .getVoucher lines n → Evaluating i c ∧
      granted svc c.shared a.userID a.code (items.map ruleLine) ≤ items.foldl Checkout.lineTotal 0)
    (hu : Underway V svc i s₀ a items pc) (h : evalStep svc c.shared a pc .ok = some pc') :
    Underway V svc i s₀ a items pc' := by
  by_cases hlist : pc = .listItems
  · subst hlist
    have hsame := hread rfl
    simp only [evalStep] at h
    split at h
    · rename_i hnil
      rw [hnil, List.map_nil, eq_comm, List.map_eq_nil_iff] at hsame
      exact absurd hsame hitems
    · cases h
      exact ⟨hsame, rfl⟩
  · refine (underway_iff (pastVoucher_step hlist h)).mpr ?_
    by_cases hpast : pastVoucher pc = true
    · rw [← ahead_congr hs.products hs.usages, ahead_step hpast h,
        ahead_congr hs.products hs.usages]
      exact (underway_iff hpast).mp hu
    · cases pc with
      | getVoucher lines n =>
        obtain ⟨hlines, rfl⟩ := hu
        obtain ⟨hevaluating, hbound⟩ := hvoucher _ _ rfl
        rw [← ahead_congr hs.products hs.usages, ahead_getVoucher hcode h, hlines]
        refine ⟨⟨c, hV, fun _ => hevaluating, ?_⟩, hbound⟩
        rw [howner, hs.owners]
      | listItems => exact absurd rfl hlist
      | _ => exact absurd rfl hpast

/-! ## The calls -/

/-- What a checkout relies on until it has committed. -/
def Pending (V : State → Prop) (svc : Cart.Service) (i : Nat) (s₀ : Store) (cart : Nat) :
    Checkout.Pc → Prop
  | .listItems _ => cart ∈ s₀.carts.ids
  | .getCartAgain row items =>
    cart ∈ s₀.carts.ids ∧ voucherCode row.appliedVoucherCode ≠ "" ∧ items ≠ []
  | .eval row items a pc =>
    a = ⟨cart, ownerOf s₀ cart, voucherCode row.appliedVoucherCode⟩ ∧ a.code ≠ "" ∧ items ≠ [] ∧
      Underway V svc i s₀ a items pc
  | .createOrder row items discount =>
    Quoted V svc i cart (voucherCode row.appliedVoucherCode) (items.map ruleLine) discount ∧
      (discount = 0 ∨ discount ≤ items.foldl Checkout.lineTotal 0)
  | .createItem order done rest => QuotedFor V svc i cart order (done ++ rest)
  | .commit order items => QuotedFor V svc i cart order items
  | _ => True

structure Quoting (V : State → Prop) (svc : Cart.Service) (i : Nat) (s₀ s : Store)
    (t : Checkout.Thread) : Prop where
  pending : Pending V svc i s₀ t.ids.cart t.pc
  placed : ∀ id ∈ t.pc.placed, id ∈ s.orders.ids ∧
    QuotedFor V svc i t.ids.cart (s.orders.row id).committed (itemsOf s id)

theorem pending_afterItem {svc : Cart.Service} {cart : Nat} {order : Order}
    {done rest : List OrderItem} (h : QuotedFor V svc i cart order (done ++ rest)) :
    Pending V svc i s₀ cart (Checkout.afterItem order done rest) := by
  unfold Checkout.afterItem
  split
  · rwa [List.append_nil] at h
  · exact h

theorem pending_afterEval {svc : Cart.Service} {a : EvalArgs} {cart : Nat} {row : Cart}
    {items : List CartItem} {pc : EvalPc}
    (ha : a = ⟨cart, ownerOf s₀ cart, voucherCode row.appliedVoucherCode⟩) (hcode : a.code ≠ "")
    (hitems : items ≠ []) (hu : Underway V svc i s₀ a items pc) :
    Pending V svc i s₀ cart (Checkout.afterEval row items a pc) := by
  have hgo : Pending V svc i s₀ cart (.eval row items a pc) := ⟨ha, hcode, hitems, hu⟩
  cases pc with
  | returned r =>
    subst ha
    cases r <;> exact ⟨hu.1, .inr hu.2⟩
  | _ => exact hgo

theorem pending_step {u u' : Checkout.Thread} (hs : Settled s₀ c.shared) (hV : V c)
    (hu : c.threads[i]? = some (.checkout u)) (hsteady : steady svc.cartSvc c.shared x u.pc = true)
    (hp : Pending V svc.cartSvc i s₀ u.ids.cart u.pc)
    (h : Checkout.checkoutStep svc c.shared u x = some (s', u')) :
    Pending V svc.cartSvc i s₀ u'.ids.cart u'.pc := by
  obtain ⟨pc, rfl, he⟩ := Checkout.checkoutStep_executes h
  show Pending V svc.cartSvc i s₀ u.ids.cart pc
  cases he with
  | fails | begins | commits => trivial
  | getsCart _ hrow =>
    have hmem := (Table.get?_eq_some.mp hrow).1
    rw [hs.carts] at hmem
    exact hmem
  | listsItems hpc hne =>
    rw [hpc] at hp
    unfold Checkout.afterItems
    split
    · rename_i hnone
      exact ⟨⟨c, hV, fun hsome => absurd hnone hsome, (if_pos hnone).symm⟩, .inl rfl⟩
    · rename_i hsome
      exact ⟨hp, hsome, hne⟩
  | skipsVoucher hpc hnone =>
    rw [hpc] at hp hsteady
    have hgone : getCartByID c.shared u.ids.cart = none := hnone (of_decide_eq_true hsteady)
    have hget : getCartByID c.shared u.ids.cart = some (c.shared.carts.row u.ids.cart) :=
      Table.get?_eq_some.mpr ⟨hs.carts ▸ hp.1, rfl⟩
    rw [hgone] at hget
    cases hget
  | @getsCartAgain row now items hpc hnow =>
    rw [hpc] at hp
    obtain ⟨hcart, hcode, hitems⟩ := hp
    obtain ⟨_, rfl⟩ := Table.get?_eq_some.mp hnow
    refine pending_afterEval ?_ hcode hitems ?_
    · exact congrArg (EvalArgs.mk u.ids.cart · _) (hs.owners u.ids.cart)
    · have hfirst : evalStart ⟨u.ids.cart, (c.shared.carts.row u.ids.cart).userID,
          row.appliedVoucherCode.getD ""⟩ = .listItems := if_neg hcode
      rw [hfirst]
      trivial
  | @evaluates row items a pc _ hpc hstep =>
    rw [hpc] at hp hsteady
    obtain ⟨ha, hcode, hitems, hunder⟩ := hp
    have hx : x = .ok ∧ (pc = .listItems →
        (listCartItems c.shared a.cartID).map ruleLine = items.map ruleLine) ∧
        ∀ lines n, pc = .getVoucher lines n → granted svc.cartSvc c.shared a.userID a.code
          (items.map ruleLine) ≤ items.foldl Checkout.lineTotal 0 := by
      cases pc with
      | listItems | getVoucher lines n =>
        simp only [steady, Bool.and_eq_true, decide_eq_true_eq] at hsteady
        simp [hsteady]
      | _ =>
        simp only [steady, decide_eq_true_eq] at hsteady
        exact ⟨hsteady, nofun, nofun⟩
    obtain ⟨rfl, hread, hbound⟩ := hx
    refine pending_afterEval ha hcode hitems ?_
    refine underway_step hs hV (by rw [ha]) hcode hitems hread (fun lines n he => ?_) hunder hstep
    exact ⟨⟨u, row, items, a, lines, n, hu, by rw [hpc, he]⟩, hbound lines n he⟩
  | @creates row items discount hpc hx =>
    subst hx
    rw [hpc] at hp hsteady
    refine pending_afterItem ?_
    obtain ⟨hquoted, hdiscount⟩ : Quoted V svc.cartSvc i u.ids.cart (voucherCode row.appliedVoucherCode)
      (items.map ruleLine) discount ∧ (discount = 0 ∨ discount ≤ items.foldl Checkout.lineTotal 0) := hp
    have htotal : 0 ≤ items.foldl Checkout.lineTotal 0 := by simpa [steady] using hsteady
    have hkept : (Checkout.newOrder svc u row items discount).pricingDiscount = discount :=
      Int.min_eq_left (hdiscount.elim (· ▸ htotal) id)
    rw [List.nil_append, QuotedFor, List.map_map, hkept]
    exact hquoted
  | createsItem hpc =>
    rw [hpc] at hp
    refine pending_afterItem ?_
    rwa [List.append_assoc]
  | @createsNone order done hpc =>
    rw [hpc] at hp
    have hquoted : QuotedFor V svc.cartSvc i u.ids.cart order (done ++ []) := hp
    rw [List.append_nil] at hquoted
    exact hquoted

theorem placed_step {u u' : Checkout.Thread} (hs : Settled s₀ s)
    (hp : Pending V svc.cartSvc i s₀ u.ids.cart u.pc)
    (h : Checkout.checkoutStep svc s u x = some (s', u')) :
    ∀ id ∈ u'.pc.placed, id ∈ s'.orders.ids ∧
      QuotedFor V svc.cartSvc i u'.ids.cart (s'.orders.row id).committed (itemsOf s' id) := by
  obtain ⟨pc, rfl, hprog⟩ := Checkout.checkoutStep_progress h
  intro id hid
  cases hprog with
  | idle _ _ hnone | reads _ _ _ hnone | goes _ _ hnone => exact absurd (hnone.symm.trans hid) (by simp)
  | creates _ => exact absurd ((Checkout.afterItem_written _ _ _).2.2.symm.trans hid) (by simp)
  | @commits order items hpc _ =>
    obtain rfl := Option.some.inj hid
    rw [hpc] at hp
    have hquoted : QuotedFor V svc.cartSvc i u.ids.cart order items := hp
    have hrow : ((createOrder s order items).orders.row s.nextID).committed = order := by
      simp [createOrder, Table.insert]
    refine ⟨List.mem_append_right _ (List.mem_singleton_self _), ?_⟩
    rw [itemsOf_new hs.filed, hrow, QuotedFor, List.map_map]
    exact hquoted

theorem placed_other {svc : Cart.Service} {cart : Nat} {pc : Checkout.Pc} (hs : Settled s₀ s)
    (hp : ∀ id ∈ pc.placed, id ∈ s.orders.ids ∧
      QuotedFor V svc j cart (s.orders.row id).committed (itemsOf s id))
    (h : shopStep cfg i s t x = some (s', t')) :
    ∀ id ∈ pc.placed, id ∈ s'.orders.ids ∧
      QuotedFor V svc j cart (s'.orders.row id).committed (itemsOf s' id) := by
  intro id hid
  obtain ⟨hmem, hq⟩ := hp id hid
  obtain ⟨hmem', hitems, hrow⟩ := order_kept hs.filed hmem h
  have hcode := congrArg Order.appliedVoucherCode hrow
  have hdiscount := congrArg Order.pricingDiscount hrow
  simp only [placedAs, Order.withStatus] at hcode hdiscount
  refine ⟨hmem', ?_⟩
  rw [QuotedFor, hitems, hcode, hdiscount]
  exact hq

/-! ## Whole runs -/

structure Assured (V : State → Prop) (cfg : Config) (i : Nat) (s₀ s : Store) (t : Thread) : Prop where
  shopping : t.shopping = true
  quoting : ∀ u, t = .checkout u → Quoting V cfg.checkout.cartSvc i s₀ s u

abbrev AllQuoted (V : State → Prop) (cfg : Config) (s₀ : Store) : State → Prop :=
  Guarded (fun _ => Settled s₀) fun i s t => Assured V cfg i s₀ s t

theorem assured_start {r : Request} (hr : r.shopping = true) :
    Assured V cfg i s₀ s (start cfg r) := by
  cases r with
  | checkout r =>
    refine ⟨rfl, fun u hu => ?_⟩
    cases hu
    unfold Checkout.start
    split <;> exact ⟨trivial, forall_mem_none⟩
  | cart r =>
    cases r with
    | edit r => exact ⟨rfl, fun u hu => by cases hu⟩
    | _ => cases hr
  | _ => cases hr

theorem allQuoted_step (hg : AllQuoted V cfg s₀ c) (hV : V c) (hshop : Shopping a) (hsteady : Steady cfg c a)
    (h : (shopMachine cfg).step c a = some d) : AllQuoted V cfg s₀ d := by
  refine guarded_step hg h ?_ ?_ ?_
  · rintro r rfl
    exact ⟨hg.1, assured_start hshop⟩
  · rintro i x t s' t' rfl ht hl
    have ha := hg.2 i t ht
    obtain ⟨hsettled, hshop'⟩ := settled_step hg.1 ha.shopping hl
    refine ⟨hsettled, ⟨hshop', fun u' hu' => ?_⟩, fun j u _ hu => ?_⟩
    · subst hu'
      cases t <;> obtain ⟨u₁, hs, he⟩ := lifted_inv hl <;> cases he
      rename_i u
      have hq := ha.quoting u rfl
      have hst : steady cfg.checkout.cartSvc c.shared x u.pc = true := hsteady u (by rw [ht]; rfl)
      exact ⟨pending_step hg.1 hV ht hst hq.pending hs, placed_step hg.1 hq.pending hs⟩
    · have ha := hg.2 j u hu
      exact ⟨ha.shopping, fun v hv =>
        ⟨(ha.quoting v hv).pending, placed_other hg.1 (ha.quoting v hv).placed hl⟩⟩
  · intro e s' he
    obtain rfl := Option.some.inj he
    refine ⟨{ hg.1 with filed := { hg.1.filed with } }, fun j u hu => ?_⟩
    have ha := hg.2 j u hu
    exact ⟨ha.shopping, fun v hv => ⟨(ha.quoting v hv).pending, (ha.quoting v hv).placed⟩⟩

/-- Along every run of checkouts and edits in which the two readings of each checkout
agree and the rule grants no more than the lines come to, its discount is what the voucher on the order grants on the order's own items. -/
theorem discount_granted (cfg : Config) (s₀ : Store) (hready : Ready s₀)
    (hitems : ∀ it ∈ s₀.orderItems, it.orderID < s₀.nextID)
    (hpos : ∀ it ∈ s₀.cartItems, 0 < it.qty) (acts : List Label) (hshop : ∀ l ∈ acts, Shopping l)
    (c : State) (hr : run (shopMachine cfg).step ⟨s₀, []⟩ acts = some c)
    (hsteady : Meets (shopMachine cfg).step (Steady cfg) ⟨s₀, []⟩ acts) (i : Nat) (t : Checkout.Thread)
    (ht : c.threads[i]? = some (.checkout t)) (id : Nat) (status : OrderStatus)
    (hpc : t.pc = .returned (.ok (id, status))) :
    ∃ u, Visits (shopMachine cfg).step ⟨s₀, []⟩ acts u ∧
      (voucherCode (c.shared.orders.row id).committed.appliedVoucherCode ≠ "" → Evaluating i u) ∧
      (c.shared.orders.row id).committed.pricingDiscount =
        granted cfg.checkout.cartSvc u.shared (ownerOf u.shared t.ids.cart)
          (voucherCode (c.shared.orders.row id).committed.appliedVoucherCode)
          ((itemsOf c.shared id).map itemLine) := by
  have hstart : Settled s₀ s₀ :=
    ⟨filed_of_ready hready hitems hpos, rfl, rfl, rfl, rfl, fun _ => rfl⟩
  have hmeets := (meets_visits hr).and ((meets_of_forall hshop).and hsteady)
  have hg := run_inv (I := AllQuoted (Visits (shopMachine cfg).step ⟨s₀, []⟩ acts) cfg s₀)
    (fun c a d hg hcond hs => allQuoted_step hg hcond.1 hcond.2.1 hcond.2.2 hs)
    (guarded_start hstart) hmeets hr
  exact (((hg.2 i _ ht).quoting t rfl).placed id (by rw [hpc]; rfl)).2

/-! ## A minimum spend -/

/-- Cart 11 of user 1 carries a voucher of 30 from a spend of 200 on. -/
def voucherCart : Store :=
  { emptyCart with
    carts := ⟨[11], fun _ => ⟨some 1, none, some "SAVE", 0, none, 1⟩⟩
    vouchers := ⟨[9], fun _ =>
      ⟨"SAVE", .fixedAmount, 30, none, 200, none, none, 0, none, none, [], [], []⟩⟩ }

def checksOut (i n : Nat) : List Label := request i (.checkout ⟨some "1", some "1", "11", 0⟩) n

/-- The discount of order 101, and what the voucher grants on its items. -/
def discounts (c : State) : Int × Int :=
  ((c.shared.orders.row 101).committed.pricingDiscount,
    granted numeralShop.checkout.cartSvc c.shared (some 1) "SAVE" ((itemsOf c.shared 101).map itemLine))

theorem three_mugs_discounted :
    ∃ c u, run (shopMachine numeralShop).step ⟨voucherCart, []⟩ (adds 0 3 ++ checksOut 1 9) = some c ∧
      Visits (shopMachine numeralShop).step ⟨voucherCart, []⟩ (adds 0 3 ++ checksOut 1 9) u ∧
      (c.shared.orders.row 101).committed.pricingDiscount = 30 ∧
      30 = granted numeralShop.checkout.cartSvc u.shared (ownerOf u.shared 11) "SAVE"
        ((itemsOf c.shared 101).map itemLine) := by
  obtain ⟨c, hc, ⟨t, ht, hpc, hcart⟩, hdiscount, hcode⟩ := reaches (P := fun c : State =>
      (∃ t ∈ c.threads[1]?.bind Thread.checkout?,
        t.pc = .returned (.ok (101, .pendingPayment)) ∧ t.ids.cart = 11) ∧
      (c.shared.orders.row 101).committed.pricingDiscount = 30 ∧
      voucherCode (c.shared.orders.row 101).committed.appliedVoucherCode = "SAVE")
    (o := run (shopMachine numeralShop).step ⟨voucherCart, []⟩ (adds 0 3 ++ checksOut 1 9))
    (by decide +kernel)
  obtain ⟨u, hu, _, hgranted⟩ := discount_granted numeralShop voucherCart
    ⟨fun _ => rfl, List.forall_mem_nil _⟩ (List.forall_mem_nil _) (List.forall_mem_nil _)
    (adds 0 3 ++ checksOut 1 9) (by decide +kernel) c hc (by decide +kernel) 1 t
    (thread_of_checkout? ht) 101 _ hpc
  rw [hdiscount, hcode, hcart] at hgranted
  exact ⟨c, u, hc, hu, hdiscount, hgranted⟩

/-- One mug is checked out. Before the voucher is evaluated the quantity in the cart is
set to three, and the order of one mug has the discount for three. -/
theorem discount_of_another_cart :
    (run (shopMachine numeralShop).step ⟨voucherCart, []⟩
      (adds 0 1 ++ checksOut 1 4 ++ updates 2 3 ++ List.replicate 5 (.act 1 .ok))).map discounts =
        some (30, 0) := by
  decide +kernel

end TokoApi.Shop
