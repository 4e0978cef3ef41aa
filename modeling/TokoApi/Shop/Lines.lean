import TokoApi.Cart.Lines
import TokoApi.Shop.VoucherLimits

/-!
# Quantity and subtotal of a line

Four operations of the cart service write quantity and subtotal, in 32 and 64
bits and from quantities of different width. A line is exact if its subtotal is the
product of its quantity and its unit price as integers. Every line stays exact
exactly when each write that the database accepts has a product that fits and
prices the quantity it stores.
-/
namespace TokoApi.Shop

open Db Cart Lib.Threads Lib.Runs Lib.Wrap

abbrev Exact (it : CartItem) : Prop := 1 ≤ it.qty ∧ it.subtotal = it.qty * it.unitPrice

/-! ## Arithmetic -/

/-- Quantity `r` is stored and quantity `q` priced, at the price `p`: the product
fits into 64 bits, and the two quantities have the same price there. -/
abbrev Fits (r q p : Int) : Prop :=
  (-2 ^ 63 ≤ r * p ∧ r * p < 2 ^ 63) ∧ 2 ^ 64 ∣ (q - r) * p

theorem int64_price_iff {r q p : Int} : int64 (q * p) = r * p ↔ Fits r q p := by
  rw [int64_eq_iff, Fits, Int.sub_mul]

theorem clamped_price_iff {r q p : Int} (hr : 1 ≤ r) (hp : 0 ≤ p) :
    max 0 (int64 (q * p)) = r * p ↔ Fits r q p := by
  rw [← int64_price_iff]
  rcases Int.lt_or_le (int64 (q * p)) 0 with hneg | hpos
  · have hprod : 0 ≤ r * p := Int.mul_nonneg (by omega) hp
    constructor
    · intro h
      have hzero : r * p = 0 := by omega
      rcases Int.mul_eq_zero.mp hzero with h0 | h0
      · omega
      · rw [h0, Int.mul_zero] at hneg
        exact absurd hneg (by decide)
    · intro h
      omega
  · rw [Int.max_eq_right hpos]

/-! ## Writes and their prices -/

/-- The quantity that a write stores, the one that it prices, and the unit price. -/
def editPricing : EditPc → Option (Int × Int × Int)
  | .addQty a _ item =>
    some (int32 (item.qty + int32 a.qty), int32 (item.qty + int32 a.qty), item.unitPrice)
  | .createItem a _ _ price => some (int32 a.qty, a.qty, max 0 price)
  | .setQty item qty => some (int32 qty, qty, item.unitPrice)
  | _ => none

def mergePricing : MergePc → Option (Int × Int × Int)
  | .setQty _ existing item _ => some (item.qty, item.qty, existing.unitPrice)
  | _ => none

def pricing : Cart.Thread → Option (Int × Int × Int)
  | .edit _ pc => editPricing pc
  | .ensure _ _ => none
  | .merge _ pc => mergePricing pc

def Thread.cart? : Thread → Option Cart.Thread
  | .cart u => some u
  | _ => none

/-- A write that the database accepts stores what it prices, and the price fits. -/
def Representable (cfg : Config) (c : State) : Label → Prop
  | .act i .ok => ∀ u ∈ c.threads[i]?.bind Thread.cart?, ∀ w ∈ u.write cfg.checkout.cartSvc,
      (w.apply c.shared).isOk = true → ∀ z ∈ pricing u, Fits z.1 z.2.1 z.2.2
  | _ => True

instance (cfg : Config) (c : State) (a) : Decidable (Representable cfg c a) := by
  rcases a with _ | ⟨_, _ | _⟩ | _ <;> dsimp only [Representable] <;> infer_instance

/-- The writes to lines, with the lines in hand that their values come from. -/
inductive Priced (held : List CartItem) : Write → Option (Int × Int × Int) → Prop where
  | set {it : CartItem} {r q} (h : it ∈ held) :
      Priced held (.setLine it.id r (int64 (q * it.unitPrice))) (some (r, q, it.unitPrice))
  | new {a : AddArgs} {p price} :
      Priced held (.addLine (newLine a p price)) (some (int32 a.qty, a.qty, max 0 price))
  | copied {it : CartItem} {cart} (h : it ∈ held) :
      Priced held (.addLine { it with cartID := cart }) none
  | other {v : Write} (h : ∀ s s', v.apply s = .ok s' → s'.cartItems ⊆ s.cartItems) :
      Priced held v none

variable {cfg : Config} {svc : Cart.Service} {s s' : Store} {x : Call} {u u' : Cart.Thread}

theorem spares_other {held : List CartItem} {v : Write} (hv : v.sparesLines = true) :
    Priced held v none := by
  refine .other fun s s' h => ?_
  rw [apply_cartItems hv h]
  exact List.Subset.refl _

theorem priced_of_write {v : Write} (h : u.write svc = some v) : Priced u.held v (pricing u) := by
  cases u with
  | edit r pc =>
    cases pc with
    | addQty a e item | setQty item qty =>
      cases h
      exact .set List.mem_cons_self
    | createItem a e p price =>
      cases h
      exact .new
    | deleteItem cart item =>
      cases h
      refine .other fun s s' h => ?_
      cases h
      exact List.filter_sublist.subset
    | clearVoucher cart | touchCart cart e =>
      cases h
      exact spares_other rfl
    | _ => cases h
  | ensure tenant pc => exact spares_other (ensure_sparesLines h)
  | merge a pc =>
    cases pc with
    | ensure pc => exact spares_other (ensure_sparesLines h)
    | setQty cart existing item rest =>
      cases h
      exact .set List.mem_cons_self
    | createItem cart item rest =>
      cases h
      exact .copied List.mem_cons_self
    | touchUser cart e | touchGuest cart e | clearVoucher cart | transfer cart =>
      cases h
      exact spares_other rfl
    | _ => cases h

/-! ## Exact lines -/

theorem setLine_exact_iff {id : Nat} {qty subtotal p : Int}
    (hs : updateCartItemQty s id qty subtotal = .ok s')
    (hp : ∀ row ∈ s.cartItems, row.id = id → row.unitPrice = p)
    (he : ∀ it ∈ s.cartItems, Exact it) :
    (∀ it ∈ s'.cartItems, Exact it) ↔ subtotal = qty * p := by
  obtain ⟨hq, ⟨row, hrow, hid⟩, rfl⟩ := updateCartItemQty_inv hs
  have hset : ∀ it : CartItem, it.id = id →
      it.setQty id qty subtotal = { it with qty := qty, subtotal := subtotal } :=
    fun it hit => if_pos hit
  constructor
  · intro hall
    have hnew := (hall _ (List.mem_map_of_mem hrow)).2
    rwa [hset row hid, hp row hrow hid] at hnew
  · intro hsub it hit
    obtain ⟨old, hold, rfl⟩ := List.mem_map.mp hit
    by_cases hold' : old.id = id
    · rw [hset old hold']
      exact ⟨hq, by rw [hsub, hp old hold hold']⟩
    · rw [CartItem.setQty, if_neg hold']
      exact he old hold

theorem addLine_exact_iff {item : CartItem} (hs : createCartItem s item = .ok s')
    (he : ∀ it ∈ s.cartItems, Exact it) :
    (∀ it ∈ s'.cartItems, Exact it) ↔ item.subtotal = item.qty * item.unitPrice := by
  obtain ⟨hq, _, rfl⟩ := createCartItem_inv hs
  constructor
  · exact fun hall => (hall _ (List.mem_append_right _ List.mem_cons_self)).2
  · exact fun hsub => forall_mem_concat ⟨hq, hsub⟩ he

theorem outcome_exact_iff (hheld : ∀ it ∈ u.held, Held s it ∧ Exact it)
    (he : ∀ it ∈ s.cartItems, Exact it) (ho : Outcome s (u.write svc) x s') :
    (∀ it ∈ s'.cartItems, Exact it) ↔ (x = .ok → ∀ w ∈ u.write svc,
      (w.apply s).isOk = true → ∀ z ∈ pricing u, Fits z.1 z.2.1 z.2.2) := by
  refine ho.keeps_iff (R := fun s => ∀ it ∈ s.cartItems, Exact it) he (fun v hw hs => ?_)
    fun v err hs hok => ?_
  · have hpriced := priced_of_write hw
    have hok : (v.apply s).isOk = true := by rw [hs]; rfl
    rw [forall_prop_of_true hok]
    generalize pricing u = z at hpriced ⊢
    cases hpriced with
    | @set it r q hmem =>
      rw [setLine_exact_iff hs (fun row hrow hid => ((hheld it hmem).1.same row hrow hid).2.2.2) he,
        int64_price_iff]
      simp
    | @new a p price =>
      obtain ⟨hq, _, _⟩ := createCartItem_inv hs
      rw [addLine_exact_iff hs he]
      refine (clamped_price_iff hq (Int.le_max_left 0 price)).trans ?_
      simp [newLine]
    | @copied it cart hmem =>
      rw [addLine_exact_iff hs he]
      exact iff_of_true (hheld it hmem).2.2 (by simp)
    | other h => exact iff_of_true (fun it hit => he it (h s s' hs hit)) (by simp)
  · rw [hs] at hok
    cases hok

/-! ## Whole runs -/

section

variable {i j : Nat} {t t' : Thread} {c d : State} {a : Label}

def Thread.held : Thread → List CartItem
  | .cart u => u.held
  | _ => []

/-- The lines that a thread has read are those of the table, and exact. -/
def ReadExact (_ : Nat) (s : Store) (t : Thread) : Prop :=
  ∀ it ∈ t.held, Held s it ∧ Exact it

theorem lines_of_step (h : shopStep cfg i s t x = some (s', t')) : LineChange s s' := by
  cases step_cart h with
  | kept _ _ hi hn _ => exact .same hi hn
  | outcome ho => exact ho.lines

theorem held_of_step (h : shopStep cfg i s t x = some (s', t')) :
    ∀ it ∈ t'.held, it ∈ t.held ∨ it ∈ s.cartItems := by
  cases t <;> obtain ⟨u', hs, rfl⟩ := lifted_inv h
  case cart u => exact step_held hs
  all_goals simp [Thread.held]

theorem items_kept (ht : t.cart? = none) (h : shopStep cfg i s t x = some (s', t')) :
    s'.cartItems = s.cartItems := by
  cases step_cart h with
  | kept _ _ hi _ _ => exact hi
  | outcome ho =>
    cases ho with
    | refused | none => rfl
    | done hw _ hs =>
      cases t with
      | cart u => cases ht
      | applyVoucher r pc =>
        cases pc <;> cases hw <;> exact apply_cartItems rfl hs
      | _ => cases hw

section

variable (hg : Guarded (fun _ s => Keyed s) ReadExact c) (he : ∀ it ∈ c.shared.cartItems, Exact it)
  (h : (shopMachine cfg).step c a = some d)
include hg he h

theorem guarded_lines :
    Guarded (fun _ s => Keyed s) ReadExact d := by
  refine guarded_step hg h ?_ ?_ ?_
  · intro r _
    refine ⟨hg.1, fun it hit => ?_⟩
    cases r with
    | cart r =>
      simp only [shopMachine, start, Thread.held, start_held] at hit
      cases hit
    | _ => cases hit
  · intro i x t s' t' _ ht hl
    have hc := lines_of_step hl
    refine ⟨hc.keyed hg.1, fun it hit => ?_, fun j u _ hu it hit =>
      ⟨hc.held (hg.2 j u hu it hit).1, (hg.2 j u hu it hit).2⟩⟩
    rcases held_of_step hl it hit with hin | hin
    · exact ⟨hc.held (hg.2 i t ht it hin).1, (hg.2 i t ht it hin).2⟩
    · exact ⟨hc.held (held_of_mem hg.1 hin), he it hin⟩
  · intro e s' he
    obtain rfl := Option.some.inj he
    exact ⟨⟨hg.1.nodup, hg.1.fresh⟩, fun j u hu it hit =>
      ⟨⟨(hg.2 j u hu it hit).1.old, (hg.2 j u hu it hit).1.same⟩, (hg.2 j u hu it hit).2⟩⟩

theorem exact_step_iff :
    (∀ it ∈ d.shared.cartItems, Exact it) ↔ Representable cfg c a := by
  cases Machine.step_effect h with
  | spawn r =>
    exact iff_of_true he trivial
  | env hs =>
    cases hs
    exact iff_of_true he trivial
  | @act i x t s' _ ht hl =>
    have hkept : t.cart? = none → s'.cartItems = c.shared.cartItems := fun hn => items_kept hn hl
    cases t with
    | cart u =>
      obtain ⟨u', hs, rfl⟩ := lifted_inv hl
      refine (outcome_exact_iff (hg.2 i _ ht) he (step_write hs)).trans ?_
      cases x <;> simp [Representable, ht, Thread.cart?]
    | _ =>
      have hcond : Representable cfg c (.act i x) := by
        cases x <;> simp [Representable, ht, Thread.cart?]
      refine iff_of_true (fun it hit => he it ?_) hcond
      exact hkept rfl ▸ hit

end

end

/-- Along every run of the shop from a store with exact lines, every line is exact in
every state exactly when every write is representable. -/
theorem lines_exact_iff (cfg : Config) (s₀ : Store) (hk : Keyed s₀)
    (he : ∀ it ∈ s₀.cartItems, Exact it) (acts : List Label) (c : State)
    (hr : run (shopMachine cfg).step ⟨s₀, []⟩ acts = some c) :
    (∀ n d, run (shopMachine cfg).step ⟨s₀, []⟩ (acts.take n) = some d →
      ∀ it ∈ d.shared.cartItems, Exact it) ↔
      Meets (shopMachine cfg).step (Representable cfg) ⟨s₀, []⟩ acts :=
  always_iff_meets (I := Guarded (fun _ s => Keyed s) ReadExact)
    (P := fun c : State => ∀ it ∈ c.shared.cartItems, Exact it)
    (fun _ _ _ hg hp hs => guarded_lines hg hp hs) (fun _ _ _ hg hp hs => exact_step_iff hg hp hs)
    (guarded_start hk) he hr

/-! ## Runs on one cart -/

def emptyCart : Store :=
  { emptyStore with
    nextID := 100
    products := ⟨[2], fun _ => ⟨"mug", "mug", 100, none, none, 1⟩⟩
    carts := ⟨[11], fun _ => ⟨some 1, none, none, 0, none, 1⟩⟩ }

/-- Request `i`: pieces of the product are put into the cart for the first time. -/
def adds (i : Nat) (qty : Int) : List Label :=
  request i (.cart (.edit (.addItem "11" "2" none qty))) 5

def updates (i : Nat) (qty : Int) : List Label :=
  request i (.cart (.edit (.updateQty "100" qty))) 4

def quantities (c : State) : List (Int × Int × Int) :=
  c.shared.cartItems.map fun it => (it.qty, it.unitPrice, it.subtotal)

theorem updated_line_exact :
    ∃ c, run (shopMachine numeralShop).step ⟨emptyCart, []⟩ (adds 0 3 ++ updates 1 5) = some c ∧
      quantities c = [(5, 100, 500)] ∧ ∀ it ∈ c.shared.cartItems, Exact it := by
  refine reaches_and (by decide +kernel) fun c hc _ => ?_
  have hall := (lines_exact_iff numeralShop emptyCart ⟨List.nodup_nil, by simp [emptyCart, emptyStore]⟩
    (by simp [emptyCart, emptyStore]) _ c hc).mpr (by decide +kernel)
  exact hall _ c (run_take_length hc)

/-- 2³² + 1 pieces are stored as one and priced as 2³² + 1, by `AddItem` and by
`UpdateQty`. -/
theorem truncated_line_not_exact :
    ((run (shopMachine numeralShop).step ⟨emptyCart, []⟩ (adds 0 4294967297)).map fun c =>
      (quantities c, decide (∀ it ∈ c.shared.cartItems, Exact it))) =
        some ([(1, 100, 429496729700)], false) ∧
    ((run (shopMachine numeralShop).step ⟨emptyCart, []⟩
        (adds 0 3 ++ updates 1 4294967297)).map fun c =>
      (quantities c, decide (∀ it ∈ c.shared.cartItems, Exact it))) =
        some ([(1, 100, 429496729700)], false) := by
  decide +kernel

end TokoApi.Shop
