import TokoApi.Cart.Lines

/-!
# Additions to one line

`AddItem` finds the line of a cart for a product and a variant and then writes the
sum that it has computed, or it finds none and then inserts one. `AddsUp s k n` says
that there is at most one such line and that it holds `n` pieces; this section
determines when a write of `AddItem` that adds `q` pieces leads from `n` to `n + q`.
The argument rests on two facts: no line ever holds more than all that has been
added, and a call that has read a line which was written since has read less.
-/
namespace TokoApi.Cart

open Db Lib.Threads Lib.Wrap

structure Slot where
  cartID : Nat
  productID : Nat
  variantID : Option Nat

def Slot.args (k : Slot) (qty : Int) : AddArgs := ⟨k.cartID, k.productID, k.variantID, qty⟩

def Slot.holds (k : Slot) (it : CartItem) : Bool :=
  it.cartID = k.cartID && it.productID = k.productID && it.variantID = k.variantID

def linesOf (s : Store) (k : Slot) : List CartItem := s.cartItems.filter k.holds

def total (s : Store) (k : Slot) : Int := ((linesOf s k).map CartItem.qty).sum

def AddsUp (s : Store) (k : Slot) (n : Int) : Prop := (linesOf s k).length ≤ 1 ∧ total s k = n

def EditPc.wrote : EditPc → Bool
  | .touchCart _ _ | .returned (.ok _) => true
  | _ => false

def EditPc.added (q : Int) (pc : EditPc) : Int := if pc.wrote then q else 0

/-- The line that a call raises has the quantity that the call has read, the line that
it inserts is the first, and the sum fits 32 bits. -/
def EditPc.UpToDate (s : Store) : EditPc → Prop
  | .addQty a _ item =>
    (∀ row ∈ s.cartItems, row.id = item.id → row.qty = item.qty) ∧ item.qty + a.qty < 2 ^ 31
  | .createItem a _ _ _ =>
    linesOf s ⟨a.cartID, a.productID, a.variantID⟩ = [] ∧ a.qty < 2 ^ 31
  | _ => True

variable {svc : Service} {s s' : Store} {x : Call} {k : Slot} {n q : Int} {pc pc' : EditPc}
  {item : CartItem}

/-! ## Truncation to 32 bits -/

theorem int32_le {m : Int} (h : -2 ^ 31 ≤ m) : int32 m ≤ m ∧ (int32 m = m ↔ m < 2 ^ 31) := by
  unfold int32
  have hle := @Int.le_bmod m (2 ^ 32) (by decide)
  have hlt := @Int.bmod_lt m (2 ^ 32) (by decide)
  rcases Int.lt_or_le m (2 ^ 31) with hm | hm
  · have heq : m.bmod (2 ^ 32) = m := Int.bmod_eq_of_le (by omega) (by omega)
    exact ⟨le_of_eq heq, iff_of_true heq hm⟩
  · exact ⟨by omega, iff_of_false (by omega) (by omega)⟩

theorem le_int32 (m : Int) : -2 ^ 31 ≤ int32 m := by
  have hle := @Int.le_bmod m (2 ^ 32) (by decide)
  unfold int32
  omega

theorem int32_sum_le {m : Int} (hm : 0 < m) (hq : 0 < q) :
    int32 (m + int32 q) ≤ m + q ∧ (int32 (m + int32 q) = m + q ↔ m + q < 2 ^ 31) := by
  obtain ⟨hqle, hqeq⟩ := @int32_le q (by omega)
  have hge := le_int32 q
  obtain ⟨hle, heq⟩ := @int32_le (m + int32 q) (by omega)
  refine ⟨by omega, ?_⟩
  rcases Int.lt_or_le q (2 ^ 31) with h | h
  · rw [hqeq.mpr h] at heq ⊢
    exact heq
  · have hne := mt hqeq.mp (by omega)
    exact iff_of_false (by omega) (by omega)

/-! ## The lines of a slot -/

theorem mem_linesOf {it : CartItem} : it ∈ linesOf s k ↔ it ∈ s.cartItems ∧ k.holds it = true :=
  List.mem_filter

theorem linesOf_congr (h : s'.cartItems = s.cartItems) : linesOf s' k = linesOf s k := by
  rw [linesOf, linesOf, h]

variable {subtotal price : Int} {p : Product}

theorem holds_setQty {id : Nat} {qty : Int} (it : CartItem) :
    k.holds (it.setQty id qty subtotal) = k.holds it := by
  unfold CartItem.setQty
  split <;> rfl

theorem linesOf_raised {id : Nat} {qty : Int} (h : updateCartItemQty s id qty subtotal = .ok s') :
    linesOf s' k = (linesOf s k).map (CartItem.setQty id qty subtotal) := by
  obtain ⟨_, _, rfl⟩ := updateCartItemQty_inv h
  have hholds : k.holds ∘ CartItem.setQty id qty subtotal = k.holds := funext holds_setQty
  simp only [linesOf, List.filter_map, hholds]

theorem linesOf_inserted (h : createCartItem s (newLine (k.args q) p price) = .ok s') :
    linesOf s' k = linesOf s k ++ [{ newLine (k.args q) p price with id := s.nextID }] := by
  obtain ⟨_, _, rfl⟩ := createCartItem_inv h
  simp [linesOf, Slot.holds, newLine, Slot.args]

theorem addsUp_singleton {row : CartItem} (h : linesOf s k = [row]) : AddsUp s k n ↔ row.qty = n := by
  simp [AddsUp, total, h]

theorem eq_singleton {α : Type} {l : List α} {a : α} (hlen : l.length ≤ 1) (ha : a ∈ l) : l = [a] := by
  match l, hlen with
  | [b], _ => rw [List.mem_singleton.mp ha]

/-! ## What a call has read -/

/-- No line holds more than all that has been added. -/
def Bounded (s : Store) (k : Slot) (n : Int) : Prop :=
  0 ≤ n ∧ ∀ it ∈ linesOf s k, 0 < it.qty ∧ it.qty ≤ n

/-- A line that was read: it is still there, and if it has changed, then less was read
than has been added. -/
def Read (s : Store) (k : Slot) (n : Int) (item : CartItem) : Prop :=
  0 < item.qty ∧ ∃ row ∈ linesOf s k, row.id = item.id ∧ (row.qty = item.qty ∨ item.qty < n)

def EditPc.Adds (s : Store) (k : Slot) (n q : Int) : EditPc → Prop
  | .expires a | .findItem a _ | .getProduct a _ | .getVariant a _ _ _ | .createItem a _ _ _ =>
    a = k.args q
  | .addQty a _ item => a = k.args q ∧ Read s k n item
  | .touchCart _ _ | .returned _ => True
  | _ => False

theorem Read.le (hb : Bounded s k n) (h : Read s k n item) : item.qty ≤ n := by
  obtain ⟨_, row, hrow, _, heq | hlt⟩ := h
  · exact heq ▸ (hb.2 row hrow).2
  · exact le_of_lt hlt

theorem read_found (hb : Bounded s k n)
    (h : findCartItemByProductVariant s k.cartID k.productID k.variantID = some item) :
    Read s k n item := by
  have hmem : item ∈ linesOf s k :=
    mem_linesOf.mpr ⟨List.mem_of_find?_eq_some h, List.find?_some h⟩
  exact ⟨(hb.2 item hmem).1, item, hmem, rfl, .inl rfl⟩

/-- A step of `AddItem`: nothing is written to the lines, or a line is raised, or a new
one is inserted. -/
inductive AddStep (k : Slot) (n q : Int) (s : Store) : EditPc → Call → Store → EditPc → Prop where
  | kept {pc : EditPc} {x} {s' : Store} {pc' : EditPc} (hi : s'.cartItems = s.cartItems)
      (hw : pc'.wrote = pc.wrote) (ha : pc'.Adds s k n q)
      (hd : x = .ok → (∀ w ∈ pc.write, (w.apply s).isOk = true) → pc.UpToDate s) :
      AddStep k n q s pc x s' pc'
  | raised {e subtotal : Int} {item : CartItem} {s' : Store} (hr : Read s k n item)
      (h : updateCartItemQty s item.id (int32 (item.qty + int32 q)) subtotal = .ok s')
      (hw : (EditPc.addQty (k.args q) e item).write =
        some (.setLine item.id (int32 (item.qty + int32 q)) subtotal)) :
      AddStep k n q s (.addQty (k.args q) e item) .ok s' (.touchCart k.cartID e)
  | inserted {e price p s'} (h : createCartItem s (newLine (k.args q) p price) = .ok s') :
      AddStep k n q s (.createItem (k.args q) e p price) .ok s' (.touchCart k.cartID e)

theorem add_step (hb : Bounded s k n) (ha : pc.Adds s k n q)
    (h : editStep svc s pc x = some (s', pc')) : AddStep k n q s pc x s' pc' := by
  cases x with
  | fail err =>
    cases pc <;> cases h <;> first | exact ha.elim | exact .kept rfl rfl trivial nofun
  | ok =>
    cases pc with
    | expires a =>
      cases h
      exact .kept rfl rfl ha fun _ _ => trivial
    | findItem a e =>
      obtain rfl := ha
      simp only [editStep] at h
      split at h <;> cases h
      · rename_i item hfound
        exact .kept rfl rfl ⟨rfl, read_found hb hfound⟩ fun _ _ => trivial
      · exact .kept rfl rfl rfl fun _ _ => trivial
    | addQty a e item =>
      obtain ⟨rfl, hread⟩ := ha
      simp only [editStep] at h
      generalize hu : updateCartItemQty _ _ _ _ = r at h
      cases r with
      | error err =>
        cases h
        refine .kept rfl rfl trivial fun _ hok => ?_
        have := hok _ rfl
        rw [Write.apply, hu] at this
        cases this
      | ok s₁ =>
        cases h
        exact .raised hread hu rfl
    | getProduct a e =>
      obtain rfl := ha
      simp only [editStep] at h
      split at h
      · cases h
        exact .kept rfl rfl trivial fun _ _ => trivial
      · split at h <;> cases h <;> exact .kept rfl rfl rfl fun _ _ => trivial
    | getVariant a e variant p =>
      obtain rfl := ha
      simp only [editStep] at h
      split at h
      · cases h
        exact .kept rfl rfl trivial fun _ _ => trivial
      · split at h
        · cases h
          exact .kept rfl rfl trivial fun _ _ => trivial
        · split at h <;> cases h
          · exact .kept rfl rfl trivial fun _ _ => trivial
          · exact .kept rfl rfl rfl fun _ _ => trivial
    | createItem a e p price =>
      obtain rfl := ha
      simp only [editStep] at h
      generalize hu : createCartItem _ _ = r at h
      cases r with
      | error err =>
        cases h
        refine .kept rfl rfl trivial fun _ hok => ?_
        have := hok _ rfl
        rw [Write.apply, hu] at this
        cases this
      | ok s₁ =>
        cases h
        exact .inserted hu
    | touchCart cart e =>
      cases h
      exact .kept (apply_cartItems (v := .touch cart e) rfl rfl) rfl trivial fun _ _ => trivial
    | returned r => cases h
    | _ => exact ha.elim

/-! ## What a write does to the sum -/

theorem raised_iff (hk : Keyed s) (hb : Bounded s k n) (hr : Read s k n item) (hq : 0 < q)
    (h : updateCartItemQty s item.id (int32 (item.qty + int32 q)) subtotal = .ok s') :
    AddsUp s' k (n + q) ↔ AddsUp s k n ∧
      (∀ row ∈ s.cartItems, row.id = item.id → row.qty = item.qty) ∧ item.qty + q < 2 ^ 31 := by
  have hle := hr.le hb
  obtain ⟨hpos, row, hrow, hid, hcur⟩ := hr
  obtain ⟨hsum, hfits⟩ := @int32_sum_le q item.qty hpos hq
  have hlines := linesOf_raised (k := k) h
  -- the row is the only one with its key
  have honly : (∀ r ∈ s.cartItems, r.id = item.id → r.qty = item.qty) ↔ row.qty = item.qty := by
    have hmem := (mem_linesOf.mp hrow).1
    refine ⟨fun h => h row hmem hid, fun h r hr hrid => ?_⟩
    rw [List.inj_on_of_nodup_map hk.nodup hr hmem (hrid.trans hid.symm), h]
  rw [honly]
  by_cases hlen : (linesOf s k).length ≤ 1
  · have hone := eq_singleton hlen hrow
    rw [hone, List.map_singleton] at hlines
    rw [addsUp_singleton hone, addsUp_singleton hlines, CartItem.setQty, if_pos hid]
    constructor
    · intro (hv : int32 (item.qty + int32 q) = n + q)
      have hread : item.qty = n := by omega
      refine ⟨by omega, by omega, hfits.mp (by omega)⟩
    · rintro ⟨hn, heq, hlt⟩
      show int32 (item.qty + int32 q) = n + q
      rw [hfits.mpr hlt]
      omega
  · refine iff_of_false (fun hup => hlen ?_) fun hup => hlen hup.1.1
    have := hup.1
    rwa [hlines, List.length_map] at this

theorem inserted_iff (hb : Bounded s k n) (hq : 0 < q)
    (h : createCartItem s (newLine (k.args q) p price) = .ok s') :
    AddsUp s' k (n + q) ↔ AddsUp s k n ∧ linesOf s k = [] ∧ q < 2 ^ 31 := by
  obtain ⟨hle, hfits⟩ := @int32_le q (by omega)
  have hn := hb.1
  have hlines := linesOf_inserted h
  by_cases hnil : linesOf s k = []
  · rw [hnil, List.nil_append] at hlines
    have hzero : AddsUp s k n ↔ n = 0 := by simp [AddsUp, total, hnil, eq_comm]
    rw [addsUp_singleton hlines, hzero, ← hfits]
    constructor
    · intro (hv : int32 q = n + q)
      exact ⟨by omega, hnil, by omega⟩
    · rintro ⟨rfl, _, heq⟩
      show int32 q = 0 + q
      omega
  · refine iff_of_false (fun hup => hnil ?_) fun hup => hnil hup.2.1
    have hlen := hup.1
    rw [hlines, List.length_append, List.length_singleton] at hlen
    exact List.length_eq_zero_iff.mp (by omega)

/-! ## One step of a call -/

theorem EditPc.Adds.mono {n' : Int} (h : pc.Adds s k n q)
    (hread : ∀ it, Read s k n it → Read s' k n' it) : pc.Adds s' k n' q := by
  cases pc with
  | addQty a e item => exact ⟨h.1, hread item h.2⟩
  | _ => exact h

theorem Read.later (hb : Bounded s k n) (hq : 0 < q)
    (hrows : ∀ row ∈ linesOf s k, ∃ row' ∈ linesOf s' k, row'.id = row.id)
    (h : Read s k n item) : Read s' k (n + q) item := by
  have hle := h.le hb
  obtain ⟨hpos, row, hrow, hid, _⟩ := h
  obtain ⟨row', hrow', hid'⟩ := hrows row hrow
  exact ⟨hpos, row', hrow', hid'.trans hid, .inr (by omega)⟩

theorem raised_bounded (hb : Bounded s k n) (hr : Read s k n item) (hq : 0 < q)
    (h : updateCartItemQty s item.id (int32 (item.qty + int32 q)) subtotal = .ok s') :
    Bounded s' k (n + q) := by
  have hle := hr.le hb
  have hn := hb.1
  obtain ⟨hsum, _⟩ := int32_sum_le hr.1 hq
  obtain ⟨hpos, _, _⟩ := updateCartItemQty_inv h
  refine ⟨by omega, fun it hit => ?_⟩
  rw [linesOf_raised h] at hit
  obtain ⟨row, hrow, rfl⟩ := List.mem_map.mp hit
  obtain ⟨hrpos, hrle⟩ := hb.2 row hrow
  unfold CartItem.setQty
  split
  · exact ⟨hpos, show int32 (item.qty + int32 q) ≤ n + q by omega⟩
  · exact ⟨hrpos, by omega⟩

theorem inserted_bounded (hb : Bounded s k n) (hq : 0 < q)
    (h : createCartItem s (newLine (k.args q) p price) = .ok s') : Bounded s' k (n + q) := by
  obtain ⟨hle, _⟩ := @int32_le q (by omega)
  have hn := hb.1
  obtain ⟨hpos, _, _⟩ := createCartItem_inv h
  refine ⟨by omega, fun it hit => ?_⟩
  rw [linesOf_inserted h, List.mem_append, List.mem_singleton] at hit
  rcases hit with hit | rfl
  · obtain ⟨hipos, hile⟩ := hb.2 it hit
    exact ⟨hipos, by omega⟩
  · exact ⟨hpos, show int32 q ≤ n + q by omega⟩

/-- What one step of a call does, when `n` pieces have been added before it and `n'`
after it. -/
structure AddEffect (k : Slot) (n n' q : Int) (s s' : Store) (pc : EditPc) (x : Call)
    (pc' : EditPc) : Prop where
  bounded : Bounded s' k n'
  read : ∀ it, Read s k n it → Read s' k n' it
  adds : pc'.Adds s' k n' q
  addsUp : AddsUp s' k n' ↔ AddsUp s k n ∧
    (x = .ok → (∀ w ∈ pc.write, (w.apply s).isOk = true) → pc.UpToDate s)

theorem AddStep.effect {n' : Int} (h : AddStep k n q s pc x s' pc') (hk : Keyed s)
    (hb : Bounded s k n) (hq : 0 < q) (hn : n' + pc.added q = n + pc'.added q) :
    AddEffect k n n' q s s' pc x pc' := by
  cases h with
  | kept hi hw ha hd =>
    obtain rfl : n' = n := by
      rw [EditPc.added, EditPc.added, hw] at hn
      omega
    have hlines := linesOf_congr (k := k) hi
    have hread : ∀ it, Read s k n' it → Read s' k n' it := by
      intro it hit
      rwa [Read, hlines]
    refine ⟨by rwa [Bounded, hlines], hread, ha.mono hread, ?_⟩
    rw [AddsUp, AddsUp, total, total, hlines]
    exact (and_iff_left hd).symm
  | raised hr h hw =>
    obtain rfl : n' = n + q := by simpa [EditPc.added, EditPc.wrote] using hn
    have hread : ∀ it, Read s k n it → Read s' k (n + q) it := fun it => Read.later hb hq fun row hrow =>
      ⟨_, linesOf_raised h ▸ List.mem_map_of_mem hrow, setQty_id⟩
    refine ⟨raised_bounded hb hr hq h, hread, trivial, ?_⟩
    rw [raised_iff hk hb hr hq h]
    refine and_congr_right fun _ => ⟨fun hd _ _ => hd, fun hd => hd rfl fun w hmem => ?_⟩
    obtain rfl := Option.some.inj (hw.symm.trans hmem)
    rw [Write.apply, h]
    rfl
  | inserted h =>
    obtain rfl : n' = n + q := by simpa [EditPc.added, EditPc.wrote] using hn
    have hread : ∀ it, Read s k n it → Read s' k (n + q) it := fun it => Read.later hb hq fun row hrow =>
      ⟨row, linesOf_inserted h ▸ List.mem_append_left _ hrow, rfl⟩
    refine ⟨inserted_bounded hb hq h, hread, trivial, ?_⟩
    rw [inserted_iff hb hq h]
    refine and_congr_right fun _ => ⟨fun hd _ _ => hd, fun hd => hd rfl fun w hmem => ?_⟩
    obtain rfl := Option.some.inj hmem
    rw [Write.apply, h]
    rfl

end TokoApi.Cart
