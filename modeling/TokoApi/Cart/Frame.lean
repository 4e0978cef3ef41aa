import TokoApi.Cart.Handlers
import TokoApi.Cart.Merged

/-!
# What a handler leaves alone

A handler is addressed at the cart in its URL. `AddItem`, `RemoveItem` and the two
voucher handlers hand that cart to every statement. `UpdateItem` does not: the
service looks the line up by its own identifier and updates and touches the cart it
finds there. So the other carts are left alone unless it gets to a line of another cart,
and there only where its two writes are not executed or change nothing.
-/
namespace TokoApi.Cart

open Db Lib.Rows Lib.Threads Lib.Runs Lib.Wrap

/-- The lines and the row of every cart but `c` are the same. -/
def Elsewhere (c : Nat) (s s' : Store) : Prop :=
  ∀ k, k ≠ c → linesIn s' k = linesIn s k ∧ getCartByID s' k = getCartByID s k

/-- The line with this key, if there is one, is in the cart. -/
def LineIn (c : Nat) (lines : List CartItem) (id : Nat) : Prop :=
  ∀ row ∈ lines, row.id = id → row.cartID = c

/-- The line of another cart that an `UpdateItem` gets to, and the quantity: the body has a
positive one, and the line is there. -/
def foreignLine (h : Handler) (c : Nat) (s : Store) : HandlerRequest → Option (CartItem × Int)
  | .updateItem _ itemID (some qty) =>
    match h.svc.toUUID itemID with
    | .error _ => none
    | .ok id =>
      if qty ≤ 0 then none
      else ((getCartItemByID s id).filter fun row => row.cartID ≠ c).map fun row => (row, qty)
  | _ => none

/-- The calls after the update of the line, from `now` on, leave the expiry of its cart. -/
def LeavesExpiry (svc : Service) (s : Store) (row : CartItem) (now : Int) : List (Nat × Call) → Prop
  | (d, .ok) :: (_, .ok) :: _ =>
    ∀ cart ∈ getCartByID s row.cartID, cart.expiresAt = some (svc.expiry (now + d))
  | _ => True

/-- The calls after the read of the line do not execute its update, or that is refused; or it
writes what is there already, and the expiry is left too. -/
def LeavesLine (svc : Service) (s : Store) (row : CartItem) (qty now : Int) : List (Nat × Call) → Prop
  | (d, .ok) :: rest =>
    int32 qty ≤ 0 ∨ (row.qty = int32 qty ∧ row.subtotal = int64 (qty * row.unitPrice)) ∧
      LeavesExpiry svc s row (now + d) rest
  | _ => True

/-- The line is not read, or it and its cart are left as they are. -/
def WritesNothing (svc : Service) (s : Store) (row : CartItem) (qty : Int) : List (Nat × Call) → Prop
  | (d, .ok) :: rest => LeavesLine svc s row qty (s.now + d) rest
  | _ => True

def Unchanged (s s' : Store) (k : Nat) : Prop :=
  linesIn s' k = linesIn s k ∧
    (getCartByID s' k).map (fun row => (row.appliedVoucherCode, row.expiresAt)) =
      (getCartByID s k).map fun row => (row.appliedVoucherCode, row.expiresAt)

/-- A handler while no other request runs; time passes before each statement. -/
def handling (h : Handler) (r : HandlerRequest) (s : Store) (xs : List (Nat × Call)) :
    Option (Store × HandlerThread) :=
  h.machine.paced.alone 0 (s, h.machine.start r) xs

variable {h : Handler} {r : HandlerRequest} {c : Nat} {s s' s'' : Store} {x : Call}

theorem Elsewhere.refl (c : Nat) (s : Store) : Elsewhere c s s := fun _ _ => ⟨rfl, rfl⟩

theorem Elsewhere.trans (h₁ : Elsewhere c s s') (h₂ : Elsewhere c s' s'') : Elsewhere c s s'' := by
  intro k hk
  exact ⟨(h₂ k hk).1.trans (h₁ k hk).1, (h₂ k hk).2.trans (h₁ k hk).2⟩

theorem Elsewhere.unchanged_iff (h : Elsewhere c s' s'') :
    (∀ k, k ≠ c → Unchanged s s'' k) ↔ ∀ k, k ≠ c → Unchanged s s' k := by
  refine forall₂_congr fun k hk => ?_
  rw [Unchanged, Unchanged, (h k hk).1, (h k hk).2]

/-! ## Statements on one cart -/

/-- The statement writes the cart `c` and its lines only. -/
def Write.On (c : Nat) (s : Store) : Write → Prop
  | .setLine id _ _ => LineIn c s.cartItems id
  | .addLine item => item.cartID = c
  | .dropLine _ cart => cart = c
  | .touch id _ | .setVoucher id _ => id = c
  | .newCart _ _ _ _ | .transfer _ _ => False

theorem getCartByID_set {cart : Cart} {k : Nat} (hk : k ≠ c) :
    getCartByID { s with carts := s.carts.set c cart } k = getCartByID s k := by
  simp only [getCartByID, Table.get?, Table.set, Function.update_of_ne hk]

theorem apply_elsewhere {v : Write} (hv : v.cart? = some c) (hs : v.apply s = .ok s') :
    Elsewhere c s s' := by
  intro k hk
  obtain rfl | ⟨row, rfl⟩ := apply_cart hv hs
  · exact ⟨rfl, rfl⟩
  · exact ⟨rfl, getCartByID_set hk⟩

theorem Write.On.elsewhere {v : Write} (hv : v.On c s) (hs : v.apply s = .ok s') :
    Elsewhere c s s' := by
  cases v with
  | setLine id qty subtotal =>
    intro k hk
    have hlines : linesIn s' k = linesIn s k := by
      rw [linesIn_raised hs]
      refine (List.map_congr_left fun it hit => ?_).trans (List.map_id _)
      obtain ⟨hin, hcart⟩ := mem_linesIn.mp hit
      have hne : it.id ≠ id := fun hid => hk (hcart.symm.trans (hv it hin hid))
      rw [CartItem.setQty, if_neg hne]
      rfl
    obtain ⟨_, _, rfl⟩ := updateCartItemQty_inv hs
    exact ⟨hlines, rfl⟩
  | addLine item =>
    intro k hk
    obtain ⟨_, _, rfl⟩ := createCartItem_inv hs
    refine ⟨?_, rfl⟩
    have hcart : item.cartID ≠ k := fun hik => hk (hik.symm.trans hv)
    simp [linesIn, List.filter_append, hcart]
  | dropLine id cart =>
    intro k hk
    cases hs
    refine ⟨?_, rfl⟩
    simp only [linesIn, deleteCartItem, List.filter_filter]
    refine List.filter_congr fun it _ => ?_
    by_cases hcart : it.cartID = k
    · have hne : it.cartID ≠ cart := fun hc => hk (hcart.symm.trans (hc.trans hv))
      simp [hcart, hcart ▸ hne]
    · simp [hcart]
  | touch id expires | setVoucher id code =>
    cases hv
    exact apply_elsewhere rfl hs
  | newCart | transfer => exact hv.elim

theorem Outcome.elsewhere {w : Option Write} (ho : Outcome s w x s') (hw : ∀ v ∈ w, v.On c s) :
    Elsewhere c s s' := by
  cases ho with
  | done hv _ hs => exact (hw _ hv).elsewhere hs
  | refused | none => exact .refl c s

/-! ## Where a handler is -/

def EditPc.Aims (c : Nat) (lines : List CartItem) : EditPc → Prop
  | .expires a | .findItem a _ | .getProduct a _ | .getVariant a _ _ _ | .createItem a _ _ _ =>
    a.cartID = c
  | .addQty a _ item => a.cartID = c ∧ LineIn c lines item.id
  | .getItem id _ => LineIn c lines id
  | .setQty item _ => item.cartID = c ∧ LineIn c lines item.id
  | .deleteItem cart _ | .clearVoucher cart | .clock cart | .touchCart cart _ => cart = c
  | .returned _ => True

variable {pc : EditPc} {svc : Service} {lines : List CartItem}

theorem EditPc.Aims.write (ha : pc.Aims c s.cartItems) : ∀ v ∈ pc.write, v.On c s := by
  intro v hv
  cases pc with
  | addQty a expires item | setQty item qty =>
    cases hv
    exact ha.2
  | createItem | deleteItem | clearVoucher | touchCart =>
    cases hv
    exact ha
  | _ => cases hv

theorem written_aims {v : Write} {fails : String → EditPc} {pc' : EditPc}
    (h : written s fails pc (v.apply s) = some (s', pc'))
    (hfails : ∀ err, (fails err).Aims c s'.cartItems) (hpc : pc.Aims c s'.cartItems) :
    pc'.Aims c s'.cartItems := by
  unfold written at h
  split at h <;> cases h
  · exact hfails _
  · exact hpc

theorem edit_aims {pc' : EditPc} (hk : Keyed s) (ha : pc.Aims c s.cartItems)
    (h : editStep svc s pc x = some (s', pc')) : pc'.Aims c s'.cartItems := by
  cases x with
  | fail err => cases pc <;> cases h <;> trivial
  | ok =>
    cases pc with
    | findItem a expires =>
      simp only [editStep] at h
      split at h <;> cases h
      · rename_i item hitem
        have hcart : item.cartID = a.cartID := by
          have hfound := List.find?_some hitem
          simp only [Bool.and_eq_true, decide_eq_true_eq] at hfound
          exact hfound.1.1
        refine ⟨ha, fun row hrow hid => ?_⟩
        rw [List.inj_on_of_nodup_map hk.nodup hrow (List.mem_of_find?_eq_some hitem) hid, hcart]
        exact ha
      · exact ha
    | getItem id qty =>
      simp only [editStep] at h
      split at h <;> cases h
      · trivial
      · rename_i item hitem
        have hid : item.id = id := by simpa using List.find?_some hitem
        refine ⟨ha item (List.mem_of_find?_eq_some hitem) hid, ?_⟩
        rw [hid]
        exact ha
    | addQty a expires item | setQty item qty =>
      exact written_aims (v := .setLine item.id _ _) h (fun _ => trivial) ha.1
    | createItem a expires p price =>
      exact written_aims (v := .addLine _) h (fun _ => trivial) ha
    | getProduct a expires =>
      simp only [editStep] at h
      split at h
      · cases h
        trivial
      · split at h <;> cases h <;> exact ha
    | getVariant a expires variant p =>
      simp only [editStep] at h
      split at h
      · cases h
        trivial
      · split at h
        · cases h
          trivial
        · split at h <;> cases h
          · trivial
          · exact ha
    | expires a | deleteItem cart item | clearVoucher cart | clock cart =>
      cases h
      exact ha
    | touchCart cart expires =>
      cases h
      trivial
    | returned res => cases h

def ApplyPc.Aims (c : Nat) : ApplyPc → Prop
  | .getCart id | .updateCart id _ _ | .touchCart id _ => id = c
  | .eval a _ => a.cartID = c
  | .returned _ => True

theorem ApplyPc.Aims.write {now : Int} {pc : ApplyPc} (ha : pc.Aims c) :
    ∀ v ∈ pc.write svc now, v.On c s := by
  intro v hv
  cases pc with
  | updateCart | touchCart =>
    cases hv
    exact ha
  | _ => cases hv

theorem afterEval_aims {a : EvalArgs} (ha : a.cartID = c) (pc : EvalPc) : (afterEval a pc).Aims c := by
  unfold afterEval
  split
  · trivial
  · exact ha
  · exact ha

theorem apply_aims {q : ApplyRequest} {pc pc' : ApplyPc} (ha : pc.Aims c)
    (h : applyStep svc s q pc x = some (s', pc')) : pc'.Aims c := by
  cases pc with
  | eval a pc =>
    obtain ⟨pc₁, _, he⟩ := Option.map_eq_some_iff.mp h
    cases he
    exact afterEval_aims ha pc₁
  | getCart id =>
    cases x <;> simp only [applyStep] at h
    · split at h <;> cases h
      · trivial
      · exact afterEval_aims (a := ⟨id, _, q.code⟩) ha _
    · cases h
      trivial
  | updateCart id code discount =>
    cases x <;> cases h
    · exact ha
    · trivial
  | touchCart id discount => cases x <;> cases h <;> trivial
  | returned res => cases h

def HandlerPc.Aims (c : Nat) (lines : List CartItem) : HandlerPc → Prop
  | .edit pc => pc.Aims c lines
  | .apply _ pc => pc.Aims c
  | _ => True

theorem afterEdit_aims (ha : pc.Aims c lines) : (h.afterEdit r pc).Aims c lines := by
  unfold Handler.afterEdit
  split
  · trivial
  · split
    · trivial
    · unfold Handler.onCart
      split <;> trivial
  · exact ha

theorem afterApply_aims {q : ApplyRequest} {pc : ApplyPc} (ha : pc.Aims c) :
    (Handler.afterApply q pc).Aims c lines := by
  unfold Handler.afterApply
  split
  · trivial
  · trivial
  · exact ha

theorem getStep_aims {pc pc' : HandlerPc}
    (hg : h.getStep s pc x = some pc') : pc'.Aims c lines := by
  have hpriced : ∀ cart items a (q : EvalPc), (h.afterEval cart items a q).Aims c lines := by
    intro cart items a q
    unfold Handler.afterEval
    split <;> trivial
  cases pc with
  | eval cart items a q =>
    obtain ⟨q', _, rfl⟩ := Option.map_eq_some_iff.mp hg
    exact hpriced cart items a q'
  | listItems id cart =>
    cases x <;> cases hg
    · unfold Handler.afterItems
      split
      · trivial
      · exact hpriced cart _ _ _
    · trivial
  | getCart id =>
    cases x <;> simp only [Handler.getStep] at hg
    · split at hg <;> cases hg <;> trivial
    · cases hg
      trivial
  | clock id cart =>
    cases x <;> simp only [Handler.getStep] at hg
    · split at hg <;> cases hg <;> trivial
    · cases hg
  | listTaxed id => cases x <;> cases hg <;> trivial
  | edit | apply | done => cases x <;> cases hg

/-! ## A request -/

theorem handlerStep_elsewhere {t t' : HandlerThread} (hk : Keyed s) (ha : t.pc.Aims c s.cartItems)
    (hs : h.handlerStep s t x = some (s', t')) :
    Elsewhere c s s' ∧ Keyed s' ∧ t'.pc.Aims c s'.cartItems := by
  cases hpc : t.pc with
  | edit pc =>
    rw [hpc] at ha
    simp only [Handler.handlerStep, hpc] at hs
    obtain ⟨⟨s₁, pc'⟩, hstep, he⟩ := Option.map_eq_some_iff.mp hs
    cases he
    have ho := edit_outcome hstep
    have haims : EditPc.Aims c s.cartItems pc := ha
    exact ⟨ho.elsewhere haims.write, ho.lines.keyed hk, afterEdit_aims (edit_aims hk haims hstep)⟩
  | apply q pc =>
    rw [hpc] at ha
    simp only [Handler.handlerStep, hpc] at hs
    obtain ⟨⟨s₁, pc'⟩, hstep, he⟩ := Option.map_eq_some_iff.mp hs
    cases he
    have ho := apply_outcome hstep
    have haims : ApplyPc.Aims c pc := ha
    exact ⟨ho.elsewhere haims.write, ho.lines.keyed hk, afterApply_aims (apply_aims haims hstep)⟩
  | _ =>
    simp only [Handler.handlerStep, hpc] at hs
    obtain ⟨pc', hstep, he⟩ := Option.map_eq_some_iff.mp hs
    cases he
    exact ⟨.refl c s, hk, getStep_aims hstep⟩

theorem parsed_aims {α : Type} {p : Except String α} {next : α → EditPc}
    (hnext : ∀ a, p = .ok a → (next a).Aims c lines) : (EditPc.parsed p next).Aims c lines := by
  cases p with
  | error err => trivial
  | ok a => exact hnext a rfl

theorem found_of_mem {row : CartItem} (hk : Keyed s) (hrow : row ∈ s.cartItems) :
    getCartItemByID s row.id = some row := by
  cases hfind : getCartItemByID s row.id with
  | none => exact absurd (List.find?_eq_none.mp hfind row hrow) (by simp)
  | some found =>
    have hid : found.id = row.id := by simpa using List.find?_some hfind
    rw [List.inj_on_of_nodup_map hk.nodup (List.mem_of_find?_eq_some hfind) hrow hid]

/-- A request aims at the cart of its URL, an `UpdateItem` at that of its line. -/
theorem handlerStart_aims (hk : Keyed s) (hc : h.svc.toUUID r.cartID = .ok c)
    (hown : foreignLine h c s r = none) : (h.handlerStart r).Aims c s.cartItems := by
  have hparse : ∀ {what : String} {n : Nat}, h.svc.parse what r.cartID = .ok n → n = c := by
    intro what n hn
    have hn := (parse_eq_ok hn).symm.trans hc
    exact Except.ok.inj hn
  cases r with
  | get id | quoteTax id =>
    simp only [Handler.handlerStart, Handler.onCart]
    split <;> trivial
  | addItem id payload =>
    cases payload with
    | none => trivial
    | some p =>
      simp only [Handler.handlerStart]
      split
      · trivial
      · split
        · trivial
        · apply afterEdit_aims
          simp only [editStart]
          split
          · trivial
          · refine parsed_aims fun a hargs => ?_
            obtain ⟨cartID, hcart, hargs⟩ := bind_eq_ok hargs
            obtain ⟨productID, _, hargs⟩ := bind_eq_ok hargs
            obtain ⟨variantID, _, hargs⟩ := bind_eq_ok hargs
            cases hargs
            exact hparse hcart
  | updateItem id itemID qty =>
    cases qty with
    | none => trivial
    | some qty =>
      simp only [Handler.handlerStart]
      split
      · trivial
      · apply afterEdit_aims
        simp only [editStart]
        split
        · trivial
        · rename_i hqty _
          refine parsed_aims fun n hn row hrow hid => ?_
          subst hid
          simpa [foreignLine, parse_eq_ok hn, hqty, found_of_mem hk hrow] using hown
  | removeItem id itemID =>
    simp only [Handler.handlerStart]
    apply afterEdit_aims
    refine parsed_aims fun p hp => ?_
    obtain ⟨cartID, hcart, hp⟩ := bind_eq_ok hp
    obtain ⟨line, _, hp⟩ := bind_eq_ok hp
    cases hp
    exact hparse hcart
  | applyVoucher id code =>
    cases code with
    | none => trivial
    | some code =>
      apply afterApply_aims
      unfold applyStart
      split
      · trivial
      · have hid : h.svc.toUUID id = .ok c := hc
        simp only [hid]
        exact rfl
  | removeVoucher id =>
    simp only [Handler.handlerStart]
    apply afterEdit_aims
    exact parsed_aims fun n hn => hparse hn

theorem alone_elsewhere {t t' : HandlerThread} {xs : List (Nat × Call)} (hk : Keyed s)
    (ha : t.pc.Aims c s.cartItems) (hr : h.machine.paced.alone 0 (s, t) xs = some (s', t')) :
    Elsewhere c s s' := by
  have hinv := Machine.alone_inv (M := h.machine.paced) (i := 0)
    (J := fun p => Elsewhere c s p.1 ∧ Keyed p.1 ∧ p.2.pc.Aims c p.1.cartItems) ?_
    ⟨.refl c s, hk, ha⟩ hr
  · exact hinv.1
  · rintro ⟨s₁, t₁⟩ ⟨d, x⟩ ⟨s₂, t₂⟩ ⟨helse, hk₁, ha⟩ hs
    obtain ⟨hstep, hk₂, ha₂⟩ := handlerStep_elsewhere (s := { s₁ with now := s₁.now + d }) (c := c)
      ⟨hk₁.nodup, hk₁.fresh⟩ ha hs
    exact ⟨helse.trans hstep, hk₂, ha₂⟩

/-! ## A line of another cart -/

section

variable {row : CartItem} {qty q subtotal : Int} (hk : Keyed s) (hin : row ∈ s.cartItems)
  (hne : row.cartID ≠ c) (hw : updateCartItemQty s row.id q subtotal = .ok s')
include hk hin hne hw

theorem raised_lines_iff : (∀ k, k ≠ c → linesIn s' k = linesIn s k) ↔
    row.qty = q ∧ row.subtotal = subtotal := by
  have hmap : ∀ k, linesIn s' k = linesIn s k ↔
      ∀ it ∈ linesIn s k, it.setQty row.id q subtotal = it := by
    intro k
    rw [linesIn_raised hw]
    exact (Eq.congr_right (List.map_id _).symm).trans List.map_inj_left
  simp only [hmap]
  constructor
  · intro h
    have hrow := h row.cartID hne row (mem_linesIn.mpr ⟨hin, rfl⟩)
    rw [CartItem.setQty, if_pos rfl] at hrow
    exact ⟨(congrArg CartItem.qty hrow).symm, (congrArg CartItem.subtotal hrow).symm⟩
  · rintro ⟨rfl, rfl⟩ k _ it hit
    unfold CartItem.setQty
    split
    · rename_i hid
      rw [List.inj_on_of_nodup_map hk.nodup (mem_linesIn.mp hit).1 hin hid]
    · rfl

theorem raised_unchanged_iff : (∀ k, k ≠ c → Unchanged s s' k) ↔ row.qty = q ∧ row.subtotal = subtotal := by
  rw [← raised_lines_iff hk hin hne hw]
  obtain ⟨_, _, rfl⟩ := updateCartItemQty_inv hw
  exact forall₂_congr fun k _ => and_iff_left rfl

theorem touched_iff (e now : Int) :
    (∀ k, k ≠ c → Unchanged s (touchCart { s' with now := now } row.cartID e) k) ↔
      (row.qty = q ∧ row.subtotal = subtotal) ∧
        ∀ cart ∈ getCartByID s row.cartID, cart.expiresAt = some e := by
  rw [← raised_lines_iff hk hin hne hw]
  have hcarts : s'.carts = s.carts := by
    obtain ⟨_, _, rfl⟩ := updateCartItemQty_inv hw
    rfl
  have hlines : ∀ k, linesIn (touchCart { s' with now := now } row.cartID e) k = linesIn s' k := by
    intro k
    unfold touchCart
    split <;> rfl
  have hrow : ∀ k, getCartByID (touchCart { s' with now := now } row.cartID e) k =
      (getCartByID s k).map fun cart =>
        if k = row.cartID then { cart with updatedAt := now, expiresAt := some e } else cart := by
    intro k
    by_cases hk : k = row.cartID <;> by_cases hin : row.cartID ∈ s.carts.ids <;>
      simp [touchCart, getCartByID, Table.get?, Table.set, hcarts, hk, hin]
  simp only [Unchanged, hlines, hrow]
  constructor
  · intro hsame
    refine ⟨fun k hk => (hsame k hk).1, fun cart hcart => ?_⟩
    have hexpiry := (hsame row.cartID hne).2
    rw [hcart] at hexpiry
    simpa using hexpiry.symm
  · rintro ⟨hsame, hexpiry⟩ k hk
    refine ⟨hsame k hk, ?_⟩
    cases hcart : getCartByID s k with
    | none => rfl
    | some cart =>
      by_cases hkey : k = row.cartID
      · subst hkey
        simp [hexpiry cart hcart]
      · simp [hkey]

end

theorem foreignLine_start {row : CartItem} {qty : Int} (hforeign : foreignLine h c s r = some (row, qty)) :
    getCartItemByID s row.id = some row ∧ row.cartID ≠ c ∧
      h.machine.start r = ⟨r, .edit (.getItem row.id qty)⟩ := by
  cases r with
  | updateItem id itemID body =>
    cases body with
    | none => cases hforeign
    | some n =>
      simp only [foreignLine] at hforeign
      split at hforeign
      · cases hforeign
      · rename_i key hkey
        split at hforeign
        · cases hforeign
        · rename_i hqty
          obtain ⟨found, hfound, he⟩ := Option.map_eq_some_iff.mp hforeign
          cases he
          obtain ⟨hfind, hne⟩ := Option.filter_eq_some_iff.mp hfound
          obtain rfl : row.id = key := by simpa using List.find?_some hfind
          refine ⟨hfind, of_decide_eq_true hne, ?_⟩
          simp [Handler.machine, Handler.handlerStart, editStart, Service.parse, EditPc.parsed, hkey, hqty,
            Handler.afterEdit]
  | _ => cases hforeign

section

variable {row : CartItem} {qty : Int} {xs : List (Nat × Call)} {t : HandlerThread}

theorem unchanged_of_ended {s₁ : Store} {t₁ : HandlerThread}
    (hr : h.machine.paced.alone 0 (s₁, t₁) xs = some (s', t)) (hk : Keyed s₁)
    (ha : t₁.pc.Aims c s₁.cartItems) :
    (∀ k, k ≠ c → Unchanged s s' k) ↔ ∀ k, k ≠ c → Unchanged s s₁ k :=
  (alone_elsewhere hk ha hr).unchanged_iff

theorem after_raise_iff {q subtotal : Int} {s₁ : Store} (hk : Keyed s) (hin : row ∈ s.cartItems)
    (hne : row.cartID ≠ c) (hw : updateCartItemQty s row.id q subtotal = .ok s₁)
    (hr : h.machine.paced.alone 0 (s₁, ⟨r, .edit (.clock row.cartID)⟩) xs = some (s', t)) :
    (∀ k, k ≠ c → Unchanged s s' k) ↔
      (row.qty = q ∧ row.subtotal = subtotal) ∧ LeavesExpiry h.svc s row s₁.now xs := by
  have hraised := raised_unchanged_iff hk hin hne hw
  have hk₁ : Keyed s₁ := (lineChange_of_apply (v := .setLine row.id q subtotal) hw).keyed hk
  have haims : ∀ lines, (h.afterEdit r (.returned (.ok ()))).Aims c lines :=
    fun _ => afterEdit_aims trivial
  rcases xs with _ | ⟨⟨d, x⟩, xs⟩
  · cases hr
    exact hraised.trans (and_iff_left trivial).symm
  obtain ⟨⟨s₂, t₂⟩, h₂, hr⟩ := run_cons hr
  cases x with
  | fail err => cases h₂
  | ok =>
    cases h₂
    rcases xs with _ | ⟨⟨d', x'⟩, xs⟩
    · cases hr
      exact hraised.trans (and_iff_left trivial).symm
    obtain ⟨⟨s₃, t₃⟩, h₃, hr⟩ := run_cons hr
    cases x' with
    | fail err =>
      cases h₃
      refine (unchanged_of_ended hr ⟨hk₁.nodup, hk₁.fresh⟩ (haims _)).trans ?_
      exact hraised.trans (and_iff_left trivial).symm
    | ok =>
      cases h₃
      refine (unchanged_of_ended hr ?_ (haims _)).trans (touched_iff hk hin hne hw _ _)
      unfold touchCart
      split <;> exact ⟨hk₁.nodup, hk₁.fresh⟩

theorem after_read_iff (hk : Keyed s) (hin : row ∈ s.cartItems) (hne : row.cartID ≠ c)
    (hr : h.machine.paced.alone 0 (s, ⟨r, .edit (.setQty row qty)⟩) xs = some (s', t)) :
    (∀ k, k ≠ c → Unchanged s s' k) ↔ LeavesLine h.svc s row qty s.now xs := by
  have hsame : ∀ k, k ≠ c → Unchanged s s k := fun k _ => ⟨rfl, rfl⟩
  rcases xs with _ | ⟨⟨d, x⟩, xs⟩
  · cases hr
    exact iff_of_true hsame trivial
  obtain ⟨⟨s₁, t₁⟩, h₁, hr⟩ := run_cons hr
  have hk₁ : Keyed { s with now := s.now + d } := ⟨hk.nodup, hk.fresh⟩
  cases x with
  | fail err =>
    cases h₁
    exact iff_of_true ((unchanged_of_ended hr hk₁ trivial).mpr hsame) trivial
  | ok =>
    obtain ⟨⟨s₂, pc⟩, hstep, he⟩ := Option.map_eq_some_iff.mp h₁
    cases he
    simp only [editStep, written] at hstep
    split at hstep <;> rename_i hw <;> cases hstep
    · have hle : int32 qty ≤ 0 := by
        by_contra hpos
        have hfound : getCartItemByID { s with now := s.now + d } row.id = some row := found_of_mem hk₁ hin
        simp [updateCartItemQty, hfound, hpos] at hw
      exact iff_of_true ((unchanged_of_ended hr hk₁ trivial).mpr hsame) (.inl hle)
    · have hpos := (updateCartItemQty_inv hw).1
      have hnow : s₂.now = s.now + d := by
        obtain ⟨_, _, rfl⟩ := updateCartItemQty_inv hw
        rfl
      rw [LeavesLine, or_iff_right (by omega), ← hnow]
      exact after_raise_iff (s := { s with now := s.now + d }) hk₁ hin hne hw hr

theorem foreign_iff (hk : Keyed s) (hforeign : foreignLine h c s r = some (row, qty))
    (hr : handling h r s xs = some (s', t)) :
    (∀ k, k ≠ c → Unchanged s s' k) ↔ WritesNothing h.svc s row qty xs := by
  obtain ⟨hfind, hne, hstart⟩ := foreignLine_start hforeign
  have hsame : ∀ k, k ≠ c → Unchanged s s k := fun k _ => ⟨rfl, rfl⟩
  unfold handling at hr
  rw [hstart] at hr
  rcases xs with _ | ⟨⟨d, x⟩, xs⟩
  · cases hr
    exact iff_of_true hsame trivial
  obtain ⟨⟨s₁, t₁⟩, h₁, hr⟩ := run_cons hr
  have hk₁ : Keyed { s with now := s.now + d } := ⟨hk.nodup, hk.fresh⟩
  cases x with
  | fail err =>
    cases h₁
    exact iff_of_true ((unchanged_of_ended hr hk₁ trivial).mpr hsame) trivial
  | ok =>
    have hget : editStep h.svc { s with now := s.now + d } (.getItem row.id qty) .ok =
        some ({ s with now := s.now + d }, .setQty row qty) := by
      have hfind' : getCartItemByID { s with now := s.now + d } row.id = some row := hfind
      simp only [editStep, hfind']
    obtain ⟨p, hstep, he⟩ := Option.map_eq_some_iff.mp h₁
    obtain rfl := Option.some.inj (hget.symm.trans hstep)
    cases he
    exact after_read_iff hk₁ (List.mem_of_find?_eq_some hfind) hne hr

end

/-- A request addressed at a cart leaves the lines, the voucher and the expiry of every other
cart as they are, whichever of its statements fail, exactly if it is no `UpdateItem` that gets to
a line of another cart, or one that writes nothing there. -/
theorem other_carts_unchanged_iff (h : Handler) (r : HandlerRequest) (c : Nat)
    (hc : h.svc.toUUID r.cartID = .ok c) (s : Store) (hk : Keyed s)
    (xs : List (Nat × Call)) (s' : Store) (t : HandlerThread)
    (hr : handling h r s xs = some (s', t)) :
    (∀ k, k ≠ c → Unchanged s s' k) ↔
      ∀ row qty, foreignLine h c s r = some (row, qty) → WritesNothing h.svc s row qty xs := by
  cases hforeign : foreignLine h c s r with
  | none =>
    refine iff_of_true ?_ nofun
    have helse := alone_elsewhere hk (handlerStart_aims hk hc hforeign) hr
    exact helse.unchanged_iff.mpr fun k _ => ⟨rfl, rfl⟩
  | some p =>
    obtain ⟨row, qty⟩ := p
    rw [foreign_iff hk hforeign hr]
    constructor
    · rintro hnothing _ _ ⟨⟩
      exact hnothing
    · intro hall
      exact hall row qty rfl

/-! ## Two carts -/

/-- Cart 1 has line 10 and cart 2 has line 20, two mugs each. -/
def mugCarts : Store :=
  { emptyStore with
    nextID := 30
    carts := ⟨[1, 2], fun _ => ⟨none, some "guest", none, 0, some 3600, 0⟩⟩
    cartItems := [⟨10, 1, 5, none, "Mug", "mug", 2, 100, 200⟩, ⟨20, 2, 5, none, "Mug", "mug", 2, 100, 200⟩] }

def plainHandler : Handler where
  svc := ⟨7200, 0, none, fun id => match id with
    | "1" => .ok 1
    | "10" => .ok 10
    | "20" => .ok 20
    | _ => .error "invalid UUID length"⟩
  taxBps := 1100
  currency := "IDR"

def patches (itemID : String) : Option (Store × HandlerThread) :=
  handling plainHandler (.updateItem "1" itemID (some 9)) mugCarts (.replicate 7 (1, .ok))

def second (p : Store × HandlerThread) : Bool × List Int × Option Int :=
  ((match p.2.pc with
    | .done (.cart _) => true
    | _ => false), (linesIn p.1 2).map CartItem.qty, (p.1.carts.row 2).expiresAt)

/-- The line belongs to the cart in the URL. -/
theorem own_line_patched :
    ∃ p, patches "10" = some p ∧ (linesIn p.1 1).map CartItem.qty = [9] ∧
      linesIn p.1 2 = linesIn mugCarts 2 ∧
      (getCartByID p.1 2).map (fun row => (row.appliedVoucherCode, row.expiresAt)) =
        (getCartByID mugCarts 2).map fun row => (row.appliedVoucherCode, row.expiresAt) := by
  refine reaches_and (by decide +kernel) fun p hp _ => ?_
  exact (other_carts_unchanged_iff plainHandler (.updateItem "1" "10" (some 9)) 1 rfl mugCarts
    ⟨by decide, by decide⟩ _ p.1 p.2 hp).mpr (fun row qty hforeign => by cases hforeign) 2 (by decide)

/-- The line belongs to the other cart, which gets the quantity and a new expiry. -/
theorem foreign_line_patched :
    (patches "20").map second = some (true, [9], some 7203) ∧
      (linesIn mugCarts 2).map CartItem.qty = [2] ∧ (mugCarts.carts.row 2).expiresAt = some 3600 := by
  decide +kernel

end TokoApi.Cart
