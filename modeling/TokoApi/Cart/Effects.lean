import TokoApi.Cart.Merge

/-!
# What one step of the cart service can do

A step executes at most one statement that writes. `Write` lists these, with the
values a request writes, and `Thread.write` gives the one that a request is about
to execute. The invariants of carts and lines are proved from `step_write` and do
not look at the step functions again.
-/
namespace TokoApi.Cart

open Db Lib.Threads Lib.Wrap

inductive Write where
  | setLine (id : Nat) (qty subtotal : Int)
  | addLine (item : CartItem)
  | dropLine (id cart : Nat)
  | newCart (userID : Option Nat) (anonID : Option String) (expires : Int) (tenant : Option Nat)
  | touch (id : Nat) (expires : Int)
  | setVoucher (id : Nat) (code : Option String)
  | transfer (id user : Nat)
  deriving DecidableEq

def Write.apply (s : Store) : Write → Except String Store
  | .setLine id qty subtotal => updateCartItemQty s id qty subtotal
  | .addLine item => createCartItem s item
  | .dropLine id cart => .ok (deleteCartItem s id cart)
  | .newCart userID anonID expires tenant =>
    (createCart s userID anonID expires tenant).map Prod.fst
  | .touch id expires => .ok (touchCart s id expires)
  | .setVoucher id code => .ok (updateCartVoucher s id code)
  | .transfer id user => .ok (transferCartToUser s id user)

def EditPc.write : EditPc → Option Write
  | .addQty a _ item =>
    some (.setLine item.id (int32 (item.qty + int32 a.qty))
      (int64 (int32 (item.qty + int32 a.qty) * item.unitPrice)))
  | .createItem a _ p price => some (.addLine (newLine a p price))
  | .setQty item qty => some (.setLine item.id (int32 qty) (int64 (qty * item.unitPrice)))
  | .deleteItem cart item => some (.dropLine item cart)
  | .clearVoucher cart => some (.setVoucher cart none)
  | .touchCart cart e => some (.touch cart e)
  | _ => none

def Owner.write (expires : Int) (tenant : Option Nat) : Owner → Write
  | .user id => .newCart (some id) none expires tenant
  | .anon id => .newCart none (some id) expires tenant

def EnsurePc.write (svc : Service) (tenant : Option String) : EnsurePc → Option Write
  | .createCart o e => some (o.write e (svc.resolveTenant tenant))
  | .touchCart id _ e => some (.touch id e)
  | _ => none

def MergePc.write (svc : Service) (a : MergeArgs) : MergePc → Option Write
  | .ensure pc => pc.write svc a.request.tenant
  | .setQty _ existing item _ =>
    some (.setLine existing.id item.qty (int64 (item.qty * existing.unitPrice)))
  | .createItem cart item _ => some (.addLine { item with cartID := cart })
  | .touchUser cart e => some (.touch cart e)
  | .touchGuest _ e => some (.touch a.guest e)
  | .clearVoucher _ => some (.setVoucher a.guest none)
  | .transfer _ => some (.transfer a.guest a.user)
  | _ => none

/-- `ApplyVoucher` reads the clock with its last statement. -/
def ApplyPc.write (svc : Service) (now : Int) : ApplyPc → Option Write
  | .updateCart id code _ => some (.setVoucher id (some code))
  | .touchCart id _ => some (.touch id (svc.expiry now))
  | _ => none

def Thread.write (svc : Service) : Thread → Option Write
  | .edit _ pc => pc.write
  | .ensure tenant pc => pc.write svc tenant
  | .merge a pc => pc.write svc a

/-- What comes of a statement: it is executed, or a constraint refuses it, or it is
no write or a call that fails. -/
inductive Outcome (s : Store) (w : Option Write) (x : Call) : Store → Prop where
  | done {v : Write} {s'} (hw : w = some v) (hx : x = .ok) (hs : v.apply s = .ok s') :
      Outcome s w x s'
  | refused {v : Write} {err} (hw : w = some v) (hx : x = .ok) (hs : v.apply s = .error err) :
      Outcome s w x s
  | none (hw : w = none ∨ x ≠ .ok) : Outcome s w x s

variable {svc : Service} {s s' : Store} {x : Call} {w : Option Write}

theorem written_outcome {π : Type} {fails : String → π} {pc pc' : π} {v : Write}
    (hw : w = some v) (h : written s fails pc (v.apply s) = some (s', pc')) :
    Outcome s w .ok s' := by
  cases hr : v.apply s with
  | error err =>
    rw [hr] at h
    cases h
    exact .refused hw rfl hr
  | ok s₁ =>
    rw [hr] at h
    cases h
    exact .done hw rfl hr

theorem edit_outcome {pc pc' : EditPc} (h : editStep svc s pc x = some (s', pc')) :
    Outcome s pc.write x s' := by
  cases x with
  | fail err => cases pc <;> cases h <;> exact .none (.inr nofun)
  | ok =>
    cases pc with
    | addQty a expires item | createItem a expires p price | setQty item qty =>
      exact written_outcome rfl h
    | deleteItem cart item | clearVoucher cart | touchCart cart expires =>
      cases h
      exact .done rfl rfl rfl
    | expires a | clock cart =>
      cases h
      exact .none (.inl rfl)
    | findItem a expires | getItem id qty =>
      simp only [editStep] at h
      split at h <;> cases h <;> exact .none (.inl rfl)
    | getProduct a expires =>
      simp only [editStep] at h
      split at h
      · cases h
        exact .none (.inl rfl)
      · split at h <;> cases h <;> exact .none (.inl rfl)
    | getVariant a expires variant p =>
      simp only [editStep] at h
      split at h
      · cases h
        exact .none (.inl rfl)
      · split at h
        · cases h
          exact .none (.inl rfl)
        · split at h <;> cases h <;> exact .none (.inl rfl)
    | returned r => cases h

theorem ensure_outcome {tenant : Option String} {pc pc' : EnsurePc}
    (h : ensureStep svc tenant s pc x = some (s', pc')) : Outcome s (pc.write svc tenant) x s' := by
  cases x with
  | fail err => cases pc <;> cases h <;> exact .none (.inr nofun)
  | ok =>
    cases pc with
    | expires o =>
      cases h
      exact .none (.inl rfl)
    | getActive o expires =>
      simp only [ensureStep] at h
      split at h <;> cases h <;> exact .none (.inl rfl)
    | createCart o expires =>
      simp only [ensureStep] at h
      have happly : (o.write expires (svc.resolveTenant tenant)).apply s =
          (o.createCart s expires (svc.resolveTenant tenant)).map Prod.fst := by
        cases o <;> rfl
      split at h <;> rename_i hc <;> cases h
      · exact .refused rfl rfl (by rw [happly, hc]; rfl)
      · exact .done rfl rfl (by rw [happly, hc]; rfl)
    | touchCart id cart expires =>
      cases h
      exact .done rfl rfl rfl
    | returned r => cases h

theorem merge_outcome {a : MergeArgs} {pc pc' : MergePc}
    (h : mergeStep svc a s pc x = some (s', pc')) : Outcome s (pc.write svc a) x s' := by
  cases pc with
  | ensure pc =>
    obtain ⟨pc₁, hs, rfl⟩ := lifted_inv h
    exact ensure_outcome hs
  | setQty cart existing item rest | createItem cart item rest =>
    cases x with
    | ok => exact written_outcome rfl h
    | fail err =>
      cases h
      exact .none (.inr nofun)
  | getGuest | findItem cart item rest =>
    cases x with
    | ok =>
      simp only [mergeStep] at h
      split at h <;> cases h <;> exact .none (.inl rfl)
    | fail err =>
      cases h
      exact .none (.inr nofun)
  | listItems cart | expires cart | clock cart =>
    cases x <;> cases h <;> exact .none (.inl rfl)
  | touchUser cart expires | touchGuest cart expires | clearVoucher cart | transfer cart =>
    cases x with
    | ok =>
      cases h
      exact .done rfl rfl rfl
    | fail err =>
      cases h
      exact .none (.inr nofun)
  | returned r => cases x <;> cases h

theorem apply_outcome {r : ApplyRequest} {pc pc' : ApplyPc}
    (h : applyStep svc s r pc x = some (s', pc')) : Outcome s (pc.write svc s.now) x s' := by
  cases pc with
  | eval a pc =>
    obtain ⟨pc₁, _, he⟩ := Option.map_eq_some_iff.mp h
    cases he
    exact .none (.inl rfl)
  | getCart id =>
    cases x with
    | ok =>
      simp only [applyStep] at h
      split at h <;> cases h <;> exact .none (.inl rfl)
    | fail err =>
      cases h
      exact .none (.inl rfl)
  | updateCart id code discount | touchCart id discount =>
    cases x with
    | ok =>
      cases h
      exact .done rfl rfl rfl
    | fail err =>
      cases h
      exact .none (.inr nofun)
  | returned res => cases h

theorem step_write {t t' : Thread} (h : cartStep svc s t x = some (s', t')) :
    Outcome s (t.write svc) x s' := by
  cases t <;> obtain ⟨pc', hs, rfl⟩ := lifted_inv h
  case edit r pc => exact edit_outcome hs
  case ensure tenant pc => exact ensure_outcome hs
  case merge a pc => exact merge_outcome hs

/-- The cart of a statement on the row of one cart. -/
def Write.cart? : Write → Option Nat
  | .touch id _ | .setVoucher id _ | .transfer id _ => some id
  | _ => none

def Write.sparesLines : Write → Bool
  | .setLine _ _ _ | .addLine _ | .dropLine _ _ => false
  | _ => true

variable {v : Write} {id : Nat}

theorem apply_cart (hv : v.cart? = some id) (h : v.apply s = .ok s') :
    s' = s ∨ ∃ row, s' = { s with carts := s.carts.set id row } := by
  cases v with
  | touch | setVoucher | transfer =>
    cases hv
    cases h
    simp only [touchCart, updateCartVoucher, transferCartToUser]
    split
    · exact .inr ⟨_, rfl⟩
    · exact .inl rfl
  | _ => cases hv

theorem apply_cartItems (hv : v.sparesLines = true) (h : v.apply s = .ok s') :
    s'.cartItems = s.cartItems := by
  cases v with
  | newCart userID anonID expires tenant =>
    cases tenant <;> cases h
    rfl
  | touch | setVoucher | transfer => obtain rfl | ⟨row, rfl⟩ := apply_cart rfl h <;> rfl
  | setLine | addLine | dropLine => cases hv

theorem ensure_sparesLines {tenant : Option String} {pc : EnsurePc} (h : pc.write svc tenant = some v) :
    v.sparesLines = true := by
  cases pc with
  | createCart o e =>
    cases h
    cases o <;> rfl
  | touchCart id cart e =>
    cases h
    rfl
  | _ => cases h

theorem apply_frame (h : v.apply s = .ok s') :
    s' = { s with nextID := s'.nextID, carts := s'.carts, cartItems := s'.cartItems } ∧
      s.nextID ≤ s'.nextID := by
  cases v with
  | setLine id qty subtotal =>
    simp only [Write.apply, updateCartItemQty] at h
    split at h
    · cases h
    · split at h <;> cases h
      exact ⟨rfl, le_rfl⟩
  | addLine item =>
    simp only [Write.apply, createCartItem] at h
    split at h
    · cases h
    · split at h <;> cases h
      exact ⟨rfl, Nat.le_succ _⟩
  | dropLine id cart =>
    cases h
    exact ⟨rfl, le_rfl⟩
  | newCart userID anonID expires tenant =>
    cases tenant <;> cases h
    exact ⟨rfl, Nat.le_succ _⟩
  | touch | setVoucher | transfer =>
    obtain rfl | ⟨row, rfl⟩ := apply_cart rfl h <;> exact ⟨rfl, le_rfl⟩

theorem Outcome.frame (h : Outcome s w x s') :
    s' = { s with nextID := s'.nextID, carts := s'.carts, cartItems := s'.cartItems } ∧
      s.nextID ≤ s'.nextID := by
  cases h with
  | done _ _ hs => exact apply_frame hs
  | refused | none => exact ⟨rfl, le_rfl⟩

theorem Outcome.keeps_iff {R : Store → Prop} {Q : Write → Prop}
    (h : Outcome s w x s') (hR : R s) (hdone : ∀ v, w = some v → v.apply s = .ok s' → (R s' ↔ Q v))
    (hrefused : ∀ v err, v.apply s = .error err → Q v) :
    R s' ↔ (x = .ok → ∀ v ∈ w, Q v) := by
  cases h with
  | @done v _ hw hx hs =>
    rw [hdone v hw hs]
    refine ⟨fun hQ _ v' hv' => ?_, fun hQ => hQ hx v hw⟩
    obtain rfl := Option.some.inj (hw.symm.trans hv')
    exact hQ
  | refused hw _ hs =>
    refine iff_of_true hR fun _ v hv => ?_
    obtain rfl := Option.some.inj (hw.symm.trans hv)
    exact hrefused _ _ hs
  | none hnone =>
    refine iff_of_true hR fun hx v hv => ?_
    rcases hnone with hw | hne
    · rw [hw] at hv
      cases hv
    · exact absurd hx hne

end TokoApi.Cart
