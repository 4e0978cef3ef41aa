import TokoApi.Shop.Lines

/-!
# One active cart per user

`EnsureCart` looks for the newest cart of a user that has not expired. Every
operation extends a cart by its key, whoever owns it and whether or not it has
expired; `Merge` hands an expired cart to the user; and two requests that both find
no cart both create one. A user has at most one active cart in every state exactly
when each write that leaves an active cart with an owner is made while this owner
has no other.
-/
namespace TokoApi.Shop

open Db Cart Lib.Rows Lib.Threads Lib.Runs

def activeCarts (s : Store) (user : Nat) : List Nat :=
  s.carts.ids.filter fun id =>
    (s.carts.row id).userID = some user && (s.carts.row id).active s.now

def OneActive (s : Store) : Prop :=
  ∀ user, ∀ a ∈ activeCarts s user, ∀ b ∈ activeCarts s user, a = b

/-- `EnsureCart` finds the cart of the user that is active. -/
def Resolves (s : Store) : Prop :=
  ∀ user, ∀ id ∈ activeCarts s user, getActiveCartByUser s user = some (id, s.carts.row id)

theorem OneActive.resolves {s : Store} (h : OneActive s) : Resolves s := by
  intro user id hid
  have hnewest : newest (fun id => (s.carts.row id).updatedAt) (activeCarts s user) = some id :=
    newest_of_sole hid fun k hk => h user k hk id hid
  unfold activeCarts at hnewest
  rw [getActiveCartByUser, getActiveCart, hnewest]
  rfl

/-! ## The row that a write leaves -/

def leaves (s : Store) : Write → Option (Nat × Cart)
  | .newCart userID anonID expires (some tenant) =>
    some (s.nextID, ⟨userID, anonID, none, s.now, some expires, tenant⟩)
  | .touch id expires => (s.carts.get? id).map fun cart =>
      (id, { cart with updatedAt := s.now, expiresAt := some expires })
  | .setVoucher id code => (s.carts.get? id).map fun cart =>
      (id, { cart with appliedVoucherCode := code, updatedAt := s.now })
  | .transfer id user => (s.carts.get? id).map fun cart =>
      (id, { cart with userID := some user, anonID := none, updatedAt := s.now })
  | _ => none

/-- If the row has an owner and is active, the owner has no other active cart. -/
abbrev Alone (s : Store) (p : Nat × Cart) : Prop :=
  p.2.active s.now = true → ∀ user ∈ p.2.userID, ∀ k ∈ activeCarts s user, k = p.1

/-- A write that leaves an active cart with an owner is made while the owner has no
other. -/
def KeepsOne (cfg : Config) (c : State) : Label → Prop
  | .act i .ok => ∀ t ∈ c.threads[i]?, ∀ w ∈ t.write cfg.checkout.cartSvc c.shared.now,
      ∀ p ∈ leaves c.shared w, Alone c.shared p
  | _ => True

instance (cfg : Config) (c : State) (a) : Decidable (KeepsOne cfg c a) := by
  rcases a with _ | ⟨_, _ | _⟩ | _ <;> dsimp only [KeepsOne] <;> infer_instance

structure Puts (s s' : Store) (p : Nat × Cart) : Prop where
  now : s'.now = s.now
  ids : ∀ k, k ∈ s'.carts.ids ↔ k = p.1 ∨ k ∈ s.carts.ids
  self : s'.carts.row p.1 = p.2
  other : ∀ k, k ≠ p.1 → s'.carts.row k = s.carts.row k

variable {cfg : Config} {s s' : Store} {i : Nat} {t t' : Thread} {x : Call} {c d : State}
  {a : Label} {p : Nat × Cart}

theorem mem_activeCarts {user id : Nat} : id ∈ activeCarts s user ↔
    id ∈ s.carts.ids ∧ (s.carts.row id).userID = some user ∧ (s.carts.row id).active s.now = true := by
  simp [activeCarts]

theorem Puts.active (h : Puts s s' p) {user k : Nat} : k ∈ activeCarts s' user ↔
    (k = p.1 ∧ p.2.userID = some user ∧ p.2.active s.now = true) ∨
      (k ≠ p.1 ∧ k ∈ activeCarts s user) := by
  rw [mem_activeCarts, mem_activeCarts, h.now, h.ids]
  by_cases hk : k = p.1
  · subst hk
    simp [h.self]
  · simp [h.other k hk, hk]

theorem Puts.oneActive_iff (h : Puts s s' p) (hone : OneActive s) : OneActive s' ↔ Alone s p := by
  have hother : ∀ {user k : Nat}, k ≠ p.1 → (k ∈ activeCarts s' user ↔ k ∈ activeCarts s user) := by
    intro user k hk
    rw [h.active]
    simp [hk]
  have huser : ∀ user,
      (∀ a ∈ activeCarts s' user, ∀ b ∈ activeCarts s' user, a = b) ↔
        (p.1 ∈ activeCarts s' user → ∀ k ∈ activeCarts s user, k = p.1) :=
    fun user => sole_put_iff (fun _ => hother) (hone user)
  refine (forall_congr' huser).trans ?_
  constructor
  · exact fun hall hactive user hu => hall user (h.active.mpr (.inl ⟨rfl, hu, hactive⟩))
  · intro halone user hself
    rcases h.active.mp hself with ⟨_, hu, hactive⟩ | ⟨hne, _⟩
    · exact halone hactive user hu
    · exact absurd rfl hne

theorem puts_set {id : Nat} {cart : Cart} (hid : id ∈ s.carts.ids) :
    Puts s { s with carts := s.carts.set id cart } (id, cart) where
  now := rfl
  ids k := by
    rw [Table.set_ids]
    exact ⟨.inr, fun h => h.elim (fun h => h ▸ hid) fun h => h⟩
  self := Table.set_row_self _ _ _
  other k hk := Table.set_row_ne _ _ hk

/-- A write leaves its row, or no cart changes. -/
theorem apply_puts {w : Write} (h : w.apply s = .ok s') :
    (∃ p, leaves s w = some p ∧ Puts s s' p) ∨
      (leaves s w = none ∧ s'.carts = s.carts ∧ s'.now = s.now) := by
  have hset : ∀ {id : Nat} {f : Cart → Cart} {s' : Store},
      s' = (if id ∈ s.carts.ids then { s with carts := s.carts.set id (f (s.carts.row id)) } else s) →
      (∃ p, (s.carts.get? id).map (fun cart => (id, f cart)) = some p ∧ Puts s s' p) ∨
        ((s.carts.get? id).map (fun cart => (id, f cart)) = none ∧
          s'.carts = s.carts ∧ s'.now = s.now) := by
    intro id f s' hs
    unfold Table.get?
    by_cases hid : id ∈ s.carts.ids
    · rw [if_pos hid] at hs ⊢
      exact .inl ⟨_, rfl, hs ▸ puts_set hid⟩
    · rw [if_neg hid] at hs ⊢
      exact .inr ⟨rfl, by rw [hs], by rw [hs]⟩
  cases w with
  | touch id expires =>
    cases h
    exact hset (f := fun cart => { cart with updatedAt := s.now, expiresAt := some expires }) rfl
  | setVoucher id code =>
    cases h
    exact hset (f := fun cart => { cart with appliedVoucherCode := code, updatedAt := s.now }) rfl
  | transfer id user =>
    cases h
    exact hset
      (f := fun cart => { cart with userID := some user, anonID := none, updatedAt := s.now }) rfl
  | newCart userID anonID expires tenant =>
    cases tenant <;> cases h
    refine .inl ⟨_, rfl, rfl, fun k => ?_, ?_, fun k hk => ?_⟩
    · simp [Table.insert, or_comm]
    · simp [Table.insert]
    · simp [Table.insert, hk]
  | setLine id qty subtotal =>
    obtain ⟨_, _, rfl⟩ := updateCartItemQty_inv h
    exact .inr ⟨rfl, rfl, rfl⟩
  | addLine item =>
    obtain ⟨_, _, rfl⟩ := createCartItem_inv h
    exact .inr ⟨rfl, rfl, rfl⟩
  | dropLine id cart =>
    cases h
    exact .inr ⟨rfl, rfl, rfl⟩

theorem refused_leaves {w : Write} {err : String} (h : w.apply s = .error err) :
    leaves s w = none := by
  cases w with
  | newCart userID anonID expires tenant => cases tenant <;> first | rfl | cases h
  | setLine id qty subtotal | addLine item => rfl
  | _ => cases h

/-! ## Whole runs -/

theorem activeCarts_congr (hc : s'.carts = s.carts) (hn : s'.now = s.now) (user : Nat) :
    activeCarts s' user = activeCarts s user := by
  rw [activeCarts, activeCarts, hc, hn]

theorem oneActive_congr (hc : s'.carts = s.carts) (hn : s'.now = s.now) :
    OneActive s' ↔ OneActive s := by
  simp only [OneActive, activeCarts_congr hc hn]

theorem oneActive_tick {n : Nat} (h : OneActive s) : OneActive { s with now := s.now + n } := by
  have hback : ∀ {user k : Nat}, k ∈ activeCarts { s with now := s.now + n } user →
      k ∈ activeCarts s user := by
    intro user k hk
    obtain ⟨hid, hu, hact⟩ := mem_activeCarts.mp hk
    refine mem_activeCarts.mpr ⟨hid, hu, ?_⟩
    have hcarts : ({ s with now := s.now + n } : Store).carts = s.carts := rfl
    rw [hcarts] at hact
    unfold Cart.active at hact ⊢
    cases he : (s.carts.row k).expiresAt with
    | none => rfl
    | some e =>
      simp only [he, Option.all_some, decide_eq_true_eq] at hact ⊢
      omega
  exact fun user a ha b hb => h user a (hback ha) b (hback hb)

theorem oneActive_step_iff (hone : OneActive c.shared) (h : (shopMachine cfg).step c a = some d) :
    OneActive d.shared ↔ KeepsOne cfg c a := by
  cases Machine.step_effect h with
  | spawn r =>
    exact iff_of_true hone trivial
  | env hs =>
    cases hs
    exact iff_of_true (oneActive_tick hone) trivial
  | @act i x t _ _ ht hl =>
    have hcond : KeepsOne cfg c (.act i x) ↔ (x = .ok →
        ∀ w ∈ t.write cfg.checkout.cartSvc c.shared.now, ∀ p ∈ leaves c.shared w,
          Alone c.shared p) := by
      cases x <;> simp [KeepsOne, ht]
    rw [hcond]
    cases step_cart hl with
    | kept hw hc _ _ hn =>
      refine iff_of_true ((oneActive_congr hc hn).mpr hone) fun _ w hmem => ?_
      rw [hw] at hmem
      cases hmem
    | outcome ho =>
      refine ho.keeps_iff (R := OneActive) hone (fun w _ hs => ?_) fun w err hs p hp => ?_
      · obtain ⟨p, hp, hputs⟩ | ⟨hnone, hc, hn⟩ := apply_puts hs
        · rw [hp, hputs.oneActive_iff hone]
          simp
        · rw [hnone]
          exact iff_of_true ((oneActive_congr hc hn).mpr hone) (by simp)
      · rw [refused_leaves hs] at hp
        cases hp

/-- Along every run of the shop from a store in which every user has at most one
active cart, this holds in every state, and `EnsureCart` finds that cart, exactly
when every write keeps it. -/
theorem one_active_cart_iff (cfg : Config) (s₀ : Store) (hone : OneActive s₀) (acts : List Label)
    (c : State) (hr : run (shopMachine cfg).step ⟨s₀, []⟩ acts = some c) :
    (∀ n d, run (shopMachine cfg).step ⟨s₀, []⟩ (acts.take n) = some d →
      OneActive d.shared ∧ Resolves d.shared) ↔
      Meets (shopMachine cfg).step (KeepsOne cfg) ⟨s₀, []⟩ acts := by
  rw [← always_iff_meets (I := fun _ => True) (P := fun c : State => OneActive c.shared)
    (fun _ _ _ _ _ _ => trivial) (fun _ _ _ _ ho hs => oneActive_step_iff ho hs) trivial hone hr]
  exact ⟨fun h n d hd => (h n d hd).1, fun h n d hd => ⟨h n d hd, (h n d hd).resolves⟩⟩

/-! ## A guest who signs in -/

def ensures (i : Nat) (user anon : Option String) : List Label :=
  request i (.cart (.ensure ⟨user, anon, some "1"⟩)) 3

/-- User 2 gets cart 100, a guest gets cart 101 and puts something into it; then the
guest signs in as user 2. -/
def signsIn : List Label :=
  ensures 0 (some "2") none ++ ensures 1 none (some "guest") ++
    request 2 (.cart (.edit (.addItem "101" "2" none 1))) 5 ++
    request 3 (.cart (.merge ⟨"101", "2", some "1"⟩)) 13

theorem oneActive_emptyCart : OneActive emptyCart := by
  intro user a ha b hb
  have hids : ∀ k, k ∈ activeCarts emptyCart user → k = 11 :=
    fun k hk => List.mem_singleton.mp (mem_activeCarts.mp hk).1
  rw [hids a ha, hids b hb]

theorem signed_in_one_active :
    ∃ c, run (shopMachine numeralShop).step ⟨emptyCart, []⟩ signsIn = some c ∧
      activeCarts c.shared 2 = [100] ∧ OneActive c.shared ∧ Resolves c.shared := by
  refine reaches_and (by decide +kernel) fun c hc _ => ?_
  have hall := (one_active_cart_iff numeralShop emptyCart oneActive_emptyCart _ c hc).mpr
    (by decide +kernel)
  exact hall _ c (run_take_length hc)

/-- A request that still names the guest's cart makes it the second active cart of the
user, and `EnsureCart` then finds it in place of cart 100. Two requests that look for
a cart before either has created one give the user two as well. -/
theorem two_active_carts :
    ((run (shopMachine numeralShop).step ⟨emptyCart, []⟩
        (signsIn ++ .env 1 :: request 4 (.cart (.edit (.addItem "101" "2" none 1))) 4)).map fun c =>
      (activeCarts c.shared 2, (getActiveCartByUser c.shared 2).map Prod.fst)) =
        some ([100, 101], some 101) ∧
    ((run (shopMachine numeralShop).step ⟨emptyCart, []⟩
        [.spawn (.cart (.ensure ⟨some "2", none, some "1"⟩)),
          .spawn (.cart (.ensure ⟨some "2", none, some "1"⟩)),
          .act 0 .ok, .act 0 .ok, .act 1 .ok, .act 1 .ok, .act 0 .ok, .act 1 .ok]).map fun c =>
      activeCarts c.shared 2) = some [100, 101] := by
  decide +kernel

end TokoApi.Shop
