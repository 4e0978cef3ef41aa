import TokoApi.Lib.Upsert
import TokoApi.Cart.AddItem

/-!
# What Merge makes of two carts

`Merge` looks up each line of the guest's cart among the lines of the user's cart, as
they are after the lines before it, and raises the line it finds or inserts one. The
loop is an instance of `Lib.Upsert`: the larger quantity wins, so a line that has been
merged stays merged. This gives the quantities after a `Merge`, that another `Merge`
of the same cart changes nothing, and that a `Merge` which stops anywhere can be
begun again.
-/
namespace TokoApi.Cart

open Db Lib.Rows Lib.Threads Lib.Runs Lib.Upsert Lib.Wrap

def cartMachine (svc : Service) : Machine Store Thread Request Call Nat where
  start := start svc
  lstep _ := cartStep svc
  estep := tick

/-- A `Merge` while no other request runs; time passes before each statement. -/
def merging (svc : Service) (r : MergeRequest) (s : Store) (xs : List (Nat × Call)) :
    Option (Store × Thread) :=
  (cartMachine svc).paced.alone 0 (s, start svc (.merge r)) xs

/-- The cart has not expired at any statement of the `Merge`. -/
abbrev Lives (svc : Service) (r : MergeRequest) (cart : Nat) (s : Store) (xs : List (Nat × Call)) :
    Prop :=
  Meets (fun p x => (cartMachine svc).paced.lstep 0 p.1 p.2 x)
    (fun p x => (p.1.carts.row cart).active (p.1.now + x.1) = true) (s, start svc (.merge r)) xs

/-! ## The loop as a rule -/

def goods (it : CartItem) : Nat × Option Nat := (it.productID, it.variantID)

def larger (item it : CartItem) : CartItem :=
  if it.qty < item.qty then
    { it with qty := item.qty, subtotal := int64 (item.qty * it.unitPrice) }
  else it

theorem larger_qty (item it : CartItem) : (larger item it).qty = max it.qty item.qty := by
  unfold larger
  split
  · exact (max_eq_right (le_of_lt ‹_›)).symm
  · exact (max_eq_left (not_lt.mp ‹_›)).symm

theorem larger_unitPrice (item it : CartItem) : (larger item it).unitPrice = it.unitPrice := by
  unfold larger
  split <;> rfl

theorem larger_eq_self {item it : CartItem} : larger item it = it ↔ item.qty ≤ it.qty := by
  constructor
  · intro h
    have hqty := larger_qty item it
    rw [h] at hqty
    omega
  · exact fun h => if_neg (not_lt.mpr h)

/-- The rule of the loop, for lines without their keys. -/
def mergeRule (cart : Nat) : Rule CartItem CartItem (Nat × Option Nat) where
  key := goods
  keyOf := goods
  make item := { item with id := 0, cartID := cart }
  join := larger
  key_make _ := rfl
  key_join item it := by
    unfold larger
    split <;> rfl

theorem mergeRule_lasting (cart : Nat) : (mergeRule cart).Lasting where
  make _ := larger_eq_self.mpr le_rfl
  join item it := larger_eq_self.mpr ((le_max_right _ _).trans_eq (larger_qty item it).symm)
  later item other it h := by
    have hle : item.qty ≤ it.qty := larger_eq_self.mp h
    exact larger_eq_self.mpr (hle.trans ((le_max_left _ _).trans_eq (larger_qty other it).symm))

/-! ## The lines of a cart -/

def linesIn (s : Store) (cart : Nat) : List CartItem := s.cartItems.filter fun it => it.cartID = cart

def unkeyed (it : CartItem) : CartItem := { it with id := 0 }

def shown (s : Store) (cart : Nat) : List CartItem := (linesIn s cart).map unkeyed

variable {svc : Service} {a : MergeArgs} {s s' : Store} {x : Call} {pc pc' : MergePc} {it : CartItem}
  {cart k u : Nat} {item existing : CartItem} {rest : List CartItem}

theorem mem_linesIn : it ∈ linesIn s cart ↔ it ∈ s.cartItems ∧ it.cartID = cart := by
  simp [linesIn]

theorem mem_shown (h : it ∈ linesIn s cart) : unkeyed it ∈ shown s cart := List.mem_map_of_mem h

theorem linesIn_congr (h : s'.cartItems = s.cartItems) : linesIn s' cart = linesIn s cart := by
  rw [linesIn, linesIn, h]

theorem shown_congr (h : linesIn s' cart = linesIn s cart) : shown s' cart = shown s cart := by
  rw [shown, shown, h]

theorem shown_goods : (shown s cart).map goods = (linesIn s cart).map goods := by
  rw [shown, List.map_map]
  rfl

theorem listCartItems_eq : listCartItems s cart =
    (linesIn s cart).insertionSort fun a b => a.precedes b := rfl

variable {p user : Nat} {v : Option Nat}

theorem linesOf_eq : linesOf s ⟨cart, p, v⟩ = (linesIn s cart).filter (goods · = (p, v)) := by
  rw [linesOf, linesIn, List.filter_filter]
  refine List.filter_congr fun it _ => ?_
  simp only [Slot.holds, goods, Prod.mk.injEq, Bool.decide_and]
  cases decide (it.cartID = cart) <;> simp

/-! ## One step of the loop -/

def MergePc.Fresh (s : Store) : MergePc → Prop
  | .setQty cart existing item _ =>
    existing ∈ linesIn s cart ∧ goods existing = goods item ∧ existing.qty < item.qty
  | .createItem cart item _ => ∀ it ∈ linesIn s cart, goods it ≠ goods item
  | _ => True

inductive Position where
  | before
  | inLoop (cart : Nat) (rest : List CartItem)
  | failed

def MergePc.position : MergePc → Position
  | .getGuest | .ensure _ | .listItems _ => .before
  | .findItem cart item rest | .setQty cart _ item rest | .createItem cart item rest =>
    .inLoop cart (item :: rest)
  | .expires cart | .touchUser cart _ | .clock cart | .touchGuest cart _ | .clearVoucher cart
  | .transfer cart | .returned (.ok cart) => .inLoop cart []
  | .returned (.error _) => .failed

def MergePc.closing : MergePc → Bool
  | .clearVoucher _ | .transfer _ | .returned (.ok _) => true
  | _ => false

structure Absorbs (s s' : Store) (cart : Nat) (item : CartItem) : Prop where
  merged : ((linesIn s cart).map goods).Nodup →
    shown s' cart = (mergeRule cart).upsert (shown s cart) item
  others : ∀ k, k ≠ cart → linesIn s' k = linesIn s k
  settled : (mergeRule cart).Settled (shown s cart) item → s'.cartItems = s.cartItems

inductive Advance (a : MergeArgs) (s s' : Store) : Position → Position → Prop where
  | stays {p : Position} (hs : s'.cartItems = s.cartItems) : Advance a s s' p p
  | fails {p : Position} (hs : s'.cartItems = s.cartItems) : Advance a s s' p .failed
  | lists {cart : Nat} (hs : s'.cartItems = s.cartItems) :
      Advance a s s' .before (.inLoop cart (listCartItems s a.guest))
  | absorbs {cart : Nat} {item : CartItem} {rest : List CartItem} (h : Absorbs s s' cart item) :
      Advance a s s' (.inLoop cart (item :: rest)) (.inLoop cart rest)

theorem nextLine_position : (nextLine cart rest).position = .inLoop cart rest := by
  cases rest <;> rfl

theorem nextLine_fresh : (nextLine cart rest).Fresh s := by
  cases rest <;> trivial

theorem afterEnsure_position (pc : EnsurePc) :
    (afterEnsure pc).position = .before ∨ (afterEnsure pc).position = .failed := by
  unfold afterEnsure
  split
  · exact .inr rfl
  · exact .inl rfl
  · exact .inl rfl

theorem afterEnsure_fresh {pc : EnsurePc} : (afterEnsure pc).Fresh s := by
  unfold afterEnsure
  split <;> trivial

/-! ### The statements on lines -/

theorem ensure_cartItems {tenant : Option String} {pc pc' : EnsurePc}
    (h : ensureStep svc tenant s pc x = some (s', pc')) : s'.cartItems = s.cartItems := by
  cases ensure_outcome h with
  | refused | none => rfl
  | done hw _ hs => exact apply_cartItems (ensure_sparesLines hw) hs

theorem eq_existing (hone : ((linesIn s cart).map goods).Nodup) (hin : existing ∈ linesIn s cart)
    (hg : goods existing = goods item) (hit : it ∈ linesIn s cart) (h : goods it = goods item) :
    it = existing :=
  List.inj_on_of_nodup_map hone hit hin (h.trans hg.symm)

theorem absorbs_found (hin : existing ∈ linesIn s cart) (hg : goods existing = goods item)
    (hq : ¬ existing.qty < item.qty) : Absorbs s s cart item where
  merged hone := by
    refine (Rule.upsert_settled ⟨⟨_, mem_shown hin, hg⟩, ?_⟩).symm
    refine List.forall_mem_map.mpr fun it hit h => larger_eq_self.mpr ?_
    rw [eq_existing hone hin hg hit h]
    exact not_lt.mp hq
  others _ _ := rfl
  settled _ := rfl

theorem linesIn_raised {id : Nat} {qty subtotal : Int}
    (h : updateCartItemQty s id qty subtotal = .ok s') :
    linesIn s' k = (linesIn s k).map (CartItem.setQty id qty subtotal) := by
  obtain ⟨_, _, rfl⟩ := updateCartItemQty_inv h
  have hcart : (fun it : CartItem => decide (it.cartID = k)) ∘ CartItem.setQty id qty subtotal =
      fun it => decide (it.cartID = k) :=
    funext fun it => by simp only [Function.comp, setQty_same.1]
  simp only [linesIn, List.filter_map, hcart]

theorem absorbs_raised (hk : Keyed s) (hin : existing ∈ linesIn s cart)
    (hg : goods existing = goods item) (hq : existing.qty < item.qty)
    (h : updateCartItemQty s existing.id item.qty (int64 (item.qty * existing.unitPrice)) = .ok s') :
    Absorbs s s' cart item where
  merged hone := by
    rw [Rule.upsert_found ⟨_, mem_shown hin, hg⟩, shown, linesIn_raised h, shown, List.map_map,
      List.map_map]
    refine List.map_congr_left fun it hit => ?_
    by_cases hgoods : goods it = goods item
    · obtain rfl := eq_existing hone hin hg hit hgoods
      have htouch : (mergeRule cart).touch item (unkeyed it) = larger item (unkeyed it) := if_pos hg
      have hlarger : larger item (unkeyed it) = _ := if_pos hq
      have hset : it.setQty it.id item.qty (int64 (item.qty * it.unitPrice)) = _ := if_pos rfl
      rw [Function.comp, Function.comp, htouch, hlarger, hset]
      rfl
    · have hne : it.id ≠ existing.id := fun hid => hgoods <| by
        rw [List.inj_on_of_nodup_map hk.nodup (mem_linesIn.mp hit).1 (mem_linesIn.mp hin).1 hid, hg]
      have htouch : (mergeRule cart).touch item (unkeyed it) = unkeyed it := if_neg hgoods
      rw [Function.comp, Function.comp, htouch, CartItem.setQty, if_neg hne]
  others k hne := by
    rw [linesIn_raised h]
    refine (List.map_congr_left fun it hit => if_neg fun hid => hne ?_).trans (List.map_id _)
    obtain ⟨hmem, rfl⟩ := mem_linesIn.mp hit
    obtain ⟨hmem', rfl⟩ := mem_linesIn.mp hin
    rw [List.inj_on_of_nodup_map hk.nodup hmem hmem' hid]
  settled hs := by
    have hle : item.qty ≤ (unkeyed existing).qty := larger_eq_self.mp (hs.2 _ (mem_shown hin) hg)
    exact absurd hq (not_lt.mpr hle)

theorem absorbs_inserted (hmiss : ∀ it ∈ linesIn s cart, goods it ≠ goods item)
    (h : createCartItem s { item with cartID := cart } = .ok s') : Absorbs s s' cart item := by
  have hshown : ∀ it ∈ shown s cart, goods it ≠ goods item := List.forall_mem_map.mpr hmiss
  obtain ⟨_, _, rfl⟩ := createCartItem_inv h
  constructor
  case merged =>
    intro _
    rw [Rule.upsert_missing hshown]
    simp [shown, linesIn, unkeyed, mergeRule]
  case others =>
    intro k hne
    simp [linesIn, hne.symm]
  case settled =>
    rintro ⟨⟨it, hit, hg⟩, _⟩
    exact absurd hg (hshown it hit)

/-- What one statement of `Merge` can do. The errors of the last four are discarded. -/
inductive MergeEffect (svc : Service) (a : MergeArgs) (s : Store) :
    MergePc → Store → MergePc → Prop where
  | fails {pc : MergePc} {err} (hpc : pc.closing = false) : MergeEffect svc a s pc s (.fails err)
  | enters : MergeEffect svc a s .getGuest s (afterEnsure (a.ensureStart svc))
  | ensures {pc pc' : EnsurePc} {x : Call} {s' : Store}
      (h : ensureStep svc a.request.tenant s pc x = some (s', pc')) :
      MergeEffect svc a s (.ensure pc) s' (afterEnsure pc')
  | lists {cart : Nat} :
      MergeEffect svc a s (.listItems cart) s (nextLine cart (listCartItems s a.guest))
  | found {cart : Nat} {item existing : CartItem} {rest : List CartItem}
      (h : findCartItemByProductVariant s cart item.productID item.variantID = some existing) :
      MergeEffect svc a s (.findItem cart item rest) s (mergeFound cart existing item rest)
  | missing {cart : Nat} {item : CartItem} {rest : List CartItem}
      (h : findCartItemByProductVariant s cart item.productID item.variantID = none) :
      MergeEffect svc a s (.findItem cart item rest) s (.createItem cart item rest)
  | raises {cart : Nat} {item existing : CartItem} {rest : List CartItem} {s' : Store}
      (h : updateCartItemQty s existing.id item.qty (int64 (item.qty * existing.unitPrice)) = .ok s') :
      MergeEffect svc a s (.setQty cart existing item rest) s' (nextLine cart rest)
  | inserts {cart : Nat} {item : CartItem} {rest : List CartItem} {s' : Store}
      (h : createCartItem s { item with cartID := cart } = .ok s') :
      MergeEffect svc a s (.createItem cart item rest) s' (nextLine cart rest)
  | expires {cart expiry} : MergeEffect svc a s (.expires cart) s (.touchUser cart expiry)
  | touchUser {cart expiry s'} (h : s' = s ∨ s' = touchCart s cart expiry) :
      MergeEffect svc a s (.touchUser cart expiry) s' (.clock cart)
  | clock {cart now} : MergeEffect svc a s (.clock cart) s (.touchGuest cart now)
  | touchGuest {cart expiry s'} (h : s' = s ∨ s' = touchCart s a.guest expiry) :
      MergeEffect svc a s (.touchGuest cart expiry) s' (.clearVoucher cart)
  | clearVoucher {cart : Nat} {s' : Store} (h : s' = s ∨ s' = updateCartVoucher s a.guest none) :
      MergeEffect svc a s (.clearVoucher cart) s' (.transfer cart)
  | transfer {cart : Nat} {s' : Store} (h : s' = s ∨ s' = transferCartToUser s a.guest a.user) :
      MergeEffect svc a s (.transfer cart) s' (.returned (.ok cart))

theorem merge_effect (h : mergeStep svc a s pc x = some (s', pc')) :
    MergeEffect svc a s pc s' pc' := by
  cases pc <;> cases x
  case ensure.ok | ensure.fail =>
    obtain ⟨pc₁, hs, rfl⟩ := lifted_inv h
    exact .ensures hs
  case getGuest.ok =>
    simp only [mergeStep] at h
    split at h <;> cases h
    · exact .fails rfl
    · exact .enters
  case findItem.ok =>
    simp only [mergeStep] at h
    split at h <;> rename_i hfind <;> cases h
    · exact .found hfind
    · exact .missing hfind
  case setQty.ok =>
    simp only [mergeStep, written] at h
    split at h <;> rename_i hw <;> cases h
    · exact .fails rfl
    · exact .raises hw
  case createItem.ok =>
    simp only [mergeStep, written] at h
    split at h <;> rename_i hw <;> cases h
    · exact .fails rfl
    · exact .inserts hw
  all_goals cases h
  case listItems.ok => exact .lists
  case expires.ok => exact .expires
  case clock.ok => exact .clock
  case touchUser.ok => exact .touchUser (.inr rfl)
  case touchUser.fail => exact .touchUser (.inl rfl)
  case touchGuest.ok => exact .touchGuest (.inr rfl)
  case touchGuest.fail => exact .touchGuest (.inl rfl)
  case clearVoucher.ok => exact .clearVoucher (.inr rfl)
  case clearVoucher.fail => exact .clearVoucher (.inl rfl)
  case transfer.ok => exact .transfer (.inr rfl)
  case transfer.fail => exact .transfer (.inl rfl)
  all_goals exact .fails rfl

theorem mem_of_found
    (h : findCartItemByProductVariant s cart item.productID item.variantID = some existing) :
    existing ∈ linesIn s cart ∧ goods existing = goods item := by
  have hp := List.find?_some h
  simp only [Bool.and_eq_true, decide_eq_true_eq] at hp
  exact ⟨mem_linesIn.mpr ⟨List.mem_of_find?_eq_some h, hp.1.1⟩, Prod.ext hp.1.2 hp.2⟩

theorem goods_of_missing
    (h : findCartItemByProductVariant s cart item.productID item.variantID = none) :
    ∀ it ∈ linesIn s cart, goods it ≠ goods item := by
  intro it hit hg
  obtain ⟨hmem, rfl⟩ := mem_linesIn.mp hit
  obtain ⟨hp, hv⟩ := Prod.mk.inj hg
  have := List.find?_eq_none.mp h it hmem
  simp [hp, hv] at this

theorem merge_advance (hk : Keyed s) (hf : pc.Fresh s) (h : MergeEffect svc a s pc s' pc') :
    Advance a s s' pc.position pc'.position ∧ pc'.Fresh s' := by
  have hensure : ∀ {p : EnsurePc}, s'.cartItems = s.cartItems →
      Advance a s s' .before (afterEnsure p).position ∧ (afterEnsure p).Fresh s' := by
    intro p hsame
    refine ⟨?_, afterEnsure_fresh⟩
    rcases afterEnsure_position p with hp | hp <;> rw [hp]
    · exact .stays hsame
    · exact .fails hsame
  cases h with
  | fails _ => exact ⟨.fails rfl, trivial⟩
  | enters => exact hensure rfl
  | ensures he => exact hensure (ensure_cartItems he)
  | lists =>
    rw [nextLine_position]
    exact ⟨.lists rfl, nextLine_fresh⟩
  | found hfind =>
    obtain ⟨hin, hg⟩ := mem_of_found hfind
    unfold mergeFound
    split
    · exact ⟨.stays rfl, hin, hg, by assumption⟩
    · rw [nextLine_position]
      exact ⟨.absorbs (absorbs_found hin hg (by assumption)), nextLine_fresh⟩
  | missing hfind => exact ⟨.stays rfl, goods_of_missing hfind⟩
  | raises hw =>
    obtain ⟨hin, hg, hq⟩ := hf
    rw [nextLine_position]
    exact ⟨.absorbs (absorbs_raised hk hin hg hq hw), nextLine_fresh⟩
  | inserts hw =>
    rw [nextLine_position]
    exact ⟨.absorbs (absorbs_inserted hf hw), nextLine_fresh⟩
  | expires | clock => exact ⟨.stays rfl, trivial⟩
  | touchUser hs | touchGuest hs | clearVoucher hs | transfer hs =>
    refine ⟨.stays ?_, trivial⟩
    rcases hs with rfl | rfl
    · rfl
    · first
        | exact apply_cartItems (v := .touch _ _) rfl rfl
        | exact apply_cartItems (v := .setVoucher _ _) rfl rfl
        | exact apply_cartItems (v := .transfer _ _) rfl rfl

/-! ## The cart of the user -/

/-- The cart is the newest of the user's carts that have not expired, if it has not
expired itself. -/
structure Leads (s : Store) (user u : Nat) : Prop where
  owner : (s.carts.row u).userID = some user
  past : (s.carts.row u).updatedAt ≤ s.now
  newest : newest (fun id => (s.carts.row id).updatedAt)
    (s.carts.ids.filter fun id =>
      id = u || ((s.carts.row id).userID = some user && (s.carts.row id).active s.now)) = some u

theorem leads_of_found {c : Cart} (h : getActiveCartByUser s user = some (u, c))
    (hpast : c.updatedAt ≤ s.now) : Leads s user u := by
  obtain ⟨id, hn, he⟩ := Option.map_eq_some_iff.mp h
  cases he
  have hactive := (List.mem_filter.mp (newest_mem hn)).2
  rw [Bool.and_eq_true, decide_eq_true_eq] at hactive
  refine ⟨hactive.1, hpast, newest_mono hn (by simp) le_rfl fun k hne hk => ⟨?_, le_rfl⟩⟩
  simpa [hne] using hk

theorem Leads.found (h : Leads s user u) (hlive : (s.carts.row u).active s.now = true) :
    getActiveCartByUser s user = some (u, s.carts.row u) := by
  have hnewest : Lib.Rows.newest (fun id => (s.carts.row id).updatedAt) (s.carts.ids.filter fun id =>
      decide ((s.carts.row id).userID = some user) && (s.carts.row id).active s.now) = some u := by
    refine newest_mono h.newest (by simp [h.owner, hlive]) le_rfl fun k hne hk => ⟨?_, le_rfl⟩
    rw [hk, Bool.or_true]
  exact congrArg (Option.map _) hnewest

theorem active_earlier {c : Cart} {now : Int} {d : Nat} (h : c.active (now + d) = true) :
    c.active now = true := by
  unfold Cart.active at h ⊢
  cases hc : c.expiresAt with
  | none => rfl
  | some e =>
    rw [hc] at h
    simp only [Option.all_some, decide_eq_true_eq] at h ⊢
    omega

theorem Leads.later (h : Leads s user u) (d : Nat) : Leads { s with now := s.now + d } user u := by
  refine ⟨h.owner, h.past.trans (by dsimp only; omega), newest_mono h.newest (by simp) le_rfl
    fun k hne hk => ⟨?_, le_rfl⟩⟩
  simp only [hne, decide_false, Bool.false_or, Bool.and_eq_true] at hk ⊢
  exact ⟨hk.1, active_earlier hk.2⟩

theorem Leads.touched (h : Leads s user u) (expires : Int) :
    Leads (touchCart s u expires) user u := by
  unfold touchCart
  split
  · refine ⟨?_, ?_, newest_mono h.newest (by simp) ?_ fun k hne hk => ?_⟩
    · simpa using h.owner
    · simp
    · simpa using h.past
    · simp only [Table.set_row_ne _ _ hne] at hk ⊢
      exact ⟨hk, le_rfl⟩
  · exact h

def MergePc.Seeks (a : MergeArgs) (u : Nat) : MergePc → Prop
  | .ensure (.expires o) | .ensure (.getActive o _) => o = .user a.user
  | .ensure (.touchCart id _ _) => id = u
  | .ensure (.createCart _ _) | .ensure (.returned _) => False
  | .listItems cart | .findItem cart _ _ | .setQty cart _ _ _ | .createItem cart _ _
  | .expires cart | .touchUser cart _ | .clock cart | .touchGuest cart _ | .clearVoucher cart
  | .transfer cart | .returned (.ok cart) => cart = u
  | .getGuest | .returned (.error _) => True

theorem parseMerge_inv {r : MergeRequest} (h : parseMerge svc r = .ok a) :
    a.request = r ∧ svc.parse "user id" r.userID = .ok a.user := by
  obtain ⟨guest, _, h⟩ := bind_eq_ok h
  obtain ⟨user, hu, h⟩ := bind_eq_ok h
  cases h
  exact ⟨rfl, hu⟩

theorem ensureStart_cases (hargs : parseMerge svc a.request = .ok a) :
    a.ensureStart svc = .expires (.user a.user) ∨
      a.ensureStart svc = .returned (.error "invalid input") := by
  simp only [MergeArgs.ensureStart, ensureStart, Option.getD_some, (parseMerge_inv hargs).2]
  split <;> simp

theorem nextLine_seeks : (nextLine u rest).Seeks a u := by
  cases rest <;> rfl

theorem ensure_seeks {pc pc' : EnsurePc} (hlive : (s.carts.row u).active s.now = true)
    (hs : (MergePc.ensure pc).Seeks a u) (hlead : Leads s a.user u)
    (h : ensureStep svc a.request.tenant s pc x = some (s', pc')) :
    (afterEnsure pc').Seeks a u ∧ Leads s' a.user u := by
  cases pc with
  | expires o =>
    cases x <;> cases h
    exact ⟨hs, hlead⟩
  | getActive o expires =>
    obtain rfl : o = .user a.user := hs
    cases x with
    | fail err =>
      cases h
      exact ⟨trivial, hlead⟩
    | ok =>
      simp only [ensureStep, Owner.getActiveCart, hlead.found hlive] at h
      cases h
      exact ⟨rfl, hlead⟩
  | touchCart id c expires =>
    obtain rfl : id = u := hs
    cases x <;> cases h
    · exact ⟨rfl, hlead.touched expires⟩
    · exact ⟨rfl, hlead⟩
  | createCart o expires | returned r => exact hs.elim

/-- `EnsureCart` finds the cart, and until the guest's cart is handed over it would
find it again. -/
theorem merge_seeks (hargs : parseMerge svc a.request = .ok a)
    (hlive : (s.carts.row u).active s.now = true) (hs : pc.Seeks a u)
    (hl : pc.closing = false → Leads s a.user u) (h : MergeEffect svc a s pc s' pc') :
    pc'.Seeks a u ∧ (pc'.closing = false → Leads s' a.user u) := by
  cases h with
  | fails hpc => exact ⟨trivial, fun _ => hl hpc⟩
  | enters =>
    rcases ensureStart_cases hargs with hpc | hpc <;> rw [hpc]
    · exact ⟨rfl, fun _ => hl rfl⟩
    · exact ⟨trivial, fun _ => hl rfl⟩
  | ensures he =>
    obtain ⟨hseeks, hlead⟩ := ensure_seeks hlive hs (hl rfl) he
    exact ⟨hseeks, fun _ => hlead⟩
  | lists =>
    obtain rfl : _ = u := hs
    exact ⟨nextLine_seeks, fun _ => hl rfl⟩
  | found _ =>
    obtain rfl : _ = u := hs
    unfold mergeFound
    split
    · exact ⟨rfl, hl⟩
    · exact ⟨nextLine_seeks, fun _ => hl rfl⟩
  | missing _ | expires | clock => exact ⟨hs, hl⟩
  | raises hw =>
    obtain rfl : _ = u := hs
    obtain ⟨_, _, rfl⟩ := updateCartItemQty_inv hw
    exact ⟨nextLine_seeks, fun _ => { hl rfl with }⟩
  | inserts hw =>
    obtain rfl : _ = u := hs
    obtain ⟨_, _, rfl⟩ := createCartItem_inv hw
    exact ⟨nextLine_seeks, fun _ => { hl rfl with }⟩
  | touchUser hw =>
    obtain rfl : _ = u := hs
    rcases hw with rfl | rfl
    · exact ⟨rfl, hl⟩
    · exact ⟨rfl, fun _ => (hl rfl).touched _⟩
  | touchGuest _ | clearVoucher _ | transfer _ => exact ⟨hs, nofun⟩

theorem MergePc.Seeks.position (hs : pc.Seeks a u) (hp : pc.position = .inLoop cart rest) :
    cart = u := by
  cases pc with
  | returned r => cases r <;> cases hp; exact hs
  | _ => cases hp <;> exact hs

/-! ## Runs -/

variable {r : MergeRequest} {s₀ : Store} {xs : List (Nat × Call)} {t : Thread}

theorem merging_inv {J : Store → MergePc → Prop} {C : Store → Prop}
    (hargs : parseMerge svc r = .ok a)
    (hstep : ∀ s pc (d : Nat) x s' pc', J s pc → C { s with now := s.now + d } →
      mergeStep svc a { s with now := s.now + d } pc x = some (s', pc') → J s' pc')
    (hs : J s .getGuest)
    (hm : Meets (fun p x => (cartMachine svc).paced.lstep 0 p.1 p.2 x)
      (fun p x => C { p.1 with now := p.1.now + x.1 }) (s, start svc (.merge r)) xs)
    (hr : merging svc r s xs = some (s', t)) : ∃ pc, t = .merge a pc ∧ J s' pc := by
  have hstart : start svc (.merge r) = .merge a .getGuest := by
    simp only [start, hargs]
  refine run_inv (I := fun p => ∃ pc, p.2 = .merge a pc ∧ J p.1 pc) ?_ ⟨.getGuest, hstart, hs⟩ hm hr
  rintro ⟨s, _⟩ ⟨d, x⟩ q ⟨pc, rfl, hJ⟩ hc hl
  obtain ⟨⟨s', pc'⟩, hmerge, rfl⟩ := Option.map_eq_some_iff.mp hl
  exact ⟨pc', rfl, hstep s pc d x s' pc' hJ hc hmerge⟩

def Merged (s₀ : Store) (a : MergeArgs) (u : Nat) (s : Store) : Position → Prop
  | .before => shown s u = shown s₀ u
  | .inLoop _ rest => ∃ done, listCartItems s₀ a.guest = done ++ rest ∧
      shown s u = (mergeRule u).upserts (shown s₀ u) done
  | .failed => ∃ done rest, listCartItems s₀ a.guest = done ++ rest ∧
      shown s u = (mergeRule u).upserts (shown s₀ u) done

structure Underway (s₀ : Store) (a : MergeArgs) (u : Nat) (s : Store) (pc : MergePc) : Prop where
  keyed : Keyed s
  fresh : pc.Fresh s
  seeks : pc.Seeks a u
  leads : pc.closing = false → Leads s a.user u
  guest : linesIn s a.guest = linesIn s₀ a.guest
  merged : Merged s₀ a u s pc.position

theorem Merged.failed {p : Position} (h : Merged s₀ a u s p) : Merged s₀ a u s .failed := by
  cases p with
  | before => exact ⟨[], _, rfl, h⟩
  | inLoop cart rest =>
    obtain ⟨done, hg, hshown⟩ := h
    exact ⟨done, rest, hg, hshown⟩
  | failed => exact h

theorem Merged.nodup {p : Position} (h : Merged s₀ a u s p)
    (hone : ((linesIn s₀ u).map goods).Nodup) : ((linesIn s u).map goods).Nodup := by
  obtain ⟨done, _, _, hshown⟩ := h.failed
  rw [← shown_goods] at hone ⊢
  rw [hshown]
  exact Rule.upserts_nodup (R := mergeRule u) done hone

theorem Merged.congr {p : Position} (h : Merged s₀ a u s p) (hs : shown s' u = shown s u) :
    Merged s₀ a u s' p := by
  cases p <;> simpa only [Merged, hs] using h

theorem Underway.step (hargs : parseMerge svc a.request = .ok a) (hne : a.guest ≠ u)
    (hone : ((linesIn s₀ u).map goods).Nodup) (hw : Underway s₀ a u s pc)
    (hlive : (s.carts.row u).active s.now = true) (h : mergeStep svc a s pc x = some (s', pc')) :
    Underway s₀ a u s' pc' := by
  obtain ⟨hadv, hfresh⟩ := merge_advance hw.keyed hw.fresh (merge_effect h)
  obtain ⟨hseeks, hleads⟩ := merge_seeks hargs hlive hw.seeks hw.leads (merge_effect h)
  have hcart : ∀ cart rest, pc'.position = .inLoop cart rest → cart = u :=
    fun _ _ hp => hseeks.position hp
  have hboth : linesIn s' a.guest = linesIn s₀ a.guest ∧ Merged s₀ a u s' pc'.position := by
    have hguest := hw.guest
    have hmerged := hw.merged
    generalize pc.position = p at hadv hmerged
    generalize pc'.position = p' at hadv hcart ⊢
    cases hadv with
    | stays hs =>
      exact ⟨(linesIn_congr hs).trans hguest, hmerged.congr (shown_congr (linesIn_congr hs))⟩
    | fails hs =>
      exact ⟨(linesIn_congr hs).trans hguest, (hmerged.congr (shown_congr (linesIn_congr hs))).failed⟩
    | @lists cart hs =>
      refine ⟨(linesIn_congr hs).trans hguest, [], ?_, (shown_congr (linesIn_congr hs)).trans hmerged⟩
      rw [listCartItems_eq, listCartItems_eq, hguest, List.nil_append]
    | @absorbs cart item rest habs =>
      obtain rfl := hcart cart rest rfl
      obtain ⟨done, hg, hshown⟩ := hmerged
      refine ⟨(habs.others _ hne).trans hguest, done ++ [item], by simp [hg], ?_⟩
      have hnodup : ((linesIn s cart).map goods).Nodup :=
        Merged.nodup (p := .inLoop cart (item :: rest)) ⟨done, hg, hshown⟩ hone
      rw [habs.merged hnodup, hshown, Rule.upserts, Rule.upserts, List.foldl_append]
      rfl
  exact ⟨(merge_outcome h).lines.keyed hw.keyed, hfresh, hseeks, hleads, hboth.1, hboth.2⟩

theorem Underway.later (h : Underway s₀ a u s pc) (d : Nat) :
    Underway s₀ a u { s with now := s.now + d } pc where
  keyed := ⟨h.keyed.nodup, h.keyed.fresh⟩
  fresh := by cases pc <;> exact h.fresh
  seeks := h.seeks
  leads hc := (h.leads hc).later d
  guest := h.guest
  merged := h.merged.congr rfl

theorem merging_underway (hargs : parseMerge svc r = .ok a) (hk : Keyed s)
    (hlead : Leads s a.user u) (hne : a.guest ≠ u) (hone : ((linesIn s u).map goods).Nodup)
    (hlives : Lives svc r u s xs) (hr : merging svc r s xs = some (s', t)) :
    ∃ pc, t = .merge a pc ∧ Underway s a u s' pc := by
  have hargs' : parseMerge svc a.request = .ok a := by rwa [(parseMerge_inv hargs).1]
  refine merging_inv (J := Underway s a u) (C := fun s => (s.carts.row u).active s.now = true) hargs
    ?_ ⟨hk, trivial, trivial, fun _ => hlead, rfl, rfl⟩ hlives hr
  intro s₁ pc d x s₂ pc' hJ hlive hstep
  exact (hJ.later d).step hargs' hne hone hlive hstep

/-! ### A cart that has been merged -/

def AllSettled (s₀ : Store) (a : MergeArgs) (u : Nat) (s : Store) : Position → Prop
  | .before => linesIn s a.guest = linesIn s₀ a.guest
  | .inLoop _ rest => ∀ item ∈ rest, (mergeRule u).Settled (shown s₀ u) item
  | .failed => True

structure Resting (s₀ : Store) (a : MergeArgs) (u : Nat) (s : Store) (pc : MergePc) : Prop where
  keyed : Keyed s
  fresh : pc.Fresh s
  same : linesIn s u = linesIn s₀ u
  settled : AllSettled s₀ a u s pc.position

theorem Resting.step (hset : ∀ item ∈ listCartItems s₀ a.guest, (mergeRule u).Settled (shown s₀ u) item)
    (hw : Resting s₀ a u s pc) (h : mergeStep svc a s pc x = some (s', pc')) :
    Resting s₀ a u s' pc' := by
  obtain ⟨hadv, hfresh⟩ := merge_advance hw.keyed hw.fresh (merge_effect h)
  have hboth : linesIn s' u = linesIn s₀ u ∧ AllSettled s₀ a u s' pc'.position := by
    have hsame := hw.same
    have hrest := hw.settled
    generalize pc.position = p at hadv hrest
    generalize pc'.position = p' at hadv ⊢
    cases hadv with
    | stays hs =>
      refine ⟨(linesIn_congr hs).trans hsame, ?_⟩
      cases p with
      | before => exact (linesIn_congr hs).trans hrest
      | inLoop cart rest => exact hrest
      | failed => trivial
    | fails hs => exact ⟨(linesIn_congr hs).trans hsame, trivial⟩
    | lists hs =>
      refine ⟨(linesIn_congr hs).trans hsame, fun item hitem => hset item ?_⟩
      rw [listCartItems_eq] at hitem ⊢
      rwa [← show linesIn s a.guest = linesIn s₀ a.guest from hrest]
    | @absorbs cart item rest habs =>
      refine ⟨?_, fun other hother => hrest other (List.mem_cons_of_mem _ hother)⟩
      by_cases hc : cart = u
      · subst hc
        have hitem := hrest item List.mem_cons_self
        rw [← shown_congr hsame] at hitem
        exact (linesIn_congr (habs.settled hitem)).trans hsame
      · exact (habs.others u fun h => hc h.symm).trans hsame
  exact ⟨(merge_outcome h).lines.keyed hw.keyed, hfresh, hboth.1, hboth.2⟩

theorem Resting.later (h : Resting s₀ a u s pc) (d : Nat) :
    Resting s₀ a u { s with now := s.now + d } pc where
  keyed := ⟨h.keyed.nodup, h.keyed.fresh⟩
  fresh := by cases pc <;> exact h.fresh
  same := h.same
  settled := by
    have hs := h.settled
    generalize pc.position = p at hs ⊢
    cases p <;> exact hs

theorem merging_resting (hargs : parseMerge svc r = .ok a) (hk : Keyed s)
    (hset : ∀ item ∈ listCartItems s a.guest, (mergeRule u).Settled (shown s u) item)
    (hr : merging svc r s xs = some (s', t)) : linesIn s' u = linesIn s u := by
  obtain ⟨pc, _, hrest⟩ := merging_inv (J := Resting s a u) (C := fun _ => True) hargs
    (fun s₁ pc d x s₂ pc' hJ _ hstep => (hJ.later d).step hset hstep) ⟨hk, trivial, rfl, rfl⟩
    (meets_true _ _) hr
  exact hrest.same

/-! ## The carts after a Merge -/

/-- For each product and variant of the two carts the first one has one line, of the
largest quantity, at the price of the line it had; the second cart is as it was. -/
structure Joined (s s' : Store) (u guest : Nat) : Prop where
  line : ∀ p v, linesOf s ⟨u, p, v⟩ ++ linesOf s ⟨guest, p, v⟩ ≠ [] →
    ∃ it, linesOf s' ⟨u, p, v⟩ = [it] ∧
      ((linesOf s ⟨u, p, v⟩ ++ linesOf s ⟨guest, p, v⟩).map CartItem.qty).max? = some it.qty ∧
      ∀ old ∈ linesOf s ⟨u, p, v⟩, it.unitPrice = old.unitPrice
  guest : linesIn s' guest = linesIn s guest

theorem goods_nodup (h : ∀ p v, (linesOf s ⟨u, p, v⟩).length ≤ 1) :
    ((linesIn s u).map goods).Nodup := by
  refine List.nodup_iff_count_le_one.mpr fun k => ?_
  have hk := h k.1 k.2
  rw [linesOf_eq, ← List.countP_eq_length_filter] at hk
  rw [List.count_eq_countP, List.countP_map]
  refine (List.countP_congr fun it _ => ?_).trans_le hk
  simp

theorem max?_qty_perm {l l' : List CartItem} (h : l.Perm l') :
    (l.map CartItem.qty).max? = (l'.map CartItem.qty).max? := by
  have hmem : ∀ q, q ∈ l.map CartItem.qty ↔ q ∈ l'.map CartItem.qty := fun _ =>
    (h.map CartItem.qty).mem_iff
  refine Option.ext fun q => ?_
  simp only [List.max?_eq_some_iff, hmem]

theorem shown_filter :
    (shown s cart).filter (goods · = (p, v)) = (linesOf s ⟨cart, p, v⟩).map unkeyed := by
  rw [linesOf_eq, shown, List.filter_map]
  rfl

theorem linesOf_row (hone : ((linesIn s u).map goods).Nodup) :
    (linesOf s ⟨u, p, v⟩).map unkeyed = ((mergeRule u).row? (shown s u) (p, v)).toList := by
  rw [← shown_goods] at hone
  rw [← shown_filter]
  exact Rule.filter_key (R := mergeRule u) hone

theorem joined_of_upserts (hone : ((linesIn s u).map goods).Nodup)
    (hone' : ((linesIn s' u).map goods).Nodup) (hguest : linesIn s' k = linesIn s k)
    (hall : shown s' u = (mergeRule u).upserts (shown s u) (listCartItems s k)) : Joined s s' u k := by
  refine ⟨fun p v hsome => ?_, hguest⟩
  have hmax : ((mergeRule u).row? (shown s' u) (p, v)).map CartItem.qty =
      ((linesOf s ⟨u, p, v⟩ ++ linesOf s ⟨k, p, v⟩).map CartItem.qty).max? := by
    have hold : ((shown s u).filter (goods · = (p, v))).map CartItem.qty =
        (linesOf s ⟨u, p, v⟩).map CartItem.qty := by
      rw [shown_filter, List.map_map]
      rfl
    have hlisted : ((listCartItems s k).filter (goods · = (p, v))).Perm (linesOf s ⟨k, p, v⟩) := by
      rw [linesOf_eq, listCartItems_eq]
      exact (List.perm_insertionSort _ _).filter _
    rw [hall, ← max?_qty_perm (List.Perm.append_left _ hlisted), List.map_append, ← hold]
    exact Rule.row?_upserts_max (R := mergeRule u) (fun _ => rfl) larger_qty (shown_goods ▸ hone)
      (listCartItems s k)
  have hline := linesOf_row hone' (p := p) (v := v)
  cases hr : (mergeRule u).row? (shown s' u) (p, v) with
  | none =>
    rw [hr, Option.map_none, eq_comm, List.max?_eq_none_iff, List.map_eq_nil_iff] at hmax
    exact absurd hmax hsome
  | some row =>
    rw [hr] at hline hmax
    obtain ⟨it, hit, rfl⟩ := List.map_eq_singleton_iff.mp hline
    refine ⟨it, hit, hmax.symm, fun old hold => ?_⟩
    have hrow : (mergeRule u).row? (shown s u) (p, v) = some (unkeyed old) := by
      refine Option.mem_toList.mp ?_
      rw [← linesOf_row hone]
      exact List.mem_map_of_mem hold
    have hprice := Rule.row?_upserts_keeps (f := CartItem.unitPrice) larger_unitPrice
      (listCartItems s k) hrow
    rw [← hall, hr] at hprice
    exact Option.some.inj hprice

theorem Underway.upserts (h : Underway s₀ a u s pc) (hp : pc.position = .inLoop cart []) :
    shown s u = (mergeRule u).upserts (shown s₀ u) (listCartItems s₀ a.guest) := by
  have hmerged := h.merged
  rw [hp] at hmerged
  obtain ⟨done, hdone, hshown⟩ := hmerged
  rw [hdone, List.append_nil, hshown]

theorem Underway.listed (h : Underway s₀ a u s pc) :
    listCartItems s a.guest = listCartItems s₀ a.guest := by
  rw [listCartItems_eq, listCartItems_eq, h.guest]

theorem Underway.settled (h : Underway s₀ a u s pc) (hp : pc.position = .inLoop cart []) :
    ∀ item ∈ listCartItems s a.guest, (mergeRule u).Settled (shown s u) item := by
  rw [h.listed, h.upserts hp]
  exact (mergeRule_lasting u).settled _

/-- A `Merge` that is begun again, wherever the first one has stopped, ends with the
lines of one `Merge`. -/
theorem merging_again {ys : List (Nat × Call)} {s₁ s₂ : Store} {c₂ : Nat}
    (hargs : parseMerge svc r = .ok a) (hne : a.guest ≠ u)
    (hone : ((linesIn s u).map goods).Nodup) (hfirst : Underway s a u s₁ pc)
    (hr : merging svc r s₁ ys = some (s₂, .merge a (.returned (.ok c₂))))
    (hlives : Lives svc r u s₁ ys) :
    shown s₂ u = (mergeRule u).upserts (shown s u) (listCartItems s a.guest) := by
  by_cases hclosing : pc.closing = true
  · -- the loop was done, and the second one may even be another cart's
    have hp : ∃ cart, pc.position = .inLoop cart [] := by
      cases pc with
      | clearVoucher cart | transfer cart => exact ⟨cart, rfl⟩
      | returned res =>
        cases res with
        | ok cart => exact ⟨cart, rfl⟩
        | error err => cases hclosing
      | _ => cases hclosing
    obtain ⟨cart, hp⟩ := hp
    rw [← hfirst.upserts hp]
    exact shown_congr (merging_resting hargs hfirst.keyed (hfirst.settled hp) hr)
  · have hlead := hfirst.leads (by simpa using hclosing)
    obtain ⟨pc₂, heq, hsecond⟩ := merging_underway hargs hfirst.keyed hlead hne
      (hfirst.merged.nodup hone) hlives hr
    cases heq
    obtain ⟨done, rest, hdone, hshown⟩ := hfirst.merged.failed
    rw [hsecond.upserts rfl, hfirst.listed, hshown, hdone]
    exact (mergeRule_lasting u).upserts_again done rest

/-- `Merge` of a guest's cart into the cart of the user: what one `Merge` makes of the
lines, that a second one changes none, and that a `Merge` may stop anywhere and be
begun again. -/
theorem merge_joins_carts {c : Cart} (hargs : parseMerge svc r = .ok a) (hk : Keyed s)
    (hu : getActiveCartByUser s a.user = some (u, c)) (hpast : c.updatedAt ≤ s.now)
    (hne : a.guest ≠ u) (hone : ∀ p v, (linesOf s ⟨u, p, v⟩).length ≤ 1) :
    (∀ xs s₁ cart, merging svc r s xs = some (s₁, .merge a (.returned (.ok cart))) →
      Lives svc r u s xs →
        cart = u ∧ Joined s s₁ u a.guest ∧
        ∀ r' a' ys s₂ t, parseMerge svc r' = .ok a' → a'.guest = a.guest →
          merging svc r' s₁ ys = some (s₂, t) → linesIn s₂ u = linesIn s₁ u) ∧
    ∀ xs ys zs s₁ s₂ s₃ t c₂ c₃, merging svc r s xs = some (s₁, t) → Lives svc r u s xs →
      merging svc r s₁ ys = some (s₂, .merge a (.returned (.ok c₂))) → Lives svc r u s₁ ys →
      merging svc r s zs = some (s₃, .merge a (.returned (.ok c₃))) → Lives svc r u s zs →
        shown s₂ u = shown s₃ u := by
  have hnodup := goods_nodup hone
  have hrun : ∀ {xs s₁ t}, merging svc r s xs = some (s₁, t) → Lives svc r u s xs →
      ∃ pc, t = .merge a pc ∧ Underway s a u s₁ pc := fun hr hlives =>
    merging_underway hargs hk (leads_of_found hu hpast) hne hnodup hlives hr
  constructor
  · intro xs s₁ cart hr hlives
    obtain ⟨pc, heq, hw⟩ := hrun hr hlives
    cases heq
    refine ⟨hw.seeks, joined_of_upserts hnodup (hw.merged.nodup hnodup) hw.guest (hw.upserts rfl), ?_⟩
    intro r' a' ys s₂ t hargs' hguest hr'
    exact merging_resting hargs' hw.keyed (hguest ▸ hw.settled rfl) hr'
  · intro xs ys zs s₁ s₂ s₃ t c₂ c₃ hr₁ hlives₁ hr₂ hlives₂ hr₃ hlives₃
    obtain ⟨pc, _, hw₁⟩ := hrun hr₁ hlives₁
    obtain ⟨pc₃, heq, hw₃⟩ := hrun hr₃ hlives₃
    cases heq
    rw [merging_again hargs hne hnodup hw₁ hr₂ hlives₂, hw₃.upserts rfl]

/-! ### A guest logs in -/

def mergeService : Service where
  ttl := 60
  voucherPerUserLimitDefault := 0
  defaultTenantID := none
  toUUID id := if id = "guest" then .ok 12 else .ok 1

def login : MergeRequest := ⟨"guest", "user", none⟩

/-- User 1 has a mug in cart 11; the guest's cart 12 has three mugs and two lines of cups. -/
def twoCarts : Store := { emptyStore with
  nextID := 30
  carts := ⟨[11, 12], fun id =>
    if id = 11 then ⟨some 1, none, none, 0, some 100, 1⟩ else ⟨none, some "anon", none, 0, some 100, 1⟩⟩
  cartItems := [
    ⟨20, 11, 31, none, "Mug", "mug", 1, 10, 10⟩, ⟨21, 12, 31, none, "Mug", "mug", 3, 12, 36⟩,
    ⟨22, 12, 32, none, "Cup", "cup", 2, 7, 14⟩, ⟨23, 12, 32, none, "Cup", "cup", 5, 8, 40⟩] }

theorem guest_lines_joined : ∃ s₁,
    merging mergeService login twoCarts (List.replicate 17 (1, .ok)) =
      some (s₁, .merge ⟨12, 1, login⟩ (.returned (.ok 11))) ∧
    (linesIn s₁ 11).map (fun it => (it.productID, it.qty, it.unitPrice)) = [(31, 3, 10), (32, 5, 7)] ∧
    Joined twoCarts s₁ 11 12 := by
  obtain ⟨⟨s₁, t⟩, hr, ht, hlines⟩ := reaches
    (o := merging mergeService login twoCarts (List.replicate 17 (1, .ok)))
    (P := fun p => p.2 = .merge ⟨12, 1, login⟩ (.returned (.ok 11)) ∧
      (linesIn p.1 11).map (fun it => (it.productID, it.qty, it.unitPrice)) = [(31, 3, 10), (32, 5, 7)])
    (by decide +kernel)
  obtain rfl : t = _ := ht
  have hone : ∀ p v, (linesOf twoCarts ⟨11, p, v⟩).length ≤ 1 := by
    intro p v
    rw [linesOf_eq]
    exact List.length_filter_le _ (linesIn twoCarts 11)
  have hargs : parseMerge mergeService login = .ok ⟨12, 1, login⟩ := rfl
  have hjoin := (merge_joins_carts hargs ⟨by decide, by decide⟩ rfl (by decide) (by decide)
    hone).1 _ s₁ 11 hr (by decide +kernel)
  exact ⟨s₁, hr, hlines, hjoin.2.1⟩

end TokoApi.Cart
