import TokoApi.Payment.Settlement
import TokoApi.Catalog.Detail

/-!
# The cached detail after a settlement

The webhook deletes the cached detail and commits afterwards. Between the two a
reader finds no detail in the cache and the old stock in the database, and what it
then puts into the cache stays there. A reader that has read the stock before the
deletion does the same if it is slow.

Without such a reader the cache shows the committed stock: what is cached or about to
be cached has been read from the committed rows, these change at a commit only, and at
the commit nothing is cached and no reader is under way.
-/
namespace TokoApi.Catalog

open Lib.Rows Lib.Text Lib.Threads Lib.Runs Payment

def Shows (s : State) (product : Nat) (d : ProductDetail) : Prop :=
  d.stock = totalStock s product ∧ d.variants = listVariantsByProduct s product

def DetailPc.detail : DetailPc → Option (ProductDetail × Bool)
  | .getBrand _ _ d | .getCategory _ _ _ d | .listVariants d => some (d, false)
  | .listImages d | .listSpecs d | .setCache d => some (d, true)
  | _ => none

/-- What a reader of the product has read is what is committed. -/
def Reader.Fresh (s : State) (product : Nat) (r : Reader) : Prop :=
  ∀ d listed, r.pc.detail = some (d, listed) → d.id = product ∧ d.stock = totalStock s product ∧
    (listed = true → d.variants = listVariantsByProduct s product)

/-- The cached detail has been deleted for a settlement that is not committed yet. -/
def Handler.cleared (s : State) (slug : String) : Handler → Bool
  | .webhook t => t.settles.any fun o => slug ∈ productSlugs s o
  | .invalidateProduct t slugs | .invalidateList t slugs =>
    slug ∉ slugs && t.settles.any fun o => slug ∈ productSlugs s o

/-- A reader of the product is between its reading and its SET. -/
def Proc.underway (slug : String) : Proc → Bool
  | .reader r => r.slug = slug && r.pc.detail.isSome
  | .handler _ => false

def Proc.clears (s : State) (slug : String) : Proc → Bool
  | .reader _ => false
  | .handler w => w.cleared s slug

def failsToDelete (slug : String) : Action → Bool
  | .act _ (.invalidate slug' (.fail _)) => slug' = slug
  | _ => false

/-- No reader of the product is under way while a settlement is between its DEL and its
commit, and the DEL does not fail. -/
def undisturbed (slug : String) (u : System) (a : Action) : Bool :=
  !(u.threads.any (Proc.clears u.shared slug) && u.threads.any (Proc.underway slug)) &&
    !failsToDelete slug a

/-- The items of orders that have a variant of the product have its slug. -/
def Labelled (slug : String) (product : Nat) (s : State) : Prop :=
  ∀ it ∈ s.store.orderItems, ∀ v ∈ it.variantID,
    (s.store.variants.row v).committed.productID = product → slug ∈ productSlugs s it.orderID

variable {h : Webhook} {c : Cache} {slug : String} {product i j : Nat} {s s' : State} {r r' : Reader}
  {w w' : Handler} {x : Call}

/-! ## Keys -/

theorem productDetailKey_eq (htrim : trimSpace slug = slug) (hne : slug ≠ "") :
    c.productDetailKey slug = ":".intercalate ((if c.keyPrefix = "" then [] else [c.keyPrefix]) ++
      ["catalog", "products", "detail"]) ++ ":" ++ slug := by
  have hparts : (["catalog", "products", "detail", slug].map trimSpace).filter (· ≠ "") =
      ["catalog", "products", "detail"] ++ [slug] := by
    have hwords : ["catalog", "products", "detail"].map trimSpace = ["catalog", "products", "detail"] := by
      decide
    rw [show ["catalog", "products", "detail", slug] = ["catalog", "products", "detail"] ++ [slug] from rfl,
      List.map_append, hwords]
    simp [htrim, hne]
  unfold Cache.productDetailKey Cache.key
  rw [hparts, ← List.append_assoc, String.intercalate_append_of_ne_nil (by simp) (by simp),
    String.intercalate_singleton]

theorem productDetailKey_inj {slug' : String} (htrim : trimSpace slug = slug) (hne : slug ≠ "")
    (htrim' : trimSpace slug' = slug') (hne' : slug' ≠ "")
    (h : c.productDetailKey slug' = c.productDetailKey slug) : slug' = slug := by
  rw [productDetailKey_eq htrim hne, productDetailKey_eq htrim' hne'] at h
  exact (String.append_right_inj _).mp h

/-! ## Stock -/

def SameStock (s s' : State) (product : Nat) : Prop :=
  totalStock s' product = totalStock s product ∧
    listVariantsByProduct s' product = listVariantsByProduct s product

theorem sameStock_of_variants (ht : s'.tables = s.tables)
    (hids : s'.store.variants.ids = s.store.variants.ids)
    (hp : ∀ v, (s'.store.variants.row v).committed.productID =
      (s.store.variants.row v).committed.productID)
    (hrow : ∀ v, (s.store.variants.row v).committed.productID = product →
      (s'.store.variants.row v).committed = (s.store.variants.row v).committed) :
    SameStock s s' product := by
  have hrows : variantRows s' product = variantRows s product := by
    unfold variantRows
    rw [hids]
    induction s.store.variants.ids with
    | nil => rfl
    | cons v ids ih =>
      simp only [List.map_cons, List.filter_cons, hp v, decide_eq_true_eq]
      split
      · rename_i hv
        rw [hrow v hv, ih]
      · exact ih
  unfold SameStock totalStock listVariantsByProduct
  rw [hrows, ht]
  exact ⟨rfl, rfl⟩

theorem Shows.same {d : ProductDetail} (hd : Shows s product d) (hs : SameStock s s' product) :
    Shows s' product d :=
  ⟨hd.1.trans hs.1.symm, hd.2.trans hs.2.symm⟩

theorem Reader.Fresh.same (hr : r.Fresh s product) (hs : SameStock s s' product) :
    r.Fresh s' product := by
  intro d listed hd
  obtain ⟨hid, hstock, hv⟩ := hr d listed hd
  exact ⟨hid, hstock.trans hs.1.symm, fun hl => (hv hl).trans hs.2.symm⟩

/-! ## Readers -/

/-- What a step of `GetProductDetail` can do. -/
inductive DetailEffect (c : Cache) (s : State) (r : Reader) : State → DetailPc → Prop where
  | idle {pc : DetailPc} (hd : pc.detail = none) : DetailEffect c s r s pc
  | read {id p} {d : ProductDetail} {pc : DetailPc} (hp : getProductBySlug s r.slug = some (id, p))
      (hd : pc.detail = some (d, false)) (hid : d.id = id) (hstock : d.stock = totalStock s id) :
      DetailEffect c s r s pc
  | keep {d d' : ProductDetail} {listed} {pc : DetailPc} (hr : r.pc.detail = some (d, listed))
      (hd : pc.detail = some (d', listed)) (hid : d'.id = d.id) (hstock : d'.stock = d.stock)
      (hv : d'.variants = d.variants) : DetailEffect c s r s pc
  | list {d d' : ProductDetail} {pc : DetailPc} (hr : r.pc.detail = some (d, false))
      (hd : pc.detail = some (d', true)) (hid : d'.id = d.id) (hstock : d'.stock = d.stock)
      (hv : d'.variants = listVariantsByProduct s d.id) : DetailEffect c s r s pc
  | fill {d} (hpc : r.pc = .setCache d) :
      DetailEffect c s r (s.setJSON c.ttl (c.productDetailKey r.slug) d) (.returned (.ok d))

theorem afterBrand_detail (category : Option Nat) (d : ProductDetail) :
    (afterBrand category d).detail = some (d, false) := by
  cases category <;> rfl

theorem afterProduct_detail (brand category : Option Nat) (d : ProductDetail) :
    (afterProduct brand category d).detail = some (d, false) := by
  cases brand with
  | none => exact afterBrand_detail category d
  | some id => rfl

theorem round_detail (r : Round) (d : ProductDetail) :
    ∃ d', (r.pc d).detail = some (d', false) ∧ d'.id = d.id ∧ d'.stock = d.stock ∧
      d'.variants = d.variants := by
  cases r <;> exact ⟨_, rfl, rfl, rfl, rfl⟩

theorem detail_effect (hs : detailStep c s r x = some (s', r')) :
    ∃ pc, r' = r.goto pc ∧ DetailEffect c s r s' pc := by
  cases hpc : r.pc <;> cases x <;> simp only [detailStep, hpc] at hs
  case getCache.ok => split at hs <;> cases hs <;> exact ⟨_, rfl, .idle rfl⟩
  case getProduct.ok =>
    split at hs
    · cases hs
      exact ⟨_, rfl, .idle rfl⟩
    · rename_i id p hp
      cases hs
      exact ⟨_, rfl, .read hp (afterProduct_detail _ _ _) rfl rfl⟩
  case getBrand.ok =>
    split at hs <;> cases hs <;>
      exact ⟨_, rfl, .keep (congrArg _ hpc) (afterBrand_detail _ _) rfl rfl rfl⟩
  case getCategory.ok current path seen d =>
    cases hs
    obtain ⟨d', hd, hid, hstock, hv⟩ := round_detail (round s.tables.categories current path seen) d
    exact ⟨_, rfl, .keep (congrArg _ hpc) hd hid hstock hv⟩
  all_goals cases hs
  case getBrand.fail => exact ⟨_, rfl, .keep (congrArg _ hpc) (afterBrand_detail _ _) rfl rfl rfl⟩
  case getCategory.fail | listImages.ok | listSpecs.ok =>
    exact ⟨_, rfl, .keep (congrArg _ hpc) rfl rfl rfl rfl⟩
  case listVariants.ok => exact ⟨_, rfl, .list (congrArg _ hpc) rfl rfl rfl rfl⟩
  case setCache.ok => exact ⟨_, rfl, .fill hpc⟩
  all_goals exact ⟨_, rfl, .idle rfl⟩

variable {pc : DetailPc} {y : Input} {b : Db.Store} {t t' : Payment.Thread} {n : Nat}

theorem detail_frame (he : DetailEffect c s r s' pc) :
    s'.store = s.store ∧ s'.tables = s.tables := by
  cases he <;> exact ⟨rfl, rfl⟩

theorem fresh_step {p : Db.Product} (he : DetailEffect c s r s' pc)
    (hp : getProductBySlug s r.slug = some (product, p)) (hr : r.Fresh s product) :
    (r.goto pc).Fresh s' product := by
  intro d listed hd
  change pc.detail = some (d, listed) at hd
  cases he with
  | idle hn =>
    rw [hn] at hd
    cases hd
  | read hq hd' hid hstock =>
    rw [hp] at hq
    cases hq
    rw [hd'] at hd
    cases hd
    exact ⟨hid, hstock, nofun⟩
  | keep hold hd' hid hstock hv =>
    obtain ⟨hid₀, hstock₀, hv₀⟩ := hr _ _ hold
    rw [hd'] at hd
    cases hd
    exact ⟨hid.trans hid₀, hstock.trans hstock₀, fun hl => hv.trans (hv₀ hl)⟩
  | list hold hd' hid hstock hv =>
    obtain ⟨hid₀, hstock₀, _⟩ := hr _ _ hold
    rw [hd'] at hd
    cases hd
    exact ⟨hid.trans hid₀, hstock.trans hstock₀, fun _ => hv.trans (by rw [hid₀])⟩
  | fill => cases hd

/-! ## The webhook -/

def Handler.thread : Handler → Payment.Thread
  | .webhook t | .invalidateProduct t _ | .invalidateList t _ => t

/-- What a step of the webhook can do. -/
inductive HandlerEffect (h : Webhook) (c : Cache) (i : Nat) (s : State) (w : Handler) :
    Input → State → Handler → Prop where
  | webhook {t t' x store} (hw : w = .webhook t)
      (hs : webhookStep h i s.store t x = some (store, t')) :
      HandlerEffect h c i s w (.call x) { s with store := store } (beforeCommit s t')
  | product {t : Payment.Thread} {slugs : List String} {slug : String} {x : Call}
      (hw : w = .invalidateProduct t slugs) :
      HandlerEffect h c i s w (.invalidate slug x) (s.attemptDelete (c.productDetailKey slug) x)
        (.invalidateList t (slugs.erase slug))
  | list {t slugs x} (hw : w = .invalidateList t slugs) :
      HandlerEffect h c i s w (.call x) (s.attemptDelete c.productListKey x)
        (afterInvalidation t slugs)

theorem handler_effect (hs : handlerStep h c i s w y = some (s', w')) :
    HandlerEffect h c i s w y s' w' := by
  unfold handlerStep at hs
  split at hs
  · obtain ⟨⟨store, t'⟩, hw, he⟩ := Option.map_eq_some_iff.mp hs
    cases he
    exact .webhook rfl hw
  · split at hs
    · cases hs
      exact .product rfl
    · cases hs
  · cases hs
    exact .list rfl
  · cases hs

theorem beforeCommit_thread : (beforeCommit s t).thread = t := by
  unfold beforeCommit
  split
  · split <;> rfl
  · rfl

theorem beforeCommit_cleared : (beforeCommit s t).cleared s slug = false := by
  unfold beforeCommit
  split
  · rename_i l hpc
    have hsettles : ∀ o, t.settles = some o → t.shouldSettle l.payment = true ∧
        o = l.payment.orderID := by
      intro o ho
      simp only [Thread.settles, hpc] at ho
      split at ho
      · rename_i hb
        cases ho
        exact ⟨(Bool.and_eq_true_iff.mp hb).2, rfl⟩
      · cases ho
    split
    · cases ho : t.settles with
      | none => simp [Handler.cleared, ho]
      | some o =>
        obtain ⟨_, rfl⟩ := hsettles o ho
        simp [Handler.cleared, ho]
    · rename_i hn
      cases ho : t.settles with
      | none => simp [Handler.cleared, ho]
      | some o =>
        obtain ⟨hsettle, rfl⟩ := hsettles o ho
        have hnil : productSlugs s l.payment.orderID = [] := by simpa [hsettle] using hn
        simp [Handler.cleared, ho, hnil]
  · rename_i hpc
    have hnone : t.settles = none := by
      unfold Thread.settles
      split
      · rename_i l hl
        exact absurd hl (hpc l)
      · rfl
    simp [Handler.cleared, hnone]

theorem afterInvalidation_thread (slugs : List String) :
    (afterInvalidation t slugs).thread = t := by
  cases slugs <;> rfl

theorem afterInvalidation_cleared (slugs : List String) :
    (afterInvalidation t slugs).cleared s slug = (Handler.invalidateList t slugs).cleared s slug := by
  cases slugs with
  | nil => simp [afterInvalidation, Handler.cleared]
  | cons a slugs => rfl

theorem cleared_congr (ht : s'.tables = s.tables) : w.cleared s' slug = w.cleared s slug := by
  have hslugs : productSlugs s' = productSlugs s := by
    funext o
    unfold productSlugs
    rw [ht]
  cases w <;> simp only [Handler.cleared, hslugs]

/-! ## What the webhook takes from the stock -/

/-- The variants whose rows the handler holds are items of the order that it settles. -/
structure Handling (i : Nat) (s : Db.Store) (t : Payment.Thread) : Prop where
  branch : t.OnBranch
  owned : ∀ v, (s.variants.row v).OwnedBy i → ∃ o rest, t.toTake s = some (o, rest) ∧
    ∃ q, (v, q) ∈ Db.listOrderItemsForStock s o
  left : ∀ o rest, t.toTake s = some (o, rest) → ∀ it ∈ rest, it ∈ Db.listOrderItemsForStock s o

theorem listItems_congr {a : Db.Store} (h : b.orderItems = a.orderItems) (o : Nat) :
    Db.listOrderItemsForStock b o = Db.listOrderItemsForStock a o := by
  unfold Db.listOrderItemsForStock
  rw [h]

theorem Handling.congr {a : Db.Store} (hh : Handling i a t) (hbranch : t'.OnBranch)
    (ht : t'.toTake a = t.toTake a) (hitems : b.orderItems = a.orderItems)
    (hrows : ∀ v, (b.variants.row v).OwnedBy i → (a.variants.row v).OwnedBy i) :
    Handling i b t' := by
  have htake : t'.toTake b = t.toTake a :=
    (toTake_store fun o _ _ => listItems_congr hitems o).trans ht
  refine ⟨hbranch, fun v hv => ?_, fun o rest ho it hit => ?_⟩
  · rw [htake]
    obtain ⟨o, rest, ho, q, hq⟩ := hh.owned v (hrows v hv)
    exact ⟨o, rest, ho, q, listItems_congr hitems o ▸ hq⟩
  · rw [htake] at ho
    exact listItems_congr hitems o ▸ hh.left o rest ho it hit

theorem handling_step {a : Db.Store} (hh : Handling i a t)
    (hs : webhookStep h i a t x = some (b, t')) : Handling i b t' := by
  obtain ⟨he, hbranch⟩ := stock_effect hh.branch hs
  have hitems : ∀ o, Db.listOrderItemsForStock b o = Db.listOrderItemsForStock a o :=
    listItems_congr (step_effect hs).frame.orderItems
  have htake : t'.toTake b = t'.toTake a := toTake_store fun o _ _ => hitems o
  have hdone : (∀ v a', (b.variants.row v).draft ≠ some (i, a')) → t'.toTake a = none →
      Handling i b t' := by
    intro hfree ht'
    refine ⟨hbranch, fun v ⟨a', ha⟩ => absurd ha (hfree v a'), fun o rest ho => ?_⟩
    rw [htake, ht'] at ho
    cases ho
  cases he with
  | quiet _ hv _ ht =>
    exact hh.congr hbranch ht (step_effect hs).frame.orderItems fun v ho => by rwa [hv] at ho
  | decide _ hst _ ht ht' =>
    refine ⟨hbranch, fun v ho => ?_, fun o rest ho it hit => ?_⟩
    · rw [hst] at ho
      obtain ⟨o, rest, hto, _⟩ := hh.owned v ho
      cases ht.symm.trans hto
    · rw [htake, ht'] at ho
      cases ho
      rwa [hitems]
  | @take o v q rest _ ht hm _ ht' =>
    have hleft := hh.left o _ ht
    refine ⟨hbranch, fun u ho => ⟨o, rest, by rw [htake, ht'], ?_⟩, fun o' rest' ho it hit => ?_⟩
    · rw [hitems o]
      by_cases hu : u = v
      · subst hu
        exact ⟨q, hleft _ List.mem_cons_self⟩
      · rw [Table.modify_row_ne hm hu] at ho
        obtain ⟨o', rest', hto, hq⟩ := hh.owned u ho
        rw [ht] at hto
        cases hto
        exact hq
    · rw [htake, ht'] at ho
      cases ho
      rw [hitems o]
      exact hleft it (List.mem_cons_of_mem _ hit)
  | abort _ hv _ ht' => exact hdone (fun v a' => by rw [hv]; exact Row.rollback_free) ht'
  | commit _ _ hv _ ht' => exact hdone (fun v a' => by rw [hv]; exact Row.commit_free) ht'

theorem committed_step {a : Db.Store} (he : StockEffect i a t x b t') :
    (∀ v, (b.variants.row v).committed = (a.variants.row v).committed) ∨
      (b.variants = a.variants.mapRows (Row.commit i) ∧
        t.toTake a = t.settles.map fun o => (o, [])) := by
  cases he with
  | quiet _ hv => exact .inl fun v => by rw [hv]
  | decide _ hst => exact .inl fun v => by rw [hst]
  | take _ _ hm => exact .inl (Table.modify_committed hm)
  | abort _ hv => exact .inl fun v => by rw [hv]; exact Row.rollback_committed
  | commit _ ht hv => exact .inr ⟨hv, ht⟩

theorem productID_agrees {r r' : Row Db.Variant} (ha : Row.Access i IsDecrement r r')
    (hr : r.Agrees Db.Variant.productID) :
    r'.Agrees Db.Variant.productID ∧ r'.committed.productID = r.committed.productID := by
  refine ha.agrees ?_ hr
  rintro _ ⟨q, rfl⟩ b
  rfl

/-- A commit that changes the stock of the product comes after the deletion. -/
theorem sameStock_or_cleared {store : Db.Store}
    (hh : Handling i s.store t) (hagree : ∀ v, (s.store.variants.row v).Agrees Db.Variant.productID)
    (hlab : Labelled slug product s) (hs : webhookStep h i s.store t x = some (store, t')) :
    SameStock s { s with store := store } product ∨
      (Handler.webhook t).cleared s slug = true := by
  obtain ⟨he, _⟩ := stock_effect hh.branch hs
  by_cases hcleared : (Handler.webhook t).cleared s slug = true
  · exact .inr hcleared
  · refine .inl (sameStock_of_variants rfl he.ids
      (fun v => (productID_agrees (he.access v) (hagree v)).2) fun v hv => ?_)
    obtain hsame | ⟨hcommit, htake⟩ := committed_step he
    · exact hsame v
    · have hfree : ∀ a, (s.store.variants.row v).draft ≠ some (i, a) := by
        intro a ha
        -- the row belongs to an item of the settled order, so its slug has been deleted
        obtain ⟨o, rest, ho, q, hq⟩ := hh.owned v ⟨a, ha⟩
        rw [htake] at ho
        obtain ⟨o', hsettles, heq⟩ := Option.map_eq_some_iff.mp ho
        cases heq
        obtain ⟨it, hit, hiq⟩ := List.mem_filterMap.mp hq
        split at hiq
        · rename_i horder
          obtain ⟨v', hvariant, heq⟩ := Option.map_eq_some_iff.mp hiq
          cases heq
          have hslug := hlab it hit v hvariant hv
          rw [horder] at hslug
          exact hcleared (by simp [Handler.cleared, hsettles, hslug])
        · cases hiq
      change (store.variants.row v).committed = _
      rw [hcommit, Table.mapRows_row, Row.commit_other hfree]

/-! ## The invariant -/

/-- The product is found under the slug, and what is cached for it is committed. -/
structure Shelf (c : Cache) (slug : String) (product n : Nat) (s : State) : Prop where
  found : ∃ p, getProductBySlug s slug = some (product, p)
  agree : ∀ v, (s.store.variants.row v).Agrees Db.Variant.productID
  owners : ∀ v k, (s.store.variants.row v).OwnedBy k → k < n
  labelled : Labelled slug product s
  cached : ∀ e, s.cache (c.productDetailKey slug) = some e → Shows s product e.detail

def Proc.Coherent (c : Cache) (slug : String) (product i : Nat) (s : State) : Proc → Prop
  | .reader r => trimSpace r.slug = r.slug ∧ (r.slug = "" → ∃ result, r.pc = .returned result) ∧
      (r.slug = slug → r.Fresh s product)
  | .handler w => Handling i s.store w.thread ∧
      (w.cleared s slug = true → s.cache (c.productDetailKey slug) = none)

abbrev Coherent (c : Cache) (slug : String) (product : Nat) : System → Prop :=
  Guarded (Shelf c slug product) fun i s t => t.Coherent c slug product i s

variable {u v : System} {a : Action}

theorem no_detail (hu : undisturbed slug u a = true) (hw : u.threads[i]? = some (.handler w))
    (hc : w.cleared u.shared slug = true) (hr : u.threads[j]? = some (.reader r))
    (hslug : r.slug = slug) : r.pc.detail = none := by
  cases hd : r.pc.detail with
  | none => rfl
  | some p =>
    have hclears : u.threads.any (Proc.clears u.shared slug) = true :=
      List.any_eq_true.mpr ⟨_, List.mem_of_getElem? hw, hc⟩
    have hunderway : u.threads.any (Proc.underway slug) = true :=
      List.any_eq_true.mpr ⟨_, List.mem_of_getElem? hr, by simp [Proc.underway, hslug, hd]⟩
    simp [undisturbed, hclears, hunderway] at hu

theorem Shelf.same (hs : Shelf c slug product n s) (hstore : s'.store = s.store)
    (htables : s'.tables = s.tables)
    (hcached : ∀ e, s'.cache (c.productDetailKey slug) = some e → Shows s product e.detail) :
    Shelf c slug product n s' := by
  obtain ⟨store, tables, cache⟩ := s'
  subst hstore htables
  exact { hs with cached := hcached }

theorem sameStock_of_frame (hstore : s'.store = s.store) (htables : s'.tables = s.tables) :
    SameStock s s' product := by
  obtain ⟨store, tables, cache⟩ := s'
  subst hstore htables
  exact ⟨rfl, rfl⟩

/-! ## Steps of readers -/

theorem slug_of_key {d : ProductDetail} (htrim : trimSpace slug = slug) (hne : slug ≠ "")
    (hr : (Proc.reader r).Coherent c slug product i s) (hpc : r.pc = .setCache d)
    (hkey : c.productDetailKey slug = c.productDetailKey r.slug) : r.slug = slug := by
  refine productDetailKey_inj htrim hne hr.1 (fun hempty => ?_) hkey.symm
  obtain ⟨result, hreturned⟩ := hr.2.1 hempty
  rw [hpc] at hreturned
  cases hreturned

theorem reader_shelf (htrim : trimSpace slug = slug) (hne : slug ≠ "")
    (hs : Shelf c slug product n s) (hr : (Proc.reader r).Coherent c slug product i s)
    (he : DetailEffect c s r s' pc) : Shelf c slug product n s' := by
  obtain ⟨hstore, htables⟩ := detail_frame he
  refine hs.same hstore htables fun e hcache => ?_
  cases he with
  | @fill d hpc =>
    by_cases hkey : c.productDetailKey slug = c.productDetailKey r.slug
    · obtain ⟨_, hstock, hv⟩ := hr.2.2 (slug_of_key htrim hne hr hpc hkey) d true (by rw [hpc]; rfl)
      simp only [State.setJSON, hkey, Function.update_self] at hcache
      cases hcache
      exact ⟨hstock, hv rfl⟩
    · simp only [State.setJSON, Function.update_of_ne hkey] at hcache
      exact hs.cached e hcache
  | _ => exact hs.cached e hcache

theorem reader_coherent (hs : Shelf c slug product n s)
    (hr : (Proc.reader r).Coherent c slug product i s) (hlive : ∀ result, r.pc ≠ .returned result)
    (he : DetailEffect c s r s' pc) : (Proc.reader (r.goto pc)).Coherent c slug product i s' := by
  refine ⟨hr.1, fun hempty => ?_, fun hslug => ?_⟩
  · obtain ⟨result, hreturned⟩ := hr.2.1 hempty
    exact absurd hreturned (hlive result)
  have hslug : r.slug = slug := hslug
  obtain ⟨p, hp⟩ := hs.found
  exact fresh_step he (hslug ▸ hp) (hr.2.2 hslug)

theorem reader_other {t : Proc} (he : DetailEffect c s r s' pc) (ht : t.Coherent c slug product j s)
    (hcleared : ∀ w, t = .handler w → w.cleared s slug = true →
      s'.cache (c.productDetailKey slug) = none) : t.Coherent c slug product j s' := by
  obtain ⟨hstore, htables⟩ := detail_frame he
  cases t with
  | reader r' =>
    exact ⟨ht.1, ht.2.1, fun hslug => (ht.2.2 hslug).same (sameStock_of_frame hstore htables)⟩
  | handler w =>
    refine ⟨hstore ▸ ht.1, fun hw => hcleared w rfl ?_⟩
    rwa [cleared_congr htables] at hw

/-! ## Steps of the webhook -/

theorem attemptDelete_frame (key : String) :
    (s.attemptDelete key x).store = s.store ∧ (s.attemptDelete key x).tables = s.tables := by
  cases x <;> exact ⟨rfl, rfl⟩

theorem attemptDelete_cache (key k : String) :
    (s.attemptDelete key x).cache k = s.cache k ∨ (s.attemptDelete key x).cache k = none := by
  cases x with
  | fail err => exact .inl rfl
  | ok =>
    by_cases hk : k = key
    · subst hk
      exact .inr (Function.update_self ..)
    · exact .inl (Function.update_of_ne hk ..)

section

variable (he : HandlerEffect h c i s w y s' w')
include he

theorem handler_frame :
    s'.tables = s.tables ∧ s'.store.orderItems = s.store.orderItems ∧
      ∀ k, s'.cache k = s.cache k ∨ s'.cache k = none := by
  cases he with
  | webhook _ hs => exact ⟨rfl, (step_effect hs).frame.orderItems, fun _ => .inl rfl⟩
  | product _ | list _ =>
    obtain ⟨hstore, htables⟩ := attemptDelete_frame _
    exact ⟨htables, by rw [hstore], fun k => attemptDelete_cache _ k⟩

theorem handler_uncached {k : String} (hn : s.cache k = none) :
    s'.cache k = none := by
  obtain hk | hk := (handler_frame he).2.2 k
  · rw [hk, hn]
  · exact hk

theorem handler_access (hh : Handling i s.store w.thread) (id : Nat) :
    Row.Access i IsDecrement (s.store.variants.row id) (s'.store.variants.row id) := by
  cases he with
  | webhook hw hs =>
    subst hw
    exact (stock_effect hh.branch hs).1.access id
  | product _ | list _ =>
    rw [(attemptDelete_frame _).1]
    exact .same

theorem handler_stock (hs : Shelf c slug product n s) (hh : Handling i s.store w.thread) :
    SameStock s s' product ∨ w.cleared s slug = true := by
  cases he with
  | webhook hw hstep =>
    subst hw
    exact sameStock_or_cleared hh hs.agree hs.labelled hstep
  | product _ | list _ =>
    obtain ⟨hstore, htables⟩ := attemptDelete_frame _
    exact .inl (sameStock_of_frame hstore htables)

theorem handler_products :
    s'.store.products = s.store.products := by
  cases he with
  | webhook _ hs => exact (step_effect hs).frame.products
  | product _ | list _ => rw [(attemptDelete_frame _).1]

theorem handler_shelf (hin : i < n) (hs : Shelf c slug product n s)
    (hw : (Proc.handler w).Coherent c slug product i s) :
    Shelf c slug product n s' := by
  obtain ⟨htables, hitems, hcache⟩ := handler_frame he
  have haccess := handler_access he hw.1
  constructor
  · obtain ⟨p, hp⟩ := hs.found
    refine ⟨p, ?_⟩
    unfold getProductBySlug at hp ⊢
    rw [handler_products he]
    exact hp
  · exact fun v => (productID_agrees (haccess v) (hs.agree v)).1
  · rintro v k ⟨a, ha⟩
    obtain rfl | hold := (haccess v).owner ha
    · exact hin
    · exact hs.owners v k ⟨a, hold⟩
  · intro it hit v hv hp
    rw [hitems] at hit
    rw [(productID_agrees (haccess v) (hs.agree v)).2] at hp
    have hslugs := hs.labelled it hit v hv hp
    unfold productSlugs at hslugs ⊢
    rwa [htables]
  · intro e hafter
    have hbefore : s.cache (c.productDetailKey slug) = some e := by
      obtain hk | hk := hcache (c.productDetailKey slug)
      · rw [← hk, hafter]
      · rw [hk] at hafter
        cases hafter
    obtain hsame | hcleared := handler_stock he hs hw.1
    · exact (hs.cached e hbefore).same hsame
    · rw [hw.2 hcleared] at hbefore
      cases hbefore

theorem handler_coherent (hw : (Proc.handler w).Coherent c slug product i s)
    (hok : ∀ err, y ≠ .invalidate slug (.fail err)) :
    (Proc.handler w').Coherent c slug product i s' := by
  refine ⟨?_, fun hcleared => ?_⟩
  · cases he with
    | webhook hwt hs =>
      subst hwt
      rw [beforeCommit_thread]
      exact handling_step hw.1 hs
    | product hwt =>
      subst hwt
      rw [(attemptDelete_frame _).1]
      exact hw.1
    | list hwt =>
      subst hwt
      rw [(attemptDelete_frame _).1, afterInvalidation_thread]
      exact hw.1
  · rw [cleared_congr (handler_frame he).1] at hcleared
    have hstays := handler_uncached (k := c.productDetailKey slug) he
    cases he with
    | webhook => simp [beforeCommit_cleared] at hcleared
    | @product t slugs slug' x hwt =>
      subst hwt
      by_cases hslug : slug' = slug
      · subst hslug
        cases x with
        | ok => exact Function.update_self ..
        | fail err => exact absurd rfl (hok err)
      · refine hstays (hw.2 ?_)
        simp only [Handler.cleared, List.mem_erase_of_ne (Ne.symm hslug)] at hcleared ⊢
        exact hcleared
    | list hwt =>
      subst hwt
      rw [afterInvalidation_cleared] at hcleared
      exact hstays (hw.2 hcleared)

theorem handler_other {t : Proc} (hij : j ≠ i) (hs : Shelf c slug product n s)
    (hw : (Proc.handler w).Coherent c slug product i s) (ht : t.Coherent c slug product j s)
    (hidle : ∀ r, t = .reader r → w.cleared s slug = true → r.slug = slug → r.pc.detail = none) :
    t.Coherent c slug product j s' := by
  obtain ⟨htables, hitems, _⟩ := handler_frame he
  cases t with
  | reader r =>
    refine ⟨ht.1, ht.2.1, fun hslug => ?_⟩
    obtain hsame | hcleared := handler_stock he hs hw.1
    · exact (ht.2.2 hslug).same hsame
    · intro d listed hd
      rw [hidle r rfl hcleared hslug] at hd
      cases hd
  | handler w₂ =>
    refine ⟨ht.1.congr ht.1.branch rfl hitems fun v ⟨a, ha⟩ => ?_, fun hcleared => ?_⟩
    · obtain hji | hold := (handler_access he hw.1 v).owner ha
      · exact absurd hji hij
      · exact ⟨a, hold⟩
    · rw [cleared_congr htables] at hcleared
      exact handler_uncached he (ht.2 hcleared)

end

/-! ## Runs -/

theorem toTake_of_settles {a : Db.Store} {o : Nat} (hs : t.settles = some o) :
    t.toTake a = some (o, []) := by
  unfold Thread.settles at hs
  split at hs
  · rename_i l hpc
    split at hs
    · rename_i hb
      cases hs
      rw [Thread.toTake, hpc]
      exact commit_toTake (Bool.and_eq_true_iff.mp hb).2
    · cases hs
  · cases hs

theorem launch_coherent (hs : Shelf c slug product n s) (l : Launch) :
    (l.proc h).Coherent c slug product n s := by
  cases l with
  | detail raw =>
    refine ⟨trimSpace_trimSpace raw, fun hempty => ?_, fun _ d listed hd => ?_⟩
    · change trimSpace raw = "" at hempty
      unfold getProductDetail
      rw [if_pos hempty]
      exact ⟨_, rfl⟩
    · have hnone : (getProductDetail raw).pc.detail = none := by
        unfold getProductDetail
        split <;> rfl
      rw [hnone] at hd
      cases hd
  | webhook r =>
    obtain ⟨htake, hbranch⟩ := @start_toTake s.store h r
    refine ⟨⟨hbranch, fun v hv => ?_, fun o rest ho => ?_⟩, fun hcleared => ?_⟩
    · exact absurd (hs.owners v n hv) (lt_irrefl n)
    · rw [show (Handler.webhook (h.start r)).thread = h.start r from rfl, htake] at ho
      cases ho
    · cases hsettles : (h.start r).settles with
      | none => simp [Handler.cleared, hsettles] at hcleared
      | some o =>
        rw [toTake_of_settles hsettles] at htake
        cases htake

theorem coherent_step (htrim : trimSpace slug = slug) (hne : slug ≠ "")
    (hg : Coherent c slug product u) (hu : undisturbed slug u a = true)
    (hs : (catalogMachine h c).step u a = some v) : Coherent c slug product v := by
  obtain ⟨hshelf, hthreads⟩ := hg
  refine guarded_step ⟨hshelf, hthreads⟩ hs ?_ ?_ ?_
  · intro l _
    refine ⟨{ hshelf with owners := fun v k hk => ?_ }, launch_coherent hshelf l⟩
    exact (hshelf.owners v k hk).trans (Nat.lt_succ_self _)
  · rintro i y t s' t' rfl ht hl
    have hown := hthreads i t ht
    have hin : i < u.threads.length := (List.getElem?_eq_some_iff.mp ht).1
    cases t with
    | reader r =>
      cases y with
      | invalidate slug' x => cases hl
      | call x =>
        obtain ⟨r', hr, rfl⟩ := lifted_inv hl
        have hlive : ∀ result, r.pc ≠ .returned result := by
          intro result hpc
          simp only [detailStep, hpc] at hr
          cases hr
        obtain ⟨pc, rfl, he⟩ := detail_effect hr
        refine ⟨reader_shelf htrim hne hshelf hown he, reader_coherent hshelf hown hlive he,
          fun j t₂ hji ht₂ => ?_⟩
        have hother := hthreads j t₂ ht₂
        refine reader_other he hother fun w hw hcleared => ?_
        subst hw
        -- while a settlement is before its commit, nobody fills the cache
        cases he with
        | @fill d hpc =>
          by_cases hkey : c.productDetailKey slug = c.productDetailKey r.slug
          · have hnone := no_detail hu ht₂ hcleared ht (slug_of_key htrim hne hown hpc hkey)
            rw [hpc] at hnone
            cases hnone
          · simp only [State.setJSON, Function.update_of_ne hkey]
            exact hother.2 hcleared
        | _ => exact hother.2 hcleared
    | handler w =>
      obtain ⟨w', hw, rfl⟩ := lifted_inv hl
      have he := handler_effect hw
      refine ⟨handler_shelf he hin hshelf hown, handler_coherent he hown fun err hy => ?_,
        fun j t₂ hji ht₂ => ?_⟩
      · subst hy
        simp [undisturbed, failsToDelete] at hu
      · refine handler_other he hji hshelf hown (hthreads j t₂ ht₂) fun r hr hcleared hslug => ?_
        subst hr
        exact no_detail hu ht hcleared ht₂ hslug
  · intro d s' hs
    cases hs
    refine ⟨{ hshelf with }, fun j t ht => ?_⟩
    have ht := hthreads j t ht
    cases t with
    | reader r => exact ⟨ht.1, ht.2.1, ht.2.2⟩
    | handler w => exact ⟨ht.1.congr ht.1.branch rfl rfl fun _ h => h, ht.2⟩

/-- A cached detail shows the committed stock of its product, in every run in which no
reader of the product is under way while a settlement is between its DEL and its
commit, and in which the DEL does not fail. -/
theorem cached_detail_current (h : Webhook) (c : Cache) (s₀ : State) (slug : String)
    (htrim : trimSpace slug = slug) (hne : slug ≠ "") (product : Nat) (p : Db.Product)
    (hp : getProductBySlug s₀ slug = some (product, p))
    (hfree : ∀ v, (s₀.store.variants.row v).draft = none) (hlabelled : Labelled slug product s₀)
    (hcached : ∀ e, s₀.cache (c.productDetailKey slug) = some e → Shows s₀ product e.detail)
    (acts : List Action) (u : System)
    (hu : Meets (catalogMachine h c).step (fun u a => undisturbed slug u a = true) ⟨s₀, []⟩ acts)
    (hr : run (catalogMachine h c).step ⟨s₀, []⟩ acts = some u) (d : ProductDetail)
    (hd : u.shared.getJSON (c.productDetailKey slug) = some d) : Shows u.shared product d := by
  have hshelf : Shelf c slug product 0 s₀ := by
    refine ⟨⟨p, hp⟩, fun v => .of_free (hfree v), fun v k hk => ?_, hlabelled, hcached⟩
    obtain ⟨a, ha⟩ := hk
    rw [hfree v] at ha
    cases ha
  have hend : Coherent c slug product u :=
    run_inv (fun u a v hg hu hs => coherent_step htrim hne hg hu hs) (guarded_start hshelf) hu hr
  obtain ⟨e, he, rfl⟩ := Option.map_eq_some_iff.mp hd
  exact hend.1.cached e (Option.filter_eq_some_iff.mp he).1

/-! ## A mug of which ten are in stock -/

/-- Order 7 has one piece of the only variant of the mug. -/
def mugs : State where
  store := { unpaidOrder with products := ⟨[2], fun _ => ⟨"Mug", "mug", 100, none, none, 0⟩⟩ }
  tables :=
    { products := fun _ => ⟨none, true, none, []⟩
      variants := fun _ => ⟨some "MUG-1", []⟩
      brands := ⟨[], fun _ => ⟨"", ""⟩⟩
      categories := ⟨[], fun _ => ⟨"", none⟩⟩
      images := []
      specs := []
      itemSlugs := fun _ => ["mug"] }
  cache _ := none

def mugCache : Cache := ⟨60, "toko"⟩

def calls (i n : Nat) : List Action := List.replicate n (.act i (.call .ok))

def paid (i : Nat) : List Action := .spawn (.webhook ⟨"plain", "", "PAID"⟩) :: calls i 9

def invalidated (i : Nat) : List Action := .act i (.invalidate "mug" .ok) :: calls i 1

def Proc.finished : Proc → Bool
  | .reader ⟨_, .returned _⟩ => true
  | .handler (.webhook t) => match t.pc with | .done _ => true | _ => false
  | _ => false

/-- What is left of a run: whether all calls have returned, the settled orders, the cached
stock of the mug and of its variants, and the committed stock. -/
structure Outcome where
  finished : Bool
  settled : List Nat
  cached : Option Int
  variants : List Int
  committed : Int
  deriving DecidableEq

def outcome (u : System) : Outcome :=
  let detail := u.shared.getJSON (mugCache.productDetailKey "mug")
  { finished := u.threads.all Proc.finished
    settled := u.shared.store.settled
    cached := detail.map ProductDetail.stock
    variants := detail.toList.flatMap fun d => d.variants.map Variant.stock
    committed := totalStock u.shared 2 }

/-- One reader is through before the notification, another starts after the commit. -/
def oneByOne : List Action :=
  .spawn (.detail "mug") :: calls 0 6 ++ paid 1 ++ invalidated 1 ++ calls 1 1 ++
    .spawn (.detail " mug ") :: calls 2 6

theorem nine_mugs_cached :
    ∃ u, run (catalogMachine plainProvider mugCache).step ⟨mugs, []⟩ oneByOne = some u ∧
      outcome u = ⟨true, [7], some 9, [9], 9⟩ ∧
      ∀ d, u.shared.getJSON (mugCache.productDetailKey "mug") = some d → Shows u.shared 2 d := by
  refine reaches_and (by decide +kernel) fun u hu _ => ?_
  refine cached_detail_current plainProvider mugCache mugs "mug" (by decide) (by decide) 2
    ⟨"Mug", "mug", 100, none, none, 0⟩ rfl (fun _ => rfl) ?_ (by simp [mugs]) oneByOne u
    (by decide +kernel) hu
  intro it hit v hv _
  decide +revert

/-- A reader has read the stock before the deletion and puts it into the cache after the
commit; or it reads after the deletion and before the commit. -/
theorem ten_mugs_cached :
    ((run (catalogMachine plainProvider mugCache).step ⟨mugs, []⟩
        (.spawn (.detail "mug") :: calls 0 5 ++ paid 1 ++ invalidated 1 ++ calls 1 1 ++
          calls 0 1)).map outcome) = some ⟨true, [7], some 10, [10], 9⟩ ∧
    ((run (catalogMachine plainProvider mugCache).step ⟨mugs, []⟩
        (paid 0 ++ invalidated 0 ++ .spawn (.detail "mug") :: calls 1 6 ++
          calls 0 1)).map outcome) = some ⟨true, [7], some 10, [10], 9⟩ := by
  decide +kernel

end TokoApi.Catalog
