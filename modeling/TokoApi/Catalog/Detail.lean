import TokoApi.Lib.Json
import TokoApi.Payment.Stock

/-!
# Product details and their cache

`catalog.Service.GetProductDetail` (service.go) over `catalog.Cache` (cache.go), one
step for each statement, GET, SET and DEL. No transaction is open, so a statement
reads what is committed when it is executed. A cached detail is kept as it was
marshalled.

The payment webhook has the same cache, as wired in cmd/api. When it settles an order
it deletes the details of the products of the order after the stock has been taken
and the voucher settled, and before the commit. `Payment.webhookStep` leaves the cache
out; a `Handler` goes through the deletions before the step of the commit. The cached
analytics have other keys and are left out.
-/
namespace TokoApi.Catalog

open Lib.Rows Lib.Redis Lib.Text Lib.Threads

/-! ## Tables -/

structure Brand where
  name : String
  slug : String

structure Category where
  slug : String
  parentID : Option Nat

structure Image where
  id : Nat
  productID : Nat
  url : String
  sortOrder : Int

structure ProductSpec where
  id : Nat
  productID : Nat
  key : String
  value : String

/-- The columns of `products` that the catalog alone reads. -/
structure ProductColumns where
  compareAt : Option Int
  inStock : Bool
  thumbnail : Option String
  badges : List String

structure VariantColumns where
  sku : Option String
  attributes : List UInt8

/-- What nothing here writes: the rest of the catalog, and the slugs of the items of
an order. -/
structure Tables where
  products : Nat → ProductColumns
  variants : Nat → VariantColumns
  brands : Table Brand
  categories : Table Category
  images : List Image
  specs : List ProductSpec
  itemSlugs : Nat → List String

/-! ## Details -/

structure Variant where
  id : Nat
  sku : Option String
  price : Int
  stock : Int
  attributes : List (String × Lib.Json.Value)

structure Spec where
  key : String
  value : String

structure Mini where
  id : Nat
  name : String
  slug : String

structure ProductDetail where
  id : Nat
  title : String
  slug : String
  price : Int
  compareAt : Option Int
  inStock : Bool
  stock : Int
  thumbnail : Option String
  badges : List String
  variants : List Variant
  images : List String
  specs : List Spec
  brand : Option Mini
  categoryPath : List String

structure Cached where
  detail : ProductDetail
  lease : Lease

structure State where
  store : Db.Store
  tables : Tables
  cache : String → Option Cached

/-! ## Cache -/

/-- `keyPrefix` is the prefix as `NewCache` has trimmed it. -/
structure Cache where
  ttl : Int
  keyPrefix : String

namespace Cache

variable (c : Cache)

def key (parts : List String) : String :=
  ":".intercalate ((if c.keyPrefix = "" then [] else [c.keyPrefix]) ++
    (parts.map trimSpace).filter (· ≠ ""))

def productListKey : String := c.key ["catalog", "products", "list", "popular"]

def productDetailKey (slug : String) : String := c.key ["catalog", "products", "detail", slug]

end Cache

namespace State

variable (s : State)

def getJSON (key : String) : Option ProductDetail :=
  ((s.cache key).filter fun e => e.lease.held s.store.now).map Cached.detail

def setJSON (ttl : Int) (key : String) (d : ProductDetail) : State :=
  { s with cache := Function.update s.cache key (some ⟨d, .starting s.store.now ttl⟩) }

def delete (key : String) : State := { s with cache := Function.update s.cache key none }

end State

/-! ## Queries -/

section

variable (s : State)

def variantRows (product : Nat) : List (Nat × Db.Variant) :=
  (s.store.variants.ids.map fun v => (v, (s.store.variants.row v).committed)).filter fun v =>
    v.2.productID = product

def totalStock (product : Nat) : Int :=
  (variantRows s product).foldl (fun total v => total + v.2.stock) 0

def getProductBySlug (slug : String) : Option (Nat × Db.Product) :=
  (s.store.products.ids.find? fun id => (s.store.products.row id).slug = slug).map fun id =>
    (id, s.store.products.row id)

/-- ORDER BY sku NULLS LAST, id; texts are compared by code point. -/
def Variant.precedes (a b : Variant) : Bool :=
  match a.sku, b.sku with
  | some x, some y => x < y || (x = y && a.id ≤ b.id)
  | some _, none => true
  | none, some _ => false
  | none, none => a.id ≤ b.id

/-- Attributes that are no JSON object are shown as none. -/
def attributesOf (raw : List UInt8) : List (String × Lib.Json.Value) :=
  match Lib.Json.parse raw with
  | some (.object members) => members
  | _ => []

/-- `ListVariantsByProduct`, and what the service makes of its rows. -/
def listVariantsByProduct (product : Nat) : List Variant :=
  ((variantRows s product).map fun v =>
    { id := v.1
      sku := (s.tables.variants v.1).sku
      price := v.2.price
      stock := v.2.stock
      attributes := attributesOf (s.tables.variants v.1).attributes : Variant }).insertionSort
    fun a b => a.precedes b

/-- ORDER BY sort_order ASC, id. -/
def Image.precedes (a b : Image) : Bool :=
  a.sortOrder < b.sortOrder || (a.sortOrder = b.sortOrder && a.id ≤ b.id)

def listImagesByProduct (product : Nat) : List String :=
  ((s.tables.images.filter fun im => im.productID = product).insertionSort fun a b =>
    a.precedes b).map Image.url

/-- ORDER BY key ASC, id. -/
def ProductSpec.precedes (a b : ProductSpec) : Bool :=
  a.key < b.key || (a.key = b.key && a.id ≤ b.id)

def listSpecsByProduct (product : Nat) : List Spec :=
  ((s.tables.specs.filter fun sp => sp.productID = product).insertionSort fun a b =>
    a.precedes b).map fun sp => ⟨sp.key, sp.value⟩

end

/-! ## GetProductDetail -/

structure AppError where
  httpStatus : Nat
  code : String
  message : String
  field : Option String
  deriving DecidableEq

inductive Failure where
  | app (e : AppError)
  | plain (message : String)
  deriving DecidableEq

/-- The call that is made next. From `getBrand` on there is a detail, which has the
key of the product. -/
inductive DetailPc where
  | getCache
  | getProduct
  | getBrand (brand : Nat) (category : Option Nat) (d : ProductDetail)
  | getCategory (current : Nat) (path : List String) (seen : List Nat) (d : ProductDetail)
  | listVariants (d : ProductDetail)
  | listImages (d : ProductDetail)
  | listSpecs (d : ProductDetail)
  | setCache (d : ProductDetail)
  | returned (r : Except Failure ProductDetail)

structure Reader where
  slug : String
  pc : DetailPc

def Reader.goto (r : Reader) (pc : DetailPc) : Reader := { r with pc := pc }

def Reader.fails (r : Reader) (e : Failure) : Reader := r.goto (.returned (.error e))

/-- The slug is trimmed; a blank one is refused. -/
def getProductDetail (slug : String) : Reader :=
  ⟨trimSpace slug,
    if trimSpace slug = "" then
      .returned (.error (.app ⟨400, "BAD_REQUEST", "slug is required", some "slug"⟩))
    else .getCache⟩

def afterBrand (category : Option Nat) (d : ProductDetail) : DetailPc :=
  match category with
  | none => .listVariants d
  | some id => .getCategory id [] [] d

def afterProduct (brand category : Option Nat) (d : ProductDetail) : DetailPc :=
  match brand with
  | none => afterBrand category d
  | some id => .getBrand id category d

/-- What a round of the loop of `categoryPath` leaves: it ends with a path, or goes on. -/
inductive Round where
  | done (path : List String)
  | next (current : Nat) (path : List String) (seen : List Nat)

def round (categories : Table Category) (current : Nat) (path : List String) (seen : List Nat) : Round :=
  match categories.get? current with
  | none => .done path
  | some category =>
    let path := if trimSpace category.slug = "" then path else trimSpace category.slug :: path
    if current ∈ seen then .done path
    else
      match category.parentID with
      | none => .done path
      | some parent => .next parent path (current :: seen)

def Round.pc (d : ProductDetail) : Round → DetailPc
  | done path => .listVariants { d with categoryPath := path }
  | next current path seen => .getCategory current path seen d

def productDetail (s : State) (id : Nat) (p : Db.Product) : ProductDetail where
  id := id
  title := p.title
  slug := p.slug
  price := p.price
  compareAt := (s.tables.products id).compareAt
  inStock := (s.tables.products id).inStock
  stock := totalStock s id
  thumbnail := (s.tables.products id).thumbnail
  badges := (s.tables.products id).badges
  variants := []
  images := []
  specs := []
  brand := none
  categoryPath := []

def detailStep (c : Cache) (s : State) (r : Reader) (x : Call) : Option (State × Reader) :=
  match r.pc, x with
  | .getCache, .fail _ => some (s, r.goto .getProduct)
  | .getCache, .ok =>
    match s.getJSON (c.productDetailKey r.slug) with
    | some d => some (s, r.goto (.returned (.ok d)))
    | none => some (s, r.goto .getProduct)
  | .getProduct, .fail err => some (s, r.fails (.plain ("get product by slug: " ++ err)))
  | .getProduct, .ok =>
    match getProductBySlug s r.slug with
    | none => some (s, r.fails (.app ⟨404, "NOT_FOUND", "product not found", none⟩))
    | some (id, p) =>
      some (s, r.goto (afterProduct p.brandID p.categoryID (productDetail s id p)))
  | .getBrand _ category d, .fail _ => some (s, r.goto (afterBrand category d))
  | .getBrand brand category d, .ok =>
    match s.tables.brands.get? brand with
    | none => some (s, r.goto (afterBrand category d))
    | some b =>
      some (s, r.goto (afterBrand category { d with brand := some ⟨brand, b.name, b.slug⟩ }))
  -- the path is given up with the error
  | .getCategory _ _ _ d, .fail _ => some (s, r.goto (.listVariants d))
  | .getCategory current path seen d, .ok =>
    some (s, r.goto ((round s.tables.categories current path seen).pc d))
  | .listVariants _, .fail err => some (s, r.fails (.plain ("list variants: " ++ err)))
  | .listVariants d, .ok =>
    some (s, r.goto (.listImages { d with variants := listVariantsByProduct s d.id }))
  | .listImages _, .fail err => some (s, r.fails (.plain ("list images: " ++ err)))
  | .listImages d, .ok =>
    some (s, r.goto (.listSpecs { d with images := listImagesByProduct s d.id }))
  | .listSpecs _, .fail err => some (s, r.fails (.plain ("list specs: " ++ err)))
  | .listSpecs d, .ok =>
    some (s, r.goto (.setCache { d with specs := listSpecsByProduct s d.id }))
  | .setCache d, .fail _ => some (s, r.goto (.returned (.ok d)))
  | .setCache d, .ok =>
    some (s.setJSON c.ttl (c.productDetailKey r.slug) d, r.goto (.returned (.ok d)))
  | .returned _, _ => none

/-! ## The webhook and the cache -/

/-- The webhook makes a call, or is about to delete what the commit makes stale: the
details of `slugs`, one after the other, and each time the cached list. -/
inductive Handler where
  | webhook (t : Payment.Thread)
  | invalidateProduct (t : Payment.Thread) (slugs : List String)
  | invalidateList (t : Payment.Thread) (slugs : List String)

def productSlugs (s : State) (order : Nat) : List String :=
  (((s.tables.itemSlugs order).map trimSpace).filter (· ≠ "")).dedup

/-- The deletions come before the commit of a settlement. -/
def beforeCommit (s : State) (t : Payment.Thread) : Handler :=
  match t.pc with
  | .commit l =>
    if t.shouldSettle l.payment ∧ productSlugs s l.payment.orderID ≠ [] then
      .invalidateProduct t (productSlugs s l.payment.orderID)
    else .webhook t
  | _ => .webhook t

def afterInvalidation (t : Payment.Thread) : List String → Handler
  | [] => .webhook t
  | slug :: slugs => .invalidateProduct t (slug :: slugs)

inductive Input where
  | call (x : Call)
  | invalidate (slug : String) (x : Call)

/-- DEL, whose error is ignored. -/
def State.attemptDelete (s : State) (key : String) : Call → State
  | .ok => s.delete key
  | .fail _ => s

/-- Go goes through the slugs in any order, so the input says which comes next. -/
def handlerStep (h : Payment.Webhook) (c : Cache) (i : Nat) (s : State) :
    Handler → Input → Option (State × Handler)
  | .webhook t, .call x =>
    (Payment.webhookStep h i s.store t x).map fun (store, t') =>
      ({ s with store := store }, beforeCommit s t')
  | .invalidateProduct t slugs, .invalidate slug x =>
    if slug ∈ slugs then
      some (s.attemptDelete (c.productDetailKey slug) x, .invalidateList t (slugs.erase slug))
    else none
  | .invalidateList t slugs, .call x =>
    some (s.attemptDelete c.productListKey x, afterInvalidation t slugs)
  | _, _ => none

/-! ## The machine -/

inductive Proc where
  | reader (r : Reader)
  | handler (w : Handler)

def procStep (h : Payment.Webhook) (c : Cache) (i : Nat) (s : State) :
    Proc → Input → Option (State × Proc)
  | .reader r, .call x => (detailStep c s r x).map fun (s', r') => (s', .reader r')
  | .handler w, x => (handlerStep h c i s w x).map fun (s', w') => (s', .handler w')
  | _, _ => none

inductive Launch where
  | detail (slug : String)
  | webhook (r : Payment.Request)

def Launch.proc (h : Payment.Webhook) : Launch → Proc
  | .detail slug => .reader (getProductDetail slug)
  | .webhook r => .handler (.webhook (h.start r))

def catalogMachine (h : Payment.Webhook) (c : Cache) : Machine State Proc Launch Input Nat where
  start := Launch.proc h
  lstep := procStep h c
  estep s d := (Db.tick s.store d).map fun store => { s with store := store }

abbrev System := Sys State Proc
abbrev Action := Act Launch Input Nat

end TokoApi.Catalog
