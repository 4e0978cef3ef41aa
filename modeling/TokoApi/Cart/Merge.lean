import TokoApi.Cart.Edit

/-!
# Carts and their owners

`EnsureCart` and `Merge` of cart/service.go, one step for each statement and for
each reading of the clock, and the requests to the cart service together. `Merge`
expires the guest's cart and hands it to the user in four statements whose errors
are discarded.
-/
namespace TokoApi.Cart

open Db Lib.Threads Lib.Wrap

/-! ## EnsureCart -/

/-- The identifiers of a request, and the tenant of its context. -/
structure EnsureRequest where
  userID : Option String
  anonID : Option String
  tenant : Option String
  deriving DecidableEq

inductive Owner where
  | user (id : Nat)
  | anon (id : String)
  deriving DecidableEq

inductive EnsurePc where
  | expires (o : Owner)
  | getActive (o : Owner) (expires : Int)
  | createCart (o : Owner) (expires : Int)
  | touchCart (id : Nat) (cart : Cart) (expires : Int)
  | returned (r : Except String (Nat × Cart))
  deriving DecidableEq

/-- The tenant of the context, or the default one where it does not parse. -/
def Service.resolveTenant (svc : Service) (tenant : Option String) : Option Nat :=
  match tenant.map svc.toUUID with
  | some (.ok id) => some id
  | _ => svc.defaultTenantID

/-- A user comes before an anonymous identifier. -/
def ensureStart (svc : Service) (r : EnsureRequest) : EnsurePc :=
  if r.userID.getD "" ≠ "" then
    match svc.parse "user id" (r.userID.getD "") with
    | .error err => .returned (.error err)
    | .ok id => .expires (.user id)
  else if r.anonID.getD "" ≠ "" then .expires (.anon (r.anonID.getD ""))
  else .returned (.error "invalid input")

def Owner.getActiveCart (s : Store) : Owner → Option (Nat × Cart)
  | .user id => getActiveCartByUser s id
  | .anon id => getActiveCartByAnon s id

def Owner.createCart (s : Store) (expires : Int) (tenant : Option Nat) :
    Owner → Except String (Store × Nat × Cart)
  | .user id => Db.createCart s (some id) none expires tenant
  | .anon id => Db.createCart s none (some id) expires tenant

def ensureStep (svc : Service) (tenant : Option String) (s : Store) :
    EnsurePc → Call → Option (Store × EnsurePc)
  | .expires o, .ok => some (s, .getActive o (svc.expiry s.now))
  | .getActive o expires, .ok =>
    match o.getActiveCart s with
    | some (id, cart) => some (s, .touchCart id cart expires)
    | none => some (s, .createCart o expires)
  | .createCart o expires, .ok =>
    match o.createCart s expires (svc.resolveTenant tenant) with
    | .error err => some (s, .returned (.error err))
    | .ok (s', id, cart) => some (s', .returned (.ok (id, cart)))
  | .touchCart id cart expires, .ok => some (touchCart s id expires, .returned (.ok (id, cart)))
  | .touchCart id cart _, .fail _ => some (s, .returned (.ok (id, cart)))
  | .getActive _ _, .fail err | .createCart _ _, .fail err => some (s, .returned (.error err))
  | .expires _, .fail _ | .returned _, _ => none

/-! ## Merge -/

structure MergeRequest where
  guestCartID : String
  userID : String
  tenant : Option String
  deriving DecidableEq

structure MergeArgs where
  guest : Nat
  user : Nat
  request : MergeRequest
  deriving DecidableEq

/-- `cart` is the user's cart. -/
inductive MergePc where
  | getGuest
  | ensure (pc : EnsurePc)
  | listItems (cart : Nat)
  | findItem (cart : Nat) (item : CartItem) (rest : List CartItem)
  | setQty (cart : Nat) (existing item : CartItem) (rest : List CartItem)
  | createItem (cart : Nat) (item : CartItem) (rest : List CartItem)
  | expires (cart : Nat)
  | touchUser (cart : Nat) (expires : Int)
  | clock (cart : Nat)
  | touchGuest (cart : Nat) (expires : Int)
  | clearVoucher (cart : Nat)
  | transfer (cart : Nat)
  | returned (r : Except String Nat)
  deriving DecidableEq

def MergePc.fails (err : String) : MergePc := .returned (.error err)

def parseMerge (svc : Service) (r : MergeRequest) : Except String MergeArgs := do
  let guest ← svc.parse "guest cart id" r.guestCartID
  let user ← svc.parse "user id" r.userID
  return ⟨guest, user, r⟩

/-- `EnsureCart` parses the user once more. -/
def MergeArgs.ensureStart (svc : Service) (a : MergeArgs) : EnsurePc :=
  Cart.ensureStart svc ⟨some a.request.userID, none, a.request.tenant⟩

def afterEnsure : EnsurePc → MergePc
  | .returned (.error err) => .fails err
  | .returned (.ok (cart, _)) => .listItems cart
  | pc => .ensure pc

def nextLine (cart : Nat) : List CartItem → MergePc
  | [] => .expires cart
  | item :: rest => .findItem cart item rest

/-- A line that exists gets the larger quantity, at its own price. -/
def mergeFound (cart : Nat) (existing item : CartItem) (rest : List CartItem) : MergePc :=
  if existing.qty < item.qty then .setQty cart existing item rest else nextLine cart rest

def mergeStep (svc : Service) (a : MergeArgs) (s : Store) :
    MergePc → Call → Option (Store × MergePc)
  | .getGuest, .ok =>
    match getCartByID s a.guest with
    | none => some (s, .fails "cart not found")
    | some _ => some (s, afterEnsure (a.ensureStart svc))
  | .ensure pc, x =>
    (ensureStep svc a.request.tenant s pc x).map fun p => (p.1, afterEnsure p.2)
  | .listItems cart, .ok => some (s, nextLine cart (listCartItems s a.guest))
  | .findItem cart item rest, .ok =>
    match findCartItemByProductVariant s cart item.productID item.variantID with
    | some existing => some (s, mergeFound cart existing item rest)
    | none => some (s, .createItem cart item rest)
  | .setQty cart existing item rest, .ok =>
    written s MergePc.fails (nextLine cart rest)
      (updateCartItemQty s existing.id item.qty (int64 (item.qty * existing.unitPrice)))
  | .createItem cart item rest, .ok =>
    written s MergePc.fails (nextLine cart rest) (createCartItem s { item with cartID := cart })
  | .expires cart, .ok => some (s, .touchUser cart (svc.expiry s.now))
  | .touchUser cart expires, .ok => some (touchCart s cart expires, .clock cart)
  | .clock cart, .ok => some (s, .touchGuest cart s.now)
  | .touchGuest cart expires, .ok => some (touchCart s a.guest expires, .clearVoucher cart)
  | .clearVoucher cart, .ok => some (updateCartVoucher s a.guest none, .transfer cart)
  | .transfer cart, .ok => some (transferCartToUser s a.guest a.user, .returned (.ok cart))
  -- the errors of the last four statements are discarded
  | .touchUser cart _, .fail _ => some (s, .clock cart)
  | .touchGuest cart _, .fail _ => some (s, .clearVoucher cart)
  | .clearVoucher cart, .fail _ => some (s, .transfer cart)
  | .transfer cart, .fail _ => some (s, .returned (.ok cart))
  | .expires _, .fail _ | .clock _, .fail _ | .returned _, _ => none
  | _, .fail err => some (s, .fails err)

/-! ## Requests to the cart service -/

inductive Request where
  | edit (r : EditRequest)
  | ensure (r : EnsureRequest)
  | merge (r : MergeRequest)

inductive Thread where
  | edit (r : EditRequest) (pc : EditPc)
  | ensure (tenant : Option String) (pc : EnsurePc)
  | merge (a : MergeArgs) (pc : MergePc)
  deriving DecidableEq

def start (svc : Service) : Request → Thread
  | .edit r => .edit r (editStart svc r)
  | .ensure r => .ensure r.tenant (ensureStart svc r)
  | .merge r =>
    match parseMerge svc r with
    | .error err => .merge ⟨0, 0, r⟩ (.fails err)
    | .ok a => .merge a .getGuest

def cartStep (svc : Service) (s : Store) (t : Thread) (x : Call) : Option (Store × Thread) :=
  match t with
  | .edit r pc => (editStep svc s pc x).map fun p => (p.1, .edit r p.2)
  | .ensure tenant pc => (ensureStep svc tenant s pc x).map fun p => (p.1, .ensure tenant p.2)
  | .merge a pc => (mergeStep svc a s pc x).map fun p => (p.1, .merge a p.2)

end TokoApi.Cart
