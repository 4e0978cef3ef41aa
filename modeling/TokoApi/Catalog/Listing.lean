import TokoApi.Catalog.Detail
import TokoApi.Lib.Numbers

/-!
# The parameters of the product list

`NewService` and `ParseListParams` (catalog/service.go). The values of the query are texts,
empty where they are missing; blanks around them do not matter.
-/
namespace TokoApi.Catalog

open Lib.Numbers Lib.Text

structure ServiceConfig where
  defaultPage : Int
  defaultLimit : Int
  maxLimit : Int

structure Service where
  defaultPage : Int
  defaultLimit : Int
  maxLimit : Int
  page_pos : 1 ≤ defaultPage
  limit_pos : 1 ≤ defaultLimit
  limit_le : defaultLimit ≤ maxLimit

def newService (cfg : ServiceConfig) : Service :=
  let defaultPage := if cfg.defaultPage < 1 then 1 else cfg.defaultPage
  let defaultLimit := if cfg.defaultLimit < 1 then 20 else cfg.defaultLimit
  let maxLimit := if cfg.maxLimit < 1 then 100 else cfg.maxLimit
  { defaultPage := defaultPage
    defaultLimit := if defaultLimit > maxLimit then maxLimit else defaultLimit
    maxLimit := maxLimit
    page_pos := by grind
    limit_pos := by grind
    limit_le := by grind }

structure ListValues where
  q : String
  category : String
  brand : String
  page : String
  limit : String
  minPrice : String
  maxPrice : String
  inStock : String
  sort : String

structure ListParams where
  query : String
  category : String
  brand : String
  minPrice : Option Int
  maxPrice : Option Int
  inStock : Option Bool
  sort : String
  page : Int
  limit : Int
  deriving DecidableEq

def badRequest (field message : String) : AppError := ⟨400, "BAD_REQUEST", message, some field⟩

def parseValue {α : Type} (field message value : String) (convert : String → Option α) :
    Except AppError (Option α) :=
  if trimSpace value = "" then .ok none
  else
    match convert (trimSpace value) with
    | none => .error (badRequest field message)
    | some x => .ok (some x)

def positive (value : String) : Option Int := (parseInt64 value).filter (1 ≤ ·)

def parseBool (value : String) : Option Bool :=
  let v := toLower (trimSpace value)
  if v ∈ ["true", "1", "yes", "y"] then some true
  else if v ∈ ["false", "0", "no", "n"] then some false
  else none

def normalizeSort (s : String) : String :=
  let s := toLower (trimSpace s)
  if s ∈ ["price:asc", "price:desc", "title:asc", "title:desc"] then s else ""

def priceRange (minPrice maxPrice : Option Int) : Except AppError Unit :=
  match minPrice, maxPrice with
  | some lo, some hi =>
    if lo > hi then .error (badRequest "price" "minPrice cannot be greater than maxPrice") else .ok ()
  | _, _ => .ok ()

namespace Service

variable (s : Service)

/-- The limit is not refused where it is too large. -/
def capped (limit : Int) : Int := if limit > s.maxLimit then s.maxLimit else limit

def parseListParams (values : ListValues) : Except AppError ListParams := do
  let page ← parseValue "page" "page must be a positive integer" values.page positive
  let limit ← parseValue "limit" "limit must be a positive integer" values.limit positive
  let minPrice ← parseValue "minPrice" "minPrice must be a valid integer" values.minPrice parseInt64
  let maxPrice ← parseValue "maxPrice" "maxPrice must be a valid integer" values.maxPrice parseInt64
  priceRange minPrice maxPrice
  let inStock ← parseValue "inStock" "inStock must be true or false" values.inStock parseBool
  return {
    query := trimSpace values.q
    category := trimSpace values.category
    brand := trimSpace values.brand
    minPrice := minPrice
    maxPrice := maxPrice
    inStock := inStock
    sort := normalizeSort values.sort
    page := page.getD s.defaultPage
    limit := s.capped (limit.getD s.defaultLimit) }

end Service

/-! ## What is accepted -/

theorem exists_ok_of_bind {ε α β : Type} {x : Except ε α} {f : α → Except ε β} {b : β} (h : x >>= f = .ok b) :
    ∃ a, x = .ok a ∧ f a = .ok b := by
  cases x with
  | error e => cases h
  | ok a => exact ⟨a, rfl, h⟩

theorem positive_getD {field message value : String} {x : Option Int} {d : Int}
    (h : parseValue field message value positive = .ok x) (hd : 1 ≤ d) : 1 ≤ x.getD d := by
  unfold parseValue at h
  split at h
  · cases h
    exact hd
  · split at h
    · cases h
    · rename_i n hn
      cases h
      have hpos := (Option.filter_eq_some_iff.mp hn).2
      exact of_decide_eq_true hpos

theorem Service.parse_accepts {s : Service} {values : ListValues} {p : ListParams}
    (h : s.parseListParams values = .ok p) : 1 ≤ p.page ∧ 1 ≤ p.limit ∧ p.limit ≤ s.maxLimit := by
  obtain ⟨page, hpage, h⟩ := exists_ok_of_bind h
  obtain ⟨limit, hlimit, h⟩ := exists_ok_of_bind h
  obtain ⟨_, _, h⟩ := exists_ok_of_bind h
  obtain ⟨_, _, h⟩ := exists_ok_of_bind h
  obtain ⟨_, _, h⟩ := exists_ok_of_bind h
  obtain ⟨_, _, h⟩ := exists_ok_of_bind h
  cases h
  have hpos := positive_getD hlimit s.limit_pos
  have hmax := s.limit_pos.trans s.limit_le
  refine ⟨positive_getD hpage s.page_pos, ?_, ?_⟩ <;> dsimp only [Service.capped] <;> split <;> omega

end TokoApi.Catalog
