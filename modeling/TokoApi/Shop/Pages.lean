import TokoApi.Catalog.Listing
import TokoApi.Shop.Lines

/-!
# The pages of the lists

Four endpoints list rows page by page: the products, the orders and the addresses of a user,
and the reviews of a product. Each takes a page and a limit from the query and hands LIMIT and
OFFSET to a statement as int32. The offset is a product that is narrowed; the list of the
products alone then replaces a negative one by zero, and the list of the reviews narrows the
page and the limit before it multiplies.
-/
namespace TokoApi.Shop

open Lib.Numbers Lib.Wrap

structure Slice where
  limit : Int
  offset : Int
  deriving DecidableEq

/-- What the statement returns of its rows. PostgreSQL refuses a negative LIMIT or OFFSET. -/
def Slice.select {α : Type} (s : Slice) (rows : List α) : Option (List α) :=
  if s.limit < 0 ∨ s.offset < 0 then none
  else some ((rows.drop s.offset.toNat).take s.limit.toNat)

/-! ## The endpoints -/

def listProducts (params : Catalog.ListParams) : Slice :=
  let offset := int32 (int64 ((params.page - 1) * params.limit))
  ⟨int32 params.limit, if offset < 0 then 0 else offset⟩

/-- A value of the query that is not a positive integer counts as missing. -/
def parsePagination (page limit : String) (defaultPerPage : Int) : Int × Int :=
  (((parseInt64 page).filter (0 < ·)).getD 1, ((parseInt64 limit).filter (0 < ·)).getD defaultPerPage)

/-- The page and the limit that `order.Handler.List` goes by. -/
def orderPage (page limit : String) : Int × Int :=
  let (page, perPage) := parsePagination page limit 20
  (page, if perPage > 100 then 100 else perPage)

def listOrders (page perPage : Int) : Slice := ⟨int32 perPage, int32 (int64 ((page - 1) * perPage))⟩

def listAddresses (page perPage : Int) : Slice :=
  let perPage := if perPage ≤ 0 then 20 else perPage
  let page := if page ≤ 0 then 1 else page
  ⟨int32 perPage, int32 (int64 ((page - 1) * perPage))⟩

/-- `reviews.Service.List`, whose arithmetic is that of int32. -/
def listReviews (page limit : Int) : Slice :=
  let page := if page < 1 then 1 else page
  let limit := if limit < 1 then 10 else limit
  ⟨limit, int32 (int32 (page - 1) * limit)⟩

/-- A request, as far as it is about the page. -/
inductive Listing where
  | products (s : Catalog.Service) (values : Catalog.ListValues)
  | orders (page limit : String)
  | addresses (page limit : String)
  | reviews (page limit : String)

namespace Listing

/-- What is handed to the statement. The handler of the reviews ignores the errors of the
conversions. -/
def slice : Listing → Option Slice
  | products s values => (s.parseListParams values).toOption.map listProducts
  | orders page limit => some (listOrders (orderPage page limit).1 (orderPage page limit).2)
  | addresses page limit =>
    some (listAddresses (parsePagination page limit 20).1 (parsePagination page limit 20).2)
  | reviews page limit => some (listReviews (int32 (int64Value page)) (int32 (int64Value limit)))

/-- The page and the limit that are accepted, before they are narrowed. The reviews do not
refuse what is negative, but it is no page and no limit. -/
def accepted : Listing → Option (Int × Int)
  | products s values => (s.parseListParams values).toOption.map fun p => (p.page, p.limit)
  | orders page limit => some (orderPage page limit)
  | addresses page limit => some (parsePagination page limit 20)
  | reviews page limit =>
    if int64Value page < 0 ∨ int64Value limit < 0 then none
    else
      some (if int64Value page < 1 then 1 else int64Value page,
        if int64Value limit < 1 then 10 else int64Value limit)

def read {α : Type} (l : Listing) (rows : List α) : Option (List α) := l.slice.bind fun s => s.select rows

/-- Limit and offset fit in an int32; the reviews need that of the page as well. -/
def Fits (l : Listing) (page limit : Int) : Prop :=
  limit < 2 ^ 31 ∧ (page - 1) * limit < 2 ^ 31 ∧
    match l with
    | reviews _ _ => page < 2 ^ 31
    | _ => True

end Listing

/-! ## Narrowing -/

section

variable {page limit : Int}

theorem narrowed_iff (hpage : 1 ≤ page) (hlimit : 1 ≤ limit) :
    (int32 limit = limit ∧ int32 (int64 ((page - 1) * limit)) = (page - 1) * limit) ↔
      limit < 2 ^ 31 ∧ (page - 1) * limit < 2 ^ 31 := by
  have hoffset : 0 ≤ (page - 1) * limit := Int.mul_nonneg (by omega) (by omega)
  rw [int32_int64, int32_eq_iff hoffset, int32_eq_iff (by omega)]

end

/-! ## The four lists -/

section

variable {page limit : Int}

theorem listOrders_exact_iff (hpage : 1 ≤ page) (hlimit : 1 ≤ limit) :
    listOrders page limit = ⟨limit, (page - 1) * limit⟩ ↔
      limit < 2 ^ 31 ∧ (page - 1) * limit < 2 ^ 31 := by
  rw [← narrowed_iff hpage hlimit, listOrders, Slice.mk.injEq]

theorem listAddresses_eq (hpage : 1 ≤ page) (hlimit : 1 ≤ limit) :
    listAddresses page limit = listOrders page limit := by
  unfold listAddresses listOrders
  rw [if_neg (by omega), if_neg (by omega)]

theorem listProducts_exact_iff {p : Catalog.ListParams} (hpage : 1 ≤ p.page) (hlimit : 1 ≤ p.limit) :
    listProducts p = ⟨p.limit, (p.page - 1) * p.limit⟩ ↔
      p.limit < 2 ^ 31 ∧ (p.page - 1) * p.limit < 2 ^ 31 := by
  have hoffset : 0 ≤ (p.page - 1) * p.limit := Int.mul_nonneg (by omega) (by omega)
  rw [← narrowed_iff hpage hlimit, listProducts, Slice.mk.injEq]
  refine and_congr_right fun _ => ?_
  constructor
  · intro h
    split at h
    · rw [← h]
      decide
    · exact h
  · intro h
    rw [h, if_neg (by omega)]

/-- The largest page is one for which page and limit fit. -/
theorem listReviews_exact_iff {p l : Int} (hp : 0 ≤ p) (hl : 0 ≤ l)
    (hpage : page = if p < 1 then 1 else p) (hlimit : limit = if l < 1 then 10 else l) :
    listReviews (int32 p) (int32 l) = ⟨limit, (page - 1) * limit⟩ ↔
      limit < 2 ^ 31 ∧ (page - 1) * limit < 2 ^ 31 ∧ page < 2 ^ 31 := by
  have hpos : 1 ≤ page ∧ 1 ≤ limit := by constructor <;> grind
  have hoffset : 0 ≤ (page - 1) * limit := Int.mul_nonneg (by omega) (by omega)
  -- within int32 the two are those that are accepted
  have hkept : page < 2 ^ 31 → limit < 2 ^ 31 →
      listReviews (int32 p) (int32 l) = ⟨limit, int32 ((page - 1) * limit)⟩ := by
    intro hpage31 hlimit31
    have hp31 : int32 p = p := int32_of_fits (by omega) (by split at hpage <;> omega)
    have hl31 : int32 l = l := int32_of_fits (by omega) (by split at hlimit <;> omega)
    have hbefore : int32 (page - 1) = page - 1 := int32_of_fits (by omega) (by omega)
    rw [listReviews, hp31, hl31, ← hpage, ← hlimit, hbefore]
  constructor
  · intro h
    have hlimit31 : limit < 2 ^ 31 := by
      have hlim := congrArg Slice.limit h
      have hlt := int32_lt l
      dsimp only [listReviews] at hlim
      split at hlim <;> omega
    have hoffset31 : (page - 1) * limit < 2 ^ 31 := by
      have hoff : (listReviews (int32 p) (int32 l)).offset = (page - 1) * limit :=
        congrArg Slice.offset h
      rw [← hoff]
      exact int32_lt _
    refine ⟨hlimit31, hoffset31, ?_⟩
    by_contra hlarge
    -- only page 2 ^ 31 with limit 1 has an offset that fits, and the page becomes negative
    have hone : limit = 1 := by
      by_contra hne
      have hmul : (page - 1) * 2 ≤ (page - 1) * limit := Int.mul_le_mul_of_nonneg_left (by omega) (by omega)
      omega
    rw [hone, Int.mul_one] at hoffset31
    have hp31 : p = 2 ^ 31 := by split at hpage <;> omega
    have hl1 : l = 1 := by split at hlimit <;> omega
    rw [hp31, hl1, hone, show page = 2 ^ 31 by omega] at h
    exact absurd h (by decide)
  · rintro ⟨hlimit31, hoffset31, hpage31⟩
    rw [hkept hpage31 hlimit31, int32_of_fits (by omega) hoffset31]

end

theorem parsePagination_pos (page limit : String) {d : Int} (hd : 1 ≤ d) :
    1 ≤ (parsePagination page limit d).1 ∧ 1 ≤ (parsePagination page limit d).2 := by
  have hpos : ∀ (x : Option Int) (d : Int), 1 ≤ d → 1 ≤ (x.filter (0 < ·)).getD d := by
    intro x d hd
    cases x with
    | none => exact hd
    | some n =>
      by_cases hn : 0 < n
      · have hkeep : (some n).filter (0 < ·) = some n := by simp [Option.filter, hn]
        rw [hkeep, Option.getD_some]
        omega
      · simpa [Option.filter, hn] using hd
  exact ⟨hpos _ 1 le_rfl, hpos _ d hd⟩

namespace Listing

variable {l l' : Listing} {page page' limit : Int}

theorem accepted_pos (h : l.accepted = some (page, limit)) : 1 ≤ page ∧ 1 ≤ limit := by
  cases l with
  | products s values =>
    cases hparse : s.parseListParams values with
    | error e => simp [accepted, hparse, Except.toOption] at h
    | ok p =>
      obtain ⟨rfl, rfl⟩ : p.page = page ∧ p.limit = limit := by
        simpa [accepted, hparse, Except.toOption] using h
      obtain ⟨hpage, hlimit, _⟩ := Catalog.Service.parse_accepts hparse
      exact ⟨hpage, hlimit⟩
  | orders p n =>
    obtain ⟨hpage, hlimit⟩ := parsePagination_pos p n (d := 20) (by decide)
    obtain ⟨rfl, rfl⟩ : _ = page ∧ _ = limit := by simpa [accepted, orderPage] using h
    exact ⟨hpage, by split <;> omega⟩
  | addresses p n =>
    have hpos := parsePagination_pos p n (d := 20) (by decide)
    rw [Option.some.inj h] at hpos
    exact hpos
  | reviews p n =>
    simp only [accepted] at h
    split at h
    · cases h
    · obtain ⟨rfl, rfl⟩ : _ = page ∧ _ = limit := by simpa using h
      constructor <;> split <;> omega

theorem slice_iff (h : l.accepted = some (page, limit)) :
    l.slice = some ⟨limit, (page - 1) * limit⟩ ↔ l.Fits page limit := by
  obtain ⟨hpage, hlimit⟩ := accepted_pos h
  cases l with
  | products s values =>
    cases hparse : s.parseListParams values with
    | error e => simp [accepted, hparse, Except.toOption] at h
    | ok p =>
      obtain ⟨rfl, rfl⟩ : p.page = page ∧ p.limit = limit := by
        simpa [accepted, hparse, Except.toOption] using h
      simp only [slice, hparse, Except.toOption, Option.map_some, Option.some.injEq,
        listProducts_exact_iff hpage hlimit, Fits, and_true]
  | orders p n =>
    simp only [slice, Option.some.inj h, Option.some.injEq, listOrders_exact_iff hpage hlimit, Fits,
      and_true]
  | addresses p n =>
    simp only [slice, Option.some.inj h, Option.some.injEq, listAddresses_eq hpage hlimit,
      listOrders_exact_iff hpage hlimit, Fits, and_true]
  | reviews p n =>
    simp only [accepted] at h
    split at h
    · cases h
    · rename_i hneg
      obtain ⟨hp, hn⟩ := not_or.mp hneg
      obtain ⟨hpage', hlimit'⟩ := Prod.mk.inj (Option.some.inj h)
      simp only [slice, Option.some.injEq, Fits]
      exact listReviews_exact_iff (Int.not_lt.mp hp) (Int.not_lt.mp hn) hpage'.symm hlimit'.symm

end Listing

/-! ## Pages -/

def pageOf {α : Type} (rows : List α) (page limit : Int) : List α :=
  (rows.drop ((page - 1) * limit).toNat).take limit.toNat

theorem pageOf_disjoint_of_lt {α : Type} {rows : List α} (hrows : rows.Nodup) {page page' limit : Int}
    (hpage : 1 ≤ page) (hlt : page < page') (hlimit : 1 ≤ limit) :
    (pageOf rows page limit).Disjoint (pageOf rows page' limit) := by
  have hend : (page - 1) * limit + limit ≤ (page' - 1) * limit :=
    calc (page - 1) * limit + limit = page * limit := by ring
      _ ≤ (page' - 1) * limit := Int.mul_le_mul_of_nonneg_right (by omega) (by omega)
  have hstart : 0 ≤ (page - 1) * limit := Int.mul_nonneg (by omega) (by omega)
  have hle : ((page - 1) * limit).toNat + limit.toNat ≤ ((page' - 1) * limit).toNat := by omega
  intro x hx hx'
  have hbefore : x ∈ rows.take (((page - 1) * limit).toNat + limit.toNat) := by
    rw [List.take_add]
    exact List.mem_append_right _ hx
  exact List.disjoint_take_drop hrows hle hbefore (List.mem_of_mem_take hx')

theorem pageOf_disjoint {α : Type} {rows : List α} (hrows : rows.Nodup) {page page' limit : Int}
    (hpage : 1 ≤ page) (hpage' : 1 ≤ page') (hne : page ≠ page') (hlimit : 1 ≤ limit) :
    (pageOf rows page limit).Disjoint (pageOf rows page' limit) := by
  rcases Int.lt_or_gt_of_ne hne with hlt | hgt
  · exact pageOf_disjoint_of_lt hrows hpage hlt hlimit
  · exact fun x hx hx' => pageOf_disjoint_of_lt hrows hpage' hgt hlimit hx' hx

theorem Listing.read_of_fits {α : Type} {l : Listing} {page limit : Int}
    (h : l.accepted = some (page, limit)) (hfits : l.Fits page limit) (rows : List α) :
    l.read rows = some (pageOf rows page limit) := by
  obtain ⟨hpage, hlimit⟩ := accepted_pos h
  have hoffset : 0 ≤ (page - 1) * limit := Int.mul_nonneg (by omega) (by omega)
  rw [read, (slice_iff h).mpr hfits, Option.bind_some, Slice.select, if_neg (by dsimp only; omega),
    pageOf]

/-- For every accepted page and limit, the statement is handed the limit and the exact offset
exactly if limit and offset fit in an int32, and for the reviews also the page. Where they
fit, the query does not fail and returns the page, and different pages have no row in
common. -/
theorem page_exact_iff (l : Listing) (page limit : Int) (h : l.accepted = some (page, limit)) :
    (l.slice = some ⟨limit, (page - 1) * limit⟩ ↔ l.Fits page limit) ∧
    (l.Fits page limit → ∀ rows : List Nat, l.read rows = some (pageOf rows page limit) ∧
      ∀ (l' : Listing) (page' : Int), l'.accepted = some (page', limit) → l'.Fits page' limit →
        page' ≠ page → rows.Nodup →
        ∃ other, l'.read rows = some other ∧ other.Disjoint (pageOf rows page limit)) := by
  obtain ⟨hpage, hlimit⟩ := Listing.accepted_pos h
  refine ⟨Listing.slice_iff h, fun hfits rows => ⟨Listing.read_of_fits h hfits rows, ?_⟩⟩
  intro l' page' h' hfits' hne hrows
  obtain ⟨hpage', _⟩ := Listing.accepted_pos h'
  exact ⟨_, Listing.read_of_fits h' hfits' rows, pageOf_disjoint hrows hpage' hpage hne hlimit⟩

theorem third_page :
    (Listing.orders "3" "500").accepted = some (3, 100) ∧
      (Listing.orders "3" "500").slice = some ⟨100, 200⟩ := by
  have haccepted : (Listing.orders "3" "500").accepted = some (3, 100) := by decide +kernel
  exact ⟨haccepted, (page_exact_iff _ 3 100 haccepted).1.mpr ⟨by decide, by decide, trivial⟩⟩

def catalogDefaults : Catalog.Service := Catalog.newService ⟨0, 0, 0⟩

def productPage (page limit : String) : Listing :=
  .products catalogDefaults ⟨"", "", "", page, limit, "", "", "", ""⟩

/-- From page 107374184 with limit 20 on, the offset is not an int32: the query for the orders
fails, and the products are those of the first page. The reviews of page 2 ^ 31 are those of
the first page. -/
theorem far_pages :
    ((Listing.orders "107374184" "20").accepted = some (107374184, 20) ∧
      (Listing.orders "107374184" "20").slice = some ⟨20, -2147483636⟩ ∧
      (Listing.orders "107374184" "20").read [1, 2, 3] = none) ∧
    ((productPage "107374184" "20").accepted = some (107374184, 20) ∧
      (productPage "107374184" "20").read [1, 2, 3] = (productPage "1" "20").read [1, 2, 3]) ∧
    (Listing.reviews "2147483648" "1").accepted = some (2147483648, 1) ∧
      (Listing.reviews "2147483648" "1").read [1, 2, 3] = (Listing.reviews "1" "1").read [1, 2, 3] := by
  decide +kernel

/-! ## One page after the other -/

/-- Requests for the pages after page `k`, all with the same limit. -/
def Walk (limit : Int) : Nat → List Listing → Prop
  | _, [] => True
  | k, l :: ls =>
    (l.accepted = some ((k : Int) + 1, limit) ∧ l.Fits (k + 1) limit) ∧ Walk limit (k + 1) ls

theorem walk_reads {α : Type} {limit : Int} {ls : List Listing} {k : Nat} (h : Walk limit k ls)
    (rows : List α) : ∃ pages, ls.mapM (fun l => l.read rows) = some pages ∧
      pages.flatten = (rows.drop (k * limit.toNat)).take (ls.length * limit.toNat) := by
  induction ls generalizing k with
  | nil => exact ⟨[], rfl, by simp⟩
  | cons l ls ih =>
    obtain ⟨⟨haccepted, hfits⟩, hrest⟩ := h
    obtain ⟨pages, hpages, hflat⟩ := ih hrest
    have hlimit : 1 ≤ limit := (Listing.accepted_pos haccepted).2
    have hoffset : (((k : Int) + 1 - 1) * limit).toNat = k * limit.toNat := by
      rw [Int.add_sub_cancel, Int.toNat_mul (by omega) (by omega), Int.toNat_natCast]
    refine ⟨pageOf rows (k + 1) limit :: pages, ?_, ?_⟩
    · simp [Listing.read_of_fits haccepted hfits rows, hpages]
    · rw [List.flatten_cons, hflat, pageOf, hoffset, List.length_cons, Nat.succ_mul, Nat.succ_mul,
        Nat.add_comm (ls.length * _), List.take_add, List.drop_drop]

/-- Whoever asks for the first pages one after the other, as far as the numbers fit, is given
the first rows in their order, each once. -/
theorem pages_cover (limit : Int) (ls : List Listing) (h : Walk limit 0 ls) (rows : List Nat) :
    ∃ pages, ls.mapM (fun l => l.read rows) = some pages ∧
      pages.flatten = rows.take (ls.length * limit.toNat) := by
  simpa using walk_reads h rows

theorem two_pages_cover :
    ∃ pages, [Listing.orders "1" "2", .orders "2" "2"].mapM (fun l => l.read [7, 8, 9]) = some pages ∧
      pages.flatten = [7, 8, 9] :=
  pages_cover 2 [.orders "1" "2", .orders "2" "2"] ⟨⟨by decide +kernel, by decide, by decide, trivial⟩,
    ⟨by decide +kernel, by decide, by decide, trivial⟩, trivial⟩ [7, 8, 9]

end TokoApi.Shop
