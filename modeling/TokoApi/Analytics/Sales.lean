import Mathlib.Data.List.Sort
import TokoApi.Lib.Dates
import TokoApi.Lib.Durations
import TokoApi.Lib.Keys
import TokoApi.Lib.Text
import TokoApi.Lib.Threads

/-!
# The cached sales

`analytics.Service.SalesRange` (analytics/service.go) over a view that does not change. The
answer to a range is kept under a key with the dates of its two ends, each in the zone it was
given in. The query compares the days of the view with the instants themselves, which a date
does not determine: ranges with the same dates may differ by their clock times and by their
offsets, and are then answered with the rows of the one that came first.
-/
namespace TokoApi.Analytics

open Lib.Dates Lib.Durations Lib.Redis Lib.Runs Lib.Text Lib.Threads

/-! ## Ranges -/

/-- An instant in nanoseconds, and the offset of its zone in seconds. -/
structure Time where
  unixNano : Int
  offset : Int
  deriving DecidableEq

/-- A span of time as `Handler.Sales` accepts it. -/
structure Range where
  start : Time
  stop : Time
  before : start.unixNano < stop.unixNano
  deriving DecidableEq

namespace Time

def day (t : Time) : Int := (t.unixNano + t.offset * second) / (86400 * second)

/-- `Format(time.DateOnly)`. -/
def dateOnly (t : Time) : String := dateText t.day

/-- A timestamp of a statement has microseconds. -/
def micros (t : Time) : Int := t.unixNano / 1000

end Time

/-! ## The view -/

/-- A row of `mv_sales_daily`; `day` is an instant in microseconds. -/
structure SalesDaily where
  day : Int
  paidOrders : Int
  allOrders : Int
  revenue : Option Int
  deriving DecidableEq

structure SalesRow where
  day : Int
  paidOrders : Int
  allOrders : Int
  revenue : Int
  deriving DecidableEq

def SalesDaily.row (d : SalesDaily) : SalesRow := ⟨d.day, d.paidOrders, d.allOrders, d.revenue.getD 0⟩

abbrev Range.selects (r : Range) (day : Int) : Prop := r.start.micros ≤ day ∧ day < r.stop.micros

def getSalesDailyRange (view : List SalesDaily) (r : Range) : List SalesRow :=
  ((view.filter fun d => r.selects d.day).insertionSort fun a b => a.day ≤ b.day).map SalesDaily.row

/-- No day of the view is in one of the ranges only. -/
def SameDays (view : List SalesDaily) (r r' : Range) : Prop :=
  ∀ d ∈ view, r.selects d.day ↔ r'.selects d.day

theorem mem_getSalesDailyRange {view : List SalesDaily} {r : Range} {row : SalesRow} :
    row ∈ getSalesDailyRange view r ↔ ∃ d ∈ view, r.selects d.day ∧ d.row = row := by
  simp only [getSalesDailyRange, List.mem_map, List.mem_insertionSort, List.mem_filter,
    decide_eq_true_eq, and_assoc]

theorem getSalesDailyRange_eq_iff {view : List SalesDaily} {r r' : Range} :
    getSalesDailyRange view r = getSalesDailyRange view r' ↔ SameDays view r r' := by
  constructor
  · intro h d hd
    have hselects : ∀ {a b : Range}, getSalesDailyRange view a = getSalesDailyRange view b →
        a.selects d.day → b.selects d.day := by
      intro a b hab ha
      have hrow : d.row ∈ getSalesDailyRange view b :=
        hab ▸ mem_getSalesDailyRange.mpr ⟨d, hd, ha, rfl⟩
      obtain ⟨e, _, he, heq⟩ := mem_getSalesDailyRange.mp hrow
      have hday : e.day = d.day := congrArg SalesRow.day heq
      exact hday ▸ he
    exact ⟨hselects h, hselects h.symm⟩
  · intro h
    have hfilter : (view.filter fun d => r.selects d.day) = view.filter fun d => r'.selects d.day :=
      List.filter_congr fun d hd => decide_eq_decide.mpr (h d hd)
    rw [getSalesDailyRange, getSalesDailyRange, hfilter]

/-! ## The service -/

/-- `redis` says that there is a client. -/
structure Service where
  redis : Bool
  ttl : Int
  keyPrefix : String

/-- `strings.Trim(s, ": ")`. -/
def trimColons (s : String) : String :=
  let inner := fun cs : List Char => cs.dropWhile fun c => c = ':' || c = ' '
  String.ofList (inner (inner s.toList).reverse).reverse

namespace Service

variable (svc : Service)

def key (parts : List String) : String :=
  ":".intercalate ((if trimColons svc.keyPrefix = "" then [] else [trimColons svc.keyPrefix]) ++ parts)

def salesKey (r : Range) : String :=
  svc.key ["analytics", "sales", r.start.dateOnly, r.stop.dateOnly]

/-- Nothing is read from the cache or stored otherwise. -/
abbrev caches (key : String) : Prop := svc.redis = true ∧ 0 < svc.ttl ∧ trimSpace key ≠ ""

end Service

/-- The value of a key. `range` is the range it was stored for, which no code reads. -/
structure Entry (svc : Service) (view : List SalesDaily) (key : String) where
  range : Range
  rows : List SalesRow
  lease : Lease
  named : svc.salesKey range = key
  queried : rows = getSalesDailyRange view range

/-- A call that has returned, and whether the query would have failed. -/
structure Returned where
  range : Range
  query : Call
  result : Except String (List SalesRow)

structure State (svc : Service) (view : List SalesDaily) where
  now : Int
  cache : (key : String) → Option (Entry svc view key)
  returned : List Returned

section

variable {svc : Service} {view : List SalesDaily}

def State.found (s : State svc view) (r : Range) (get : Call) : Option (Entry svc view (svc.salesKey r)) :=
  if svc.caches (svc.salesKey r) then
    match get with
    | .fail _ => none
    | .ok => (s.cache (svc.salesKey r)).filter fun e => e.lease.held s.now
  else none

/-- SET of the rows that the query has returned; its error is ignored. -/
def State.store (s : State svc view) (r : Range) (set : Call) : State svc view :=
  if svc.caches (svc.salesKey r) then
    match set with
    | .fail _ => s
    | .ok =>
      { s with
        cache := Function.update s.cache (svc.salesKey r)
          (some ⟨r, getSalesDailyRange view r, .starting s.now svc.ttl, rfl, rfl⟩) }
  else s

def salesRange (s : State svc view) (r : Range) (get query set : Call) :
    State svc view × Except String (List SalesRow) :=
  match s.found r get with
  | some e => (s, .ok e.rows)
  | none =>
    match query with
    | .fail err => (s, .error err)
    | .ok => (s.store r set, .ok (getSalesDailyRange view r))

/-- A call, the passing of time, and the deletion of a key by `Clear` or by Redis. -/
inductive Event where
  | call (r : Range) (get query set : Call)
  | pass (d : Nat)
  | delete (key : String)

def State.record (s : State svc view) (a : Returned) : State svc view :=
  { s with returned := a :: s.returned }

def step (s : State svc view) : Event → Option (State svc view)
  | .call r get query set =>
    some ((salesRange s r get query set).1.record ⟨r, query, (salesRange s r get query set).2⟩)
  | .pass d => some { s with now := s.now + d }
  | .delete key => some { s with cache := Function.update s.cache key none }

def unused (svc : Service) (view : List SalesDaily) (now : Int) : State svc view := ⟨now, fun _ => none, []⟩

/-! ## Transparency -/

/-- The call returns the rows that the query has for its range, or the error of the query. -/
def Returned.Right (view : List SalesDaily) (a : Returned) : Prop :=
  a.result = .ok (getSalesDailyRange view a.range) ∨
    ∃ err, a.query = .fail err ∧ a.result = .error err

def Transparent (s : State svc view) : Prop := ∀ a ∈ s.returned, a.Right view

/-- Where a call finds rows, the range they were stored for has the days of its own. -/
def Agreeing (s : State svc view) : Event → Prop
  | .call r get _ _ => ∀ e ∈ s.found r get, SameDays view e.range r
  | _ => True

theorem store_returned (s : State svc view) (r : Range) (set : Call) :
    (s.store r set).returned = s.returned := by
  unfold State.store
  split
  · cases set <;> rfl
  · rfl

theorem salesRange_returned (s : State svc view) (r : Range) (get query set : Call) :
    (salesRange s r get query set).1.returned = s.returned := by
  unfold salesRange
  split
  · rfl
  · cases query with
    | ok => exact store_returned s r set
    | fail err => rfl

theorem salesRange_right_iff (s : State svc view) (r : Range) (get query set : Call) :
    Returned.Right view ⟨r, query, (salesRange s r get query set).2⟩ ↔
      ∀ e ∈ s.found r get, SameDays view e.range r := by
  unfold Returned.Right salesRange
  cases hfound : s.found r get with
  | some e =>
    simp only [Option.mem_some_iff, forall_eq', Except.ok.injEq, reduceCtorEq, and_false, exists_false,
      or_false]
    rw [e.queried]
    exact getSalesDailyRange_eq_iff
  | none =>
    refine iff_of_true ?_ (Lib.Threads.forall_mem_none)
    cases query with
    | ok => exact .inl rfl
    | fail err => exact .inr ⟨err, rfl, rfl⟩

variable {s : State svc view} {e : Event} {r : Range} {offset : Int}

theorem transparent_step {t : State svc view} (h : step s e = some t) :
    Transparent t ↔ Transparent s ∧ Agreeing s e := by
  cases e with
  | call r get query set =>
    obtain rfl := Option.some.inj h
    simp only [Transparent, Agreeing, State.record, List.forall_mem_cons, salesRange_returned,
      salesRange_right_iff]
    exact and_comm
  | pass d | delete key =>
    cases h
    exact (and_iff_left trivial).symm

/-- In every sequence of calls over a view that does not change, every call returns the rows of
the query exactly if no call finds rows that were stored for a range with other days. -/
theorem sales_transparent_iff (svc : Service) (view : List SalesDaily) (now : Int) (es : List Event)
    (s : State svc view) (hr : run step (unused svc view now) es = some s) :
    Transparent s ↔ Meets step Agreeing (unused svc view now) es := by
  have hlast := last_iff_meets (I := fun _ : State svc view => True) (A := fun _ => True)
    (fun _ _ _ _ _ _ => trivial) (fun _ _ _ _ _ hs => transparent_step hs) trivial
    (fun _ _ => trivial) hr
  have hnone : Transparent (unused svc view now) := by
    intro a ha
    cases ha
  exact hlast.2.trans (and_iff_right hnone)

/-! ## Ranges of whole days -/

theorem salesKey_head : ∃ head : String, ∀ r : Range,
    svc.salesKey r = head ++ (r.start.dateOnly ++ ":" ++ r.stop.dateOnly) := by
  have hjoin : ∀ a b : String, ":".intercalate ["analytics", "sales", a, b] =
      "analytics" ++ ":" ++ "sales" ++ ":" ++ a ++ ":" ++ b := fun _ _ => rfl
  have hjoin' : ∀ p a b : String, ":".intercalate [p, "analytics", "sales", a, b] =
      p ++ ":" ++ "analytics" ++ ":" ++ "sales" ++ ":" ++ a ++ ":" ++ b := fun _ _ _ => rfl
  by_cases hp : trimColons svc.keyPrefix = ""
  · refine ⟨"analytics" ++ ":" ++ "sales" ++ ":", fun r => ?_⟩
    simp only [Service.salesKey, Service.key, if_pos hp, List.nil_append, hjoin, String.append_assoc]
  · refine ⟨trimColons svc.keyPrefix ++ ":" ++ "analytics" ++ ":" ++ "sales" ++ ":", fun r => ?_⟩
    simp only [Service.salesKey, Service.key, if_neg hp, List.cons_append, List.nil_append, hjoin',
      String.append_assoc]

theorem salesKey_eq_iff {r' : Range} :
    svc.salesKey r = svc.salesKey r' ↔ r.start.day = r'.start.day ∧ r.stop.day = r'.stop.day := by
  obtain ⟨head, hkey⟩ := salesKey_head
  rw [hkey, hkey, String.append_right_inj, append_colon_eq_iff]
  have hword : ∀ (t : Time) (a m : String), t.dateOnly ≠ a ++ ":" ++ m := by
    intro t a m h
    have hcolon : ':' ∈ t.dateOnly.toList := by simp [h]
    exact colon_notMem_dateText t.day hcolon
  constructor
  · rintro (⟨hstart, hstop⟩ | ⟨m, ⟨h, _⟩ | ⟨h, _⟩⟩)
    · exact ⟨dateText_inj.mp hstart, dateText_inj.mp hstop⟩
    · exact absurd h (hword _ _ _)
    · exact absurd h (hword _ _ _)
  · rintro ⟨hstart, hstop⟩
    exact .inl ⟨dateText_inj.mpr hstart, dateText_inj.mpr hstop⟩

def Time.Midnight (offset : Int) (t : Time) : Prop :=
  t.offset = offset ∧ (86400 * second) ∣ t.unixNano + offset * second

theorem Time.Midnight.eq {t u : Time} (ht : t.Midnight offset) (hu : u.Midnight offset)
    (h : t.day = u.day) : t = u := by
  obtain ⟨hto, ha⟩ := ht
  obtain ⟨huo, hb⟩ := hu
  unfold Time.day at h
  rw [hto, huo] at h
  have hnano := (Int.ediv_left_inj ha hb).mp h
  cases t
  cases u
  simp_all

def Event.WholeDays (offset : Int) : Event → Prop
  | .call r _ _ _ => r.start.Midnight offset ∧ r.stop.Midnight offset
  | _ => True

def EntriesWhole (offset : Int) (s : State svc view) : Prop :=
  ∀ key, ∀ e ∈ s.cache key, e.range.start.Midnight offset ∧ e.range.stop.Midnight offset

theorem mem_cache_of_found {get : Call}
    {e : Entry svc view (svc.salesKey r)} (h : e ∈ s.found r get) : e ∈ s.cache (svc.salesKey r) := by
  unfold State.found at h
  split at h
  · cases get with
    | ok => exact (Option.mem_filter_iff.mp h).1
    | fail err => cases h
  · cases h

theorem mem_cache_of_call {get query set : Call} {key : String}
    {e : Entry svc view key} (h : e ∈ (salesRange s r get query set).1.cache key) :
    e ∈ s.cache key ∨ e.range = r := by
  unfold salesRange at h
  split at h
  · exact .inl h
  · cases query with
    | fail err => exact .inl h
    | ok =>
      dsimp only [State.store] at h
      split at h
      · cases set with
        | fail err => exact .inl h
        | ok =>
          by_cases hkey : key = svc.salesKey r
          · subst hkey
            dsimp only at h
            rw [Function.update_self] at h
            cases h
            exact .inr rfl
          · dsimp only at h
            rw [Function.update_of_ne hkey] at h
            exact .inl h
      · exact .inl h

theorem entriesWhole_step {t : State svc view}
    (h : EntriesWhole offset s) (he : e.WholeDays offset) (hs : step s e = some t) :
    EntriesWhole offset t := by
  intro key entry hmem
  cases e with
  | call r get query set =>
    obtain rfl := Option.some.inj hs
    rcases mem_cache_of_call hmem with hold | hown
    · exact h key entry hold
    · rw [hown]
      exact he
  | pass d =>
    cases hs
    exact h key entry hmem
  | delete k =>
    have ht : t.cache = Function.update s.cache k none := congrArg State.cache (Option.some.inj hs).symm
    rw [ht] at hmem
    by_cases hkey : key = k
    · subst hkey
      rw [Function.update_self] at hmem
      cases hmem
    · rw [Function.update_of_ne hkey] at hmem
      exact h key entry hmem

theorem agreeing_of_wholeDays
    (h : EntriesWhole offset s) (he : e.WholeDays offset) : Agreeing s e := by
  cases e with
  | call r get query set =>
    intro entry hfound
    obtain ⟨hstart, hstop⟩ := h _ entry (mem_cache_of_found hfound)
    obtain ⟨hs, ht⟩ := salesKey_eq_iff.mp entry.named
    intro d _
    rw [Range.selects, Range.selects, hstart.eq he.1 hs, hstop.eq he.2 ht]
  | pass d | delete key => trivial

theorem wholeDays_transparent {now : Int} {es : List Event}
    (hes : ∀ e ∈ es, e.WholeDays offset) (hr : run step (unused svc view now) es = some s) :
    Transparent s := by
  have hinv : EntriesWhole offset s ∧ Transparent s := by
    refine run_inv (I := fun s : State svc view => EntriesWhole offset s ∧ Transparent s)
      (fun s e t h he hs => ?_) ⟨?_, ?_⟩ (meets_of_forall hes) hr
    · exact ⟨entriesWhole_step h.1 he hs, (transparent_step hs).mpr ⟨h.2, agreeing_of_wholeDays h.1 he⟩⟩
    · intro key e he
      cases he
    · intro a ha
      cases ha
  exact hinv.2

end

/-! ## Two ranges of one key -/

/-- The 29th of February 2024, UTC, with one order. -/
def leapDay : List SalesDaily := [⟨1709164800000000, 1, 1, some 50000⟩]

def hourly : Service := ⟨true, 3600 * second, "toko:"⟩

def wholeDay : Range := ⟨⟨1709164800000000000, 0⟩, ⟨1709251200000000000, 0⟩, by decide⟩

def noonToNoon : Range := ⟨⟨1709208000000000000, 0⟩, ⟨1709294400000000000, 0⟩, by decide⟩

theorem asked_twice :
    ∃ s, run step (unused hourly leapDay 0)
        [.call wholeDay .ok .ok .ok, .pass 1000, .call wholeDay .ok .ok .ok] = some s ∧
      Transparent s ∧ Meets step Agreeing (unused hourly leapDay 0)
        [.call wholeDay .ok .ok .ok, .pass 1000, .call wholeDay .ok .ok .ok] := by
  have hday : wholeDay.start.Midnight 0 ∧ wholeDay.stop.Midnight 0 :=
    ⟨⟨rfl, by decide⟩, ⟨rfl, by decide⟩⟩
  have hwhole : ∀ e ∈ [Event.call wholeDay .ok .ok .ok, .pass 1000, .call wholeDay .ok .ok .ok],
      e.WholeDays 0 := by
    simp only [List.forall_mem_cons, List.not_mem_nil, false_implies, implies_true, and_true]
    exact ⟨hday, trivial, hday⟩
  obtain ⟨s, hs⟩ : ∃ s, run step (unused hourly leapDay 0)
      [.call wholeDay .ok .ok .ok, .pass 1000, .call wholeDay .ok .ok .ok] = some s := ⟨_, rfl⟩
  have htransparent := wholeDays_transparent hwhole hs
  exact ⟨s, hs, htransparent, (sales_transparent_iff hourly leapDay 0 _ s hs).mp htransparent⟩

/-- The range from noon to noon has the dates of the whole day, and is answered with the row of
that day, which begins before the range. -/
theorem noon_answered_with_morning :
    ∃ s, run step (unused hourly leapDay 0)
        [.call wholeDay .ok .ok .ok, .call noonToNoon .ok .ok .ok] = some s ∧
      s.returned.map Returned.result =
        [.ok [⟨1709164800000000, 1, 1, 50000⟩], .ok [⟨1709164800000000, 1, 1, 50000⟩]] ∧
      getSalesDailyRange leapDay noonToNoon = [] :=
  reaches_and (by decide +kernel) fun _ _ _ => by decide +kernel

end TokoApi.Analytics
