import Mathlib.Data.List.Basic
import Mathlib.Order.Basic

/-!
# Dates and their text

The days of the Gregorian calendar, also before it was introduced, numbered from 1970-01-01.
A cycle of 400 years starts with a March, so that the day a leap year has more is the last one:
it is cut into centuries, spans of four years, and years, of which the last may be longer by a
day. `dateText` is the layout `2006-01-02` of the Go standard library. Two days never have one
text.
-/
namespace TokoApi.Lib.Dates

/-! ## Days -/

structure Date where
  year : Int
  month : Int
  day : Int
  deriving DecidableEq

/-- The date of a day of a year that starts with March. -/
def ofYear (year inYear : Int) : Date :=
  -- five months from March or August on have 153 days
  let fromMarch := (5 * inYear + 2) / 153
  let month := if fromMarch < 10 then fromMarch + 3 else fromMarch - 9
  ⟨year + if month ≤ 2 then 1 else 0, month, inYear - (153 * fromMarch + 2) / 5 + 1⟩

/-- The year a day is in and which of its days it is, both from March on. -/
def yearOf (n : Int) : Int × Int :=
  let cycle := (n + 719468) / 146097
  let inCycle := (n + 719468) % 146097
  let century := min (inCycle / 36524) 3
  let inCentury := inCycle - 36524 * century
  let span := inCentury / 1461
  let inSpan := inCentury % 1461
  let year := min (inSpan / 365) 3
  (400 * cycle + 100 * century + 4 * span + year, inSpan - 365 * year)

def ofDays (n : Int) : Date := ofYear (yearOf n).1 (yearOf n).2

/-- The days before a year that starts with March. -/
def before (year : Int) : Int := 365 * year + year / 4 - year / 100 + year / 400 - 719468

def Date.days (d : Date) : Int :=
  let year := if d.month ≤ 2 then d.year - 1 else d.year
  let fromMarch := if d.month ≤ 2 then d.month + 9 else d.month - 3
  before year + (153 * fromMarch + 2) / 5 + d.day - 1

/-- Two digits are enough for month and day. -/
structure Date.Short (d : Date) : Prop where
  month : 0 ≤ d.month ∧ d.month < 100
  day : 0 ≤ d.day ∧ d.day < 100

section

variable {year inYear : Int}

theorem ofYear_spec (h0 : 0 ≤ inYear) (h : inYear < 366) :
    (ofYear year inYear).days = before year + inYear ∧ (ofYear year inYear).Short := by
  generalize hmonths : (5 * inYear + 2) / 153 = fromMarch
  by_cases hearly : fromMarch < 10
  · have hlate : ¬ fromMarch + 3 ≤ 2 := by omega
    have hdate : ofYear year inYear = ⟨year, fromMarch + 3, inYear - (153 * fromMarch + 2) / 5 + 1⟩ := by
      simp only [ofYear, hmonths, if_pos hearly, if_neg hlate, Int.add_zero]
    rw [hdate]
    refine ⟨?_, by dsimp only; omega, by dsimp only; omega⟩
    simp only [Date.days, if_neg hlate]
    omega
  · have hlate : fromMarch - 9 ≤ 2 := by omega
    have hdate : ofYear year inYear =
        ⟨year + 1, fromMarch - 9, inYear - (153 * fromMarch + 2) / 5 + 1⟩ := by
      simp only [ofYear, hmonths, if_neg hearly, if_pos hlate]
    rw [hdate]
    refine ⟨?_, by dsimp only; omega, by dsimp only; omega⟩
    simp only [Date.days, if_pos hlate, Int.add_sub_cancel]
    omega

theorem before_parts {cycle century span rest : Int} (hcentury : 0 ≤ century ∧ century ≤ 3)
    (hspan : 0 ≤ span ∧ span ≤ 24) (hrest : 0 ≤ rest ∧ rest ≤ 3) :
    before (400 * cycle + 100 * century + 4 * span + rest) =
      146097 * cycle + 36524 * century + 1461 * span + 365 * rest - 719468 := by
  unfold before
  omega

theorem yearOf_spec (n : Int) :
    before (yearOf n).1 + (yearOf n).2 = n ∧ 0 ≤ (yearOf n).2 ∧ (yearOf n).2 < 366 := by
  simp only [yearOf]
  generalize hcentury : min ((n + 719468) % 146097 / 36524) 3 = century
  generalize hspan : ((n + 719468) % 146097 - 36524 * century) / 1461 = span
  generalize hrest : min (((n + 719468) % 146097 - 36524 * century) % 1461 / 365) 3 = rest
  rw [before_parts (by omega) (by omega) (by omega)]
  omega

theorem ofDays_days (n : Int) : (ofDays n).days = n := by
  obtain ⟨hsum, h0, h⟩ := yearOf_spec n
  rw [ofDays, (ofYear_spec h0 h).1, hsum]

theorem ofDays_short (n : Int) : (ofDays n).Short := by
  obtain ⟨_, h0, h⟩ := yearOf_spec n
  exact (ofYear_spec h0 h).2

example : ofDays 0 = ⟨1970, 1, 1⟩ ∧ ofDays 19782 = ⟨2024, 2, 29⟩ ∧ ofDays (-719529) = ⟨-1, 12, 31⟩ := by
  decide

end

/-! ## Text -/

def padded (width n : Nat) : List Char :=
  List.replicate (width - (Nat.toDigits 10 n).length) '0' ++ Nat.toDigits 10 n

/-- `appendInt` of the package time. -/
def appendInt (x : Int) (width : Nat) : List Char :=
  if x < 0 then '-' :: padded width x.natAbs else padded width x.natAbs

def Date.text (d : Date) : List Char :=
  appendInt d.year 4 ++ '-' :: (appendInt d.month 2 ++ '-' :: appendInt d.day 2)

def dateText (n : Int) : String := String.ofList (ofDays n).text

section

variable {width m n : Nat} {x y : Int} {c : Char}

theorem padded_value (width n : Nat) : Nat.ofDigitChars 10 (padded width n) 0 = n := by
  rw [padded, Nat.ofDigitChars_append, Nat.ofDigitChars_replicate_zero, Nat.mul_zero,
    Nat.ofDigitChars_ten_toDigits]

theorem isDigit_of_mem_padded (h : c ∈ padded width n) : c.isDigit = true := by
  rcases List.mem_append.mp h with hzero | hdigit
  · rw [List.eq_of_mem_replicate hzero]
    decide
  · exact Nat.isDigit_of_mem_toDigits (by decide) (by decide) hdigit

theorem dash_notMem_padded : '-' ∉ padded width n := fun h =>
  absurd (isDigit_of_mem_padded h) (by decide)

theorem appendInt_inj (h : appendInt x width = appendInt y width) : x = y := by
  have hvalue : padded width x.natAbs = padded width y.natAbs → x.natAbs = y.natAbs := fun hp => by
    rw [← padded_value width x.natAbs, hp, padded_value]
  unfold appendInt at h
  split at h <;> split at h
  · have := hvalue (List.cons.inj h).2
    omega
  · exact absurd (h ▸ List.mem_cons_self) dash_notMem_padded
  · exact absurd (h ▸ List.mem_cons_self) dash_notMem_padded
  · have := hvalue h
    omega

theorem appendInt_two_length (h0 : 0 ≤ x) (h : x < 100) : (appendInt x 2).length = 2 := by
  have hlen : (Nat.toDigits 10 x.natAbs).length ≤ 2 :=
    (Nat.length_toDigits_le_iff (by decide) (by decide)).mpr (by omega)
  rw [appendInt, if_neg (by omega), padded, List.length_append, List.length_replicate]
  omega

theorem Date.text_inj {d e : Date} (hd : d.Short) (he : e.Short) (h : d.text = e.text) : d = e := by
  have hday : (appendInt d.day 2).length = (appendInt e.day 2).length := by
    rw [appendInt_two_length hd.day.1 hd.day.2, appendInt_two_length he.day.1 he.day.2]
  have hrest : ('-' :: (appendInt d.month 2 ++ '-' :: appendInt d.day 2)).length =
      ('-' :: (appendInt e.month 2 ++ '-' :: appendInt e.day 2)).length := by
    simp only [List.length_cons, List.length_append, hday,
      appendInt_two_length hd.month.1 hd.month.2, appendInt_two_length he.month.1 he.month.2]
  obtain ⟨hyear, htail⟩ := List.append_inj' h hrest
  obtain ⟨hmonth, hlast⟩ := List.append_inj' (List.cons.inj htail).2 (by simpa using hday)
  have hy := appendInt_inj hyear
  have hm := appendInt_inj hmonth
  have hdd := appendInt_inj (List.cons.inj hlast).2
  cases d
  cases e
  simp_all

theorem dateText_inj {a b : Int} : dateText a = dateText b ↔ a = b := by
  constructor
  · intro h
    have hdate := Date.text_inj (ofDays_short a) (ofDays_short b) (String.ofList_injective h)
    rw [← ofDays_days a, hdate, ofDays_days]
  · rintro rfl
    rfl

theorem colon_notMem_dateText (a : Int) : ':' ∉ (dateText a).toList := by
  have hint : ∀ x width, ':' ∉ appendInt x width := by
    intro x width h
    have hdigits : ':' ∉ padded width x.natAbs := fun hmem =>
      absurd (isDigit_of_mem_padded hmem) (by decide)
    unfold appendInt at h
    split at h
    · exact (List.mem_cons.mp h).elim (by decide) hdigits
    · exact hdigits h
  simp [dateText, Date.text, hint]

example : dateText 19782 = "2024-02-29" := by decide

end

end TokoApi.Lib.Dates
