import Mathlib.Data.List.TakeWhile
import TokoApi.Lib.FloatQuotient

/-!
# Numbers in texts

`strconv.ParseInt` in base 10, `strconv.ParseFloat` on decimal texts, and the conversion of
a float to an `int64`. A decimal text stands for a rational, which is rounded once. Of a whole
number the float is whole, so the conversion keeps exactly those that a float holds.
-/
namespace TokoApi.Lib.Numbers

open Float64

def natOf (cs : List Char) : Nat := cs.foldl (fun n c => 10 * n + (c.toNat - 48)) 0

def digitsValue (cs : List Char) : Option Nat :=
  if cs ≠ [] ∧ cs.all Char.isDigit then some (natOf cs) else none

def signed {α : Type} [Neg α] (value : List Char → Option α) : List Char → Option α
  | '-' :: cs => (value cs).map fun n => -n
  | '+' :: cs => value cs
  | cs => value cs

def signedDigits (s : String) : Option Int :=
  signed (fun cs => (digitsValue cs).map Int.ofNat) s.toList

/-- `strconv.ParseInt(s, 10, 64)`. -/
def parseInt64 (s : String) : Option Int :=
  (signedDigits s).filter fun n => -2 ^ 63 ≤ n ∧ n < 2 ^ 63

/-- Its value where the error is ignored: zero for a text that is no integer, and the
nearest bound for one that does not fit. -/
def int64Value (s : String) : Int :=
  match signedDigits s with
  | none => 0
  | some n => max (-9223372036854775808) (min n 9223372036854775807)

/-! ## Decimals -/

def exponent : List Char → Option Int
  | [] => some 0
  | c :: cs =>
    if c = 'e' ∨ c = 'E' then signed (fun cs => (digitsValue cs).map Int.ofNat) cs else none

def mantissa (whole rest : List Char) : Option ℚ :=
  let (fraction, rest) := match rest with
    | '.' :: cs => cs.span Char.isDigit
    | cs => ([], cs)
  if whole ++ fraction = [] then none
  else (exponent rest).map fun e : Int => natOf (whole ++ fraction) * 10 ^ (e - fraction.length)

/-- The value of a decimal text: digits with at most one point among or beside them, and
perhaps an exponent. -/
def decimal (s : String) : Option ℚ :=
  signed (fun cs => mantissa (cs.takeWhile Char.isDigit) (cs.dropWhile Char.isDigit)) s.toList

def float64 (q : ℚ) : ℚ := if q < 0 then -ofRat (-q) else ofRat q

/-- `strconv.ParseFloat(s, 64)` of a decimal text. -/
def parseFloat (s : String) : Option ℚ :=
  ((decimal s).map float64).filter fun q => -2 ^ 1024 < q ∧ q < 2 ^ 1024

def truncate (q : ℚ) : Int := q.num.tdiv q.den

/-- `math.Round`: halves away from zero. -/
def roundAway (q : ℚ) : Int := if q < 0 then -⌊-q + 1 / 2⌋ else ⌊q + 1 / 2⌋

/-- What amd64 makes of a whole float. -/
def toInt64 (n : Int) : Int := if -2 ^ 63 ≤ n ∧ n < 2 ^ 63 then n else -2 ^ 63

/-! ## What is kept -/

@[simp] theorem truncate_intCast (n : Int) : truncate n = n := by
  simp [truncate]

@[simp] theorem roundAway_intCast (n : Int) : roundAway n = n := by
  have hhalf : ⌊(1 / 2 : ℚ)⌋ = 0 := by norm_num
  unfold roundAway
  split
  · rw [← Int.cast_neg, Int.floor_intCast_add, hhalf]
    omega
  · rw [Int.floor_intCast_add, hhalf]
    omega

theorem digits_of_value {cs : List Char} {n : Nat} (h : digitsValue cs = some n) :
    (∀ c ∈ cs, c.isDigit = true) ∧ cs ≠ [] ∧ natOf cs = n := by
  unfold digitsValue at h
  split at h
  · rename_i hcs
    exact ⟨List.all_eq_true.mp hcs.2, hcs.1, Option.some.inj h⟩
  · cases h

theorem digitsValue_toDigits (n : Nat) : digitsValue (Nat.toDigits 10 n) = some n := by
  have hdigits : (Nat.toDigits 10 n).all Char.isDigit = true :=
    List.all_eq_true.mpr fun c hc => Nat.isDigit_of_mem_toDigits (by decide) (by decide) hc
  rw [digitsValue, if_pos ⟨Nat.toDigits_ne_nil, hdigits⟩, natOf]
  exact congrArg some (Nat.ofDigitChars_eq_foldl.symm.trans Nat.ofDigitChars_ten_toDigits)

theorem signedDigits_toString (n : Int) : signedDigits (toString n) = some n := by
  rw [signedDigits, Int.toString_eq_repr, Int.repr_eq_if]
  split
  · rename_i hn
    have hvalue := digitsValue_toDigits n.toNat
    obtain ⟨hdigits, -, -⟩ := digits_of_value hvalue
    rw [Nat.toList_repr]
    generalize Nat.toDigits 10 n.toNat = cs at hvalue hdigits
    unfold signed
    split
    · cases hdigits '-' List.mem_cons_self
    · cases hdigits '+' List.mem_cons_self
    · simp [hvalue, hn]
  · rw [String.toList_append, Nat.toList_repr]
    simp only [String.reduceToList, List.cons_append, List.nil_append, signed, digitsValue_toDigits,
      Option.map_some, Option.some.injEq, Int.ofNat_eq_natCast]
    omega

theorem decimal_of_digits {s : String} {n : Int} (h : signedDigits s = some n) :
    decimal s = some (n : ℚ) ∧ '.' ∉ s.toList := by
  have hplain : ∀ {cs : List Char} {n : Int}, (digitsValue cs).map Int.ofNat = some n →
      mantissa (cs.takeWhile Char.isDigit) (cs.dropWhile Char.isDigit) = some (n : ℚ) ∧
        '.' ∉ cs := by
    intro cs n hcs
    obtain ⟨k, hk, rfl⟩ := Option.map_eq_some_iff.mp hcs
    obtain ⟨hall, hne, rfl⟩ := digits_of_value hk
    refine ⟨?_, fun hdot => absurd (hall _ hdot) (by decide)⟩
    rw [List.takeWhile_eq_self_iff.mpr hall, List.dropWhile_eq_nil_iff.mpr hall]
    simp [mantissa, hne, exponent]
  unfold signedDigits signed at h
  unfold decimal signed
  split at h
  · rename_i cs hs
    obtain ⟨k, hk, rfl⟩ := Option.map_eq_some_iff.mp h
    obtain ⟨hvalue, hdot⟩ := hplain hk
    rw [hs]
    simp [hvalue, hdot]
  · rename_i cs hs
    obtain ⟨hvalue, hdot⟩ := hplain h
    rw [hs]
    simp [hvalue, hdot]
  · exact hplain h

theorem ofRat_whole {n : Int} (hn : 0 < n) : ∃ m : Int, ofRat n = m := by
  have hpos : (0 : ℚ) < n := by exact_mod_cast hn
  by_cases hlog : 52 ≤ Int.log 2 (n : ℚ)
  · -- the spacing is whole
    obtain ⟨k, hk⟩ := Int.eq_ofNat_of_zero_le (Int.sub_nonneg.mpr hlog)
    refine ⟨roundEven (n / spacing n) * 2 ^ k, ?_⟩
    rw [ofRat, spacing, hk, zpow_natCast]
    push_cast
    rfl
  · obtain ⟨k, hk⟩ := Int.eq_ofNat_of_zero_le (a := 52 - Int.log 2 (n : ℚ)) (by omega)
    refine ⟨n, ofRat_of_mul (n := n * 2 ^ k) ?_⟩
    rw [spacing, show Int.log 2 (n : ℚ) - 52 = -k by omega, zpow_neg, zpow_natCast]
    push_cast
    field_simp

theorem toInt64_float64_iff {conv : ℚ → Int} (hconv : ∀ n : Int, conv n = n) {q : ℚ} {a : Int}
    (ha : toInt64 (conv (float64 q)) = a) :
    (0 < a ∧ q = a) ↔ ∃ n : Int, q = n ∧ 0 < n ∧ n < 2 ^ 63 ∧ float64 n = n := by
  have hfloat : ∀ {n : Int}, 0 < n → float64 n = ofRat n := fun hn =>
    if_neg (not_lt.mpr (by exact_mod_cast hn.le))
  constructor
  · rintro ⟨hpos, rfl⟩
    obtain ⟨m, hm⟩ := ofRat_whole hpos
    rw [hfloat hpos, hm, hconv, toInt64] at ha
    split at ha
    · subst ha
      exact ⟨m, rfl, hpos, by omega, by rw [hfloat hpos, hm]⟩
    · omega
  · rintro ⟨n, rfl, hpos, hlt, hself⟩
    rw [hself, hconv, toInt64, if_pos ⟨by omega, hlt⟩] at ha
    exact ⟨ha ▸ hpos, by rw [ha]⟩

theorem parseFloat_exact_iff {conv : ℚ → Int} (hconv : ∀ n : Int, conv n = n) {s : String} {q : ℚ}
    {a : Int} (hq : decimal s = some q)
    (ha : ((parseFloat s).map fun f => toInt64 (conv f)).getD 0 = a) :
    (0 < a ∧ q = a) ↔ ∃ n : Int, q = n ∧ 0 < n ∧ n < 2 ^ 63 ∧ float64 n = n := by
  by_cases hrange : -2 ^ 1024 < float64 q ∧ float64 q < 2 ^ 1024
  · have hparse : parseFloat s = some (float64 q) := by simp [parseFloat, hq, hrange]
    rw [hparse] at ha
    exact toInt64_float64_iff hconv ha
  · have hparse : parseFloat s = none := by simpa [parseFloat, hq] using hrange
    rw [hparse] at ha
    constructor
    · rintro ⟨hpos, _⟩
      exact absurd ha hpos.ne
    · rintro ⟨n, rfl, hpos, hlt, hself⟩
      rw [hself] at hrange
      have hlow : (0 : ℚ) < n := by exact_mod_cast hpos
      have hhigh : (n : ℚ) < 2 ^ 63 := by exact_mod_cast hlt
      have hbound : (2 : ℚ) ^ 63 < 2 ^ 1024 := pow_lt_pow_right₀ (by norm_num) (by norm_num)
      exact absurd ⟨(neg_lt_zero.mpr (by positivity)).trans hlow, hhigh.trans hbound⟩ hrange

end TokoApi.Lib.Numbers
