import Mathlib.Data.Int.Log
import Mathlib.Data.Rat.Floor
import Mathlib.Tactic.NormNum
import Mathlib.Tactic.Linarith
import Mathlib.Tactic.Positivity
import Mathlib.Tactic.FieldSimp

/-!
# Quotients as float64

The float64 that a division gives: the nearest to the quotient, of two the one with
the even significand. Values are rationals that are not negative, in the range of the
normal numbers. Rounding is monotone: between two arguments with different spacing
lies a power of two, which is a float.
-/
namespace TokoApi.Lib.Float64

/-- The integer nearest to `x`; of two, the even one. -/
def roundEven (x : ℚ) : Int :=
  if x - ⌊x⌋ < 1 / 2 ∨ (x - ⌊x⌋ = 1 / 2 ∧ ⌊x⌋ % 2 = 0) then ⌊x⌋ else ⌊x⌋ + 1

/-- The distance of the floats next to a positive `q`. -/
def spacing (q : ℚ) : ℚ := 2 ^ (Int.log 2 q - 52)

def ofRat (q : ℚ) : ℚ := roundEven (q / spacing q) * spacing q

section

variable {q r x y : ℚ}

theorem roundEven_intCast (n : Int) : roundEven n = n := by
  simp [roundEven]

theorem roundEven_mono (h : x ≤ y) : roundEven x ≤ roundEven y := by
  have hlow : ∀ z, ⌊z⌋ ≤ roundEven z := by
    intro z
    unfold roundEven
    split <;> omega
  have hhigh : ∀ z, roundEven z ≤ ⌊z⌋ + 1 := by
    intro z
    unfold roundEven
    split <;> omega
  rcases (Int.floor_mono h).lt_or_eq with hlt | heq
  · exact (hhigh x).trans (le_trans hlt (hlow y))
  · unfold roundEven
    rw [heq]
    split <;> split
    · exact le_rfl
    · omega
    · rename_i hx hy
      exfalso
      push Not at hx
      rcases hy with hy | ⟨hy, heven⟩
      · linarith
      · exact hx.2 (le_antisymm (by linarith) hx.1) heven
    · exact le_rfl

theorem spacing_pos : 0 < spacing q := zpow_pos (by norm_num) _

@[simp] theorem ofRat_zero : ofRat 0 = 0 := by
  simp [ofRat, roundEven]

theorem ofRat_of_mul {n : Int} (h : q = n * spacing q) : ofRat q = q := by
  have hn : q / spacing q = n := by
    rw [div_eq_iff spacing_pos.ne']
    exact h
  rw [ofRat, hn, roundEven_intCast]
  exact h.symm

theorem ofRat_le_of_mul {n : Int} (h : q ≤ n * spacing q) : ofRat q ≤ n * spacing q := by
  refine mul_le_mul_of_nonneg_right ?_ spacing_pos.le
  rw [← roundEven_intCast n]
  exact_mod_cast roundEven_mono ((div_le_iff₀ spacing_pos).mpr h)

theorem le_ofRat_of_mul {n : Int} (h : n * spacing q ≤ q) : n * spacing q ≤ ofRat q := by
  refine mul_le_mul_of_nonneg_right ?_ spacing_pos.le
  rw [← roundEven_intCast n]
  exact_mod_cast roundEven_mono ((le_div_iff₀ spacing_pos).mpr h)

theorem two_pow_mul_spacing (k : Nat) (q : ℚ) :
    ((2 ^ k : Int) : ℚ) * spacing q = 2 ^ (Int.log 2 q - 52 + k) := by
  rw [spacing, zpow_add₀ (by norm_num), zpow_natCast]
  push_cast
  ring

theorem ofRat_nonneg (h : 0 ≤ q) : 0 ≤ ofRat q := by
  have := le_ofRat_of_mul (q := q) (n := 0) (by simpa using h)
  simpa using this

theorem ofRat_mono (hq : 0 ≤ q) (h : q ≤ r) : ofRat q ≤ ofRat r := by
  rcases hq.eq_or_lt with rfl | hpos
  · rw [ofRat_zero]
    exact ofRat_nonneg h
  rcases (Int.log_mono_right (b := 2) hpos h).lt_or_eq with hlt | heq
  · -- a power of two lies between the two
    have hup : ofRat q ≤ 2 ^ (Int.log 2 q - 52 + (53 : Nat)) := by
      rw [← two_pow_mul_spacing]
      refine ofRat_le_of_mul ?_
      rw [two_pow_mul_spacing]
      refine le_trans (Int.lt_zpow_succ_log_self (b := 2) (by norm_num) q).le (le_of_eq ?_)
      push_cast
      congr 1
      ring
    have hdown : 2 ^ (Int.log 2 r - 52 + (52 : Nat)) ≤ ofRat r := by
      rw [← two_pow_mul_spacing]
      refine le_ofRat_of_mul ?_
      rw [two_pow_mul_spacing]
      refine le_trans (le_of_eq ?_) (Int.zpow_log_le_self (b := 2) (by norm_num) (hpos.trans_le h))
      push_cast
      congr 1
      ring
    refine hup.trans (le_trans (zpow_le_zpow_right₀ (by norm_num) ?_) hdown)
    push_cast
    omega
  · unfold ofRat spacing
    rw [heq]
    refine mul_le_mul_of_nonneg_right ?_ (zpow_pos (by norm_num) _).le
    have : q / 2 ^ (Int.log 2 r - 52) ≤ r / 2 ^ (Int.log 2 r - 52) :=
      div_le_div_of_nonneg_right h (zpow_pos (by norm_num) _).le
    exact_mod_cast roundEven_mono this

@[simp] theorem ofRat_one : ofRat 1 = 1 := by
  refine ofRat_of_mul (n := 2 ^ 52) ?_
  rw [two_pow_mul_spacing, Int.log_one_right]
  norm_num

end

example : ofRat (2 / 3) = 6004799503160661 / 2 ^ 53 ∧ ofRat (1 / 2) = 1 / 2 := by decide +kernel

end TokoApi.Lib.Float64
