import Mathlib.Order.Monotone.Basic
import Mathlib.Algebra.Group.Nat.Defs
import Mathlib.Data.Nat.Log

/-!
# Integers as float64

The conversion of an integer to a float64, as the integer that the float64 stands
for: 53 significant bits, rounded to nearest, ties to even.
-/
namespace TokoApi.Lib.Float64

/-- The multiple of `unit` nearest to `n`; of two, the even one. -/
def nearest (n unit : Nat) : Nat :=
  if 2 * (n % unit) < unit ∨ (2 * (n % unit) = unit ∧ n / unit % 2 = 0) then n / unit * unit
  else (n / unit + 1) * unit

/-- The distance of the floats next to `n`. -/
def ulp (n : Nat) : Nat := 2 ^ (Nat.log2 n - 52)

def ofNat (n : Nat) : Nat := nearest n (ulp n)

def ofInt : Int → Int
  | .ofNat n => ofNat n
  | .negSucc n => - ofNat (n + 1)

section

variable {m n unit a : Nat}

theorem le_nearest (h : unit ∣ a) (ha : a ≤ n) : a ≤ nearest n unit := by
  obtain ⟨k, rfl⟩ := h
  have hk : unit * k ≤ n / unit * unit := by
    rcases Nat.eq_zero_or_pos unit with rfl | hpos
    · simp
    · rw [Nat.mul_comm]
      exact Nat.mul_le_mul_right _ ((Nat.le_div_iff_mul_le hpos).mpr (by rwa [Nat.mul_comm]))
  unfold nearest
  split
  · exact hk
  · exact hk.trans (Nat.mul_le_mul_right _ (Nat.le_succ _))

theorem nearest_le (hpos : 0 < unit) (h : unit ∣ a) (ha : n < a) : nearest n unit ≤ a := by
  obtain ⟨k, rfl⟩ := h
  have hk : (n / unit + 1) * unit ≤ unit * k := by
    rw [Nat.mul_comm unit]
    exact Nat.mul_le_mul_right _ ((Nat.div_lt_iff_lt_mul hpos).mpr (by rwa [Nat.mul_comm]))
  unfold nearest
  split
  · exact (Nat.mul_le_mul_right _ (Nat.le_succ _)).trans hk
  · exact hk

theorem nearest_mono (h : m ≤ n) : nearest m unit ≤ nearest n unit := by
  rcases (Nat.div_le_div_right (c := unit) h).lt_or_eq with hlt | heq
  · -- the multiples above `m` and below `n` are apart
    have hstep : (m / unit + 1) * unit ≤ n / unit * unit := Nat.mul_le_mul_right _ hlt
    have hself : m / unit * unit ≤ (m / unit + 1) * unit := Nat.mul_le_mul_right _ (Nat.le_succ _)
    have hnext : n / unit * unit ≤ (n / unit + 1) * unit := Nat.mul_le_mul_right _ (Nat.le_succ _)
    unfold nearest
    split <;> split <;> omega
  · have hmod : m % unit ≤ n % unit := by
      have hm := Nat.div_add_mod m unit
      have hn := Nat.div_add_mod n unit
      rw [heq] at hm
      omega
    have hnext : n / unit * unit ≤ (n / unit + 1) * unit := Nat.mul_le_mul_right _ (Nat.le_succ _)
    unfold nearest
    rw [heq]
    split <;> split <;> omega

end

theorem ofNat_mono : Monotone ofNat := by
  intro m n h
  have hlog : Nat.log2 m ≤ Nat.log2 n := by
    rw [Nat.log2_eq_log_two, Nat.log2_eq_log_two]
    exact Nat.log_mono_right h
  rcases hlog.lt_or_eq with hlt | heq
  · -- a power of two lies between the two
    have hbetween : ofNat m ≤ 2 ^ (Nat.log2 m + 1) :=
      nearest_le (Nat.two_pow_pos _) (Nat.pow_dvd_pow 2 (by omega)) Nat.lt_log2_self
    have hn : n ≠ 0 := by
      rintro rfl
      simp at hlt
    calc ofNat m ≤ 2 ^ (Nat.log2 m + 1) := hbetween
      _ ≤ 2 ^ Nat.log2 n := Nat.pow_le_pow_right (by omega) hlt
      _ ≤ ofNat n := le_nearest (Nat.pow_dvd_pow 2 (by omega)) (Nat.log2_self_le hn)
  · unfold ofNat ulp
    rw [heq]
    exact nearest_mono h

theorem ofInt_mono {m n : Int} (h : m ≤ n) : ofInt m ≤ ofInt n := by
  cases m with
  | ofNat m =>
    cases n with
    | ofNat n => exact Int.ofNat_le.mpr (ofNat_mono (Int.ofNat_le.mp h))
    | negSucc n => exact absurd (h.trans_lt (Int.negSucc_lt_zero n)) (Int.natCast_nonneg m).not_gt
  | negSucc m =>
    cases n with
    | ofNat n =>
      show - (ofNat (m + 1) : Int) ≤ ofNat n
      omega
    | negSucc n =>
      have hle : ofNat (n + 1) ≤ ofNat (m + 1) := ofNat_mono (by omega)
      show - (ofNat (m + 1) : Int) ≤ - ofNat (n + 1)
      omega

/-- Near a time in nanoseconds of these days the floats are 256 ns apart. -/
example : ofInt 1700000000000000129 = 1700000000000000256 ∧
    ofInt 1700000000000000128 = 1700000000000000000 := by decide +kernel

end TokoApi.Lib.Float64
