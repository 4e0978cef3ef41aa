import Mathlib.Algebra.BigOperators.Group.List.Basic
import Mathlib.Algebra.Ring.Int.Defs

/-!
# Two's complement

The arithmetic of Go's `int32` and `int64`, of which `int` is the second, and where it
gives what unbounded integers give.
-/
namespace TokoApi.Lib.Wrap

def int32 (n : Int) : Int := n.bmod (2 ^ 32)

def int64 (n : Int) : Int := n.bmod (2 ^ 64)

variable {n m : Int}

/-! ## 32 bits -/

theorem int32_lt (n : Int) : int32 n < 2 ^ 31 := Int.bmod_lt (by decide)

theorem int32_of_fits (hlo : -2 ^ 31 ≤ n) (hhi : n < 2 ^ 31) : int32 n = n :=
  Int.bmod_eq_of_le (by omega) (by omega)

theorem int32_int64 (n : Int) : int32 (int64 n) = int32 n :=
  Int.bmod_bmod_of_dvd (by decide)

theorem int32_eq_iff (hn : 0 ≤ n) : int32 n = n ↔ n < 2 ^ 31 := by
  constructor
  · intro h
    rw [← h]
    exact int32_lt n
  · intro h
    exact int32_of_fits (by omega) h

theorem int32_double_neg (hlast : n < 2 ^ 31) (hout : 2 ^ 31 ≤ n * 2) : int32 (n * 2) < 0 := by
  rw [int32, Int.bmod_def]
  split <;> omega

/-! ## 64 bits -/

theorem int64_add_int64 (n m : Int) : int64 (int64 n + m) = int64 (n + m) := Int.bmod_add_bmod ..

theorem int64_add_right (n m : Int) : int64 (n + int64 m) = int64 (n + m) := Int.add_bmod_bmod ..

theorem int64_mul_int64 (n m : Int) : int64 (n * int64 m) = int64 (n * m) := Int.mul_bmod_bmod ..

theorem int64_double_neg (hlast : n < 2 ^ 63) (hout : 2 ^ 63 ≤ n * 2) : int64 (n * 2) < 0 := by
  rw [int64, Int.bmod_def]
  split <;> omega

theorem int64_eq_int64_iff : int64 n = int64 m ↔ 2 ^ 64 ∣ m - n := by
  unfold int64
  rw [eq_comm, Int.bmod_eq_bmod_iff_bmod_sub_eq_zero, ← Int.dvd_iff_bmod_eq_zero]
  norm_cast

theorem int64_eq_iff :
    int64 n = m ↔ (-2 ^ 63 ≤ m ∧ m < 2 ^ 63) ∧ 2 ^ 64 ∣ n - m := by
  unfold int64
  constructor
  · rintro rfl
    have hle := @Int.le_bmod n (2 ^ 64) (by decide)
    have hlt := @Int.bmod_lt n (2 ^ 64) (by decide)
    refine ⟨⟨by omega, by omega⟩, ?_⟩
    exact Int.dvd_self_sub_bmod
  · rintro ⟨⟨hle, hlt⟩, k, hk⟩
    have hn : n = m + 2 ^ 64 * k := by omega
    have hcast : (2 ^ 64 : Int) = ((2 ^ 64 : Nat) : Int) := by norm_cast
    have hm : m.bmod (2 ^ 64) = m := Int.bmod_eq_of_le (by omega) (by omega)
    rw [hn, hcast, Int.add_mul_bmod_self_left, hm]

theorem int64_range (n : Int) : -2 ^ 63 ≤ int64 n ∧ int64 n < 2 ^ 63 := (int64_eq_iff.mp rfl).1

theorem int64_eq_self_iff : int64 n = n ↔ -2 ^ 63 ≤ n ∧ n < 2 ^ 63 := by
  rw [int64_eq_iff]
  exact and_iff_left ⟨0, by omega⟩

theorem basisPoints_exact_iff (hn : 0 ≤ n) :
    (int64 n).tdiv 10000 = n / 10000 ↔ n < 2 ^ 63 := by
  constructor
  · intro h
    by_contra hlarge
    have hrange := int64_range n
    obtain ⟨_, k, hk⟩ := int64_eq_iff.mp (rfl : int64 n = int64 n)
    rcases Int.lt_or_le (int64 n) 0 with hneg | hpos
    · have hquot := Int.tdiv_nonneg (a := -int64 n) (b := 10000) (by omega) (by omega)
      rw [Int.neg_tdiv] at hquot
      omega
    · rw [Int.tdiv_eq_ediv_of_nonneg hpos] at h
      omega
  · intro h
    have hself : int64 n = n := int64_eq_self_iff.mpr ⟨by omega, h⟩
    rw [hself, Int.tdiv_eq_ediv_of_nonneg hn]

theorem foldl_int64 {α : Type} (p : α → Bool) (f : α → Int) (l : List α) (n : Int) :
    l.foldl (fun n x => if p x then int64 (n + f x) else n) (int64 n) =
      int64 (n + ((l.filter p).map f).sum) := by
  induction l generalizing n with
  | nil => simp
  | cons x l ih =>
    rw [List.foldl_cons]
    by_cases hx : p x = true
    · rw [if_pos hx, int64_add_int64, ih, List.filter_cons_of_pos hx, List.map_cons, List.sum_cons,
        Int.add_assoc]
    · rw [if_neg hx, ih, List.filter_cons_of_neg hx]

theorem foldl_int64_zero {α : Type} (p : α → Bool) (f : α → Int) (l : List α) :
    l.foldl (fun n x => if p x then int64 (n + f x) else n) 0 = int64 ((l.filter p).map f).sum := by
  have h := foldl_int64 p f l 0
  rwa [Int.zero_add] at h

end TokoApi.Lib.Wrap
