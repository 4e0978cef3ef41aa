import TokoApi.Lib.FloatQuotient

/-!
# Durations and instants

Instants and durations of the Go standard library as nanoseconds. `Duration.Seconds`
is a float64: up to 97 days it does not round to the next whole second, and its integral
part is the number of whole seconds.
-/
namespace TokoApi.Lib.Durations

open Float64

def millisecond : Int := 1000000

def second : Int := 1000 * millisecond

/-- `Time.Truncate`. -/
def truncate (unit t : Int) : Int := t / unit * unit

/-- `Duration.Seconds` of a duration that is not negative. Both of its parts are floats. -/
def seconds (d : Int) : ℚ := ofRat ((d / second : Int) + ofRat ((d % second : Int) / 10 ^ 9))

variable {d : Int} {q : ℚ}

theorem ofRat_of_bits {m : Nat} {e : Int} (hpos : 0 < m) (hm : m < 2 ^ 53) (hq : q = m * 2 ^ e) :
    ofRat q = q := by
  have hm' : (m : ℚ) < 2 ^ (53 : Int) := by exact_mod_cast hm
  have hqpos : 0 < q := by
    rw [hq]
    exact mul_pos (by exact_mod_cast hpos) (zpow_pos (by norm_num) e)
  have hlog : Int.log 2 q < 53 + e := by
    refine (Int.lt_zpow_iff_log_lt (by norm_num) hqpos).mp ?_
    rw [hq]
    push_cast
    rw [zpow_add₀ (by norm_num)]
    exact mul_lt_mul_of_pos_right hm' (zpow_pos (by norm_num) e)
  obtain ⟨n, hn⟩ : ∃ n : Nat, e = n + (Int.log 2 q - 52) := ⟨(e - (Int.log 2 q - 52)).toNat, by omega⟩
  have hunit : (2 : ℚ) ^ e = 2 ^ n * spacing q := by
    rw [spacing, hn, zpow_add₀ (by norm_num), zpow_natCast]
  refine ofRat_of_mul (n := m * 2 ^ n) ?_
  calc q = m * 2 ^ e := hq
    _ = m * (2 ^ n * spacing q) := by rw [hunit]
    _ = ((m * 2 ^ n : Int) : ℚ) * spacing q := by push_cast; ring

theorem ofRat_fraction_le {n : Int} (h0 : 0 ≤ n) (h : n < second) :
    0 ≤ ofRat (n / 10 ^ 9) ∧ ofRat (n / 10 ^ 9) ≤ 1 - 2 ^ (-30 : Int) := by
  have hn : (0 : ℚ) ≤ n / 10 ^ 9 := by positivity
  have hbits : ofRat (1 - 2 ^ (-30 : Int)) = 1 - 2 ^ (-30 : Int) :=
    ofRat_of_bits (m := 2 ^ 30 - 1) (e := -30) (by norm_num) (by norm_num) (by norm_num)
  refine ⟨ofRat_nonneg hn, ?_⟩
  rw [← hbits]
  refine ofRat_mono hn ?_
  have hle : (n : ℚ) ≤ 10 ^ 9 - 1 := by
    have : n ≤ 10 ^ 9 - 1 := by
      unfold second millisecond at h
      omega
    exact_mod_cast this
  rw [div_le_iff₀ (by norm_num)]
  refine hle.trans ?_
  norm_num

theorem floor_seconds (h0 : 0 ≤ d) (h : d < 2 ^ 23 * second) : ⌊seconds d⌋ = d / second := by
  obtain ⟨s, hs⟩ := Int.eq_ofNat_of_zero_le (Int.ediv_nonneg h0 (by decide : 0 ≤ second))
  have hlt : s < 2 ^ 23 := by
    have : d / second < 2 ^ 23 := Int.ediv_lt_of_lt_mul (by decide) h
    omega
  obtain ⟨hlow, hhigh⟩ :=
    ofRat_fraction_le (Int.emod_nonneg d (by decide)) (Int.emod_lt_of_pos d (by decide))
  have hwhole : ofRat (s : ℚ) = s := by
    rcases Nat.eq_zero_or_pos s with rfl | hpos
    · exact_mod_cast ofRat_zero
    · exact ofRat_of_bits (m := s) (e := 0) hpos (by omega) (by simp)
  have hnext : ofRat (s + (1 - 2 ^ (-30 : Int))) = s + (1 - 2 ^ (-30 : Int)) := by
    refine ofRat_of_bits (m := s * 2 ^ 30 + (2 ^ 30 - 1)) (e := -30) (by omega) (by omega) ?_
    push_cast
    norm_num
    ring
  rw [Int.floor_eq_iff, seconds, hs]
  constructor
  · calc ((s : Int) : ℚ) = ofRat (s : ℚ) := by rw [hwhole]; simp
      _ ≤ _ := ofRat_mono (by positivity) (by simpa using hlow)
  · calc ofRat ((s : Int) + ofRat ((d % second : Int) / 10 ^ 9))
        ≤ ofRat (s + (1 - 2 ^ (-30 : Int))) := ofRat_mono (by positivity) (by simpa using hhigh)
      _ = s + (1 - 2 ^ (-30 : Int)) := hnext
      _ < ((s : Int) : ℚ) + 1 := by
        push_cast
        norm_num

end TokoApi.Lib.Durations
