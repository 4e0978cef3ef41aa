import Mathlib.Algebra.Order.Ring.Int
import Mathlib.Tactic.Ring
import TokoApi.Notify.Dispatcher

/-!
# The delays of a failing delivery

Two delays double with every attempt: the pause of `resilience.Backoff` between two
requests, a signed 64-bit number of nanoseconds, and the seconds that `processDelivery`
writes after a failed delivery. Those are computed in 64 bits and stored in 32. The first
product that leaves the range is below twice its bound, so it comes out negative: the
first delays are positive exactly as long as the last one fits.
-/
namespace TokoApi.Resilience

open Lib.Wrap

variable {b delta : Int}

theorem backoff_eq (hb : 0 < b) (n : Nat) (delta : Int) :
    backoff b (n + 1) false delta = int64 (b * 2 ^ n) := by
  have hfirst : ¬ (n + 1 : Int) < 1 := by omega
  have hcount : ((n + 1 : Int) - 1).toNat = n := by omega
  simp only [backoff, if_neg hfirst, if_neg (Int.not_le.mpr hb), hcount, Bool.false_eq_true,
    if_false, int64_mul_int64]

theorem backoff_fits (hb : 0 < b) (hmax : b < 2 ^ 63) {n : Nat}
    (h : ∀ k ≤ n, 0 < backoff b (k + 1 : Nat) false delta) : b * 2 ^ n < 2 ^ 63 := by
  induction n with
  | zero => omega
  | succ n ih =>
    have hlast : b * 2 ^ n < 2 ^ 63 := ih fun k hk => h k (Nat.le_succ_of_le hk)
    have hthis := h (n + 1) le_rfl
    rw [Nat.cast_succ, backoff_eq hb, pow_succ, ← mul_assoc] at hthis
    rw [pow_succ, ← mul_assoc]
    by_contra hout
    have hneg := int64_double_neg hlast (Int.not_lt.mp hout)
    omega

theorem backoff_of_fits (hb : 0 < b) {n m : Nat} (hn : n ≤ m)
    (hfits : b * 2 ^ m < 2 ^ 63) : backoff b (n + 1 : Nat) false delta = b * 2 ^ n := by
  have hle : b * 2 ^ n ≤ b * 2 ^ m :=
    Int.mul_le_mul_of_nonneg_left (pow_le_pow_right₀ (by decide) hn) (Int.le_of_lt hb)
  have hpos : 0 < b * 2 ^ n := Int.mul_pos hb (Int.pow_pos (by decide))
  rw [Nat.cast_succ, backoff_eq hb]
  exact int64_eq_self_iff.mpr ⟨by omega, by omega⟩

end TokoApi.Resilience

namespace TokoApi.Notify

open Lib.Durations Lib.Wrap Resilience

namespace Dispatcher

variable (d : Dispatcher)

def baseSec : Int := if d.backoffBaseSec ≤ 0 then 5 else d.backoffBaseSec

def delaySec (attempt : Int) : Int := int32 (d.nextDelay attempt)

theorem baseSec_pos : 0 < d.baseSec := by
  unfold baseSec
  split <;> omega

variable {d} {n m : Nat}

theorem nextDelay_of_fits (h : d.baseSec * 2 ^ n < 2 ^ 63) :
    d.nextDelay n = d.baseSec * 2 ^ n := by
  have hbase := d.baseSec_pos
  have hpow : (0 : Int) < 2 ^ n := Int.pow_pos (by decide)
  have hfactor : (2 : Int) ^ n ≤ d.baseSec * 2 ^ n :=
    le_mul_of_one_le_left (Int.le_of_lt hpow) hbase
  have hpow64 : int64 (2 ^ n) = 2 ^ n := int64_eq_self_iff.mpr ⟨by omega, by omega⟩
  have hone : ¬ (2 : Int) ^ n < 1 := by omega
  have hdelay : d.nextDelay n = int64 (d.baseSec * 2 ^ n) := by
    simp only [nextDelay, Int.toNat_natCast, hpow64, if_neg hone, baseSec]
  rw [hdelay]
  exact int64_eq_self_iff.mpr ⟨by omega, by omega⟩

theorem delaySec_of_fits (hn : n ≤ m) (h : d.baseSec * 2 ^ m < 2 ^ 31) :
    d.delaySec n = d.baseSec * 2 ^ n := by
  have hbase := d.baseSec_pos
  have hle : d.baseSec * 2 ^ n ≤ d.baseSec * 2 ^ m :=
    Int.mul_le_mul_of_nonneg_left (pow_le_pow_right₀ (by decide) hn) (Int.le_of_lt hbase)
  have hpos : 0 < d.baseSec * 2 ^ n := Int.mul_pos hbase (Int.pow_pos (by decide))
  rw [delaySec, nextDelay_of_fits (by omega)]
  exact int32_of_fits (by omega) (by omega)

theorem delaySec_fits (h : ∀ k ≤ n, d.baseSec ≤ d.delaySec k) : d.baseSec * 2 ^ n < 2 ^ 31 := by
  induction n with
  | zero =>
    have hfirst := h 0 le_rfl
    have hlt := int32_lt (d.nextDelay (0 : Nat))
    rw [delaySec] at hfirst
    omega
  | succ n ih =>
    have hlast : d.baseSec * 2 ^ n < 2 ^ 31 := ih fun k hk => h k (Nat.le_succ_of_le hk)
    have hbase := d.baseSec_pos
    have hthis := h (n + 1) le_rfl
    have hexact := nextDelay_of_fits (d := d) (n := n + 1) (by rw [pow_succ, ← mul_assoc]; omega)
    rw [delaySec, hexact, pow_succ, ← mul_assoc] at hthis
    rw [pow_succ, ← mul_assoc]
    by_contra hout
    have hneg := int32_double_neg hlast (Int.not_lt.mp hout)
    omega

end Dispatcher

/-- The pauses before the attempts of a request are positive and do not decrease exactly
if the last one fits into 64 bits; the delays that `processDelivery` writes are at least
the base and do not decrease exactly if the last one fits into 32. -/
theorem delays_increase_iff (d : Dispatcher) (base delta : Int) (maxAttempts last : Nat)
    (hbase : 0 < base) (hmax : base < 2 ^ 63) :
    ((∀ n m : Nat, 1 ≤ n → n ≤ m → m ≤ maxAttempts →
        0 < backoff base n false delta ∧ backoff base n false delta ≤ backoff base m false delta) ↔
      base * 2 ^ (maxAttempts - 1) < 2 ^ 63) ∧
    ((∀ n m : Nat, n ≤ m → m ≤ last →
        d.baseSec ≤ d.delaySec n ∧ d.delaySec n ≤ d.delaySec m) ↔
      d.baseSec * 2 ^ last < 2 ^ 31) := by
  refine ⟨⟨fun h => ?_, fun hfits n m hn hnm hm => ?_⟩, ⟨fun h => ?_, fun hfits n m hnm hm => ?_⟩⟩
  · cases maxAttempts with
    | zero => simpa using hmax
    | succ k => exact backoff_fits hbase hmax fun j hj => (h (j + 1) (j + 1) (by omega) le_rfl (by omega)).1
  · obtain ⟨i, rfl⟩ := Nat.exists_eq_succ_of_ne_zero (Nat.ne_of_gt hn)
    obtain ⟨j, rfl⟩ := Nat.exists_eq_succ_of_ne_zero (Nat.ne_of_gt (Nat.lt_of_lt_of_le hn hnm))
    rw [backoff_of_fits hbase (n := i) (by omega) hfits,
      backoff_of_fits hbase (n := j) (by omega) hfits]
    refine ⟨Int.mul_pos hbase (Int.pow_pos (by decide)), ?_⟩
    exact Int.mul_le_mul_of_nonneg_left (pow_le_pow_right₀ (by decide) (by omega))
      (Int.le_of_lt hbase)
  · exact d.delaySec_fits fun k hk => (h k k le_rfl hk).1
  · have hpos := d.baseSec_pos
    rw [Dispatcher.delaySec_of_fits (by omega) hfits, Dispatcher.delaySec_of_fits hm hfits]
    refine ⟨le_mul_of_one_le_right (Int.le_of_lt hpos) (one_le_pow₀ (by decide)), ?_⟩
    exact Int.mul_le_mul_of_nonneg_left (pow_le_pow_right₀ (by decide) hnm) (Int.le_of_lt hpos)

def plainDispatcher : Dispatcher :=
  ⟨true, 0, 0, false, 0, 0, fun _ => .error "", fun _ => none, fun _ => "", fun _ => .error ""⟩

theorem three_pauses_increase :
    (∀ n m : Nat, 1 ≤ n → n ≤ m → m ≤ 3 → 0 < backoff (100 * millisecond) n false 0 ∧
        backoff (100 * millisecond) n false 0 ≤ backoff (100 * millisecond) m false 0) ∧
      ∀ n m : Nat, n ≤ m → m ≤ 5 → plainDispatcher.baseSec ≤ plainDispatcher.delaySec n ∧
        plainDispatcher.delaySec n ≤ plainDispatcher.delaySec m := by
  have h := delays_increase_iff plainDispatcher (100 * millisecond) 0 3 5 (by decide) (by decide)
  exact ⟨h.1.mpr (by decide), h.2.mpr (by decide)⟩

/-- A base of 100 ms is negative at attempt 38 and zero from attempt 57 on; five seconds,
doubled 29 times, are written as a negative number of seconds, and nothing is left
of them after 32 attempts. -/
theorem delays_wrap :
    backoff (100 * millisecond) 38 false 0 < 0 ∧ backoff (100 * millisecond) 57 false 0 = 0 ∧
      plainDispatcher.delaySec 28 = 1342177280 ∧ plainDispatcher.delaySec 29 = -1610612736 ∧
      plainDispatcher.delaySec 32 = 0 := by
  decide +kernel

end TokoApi.Notify
