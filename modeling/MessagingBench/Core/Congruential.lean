import Mathlib.Data.Fintype.Card
import Mathlib.Dynamics.PeriodicPts.Lemmas
import Mathlib.Tactic.Ring

/-!
# Linear congruential generators

A generator multiplies its state by a number and adds another one. It goes through all
residues modulo a power of two if the multiplier is one more than a multiple of four and the
increment is odd: `2 ^ k` rounds move every state by an odd multiple of `2 ^ k`.
-/

namespace MessagingBench

open Function

variable {R : Type} [CommRing R]

/-- One round of a generator. -/
def affine (a c x : R) : R := a * x + c

variable {a c : R} {k : ℕ}

/-- The rounds of a power of two are affine again. -/
theorem exists_affine_iterate_two_pow {t u : R} (ha : a = 1 + 4 * t) (hc : c = 1 + 2 * u) {e : ℕ} :
    ∃ t' u' : R, ∀ x, (affine a c)^[2 ^ e] x =
      (1 + 2 ^ (e + 2) * t') * x + 2 ^ e * (1 + 2 * u') := by
  induction e with
  | zero =>
    refine ⟨t, u, fun x => ?_⟩
    rw [pow_zero, iterate_one, affine, ha, hc]
    ring
  | succ e ih =>
    obtain ⟨t', u', ih⟩ := ih
    refine ⟨t' + 2 ^ (e + 1) * t' * t', u' + 2 ^ e * t' * (1 + 2 * u'), fun x => ?_⟩
    rw [pow_succ, Nat.mul_two, iterate_add_apply, ih, ih]
    ring

/-- The smallest power of two that is zero is the period of every state. -/
theorem minimalPeriod_affine {t u : R} (ha : a = 1 + 4 * t) (hc : c = 1 + 2 * u)
    (hzero : (2 : R) ^ (k + 1) = 0) (hnonzero : (2 : R) ^ k ≠ 0) (x : R) :
    minimalPeriod (affine a c) x = 2 ^ (k + 1) := by
  have : Fact (Nat.Prime 2) := ⟨Nat.prime_two⟩
  refine minimalPeriod_eq_prime_pow (fun hperiodic => ?_) ?_
  · obtain ⟨t', u', hiterate⟩ := exists_affine_iterate_two_pow ha hc
    have hmoved : (affine a c)^[2 ^ k] x = x + 2 ^ k :=
      calc (affine a c)^[2 ^ k] x
          = (1 + 2 ^ (k + 2) * t') * x + 2 ^ k * (1 + 2 * u') := hiterate x
        _ = x + 2 ^ k + 2 ^ (k + 1) * (2 * t' * x + u') := by ring
        _ = x + 2 ^ k := by rw [hzero, zero_mul, add_zero]
    exact hnonzero (add_eq_left.mp (hmoved.symm.trans hperiodic))
  · obtain ⟨t', u', hiterate⟩ := exists_affine_iterate_two_pow ha hc
    calc (affine a c)^[2 ^ (k + 1)] x
        = (1 + 2 ^ (k + 1 + 2) * t') * x + 2 ^ (k + 1) * (1 + 2 * u') := hiterate x
      _ = x + 2 ^ (k + 1) * (4 * t' * x + 1 + 2 * u') := by ring
      _ = x := by rw [hzero, zero_mul, add_zero]

/-- Every state comes up. -/
theorem exists_iterate_affine [Fintype R] {t u : R} (ha : a = 1 + 4 * t)
    (hc : c = 1 + 2 * u) (hzero : (2 : R) ^ (k + 1) = 0) (hnonzero : (2 : R) ^ k ≠ 0)
    (hcard : Fintype.card R = 2 ^ (k + 1)) (x y : R) :
    ∃ n < 2 ^ (k + 1), (affine a c)^[n] x = y := by
  classical
  have hperiod := minimalPeriod_affine ha hc hzero hnonzero x
  have hinj : Set.InjOn ((affine a c)^[·] x) (Finset.range (2 ^ (k + 1))) := by
    intro n hn m hm heq
    rw [Finset.coe_range, ← hperiod] at hn hm
    exact iterate_injOn_Iio_minimalPeriod hn hm heq
  have hall : (Finset.range (2 ^ (k + 1))).image ((affine a c)^[·] x) = Finset.univ := by
    refine Finset.eq_univ_of_card _ ?_
    rw [Finset.card_image_of_injOn hinj, Finset.card_range, hcard]
  have hmem := Finset.mem_univ y
  rw [← hall] at hmem
  obtain ⟨n, hn, heq⟩ := Finset.mem_image.mp hmem
  exact ⟨n, Finset.mem_range.mp hn, heq⟩

end MessagingBench
