import Mathlib.Algebra.Order.Floor.Div
import Mathlib.Data.Int.CardIntervalMod

/-!
# Even distributions

When `m` things are spread evenly over `s` places, every place has the quotient of the two,
rounded down or up. This is so for the quotients of equidistant numbers, and for the residues
in a row of consecutive numbers, wherever it begins.
-/

namespace MessagingBench

variable {m s : Nat}

theorem ceilDiv_eq_div_add (m : Nat) (hs : 0 < s) :
    m ⌈/⌉ s = m / s + if m % s = 0 then 0 else 1 := by
  rw [Nat.ceilDiv_eq_add_pred_div]
  have hm := Nat.div_add_mod m s
  have hlt := Nat.mod_lt m hs
  have hpred : s - 1 < s := Nat.sub_lt hs Nat.zero_lt_one
  rw [show m + s - 1 = m + (s - 1) by omega, Nat.add_div hs, Nat.div_eq_of_lt hpred,
    Nat.mod_eq_of_lt hpred]
  split <;> split <;> omega

/-- The step between two quotients. -/
theorem add_div_sub_div (a m : Nat) (hs : 0 < s) :
    (a + m) / s - a / s = m / s ∨ (a + m) / s - a / s = m ⌈/⌉ s := by
  have hlt := Nat.mod_lt a hs
  have hquotient := Nat.zero_le (m / s)
  rw [ceilDiv_eq_div_add m hs, Nat.add_div hs]
  split <;> split <;> omega

/-- How often a residue occurs in a row of consecutive numbers. -/
theorem count_mod_eq (start : Nat) {v : Nat} (hv : v < m) (s : Nat) :
    Nat.count (fun i => (start + i) % m = v) s = s / m ∨
      Nat.count (fun i => (start + i) % m = v) s = s ⌈/⌉ m := by
  have hm : 0 < m := Nat.zero_lt_of_lt hv
  have hcount : ∀ b, Nat.count (fun i => i % m = v) b = b / m + if v < b % m then 1 else 0 := by
    intro b
    have hcard := Nat.count_modEq_card b hm v
    simp only [Nat.ModEq, Nat.mod_eq_of_lt hv] at hcard
    exact hcard
  have hadd := Nat.count_add (fun i => i % m = v) start s
  rw [hcount, hcount, Nat.add_div hm] at hadd
  have hmod : (start + s) % m = if m ≤ start % m + s % m then start % m + s % m - m
      else start % m + s % m := by
    rw [Nat.add_mod]
    have hstart := Nat.mod_lt start hm
    have hs := Nat.mod_lt s hm
    split
    · rw [Nat.mod_eq_sub_mod ‹_›, Nat.mod_eq_of_lt (by omega)]
    · exact Nat.mod_eq_of_lt (by omega)
  have hstart := Nat.mod_lt start hm
  have hs := Nat.mod_lt s hm
  rw [hmod] at hadd
  rw [ceilDiv_eq_div_add s hm]
  split at hadd <;> split at hadd <;> split at hadd <;> split <;> omega

end MessagingBench
