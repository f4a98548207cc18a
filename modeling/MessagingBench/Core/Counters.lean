import Mathlib.Algebra.BigOperators.Group.Finset.Basic
import Mathlib.Algebra.Order.BigOperators.Group.Finset

/-!
# Counters that are raised to a number

Each of finitely many counters is raised until it has reached a required number. What is
missing in all of them together is the measure of such code: it goes down by one with every
counter that is raised in time, and it is zero when nothing is missing.
-/

namespace MessagingBench

variable {κ : Type}

/-- What is missing. -/
def deficit (keys : Finset κ) (required : Nat) (counts : κ → Nat) : Nat :=
  ∑ key ∈ keys, (required - counts key)

variable {keys : Finset κ} {required : Nat} {counts counts' : κ → Nat} {key : κ}

theorem deficit_mono (h : ∀ key, counts key ≤ counts' key) :
    deficit keys required counts' ≤ deficit keys required counts :=
  Finset.sum_le_sum fun key _ => Nat.sub_le_sub_left (h key) required

/-- Less is missing if one of the counters was raised in time. -/
theorem deficit_lt (h : ∀ key, counts key ≤ counts' key) (hkey : key ∈ keys)
    (hmissing : counts key < required) (hlt : counts key < counts' key) :
    deficit keys required counts' < deficit keys required counts :=
  Finset.sum_lt_sum (fun key _ => Nat.sub_le_sub_left (h key) required)
    ⟨key, hkey, Nat.sub_lt_sub_left hmissing hlt⟩

theorem deficit_le : deficit keys required counts ≤ keys.card * required :=
  Finset.sum_le_card_nsmul _ _ _ fun key _ => Nat.sub_le required (counts key)

variable [DecidableEq κ]

def bump (counts : κ → Nat) (key : κ) : κ → Nat := Function.update counts key (counts key + 1)

theorem bump_self (counts : κ → Nat) (key : κ) : bump counts key key = counts key + 1 :=
  Function.update_self ..

theorem lt_bump_self {counts : κ → Nat} {key : κ} : counts key < bump counts key key := by
  rw [bump_self]
  exact Nat.lt_succ_self _

theorem bump_of_ne (counts : κ → Nat) {key other : κ} (h : other ≠ key) :
    bump counts key other = counts other :=
  Function.update_of_ne h ..

theorem le_bump (counts : κ → Nat) (key other : κ) : counts other ≤ bump counts key other := by
  by_cases h : other = key
  · rw [h, bump_self]
    exact Nat.le_succ _
  · rw [bump_of_ne counts h]

theorem le_foldl_bump (raised : List κ) (counts : κ → Nat) (key : κ) :
    counts key ≤ raised.foldl bump counts key := by
  induction raised generalizing counts with
  | nil => exact Nat.le_refl _
  | cons other raised ih => exact Nat.le_trans (le_bump counts other key) (ih (bump counts other))

theorem lt_foldl_bump {raised : List κ} (h : key ∈ raised) (counts : κ → Nat) :
    counts key < raised.foldl bump counts key := by
  induction raised generalizing counts with
  | nil => cases h
  | cons other raised ih =>
    rcases List.mem_cons.mp h with rfl | h
    · exact Nat.lt_of_lt_of_le lt_bump_self
        (le_foldl_bump raised (bump counts key) key)
    · exact Nat.lt_of_le_of_lt (le_bump counts other key) (ih h (bump counts other))

end MessagingBench
