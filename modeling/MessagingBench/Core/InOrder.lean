import Mathlib.Data.List.Basic
import Mathlib.Data.List.Infix

/-!
# In-order selection from an indexed list

Elements carry increasing indices, and a set of selected elements that is closed
downwards is an initial segment. Selecting the next element in index order appends
exactly that element to the selection, so a consumer of the selection sees the list
in order and without gaps.
-/

namespace MessagingBench

open List

variable {α : Type*} {index : α → Nat} {l : List α} {selected selected' : α → Bool}

/-- Every element before a selected one is selected. -/
def DownClosed (index : α → Nat) (l : List α) (selected : α → Bool) : Prop :=
  ∀ x ∈ l, ∀ y ∈ l, index x < index y → selected y = true → selected x = true

/-- A downward closed selection of an increasing list is an initial segment. -/
theorem DownClosed.filter_isPrefix (hl : l.Pairwise fun x y => index x < index y)
    (h : DownClosed index l selected) : l.filter selected <+: l := by
  induction l with
  | nil => exact nil_prefix
  | cons x l ih =>
    obtain ⟨hx, hl'⟩ := pairwise_cons.mp hl
    have htail : DownClosed index l selected :=
      fun a ha b hb => h a (mem_cons_of_mem _ ha) b (mem_cons_of_mem _ hb)
    by_cases hsel : selected x = true
    · rw [filter_cons_of_pos hsel, prefix_cons_inj]
      exact ih hl' htail
    · have hnone : l.filter selected = [] := by
        rw [filter_eq_nil_iff]
        intro y hy hy'
        exact hsel (h x mem_cons_self y (mem_cons_of_mem _ hy) (hx y hy) hy')
      rw [filter_cons_of_neg hsel, hnone]
      exact nil_prefix

/-- Selecting the first unselected element appends it to the selection. -/
theorem DownClosed.filter_next (hl : l.Pairwise fun x y => index x < index y)
    (h : DownClosed index l selected) {x : α} (hx : x ∈ l) (hnot : selected x = false)
    (hbefore : ∀ y ∈ l, index y < index x → selected y = true)
    (hself : selected' x = true) (hsame : ∀ y ∈ l, index y ≠ index x → selected' y = selected y) :
    l.filter selected' = l.filter selected ++ [x] := by
  induction l with
  | nil => cases hx
  | cons y l ih =>
    obtain ⟨hy, hl'⟩ := pairwise_cons.mp hl
    have htail : DownClosed index l selected :=
      fun a ha b hb => h a (mem_cons_of_mem _ ha) b (mem_cons_of_mem _ hb)
    rcases mem_cons.mp hx with rfl | hmem
    · have hafter : ∀ z ∈ l, selected z = false ∧ selected' z = false := by
        intro z hz
        have hzx := hy z hz
        have hz' : selected z = false := by
          rw [Bool.eq_false_iff]
          intro hsel
          rw [h x mem_cons_self z (mem_cons_of_mem _ hz) hzx hsel] at hnot
          cases hnot
        exact ⟨hz', (hsame z (mem_cons_of_mem _ hz) (by omega)).trans hz'⟩
      have h1 : l.filter selected = [] := by
        rw [filter_eq_nil_iff]
        intro z hz
        simp [(hafter z hz).1]
      have h2 : l.filter selected' = [] := by
        rw [filter_eq_nil_iff]
        intro z hz
        simp [(hafter z hz).2]
      rw [filter_cons_of_pos hself, filter_cons_of_neg (by simp [hnot]), h1, h2]
      rfl
    · have hlt := hy x hmem
      have hsel : selected y = true := hbefore y mem_cons_self hlt
      have hsel' : selected' y = true := by
        rw [hsame y mem_cons_self (by omega)]
        exact hsel
      rw [filter_cons_of_pos hsel, filter_cons_of_pos hsel', cons_append]
      congr 1
      exact ih hl' htail hmem (fun z hz => hbefore z (mem_cons_of_mem _ hz))
        (fun z hz => hsame z (mem_cons_of_mem _ hz))

/-- Selecting the first unselected element keeps the selection downward closed. -/
theorem DownClosed.next (h : DownClosed index l selected) {x : α}
    (hbefore : ∀ y ∈ l, index y < index x → selected y = true)
    (hmono : ∀ y ∈ l, selected y = true → selected' y = true)
    (hsame : ∀ y ∈ l, index y ≠ index x → selected' y = selected y) :
    DownClosed index l selected' := by
  intro a ha b hb hab hb'
  by_cases hbx : index b = index x
  · exact hmono a ha (hbefore a ha (by omega))
  · rw [hsame b hb hbx] at hb'
    exact hmono a ha (h a ha b hb hab hb')

end MessagingBench
