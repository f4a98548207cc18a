import Mathlib.Data.List.Nodup
import Mathlib.Logic.Function.Basic

/-!
# First occurrences of new keys

A list is read from the front; an element is taken if its key has not been seen, and its
key counts as seen from then on. This takes one element for each key that was unseen at the
start, and so all elements with such keys if no two of them share one.
-/

namespace MessagingBench

open List Function

variable {α κ : Type*} [DecidableEq κ] {key : α → κ} {seen : κ → Bool} {as : List α}

/-- The elements whose keys are new when they are read. -/
def firstNew (key : α → κ) : (κ → Bool) → List α → List α
  | _, [] => []
  | seen, a :: as =>
    if seen (key a) then firstNew key seen as
    else a :: firstNew key (update seen (key a) true) as

theorem firstNew_sublist (seen : κ → Bool) (as : List α) :
    (firstNew key seen as).Sublist (as.filter fun a => !seen (key a)) := by
  induction as generalizing seen with
  | nil => exact Sublist.refl _
  | cons b as ih =>
    rw [firstNew, filter_cons]
    cases hb : seen (key b) with
    | true => exact ih seen
    | false =>
      refine Sublist.cons_cons b ((ih _).trans (monotone_filter_right as fun a ha => ?_))
      by_cases hkey : key a = key b
      · simp [hkey] at ha
      · simpa [update_of_ne hkey] using ha

theorem seen_eq_false_of_mem_firstNew {a : α}
    (h : a ∈ firstNew key seen as) : seen (key a) = false := by
  simpa using (mem_filter.mp ((firstNew_sublist seen as).subset h)).2

/-- An unseen key is taken with its first element. -/
theorem exists_mem_firstNew {a : α} (ha : a ∈ as)
    (hseen : seen (key a) = false) : ∃ b ∈ firstNew key seen as, key b = key a := by
  induction as generalizing seen with
  | nil => cases ha
  | cons c as ih =>
    rw [firstNew]
    split
    · rename_i hc
      rcases mem_cons.mp ha with rfl | ha
      · rw [hseen] at hc
        cases hc
      · exact ih ha hseen
    · by_cases hkey : key a = key c
      · exact ⟨c, mem_cons_self, hkey.symm⟩
      · rcases mem_cons.mp ha with rfl | ha
        · exact absurd rfl hkey
        · have hlater : update seen (key c) true (key a) = false := by
            rwa [update_of_ne hkey]
          obtain ⟨b, hb, heq⟩ := ih ha hlater
          exact ⟨b, mem_cons_of_mem _ hb, heq⟩

theorem nodup_firstNew (seen : κ → Bool) (as : List α) :
    ((firstNew key seen as).map key).Nodup := by
  induction as generalizing seen with
  | nil => exact nodup_nil
  | cons b as ih =>
    rw [firstNew]
    split
    · exact ih seen
    · refine nodup_cons.mpr ⟨fun hmem => ?_, ih _⟩
      obtain ⟨a, ha, hkey⟩ := mem_map.mp hmem
      have hseen := seen_eq_false_of_mem_firstNew ha
      rw [hkey, update_self] at hseen
      cases hseen

theorem firstNew_eq_filter (h : ((as.filter fun a => !seen (key a)).map key).Nodup) :
    firstNew key seen as = as.filter fun a => !seen (key a) := by
  induction as generalizing seen with
  | nil => rfl
  | cons b as ih =>
    rw [filter_cons] at h ⊢
    rw [firstNew]
    cases hb : seen (key b) with
    | true =>
      simp only [hb, Bool.not_true, Bool.false_eq_true, if_false] at h ⊢
      exact ih h
    | false =>
      simp only [hb, Bool.not_false, if_true, map_cons, nodup_cons] at h
      have hsame : (as.filter fun a => !update seen (key b) true (key a)) =
          as.filter fun a => !seen (key a) := by
        refine filter_congr fun a ha => ?_
        by_cases hkey : key a = key b
        · have hseen : seen (key a) = true := by
            by_contra hne
            exact h.1 (mem_map.mpr ⟨a, mem_filter.mpr ⟨ha, by simpa using hne⟩, hkey⟩)
          simp [hkey, hkey ▸ hseen]
        · simp [update_of_ne hkey]
      simp only [Bool.false_eq_true, if_false, Bool.not_false, if_true]
      rw [ih (by rw [hsame]; exact h.2), hsame]

end MessagingBench
