import Mathlib.Algebra.GroupWithZero.Nat
import Mathlib.Data.List.Basic
import Mathlib.Data.List.Nodup

/-!
# Slices of a list

A list is cut from the front into consecutive slices of given sizes. Together the slices
are an initial part of the list, and a relation between elements of different slices is a
relation across the cuts.
-/

namespace MessagingBench

open List

variable {α : Type*} {l slice : List α} {sizes : List Nat}

/-- Consecutive slices of the given sizes. -/
def slices : List α → List Nat → List (List α)
  | _, [] => []
  | l, size :: sizes => l.take size :: slices (l.drop size) sizes

theorem flatten_slices (l : List α) (sizes : List Nat) :
    (slices l sizes).flatten = l.take sizes.sum := by
  induction sizes generalizing l with
  | nil => simp [slices]
  | cons size sizes ih => rw [slices, flatten_cons, ih, sum_cons, take_add]

theorem slices_append (l : List α) (before after : List Nat) :
    slices l (before ++ after) = slices l before ++ slices (l.drop before.sum) after := by
  induction before generalizing l with
  | nil => simp [slices]
  | cons size before ih => simp [slices, ih, drop_drop]

theorem mem_take_of_mem_slices {a : α}
    (hslice : slice ∈ slices l sizes) (ha : a ∈ slice) : a ∈ l.take sizes.sum := by
  rw [← flatten_slices]
  exact mem_flatten.mpr ⟨slice, hslice, ha⟩

/-- The slices have the given sizes if the list is long enough. -/
theorem map_length_slices (h : sizes.sum ≤ l.length) :
    (slices l sizes).map length = sizes := by
  induction sizes generalizing l with
  | nil => rfl
  | cons size sizes ih =>
    rw [sum_cons] at h
    rw [slices, map_cons, ih (by rw [length_drop]; omega), length_take,
      Nat.min_eq_left (by omega)]

/-- A relation holds between the elements of an earlier and a later slice exactly if it holds
across every cut between slices. -/
theorem pairwise_slices_iff {R : α → α → Prop} (l : List α) (sizes : List Nat) :
    (slices l sizes).Pairwise (fun earlier later => ∀ a ∈ earlier, ∀ b ∈ later, R a b) ↔
      ∀ before after, sizes = before ++ after → ∀ a ∈ l.take before.sum,
        ∀ b ∈ (l.drop before.sum).take after.sum, R a b := by
  constructor
  · rintro h before after rfl a ha b hb
    rw [slices_append, pairwise_append] at h
    rw [← flatten_slices] at ha hb
    obtain ⟨earlier, hearlier, ha⟩ := mem_flatten.mp ha
    obtain ⟨later, hlater, hb⟩ := mem_flatten.mp hb
    exact h.2.2 earlier hearlier later hlater a ha b hb
  · intro h
    induction sizes generalizing l with
    | nil => exact .nil
    | cons size sizes ih =>
      refine .cons (fun later hlater a ha b hb => ?_) (ih _ fun before after hsizes a ha b hb => ?_)
      · refine h [size] sizes rfl a ?_ b ?_
        · simpa using ha
        · simpa using mem_take_of_mem_slices hlater hb
      · refine h (size :: before) after (by rw [hsizes, cons_append]) a ?_ b ?_
        · rw [sum_cons, take_add]
          exact mem_append_right _ ha
        · rwa [sum_cons, ← drop_drop]

theorem pairwise_disjoint_slices (h : l.Nodup) (sizes : List Nat) :
    (slices l sizes).Pairwise Disjoint := by
  have hcuts := (pairwise_slices_iff (R := (· ≠ ·)) l sizes).mpr
    fun before after _ a ha b hb => by
      rintro rfl
      exact disjoint_take_drop h (Nat.le_refl _) ha (mem_of_mem_take hb)
  exact hcuts.imp fun hne a ha hb => hne a ha a hb rfl

theorem nodup_of_mem_slices (h : l.Nodup) (hslice : slice ∈ slices l sizes) : slice.Nodup := by
  have hflat : (slices l sizes).flatten.Nodup := by
    rw [flatten_slices]
    exact h.sublist (take_sublist _ _)
  exact (nodup_flatten.mp hflat).1 slice hslice

end MessagingBench
