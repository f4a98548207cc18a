import Mathlib.Data.List.DropRight

/-!
# Windows over a history

A bounded memory with expiry sees only a window of its history: of the last entries
those that are not stale. A window is kept up to date from the previous one, since an
entry that is older than a stale one is stale as well.
-/

namespace MessagingBench

open List

variable {α : Type*}

/-- The entries among the last ones that are not stale. -/
def window (stale : α → Bool) (size : Nat) (history : List α) : List α :=
  (history.rtake size).filter fun entry => !stale entry

/-- Whatever precedes a stale entry is stale. -/
def StaleFirst (stale : α → Bool) (history : List α) : Prop :=
  history.Pairwise fun earlier later => stale later = true → stale earlier = true

variable {stale stale' : α → Bool} {size : Nat} {history : List α}

theorem StaleFirst.sublist {part : List α} (h : StaleFirst stale history)
    (hpart : part.Sublist history) : StaleFirst stale part := Pairwise.sublist hpart h

theorem StaleFirst.dropWhile_eq (h : StaleFirst stale history) :
    history.dropWhile stale = history.filter fun entry => !stale entry := by
  induction history with
  | nil => rfl
  | cons entry history ih =>
    obtain ⟨hentry, hrest⟩ := pairwise_cons.mp h
    cases hstale : stale entry with
    | true => simp [hstale, ih hrest]
    | false =>
      have hfresh : ∀ later ∈ history, stale later = false := by
        intro later hmem
        cases hlater : stale later with
        | true => exact absurd (hentry later hmem hlater) (by simp [hstale])
        | false => rfl
      rw [dropWhile_cons, filter_cons, filter_eq_self.mpr (by simpa using hfresh)]
      simp [hstale]

theorem rtake_sublist (history : List α) (size : Nat) : (history.rtake size).Sublist history :=
  drop_sublist _ _

theorem window_sublist : (window stale size history).Sublist history :=
  filter_sublist.trans (rtake_sublist history size)

theorem rtake_of_length_le (h : history.length ≤ size) : history.rtake size = history := by
  unfold rtake
  rw [Nat.sub_eq_zero_of_le h, drop_zero]

theorem mem_window {entry : α} :
    entry ∈ window stale size history ↔ entry ∈ history.rtake size ∧ stale entry = false := by
  simp [window]

/-- As time goes by, more entries become stale. -/
theorem filter_window (h : ∀ entry, stale entry = true → stale' entry = true) :
    (window stale size history).filter (fun entry => !stale' entry) =
      window stale' size history := by
  unfold window
  rw [filter_filter]
  refine filter_congr fun entry _ => ?_
  cases hstale : stale entry with
  | true => simp [h entry hstale]
  | false => simp

/-- The last entries of a window are the window of the last entries. -/
theorem StaleFirst.rtake_window (h : StaleFirst stale history) :
    (window stale (size + 1) history).rtake size = window stale size history := by
  rcases Nat.lt_or_ge size history.length with hlt | hge
  · -- the larger window has one more candidate, and if it is fresh all later ones are
    obtain ⟨entry, hentry⟩ : ∃ entry, history.rtake (size + 1) = entry :: history.rtake size := by
      refine ⟨history.get ⟨history.length - (size + 1), by omega⟩, ?_⟩
      unfold rtake
      rw [drop_eq_getElem_cons (by omega)]
      have hsucc : history.length - (size + 1) + 1 = history.length - size := by omega
      rw [hsucc]
      rfl
    have hlength : (history.rtake size).length = size := by
      unfold rtake
      rw [length_drop]
      omega
    have hfirst := h.sublist (rtake_sublist history (size + 1))
    rw [hentry] at hfirst
    obtain ⟨hlater, -⟩ := pairwise_cons.mp hfirst
    unfold window
    rw [hentry, filter_cons]
    cases hstale : stale entry with
    | true =>
      simp only [Bool.not_true, Bool.false_eq_true, ite_false]
      exact rtake_of_length_le ((length_filter_le _ _).trans hlength.le)
    | false =>
      have hfresh : ∀ later ∈ history.rtake size, (!stale later) = true := by
        intro later hmem
        cases hstale' : stale later with
        | true => exact absurd (hlater later hmem hstale') (by simp [hstale])
        | false => rfl
      simp only [Bool.not_false, ite_true, filter_eq_self.mpr hfresh]
      unfold rtake at hlength ⊢
      rw [length_cons, hlength, Nat.add_sub_cancel_left, drop_one, tail_cons]
  · have hall := rtake_of_length_le hge
    have hall' := rtake_of_length_le (Nat.le_succ_of_le hge)
    unfold window
    rw [hall, hall']
    exact rtake_of_length_le ((length_filter_le _ _).trans hge)

theorem StaleFirst.window_append (h : StaleFirst stale history) {entry : α}
    (hentry : stale entry = false) (hsize : size ≠ 0) :
    window stale size (history ++ [entry]) =
      (window stale size history ++ [entry]).rtake size := by
  obtain ⟨size, rfl⟩ := Nat.exists_eq_succ_of_ne_zero hsize
  rw [rtake_concat_succ, h.rtake_window]
  unfold window
  rw [rtake_concat_succ, filter_append, filter_cons_of_pos (by simp [hentry]),
    filter_nil]

end MessagingBench
