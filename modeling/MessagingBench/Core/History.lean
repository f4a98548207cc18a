import Mathlib.Data.List.Basic

/-!
# Histories whose entries are warranted

A history is a list of entries in the order in which they were made. Every entry needs a
warrant in what was there before it, so that a history that only grows by warranted
entries is warranted as a whole.
-/

namespace MessagingBench

variable {ε : Type*}

/-- Every entry of the history has its warrant in the entries before it. -/
def Warranted (warrant : List ε → ε → Prop) (history : List ε) : Prop :=
  ∀ before entry after, history = before ++ entry :: after → warrant before entry

namespace Warranted

variable {warrant : List ε → ε → Prop} {history : List ε}

theorem nil : Warranted warrant [] := by
  intro before entry after h
  simp at h

theorem append {new : List ε} (h : Warranted warrant history)
    (hnew : ∀ before entry after, new = before ++ entry :: after →
      warrant (history ++ before) entry) : Warranted warrant (history ++ new) := by
  intro before entry after hsplit
  rcases List.append_eq_append_iff.mp hsplit with ⟨rest, rfl, hrest⟩ | ⟨rest, hrest, hnew'⟩
  · exact hnew rest entry after hrest
  · cases rest with
    | nil =>
      rw [List.append_nil] at hrest
      subst hrest
      have hfirst := hnew [] entry after hnew'.symm
      rwa [List.append_nil] at hfirst
    | cons first rest =>
      obtain ⟨rfl, rfl⟩ := List.cons.inj hnew'
      exact h before entry rest hrest

theorem concat {entry : ε} (h : Warranted warrant history) (hentry : warrant history entry) :
    Warranted warrant (history ++ [entry]) := by
  refine h.append fun before entry' after hsplit => ?_
  cases before with
  | nil =>
    cases hsplit
    rwa [List.append_nil]
  | cons first before => simp at hsplit

end Warranted

end MessagingBench
