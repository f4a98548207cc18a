import Mathlib.Data.List.Perm.Basic
import MessagingBench.Core.Loop

/-!
# Paths and staircases

A path from one value to another is the list of the values after the first, each reached from
the one before by a step. Lists are extended by values that differ from the last one, which
keeps paths of distinct neighbours whole. A staircase climbs from a number to an upper bound
and descends to a lower one; how far each step goes is up to a routine.
-/

namespace MessagingBench

open List

section Paths

variable {α : Type} {R S : α → α → Prop} {a b c x : α} {l l' : List α}

inductive Path (R : α → α → Prop) : α → List α → α → Prop
  | nil (a : α) : Path R a [] a
  | cons {a b c : α} {l : List α} (step : R a b) (rest : Path R b l c) : Path R a (b :: l) c

namespace Path

theorem append (h : Path R a l b) (h' : Path R b l' c) : Path R a (l ++ l') c := by
  induction h with
  | nil a => exact h'
  | cons step _ ih => exact .cons step (ih h')

theorem imp (himp : ∀ a b, R a b → S a b) (h : Path R a l b) : Path S a l b := by
  induction h with
  | nil a => exact .nil a
  | cons step _ ih => exact .cons (himp _ _ step) ih

theorem isChain (h : Path R a l b) : IsChain R (a :: l) := by
  induction h with
  | nil a => exact .singleton a
  | cons step _ ih => exact ih.cons_cons step

/-- A path whose steps are of a second kind too. -/
theorem inter (h : Path R a l b) (hchain : IsChain S (a :: l)) :
    Path (fun a b => R a b ∧ S a b) a l b := by
  induction h with
  | nil a => exact .nil a
  | cons step _ ih =>
    rw [isChain_cons_cons] at hchain
    exact .cons ⟨step, hchain.1⟩ (ih hchain.2)

theorem of_isChain (h : IsChain R (a :: l)) : ∃ b, Path R a l b := by
  induction l generalizing a with
  | nil => exact ⟨a, .nil a⟩
  | cons b l ih =>
    rw [isChain_cons_cons] at h
    obtain ⟨c, hpath⟩ := ih h.2
    exact ⟨c, .cons h.1 hpath⟩

theorem getLast (h : Path R a l b) : (a :: l).getLast? = some b := by
  induction h with
  | nil a => rfl
  | cons _ _ ih => rw [getLast?_cons_cons, ih]

theorem last_mem (h : Path R a l b) : b ∈ a :: l := mem_of_getLast? h.getLast

theorem reverse (h : Path R a l b) : Path (fun a b => R b a) b (a :: l).reverse.tail a := by
  induction h with
  | nil a => exact .nil a
  | @cons a b c l step rest ih =>
    have hne : (b :: l).reverse ≠ [] := by simp
    rw [reverse_cons, tail_append_of_ne_nil hne]
    exact ih.append (.cons step (.nil a))

/-- A value on the path is the last one, or a step leads on from it. -/
theorem eq_or_step (h : Path R a l b) (hx : x ∈ a :: l) : x = b ∨ ∃ y ∈ l, R x y := by
  induction h with
  | nil a => exact .inl (mem_singleton.mp hx)
  | cons step _ ih =>
    rcases mem_cons.mp hx with rfl | hx
    · exact .inr ⟨_, mem_cons_self, step⟩
    · rcases ih hx with hlast | ⟨y, hy, hstep⟩
      · exact .inl hlast
      · exact .inr ⟨y, mem_cons_of_mem _ hy, hstep⟩

/-- If steps go along a preorder, then the values on the path lie between its ends. -/
theorem between (hrefl : ∀ a, S a a) (htrans : ∀ a b c, S a b → S b c → S a c)
    (himp : ∀ a b, R a b → S a b) (h : Path R a l b) : ∀ x ∈ a :: l, S a x ∧ S x b := by
  induction h with
  | nil a =>
    intro x hx
    rw [mem_singleton.mp hx]
    exact ⟨hrefl a, hrefl a⟩
  | @cons a b c l step rest ih =>
    intro x hx
    have hbc : S b c := (ih b mem_cons_self).2
    rcases mem_cons.mp hx with rfl | hx
    · exact ⟨hrefl x, htrans _ _ _ (himp _ _ step) hbc⟩
    · obtain ⟨hbx, hxc⟩ := ih x hx
      exact ⟨htrans _ _ _ (himp _ _ step) hbx, hxc⟩

end Path

end Paths

section Extending

variable {α : Type} [DecidableEq α] {sequence values : List α} {a b value : α}

/-- A value at the end, unless it is there already. -/
def pushNew (sequence : List α) (value : α) : List α :=
  if sequence.getLast? ≠ some value then sequence ++ [value] else sequence

def pushAll (sequence values : List α) : List α := values.foldl pushNew sequence

theorem pushNew_of_ne (h : sequence.getLast? ≠ some value) :
    pushNew sequence value = sequence ++ [value] := if_pos h

theorem pushNew_of_eq (h : sequence.getLast? = some value) : pushNew sequence value = sequence :=
  if_neg (not_not_intro h)

/-- The values of a path are all new after its first one. -/
theorem pushAll_path (h : Path (· ≠ ·) a values b) (hlast : sequence.getLast? = some a) :
    pushAll sequence values = sequence ++ values := by
  induction h generalizing sequence with
  | nil a => exact (append_nil _).symm
  | @cons a b c l step rest ih =>
    have hnew : pushNew sequence b = sequence ++ [b] := pushNew_of_ne (by simp [hlast, step])
    change pushAll (pushNew sequence b) l = sequence ++ b :: l
    rw [hnew, ih (by simp), append_assoc]
    rfl

theorem pushAll_cons_path (h : Path (· ≠ ·) a values b) :
    pushAll sequence (a :: values) = pushNew sequence a ++ values := by
  have hlast : (pushNew sequence a).getLast? = some a := by
    by_cases h : sequence.getLast? = some a
    · rw [pushNew_of_eq h, h]
    · rw [pushNew_of_ne h]
      simp
  exact pushAll_path h hlast

theorem mem_pushNew {x : α} : x ∈ pushNew sequence value ↔ x ∈ sequence ∨ x = value := by
  by_cases h : sequence.getLast? = some value
  · rw [pushNew_of_eq h]
    refine ⟨.inl, ?_⟩
    rintro (hx | rfl)
    · exact hx
    · exact mem_of_getLast? h
  · rw [pushNew_of_ne h, mem_append, mem_singleton]

theorem mem_pushAll {x : α} : x ∈ pushAll sequence values ↔ x ∈ sequence ∨ x ∈ values := by
  induction values generalizing sequence with
  | nil => simp [pushAll]
  | cons a values ih =>
    change x ∈ pushAll (pushNew sequence a) values ↔ _
    rw [ih, mem_pushNew, mem_cons, or_assoc]

end Extending

section Walking

variable {σ ι α : Type} [DecidableEq α] {R : α → α → Prop} {goesOn : α → Bool} {exhausted : ι}

/-- As long as it goes on, a walk moves from the current value to another one, which is added to
the sequence. -/
def walkRound (goesOn : α → Bool) (advance : α → Routine σ ι α) (vars : α × List α) :
    Routine σ ι (α × List α ⊕ α × List α) :=
  if goesOn vars.1 = true then do
    let next ← advance vars.1
    pure (.inl (next, pushNew vars.2 next))
  else
    pure (.inr vars)

def walk (goesOn : α → Bool) (advance : α → Routine σ ι α) (exhausted : ι) (rounds : Nat)
    (vars : α × List α) : Routine σ ι (α × List α) :=
  Routine.loop (walkRound goesOn advance) exhausted rounds vars

theorem walk_of_goesOn {advance : α → Routine σ ι α}
    {a : α} (h : goesOn a = true) (rounds : Nat) (sequence : List α) :
    walk goesOn advance exhausted (rounds + 1) (a, sequence) =
      advance a >>= fun b => walk goesOn advance exhausted rounds (b, pushNew sequence b) := by
  funext s
  simp only [walk, Routine.loop, walkRound, if_pos h, Routine.bind_apply]
  rcases advance a s with ⟨result, s'⟩
  cases result with
  | error error => rfl
  | ok b => rfl

/-- A walk whose steps lower a measure ends, and leaves a path. -/
theorem returns_walk {advance : α → Routine σ ι α}
    {P : σ → Prop} {I : α → Prop} (m : α → Nat)
    (hadvance : ∀ a, I a → goesOn a = true →
      Routine.Returns P (advance a) fun b s => P s ∧ I b ∧ R a b ∧ m b < m a)
    {rounds : Nat} {a : α} {sequence : List α} (hI : I a) (hrounds : m a < rounds)
    (hlast : sequence.getLast? = some a) :
    Routine.Returns P (walk goesOn advance exhausted rounds (a, sequence)) fun vars s => P s ∧
      I vars.1 ∧ goesOn vars.1 = false ∧ ∃ path, vars.2 = sequence ++ path ∧ Path R a path vars.1 := by
  induction rounds generalizing a sequence with
  | zero => omega
  | succ rounds ih =>
    by_cases hgoes : goesOn a = true
    · rw [walk_of_goesOn hgoes]
      intro s hs
      obtain ⟨b, s₁, hb, hP, hIb, hR, hm⟩ := hadvance a hI hgoes s hs
      have hne : a ≠ b := by
        rintro rfl
        omega
      have hpush : pushNew sequence b = sequence ++ [b] := pushNew_of_ne (by simp [hlast, hne])
      have hlast' : (pushNew sequence b).getLast? = some b := by
        rw [hpush]
        simp
      obtain ⟨vars, s₂, hwalk, hP', hI', hdone, path, hpath, hsteps⟩ :=
        ih hIb (by omega) hlast' s₁ hP
      refine ⟨vars, s₂, ?_, hP', hI', hdone, b :: path, ?_, .cons hR hsteps⟩
      · rw [Routine.bind_apply, hb]
        exact hwalk
      · rw [hpath, hpush, append_assoc]
        rfl
    · refine Routine.Returns.loop_inr (b := (a, sequence)) ?_
      unfold walkRound
      rw [if_neg hgoes]
      refine .pure fun s hs => ⟨⟨hs, hI, ?_, [], ?_, .nil a⟩, rfl⟩
      · exact Bool.eq_false_iff.mpr hgoes
      · exact (append_nil _).symm

end Walking

end MessagingBench
