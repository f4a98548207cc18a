import Mathlib.Logic.Function.Iterate
import MessagingBench.Core.Routine

/-!
# Loops of routines

A loop repeats a routine, its body, which yields the variables of the next round or the
result of the loop. Nothing bounds the number of rounds, so that a loop is described
round by round: it is still running, or it has ended. It ends if every round that goes on
lowers a measure, and it never ends if an invariant makes every round go on.
-/

namespace MessagingBench.Routine

variable {σ ι α β : Type}

/-- A loop that is under way with its variables, or has ended. -/
inductive Stage (σ ι α β : Type)
  | running (a : α) (s : σ)
  | ended (result : Except ι β) (s : σ)

/-- One round more. -/
def Stage.next (body : α → Routine σ ι (α ⊕ β)) : Stage σ ι α β → Stage σ ι α β
  | .running a s =>
    match body a s with
    | (.ok (.inl a'), s') => .running a' s'
    | (.ok (.inr b), s') => .ended (.ok b) s'
    | (.error error, s') => .ended (.error error) s'
  | .ended result s => .ended result s

/-- The loop is under way, with variables and a state that meet a condition. -/
def Stage.isRunning (p : α → σ → Bool) : Stage σ ι α β → Bool
  | .running a s => p a s
  | .ended _ _ => false

theorem Stage.exists_of_isRunning {p : α → σ → Bool} {stage : Stage σ ι α β}
    (h : stage.isRunning p = true) : ∃ a s, stage = .running a s ∧ p a s = true := by
  cases stage with
  | running a s => exact ⟨a, s, rfl, h⟩
  | ended result s => cases h

theorem Stage.exists_of_not_isRunning {stage : Stage σ ι α β}
    (h : stage.isRunning (fun _ _ => true) = false) : ∃ result s, stage = .ended result s := by
  cases stage with
  | running a s => cases h
  | ended result s => exact ⟨result, s, rfl⟩

/-- The loop after a number of rounds. -/
def stage (body : α → Routine σ ι (α ⊕ β)) (a : α) (s : σ) (rounds : Nat) : Stage σ ι α β :=
  (Stage.next body)^[rounds] (.running a s)

/-- The loop ends, with a result or an error. -/
def Ends (body : α → Routine σ ι (α ⊕ β)) (a : α) (s : σ) : Prop :=
  ∃ rounds result s', stage body a s rounds = .ended result s'

/-- The loop as a routine that gives up after a number of rounds. -/
def loop (body : α → Routine σ ι (α ⊕ β)) (exhausted : ι) : Nat → α → Routine σ ι β
  | 0, _ => fail exhausted
  | rounds + 1, a => do
    match ← body a with
    | .inl a' => loop body exhausted rounds a'
    | .inr b => pure b

variable {body : α → Routine σ ι (α ⊕ β)} {a a' a₁ : α} {s s' s₁ : σ} {b : β} {rounds : Nat}

theorem stage_succ (rounds : Nat) :
    stage body a s (rounds + 1) = (stage body a s rounds).next body :=
  Function.iterate_succ_apply' _ _ _

theorem stage_of_inl (h : body a s = (.ok (.inl a'), s')) (rounds : Nat) :
    stage body a s (rounds + 1) = stage body a' s' rounds := by
  unfold stage
  rw [Function.iterate_succ_apply]
  simp only [Stage.next, h]

theorem stage_of_inr (h : body a s = (.ok (.inr b), s')) :
    stage body a s 1 = .ended (.ok b) s' := by
  simp only [stage, Function.iterate_one, Stage.next, h]

theorem stage_of_error {error : ι} (h : body a s = (.error error, s')) :
    stage body a s 1 = .ended (.error error) s' := by
  simp only [stage, Function.iterate_one, Stage.next, h]

theorem stage_add {first : Nat} (h : stage body a s first = .running a' s') :
    stage body a s (first + rounds) = stage body a' s' rounds := by
  unfold stage at h ⊢
  rw [Nat.add_comm, Function.iterate_add_apply, h]

variable {I : α → σ → Prop} {result : Except ι β} {exhausted : ι} {rounds : Nat} {limit : Nat}

/-- A loop that is still running has gone on in every round. -/
theorem stage_running_succ (h : stage body a s (rounds + 1) = .running a' s') :
    ∃ a₁ s₁, stage body a s rounds = .running a₁ s₁ ∧ body a₁ s₁ = (.ok (.inl a'), s') := by
  rw [stage_succ] at h
  cases hstage : stage body a s rounds with
  | ended result s₁ =>
    rw [hstage] at h
    cases h
  | running a₁ s₁ =>
    refine ⟨a₁, s₁, rfl, ?_⟩
    rw [hstage] at h
    rcases hbody : body a₁ s₁ with ⟨next, s₂⟩
    match next, hbody with
    | .error error, hbody | .ok (.inr b), hbody => simp [Stage.next, hbody] at h
    | .ok (.inl a₂), hbody =>
      simp only [Stage.next, hbody, Stage.running.injEq] at h
      obtain ⟨rfl, rfl⟩ := h
      rfl

/-- What every round that goes on keeps holds as long as the loop is running. The condition has
to be met in the rounds of the loop only. -/
theorem stage_invariant (hinit : I a s)
    (hround : ∀ rounds a₁ s₁ a₂ s₂, stage body a s rounds = .running a₁ s₁ → I a₁ s₁ →
      body a₁ s₁ = (.ok (.inl a₂), s₂) → I a₂ s₂) (h : stage body a s rounds = .running a' s') :
    I a' s' := by
  induction rounds generalizing a' s' with
  | zero =>
    cases h
    exact hinit
  | succ rounds ih =>
    obtain ⟨a₁, s₁, hrunning, hbody⟩ := stage_running_succ h
    exact hround rounds a₁ s₁ a' s' hrunning (ih hrunning) hbody

theorem stage_ended_succ (h : stage body a s rounds = .ended result s') :
    stage body a s (rounds + 1) = .ended result s' := by
  rw [stage_succ, h]
  rfl

theorem stage_ended_last (h : stage body a s rounds = .ended result s') :
    ∃ first a₁ s₁, stage body a s first = .running a₁ s₁ ∧
      stage body a₁ s₁ 1 = .ended result s' := by
  induction rounds with
  | zero => cases h
  | succ rounds ih =>
    cases hstage : stage body a s rounds with
    | running a₁ s₁ =>
      rw [stage_add hstage] at h
      exact ⟨rounds, a₁, s₁, hstage, h⟩
    | ended result' s₁ =>
      cases h.symm.trans (stage_ended_succ hstage)
      exact ih hstage

/-- A loop whose rounds all go on is always running. -/
theorem stage_running_of_invariant (hinit : I a s)
    (hround : ∀ a s, I a s → ∃ a' s', stage body a s 1 = .running a' s' ∧ I a' s')
    (rounds : Nat) : ∃ a' s', stage body a s rounds = .running a' s' ∧ I a' s' := by
  induction rounds with
  | zero => exact ⟨a, s, rfl, hinit⟩
  | succ rounds ih =>
    obtain ⟨a₁, s₁, hrunning, hI⟩ := ih
    rw [stage_add hrunning]
    exact hround a₁ s₁ hI

/-- What holds of a value that breaks it, if there is one, holds of all values. The value is not
known, so that a loop can be evaluated from it only as far as it never looks at it. -/
theorem forall_of_epsilon {α : Type} [Nonempty α] {P : α → Prop}
    (h : P (Classical.epsilon fun a => ¬P a)) {a : α} : P a := by
  by_contra ha
  exact Classical.epsilon_spec (p := fun a => ¬P a) ⟨a, ha⟩ h

theorem stage_ended_of_le {more : Nat} (h : stage body a s rounds = .ended result s')
    (hle : rounds ≤ more) : stage body a s more = .ended result s' := by
  induction hle with
  | refl => exact h
  | step _ ih => exact stage_ended_succ ih

/-- A loop with an invariant under which rounds that go on lower a measure. The conditions
have to be met in the rounds of the loop only. -/
theorem stage_ended_of_measure (m : α → σ → Nat) (hinit : I a s)
    (hround : ∀ rounds a₁ s₁ a₂ s₂, stage body a s rounds = .running a₁ s₁ → I a₁ s₁ →
      body a₁ s₁ = (.ok (.inl a₂), s₂) → I a₂ s₂ ∧ m a₂ s₂ < m a₁ s₁) :
    ∃ result s', stage body a s (m a s + 1) = .ended result s' := by
  have hstage : ∀ rounds a₁ s₁, stage body a s rounds = .running a₁ s₁ →
      I a₁ s₁ ∧ m a₁ s₁ + rounds ≤ m a s := by
    intro rounds
    induction rounds with
    | zero =>
      intro a₁ s₁ h
      cases h
      exact ⟨hinit, Nat.le_refl _⟩
    | succ rounds ih =>
      intro a₁ s₁ h
      obtain ⟨a₀, s₀, hrunning, hbody⟩ := stage_running_succ h
      obtain ⟨hI, hle⟩ := ih a₀ s₀ hrunning
      obtain ⟨hI', hlt⟩ := hround rounds a₀ s₀ a₁ s₁ hrunning hI hbody
      exact ⟨hI', by omega⟩
  cases h : stage body a s (m a s + 1) with
  | ended result s' => exact ⟨result, s', rfl⟩
  | running a₁ s₁ =>
    have hle := (hstage _ a₁ s₁ h).2
    omega

/-- A loop that returned did so in a round in which the invariant held. -/
theorem loop_ok (hround : ∀ a s a' s', I a s → body a s = (.ok (.inl a'), s') → I a' s')
    (hinit : I a s) (h : loop body exhausted limit a s = (.ok b, s')) :
    ∃ a₁ s₁, I a₁ s₁ ∧ body a₁ s₁ = (.ok (.inr b), s') := by
  induction limit generalizing a s with
  | zero => cases h
  | succ limit ih =>
    obtain ⟨next, s₁, hbody, h⟩ := bind_ok h
    cases next with
    | inl a₁ => exact ih (hround a s a₁ s₁ hinit hbody) h
    | inr b₁ =>
      obtain ⟨rfl, rfl⟩ := pure_ok h
      exact ⟨a, s, hinit, hbody⟩

theorem Returns.loop_inr {P : σ → Prop} {R : β → σ → Prop}
    (hbody : Returns P (body a) fun next s => R b s ∧ next = .inr b) :
    Returns P (loop body exhausted (limit + 1) a) R := by
  refine hbody.bind fun next => .given fun hnext => ?_
  rw [hnext]
  exact .pure fun _ hs => hs

/-- The routine agrees with the loop once the loop has ended. -/
theorem loop_eq_of_ended {limit : Nat} (h : stage body a s rounds = .ended result s')
    (hle : rounds ≤ limit) : loop body exhausted limit a s = (result, s') := by
  induction limit generalizing rounds a s with
  | zero =>
    obtain rfl := Nat.le_zero.mp hle
    cases h
  | succ limit ih =>
    have hended := stage_ended_of_le h hle
    unfold loop
    rw [bind_apply]
    rcases hbody : body a s with ⟨next, s₁⟩
    match next, hbody with
    | .error error, hbody =>
      have hnow := stage_ended_of_le (stage_of_error hbody) (Nat.le_add_left 1 limit)
      rw [hended] at hnow
      cases hnow
      rfl
    | .ok (.inr b), hbody =>
      have hnow := stage_ended_of_le (stage_of_inr hbody) (Nat.le_add_left 1 limit)
      rw [hended] at hnow
      cases hnow
      rfl
    | .ok (.inl a₁), hbody =>
      rw [stage_of_inl hbody] at hended
      exact ih hended (Nat.le_refl _)

/-- As long as the loop is running, the routine runs out of rounds. -/
theorem loop_eq_of_running (h : stage body a s limit = .running a' s') :
    loop body exhausted limit a s = (.error exhausted, s') := by
  induction limit generalizing a s with
  | zero =>
    cases h
    rfl
  | succ limit ih =>
    unfold loop
    rw [bind_apply]
    rcases hbody : body a s with ⟨next, s₁⟩
    match next, hbody with
    | .error error, hbody =>
      cases h.symm.trans (stage_ended_of_le (stage_of_error hbody) (Nat.le_add_left 1 limit))
    | .ok (.inr b), hbody =>
      cases h.symm.trans (stage_ended_of_le (stage_of_inr hbody) (Nat.le_add_left 1 limit))
    | .ok (.inl a₁), hbody =>
      rw [stage_of_inl hbody] at h
      exact ih h

end MessagingBench.Routine
