import Mathlib.Data.List.Basic

/-!
# Runs of deterministic step functions

All nondeterminism of a system is resolved by the schedule, a list of actions. A run is a
fold, and a property of every run is proved once from its initial case and its step case. A
guard states which steps are admitted; guarded runs carry the conditional results.
-/

namespace MessagingBench

variable {σ τ α β : Type*}

/-- The state after executing a whole schedule. -/
def execute (step : σ → α → σ) (s : σ) (schedule : List α) : σ :=
  schedule.foldl step s

@[simp] theorem execute_nil (step : σ → α → σ) (s : σ) : execute step s [] = s := rfl

@[simp] theorem execute_cons (step : σ → α → σ) (s : σ) (a : α) (schedule : List α) :
    execute step s (a :: schedule) = execute step (step s a) schedule := rfl

theorem execute_append (step : σ → α → σ) (s : σ) (before after : List α) :
    execute step s (before ++ after) = execute step (execute step s before) after :=
  List.foldl_append ..

/-- Every step of the run is admitted in the state in which it is taken. -/
def Guarded (step : σ → α → σ) (admitted : σ → α → Prop) : σ → List α → Prop
  | _, [] => True
  | s, a :: schedule => admitted s a ∧ Guarded step admitted (step s a) schedule

@[simp] theorem guarded_nil (step : σ → α → σ) (admitted : σ → α → Prop) (s : σ) :
    Guarded step admitted s [] := trivial

@[simp] theorem guarded_cons (step : σ → α → σ) (admitted : σ → α → Prop) (s : σ) (a : α)
    (schedule : List α) : Guarded step admitted s (a :: schedule) ↔
      admitted s a ∧ Guarded step admitted (step s a) schedule := Iff.rfl

instance Guarded.decidable (step : σ → α → σ) (admitted : σ → α → Prop)
    [∀ s a, Decidable (admitted s a)] (s : σ) :
    (schedule : List α) → Decidable (Guarded step admitted s schedule)
  | [] => isTrue trivial
  | a :: schedule =>
    have := Guarded.decidable step admitted (step s a) schedule
    inferInstanceAs (Decidable (admitted s a ∧ Guarded step admitted (step s a) schedule))

variable {schedule : List α} {s : σ} {admitted : σ → α → Prop}

/-- An invariant kept by every admitted step holds after every guarded run. -/
theorem Guarded.invariant {step : σ → α → σ} {inv : σ → Prop}
    (hstep : ∀ s a, inv s → admitted s a → inv (step s a)) (hrun : Guarded step admitted s schedule)
    (hs : inv s) : inv (execute step s schedule) := by
  induction schedule generalizing s with
  | nil => exact hs
  | cons a schedule ih => exact ih hrun.2 (hstep s a hs hrun.1)

theorem guarded_of_forall {step : σ → α → σ}
    (h : ∀ a ∈ schedule, ∀ s, admitted s a) (s : σ) : Guarded step admitted s schedule := by
  induction schedule generalizing s with
  | nil => trivial
  | cons a schedule ih =>
    exact ⟨h a List.mem_cons_self s, ih (fun b hb => h b (List.mem_cons_of_mem a hb)) (step s a)⟩

theorem guarded_append (step : σ → α → σ) (admitted : σ → α → Prop) (s : σ)
    (before after : List α) : Guarded step admitted s (before ++ after) ↔
      Guarded step admitted s before ∧ Guarded step admitted (execute step s before) after := by
  induction before generalizing s with
  | nil => simp
  | cons a before ih =>
    rw [List.cons_append, guarded_cons, guarded_cons, ih, and_assoc, execute_cons]

theorem Guarded.kept_or_released {step : σ → α → σ} {inv held : σ → Prop}
    {released : σ → α → Prop} (hinv : ∀ s a, inv s → admitted s a → inv (step s a))
    (hstep : ∀ s a, inv s → admitted s a → held s → held (step s a) ∨ released s a)
    (hrun : Guarded step admitted s schedule) (hs : inv s) (hheld : held s) :
    held (execute step s schedule) ∨ ∃ before a after, schedule = before ++ a :: after ∧
      held (execute step s before) ∧ released (execute step s before) a := by
  induction schedule generalizing s with
  | nil => exact .inl hheld
  | cons a schedule ih =>
    rcases hstep s a hs hrun.1 hheld with hnext | hreleased
    · rcases ih hrun.2 (hinv s a hs hrun.1) hnext with hend | ⟨before, b, after, rfl, hbefore, hb⟩
      · exact .inl hend
      · exact .inr ⟨a :: before, b, after, rfl, hbefore, hb⟩
    · exact .inr ⟨[], a, schedule, rfl, hheld, hreleased⟩

/-- The values a run puts out, in order. -/
def outputs (step : σ → α → σ) (out : σ → α → Option β) : σ → List α → List β
  | _, [] => []
  | s, a :: schedule => (out s a).toList ++ outputs step out (step s a) schedule

section Simulation

variable {step : σ → α → σ} {step' : τ → α → τ} {admitted : σ → α → Prop} {rel : σ → τ → Prop}

/-- A simulation carries a guard over to the simulating run. -/
theorem Guarded.transfer {admitted' : τ → α → Prop}
    (hstep : ∀ s t a, rel s t → admitted s a → rel (step s a) (step' t a))
    (hguard : ∀ s t a, rel s t → admitted s a → admitted' t a) {t : τ} (h : rel s t)
    (hrun : Guarded step admitted s schedule) : Guarded step' admitted' t schedule := by
  induction schedule generalizing s t with
  | nil => trivial
  | cons a schedule ih =>
    exact ⟨hguard s t a h hrun.1, ih (hstep s t a h hrun.1) hrun.2⟩

/-- Simulated runs put out the same values. -/
theorem Guarded.outputs_eq {out : σ → α → Option β} {out' : τ → α → Option β}
    (hstep : ∀ s t a, rel s t → admitted s a → rel (step s a) (step' t a))
    (hout : ∀ s t a, rel s t → admitted s a → out s a = out' t a) {t : τ} (h : rel s t)
    (hrun : Guarded step admitted s schedule) :
    outputs step out s schedule = outputs step' out' t schedule := by
  induction schedule generalizing s t with
  | nil => rfl
  | cons a schedule ih =>
    rw [outputs, outputs, hout s t a h hrun.1, ih (hstep s t a h hrun.1) hrun.2]

end Simulation

end MessagingBench
