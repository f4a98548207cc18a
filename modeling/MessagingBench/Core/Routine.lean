import Mathlib.Data.List.Basic

/-!
# Routines over a mutable state

Sequential code that changes a state and may fail; changes persist when it fails. Results
are of three kinds: what a routine that returned must have done, which changes every routine
of a family makes, and that a routine returns as long as its run meets a condition.
-/

namespace MessagingBench

/-- A routine over states `σ` with errors `ι`. -/
def Routine (σ ι α : Type) : Type := σ → Except ι α × σ

namespace Routine

variable {σ ι α β : Type}

/-- Continue after success, pass a failure on. -/
def andThen (f : α → Routine σ ι β) : Except ι α × σ → Except ι β × σ
  | (.ok a, s) => f a s
  | (.error error, s) => (.error error, s)

instance : Monad (Routine σ ι) where
  pure a := fun s => (.ok a, s)
  bind x f := fun s => andThen f (x s)

def get : Routine σ ι σ := fun s => (.ok s, s)

def modify (f : σ → σ) : Routine σ ι Unit := fun s => (.ok (), f s)

def fail (error : ι) : Routine σ ι α := fun s => (.error error, s)

/-- A result of pure code, where an error is passed on. -/
def lift (result : Except ι α) : Routine σ ι α := fun s => (result, s)

/-- Run a routine and inspect its failure instead of passing it on. -/
def attempt (x : Routine σ ι α) : Routine σ ι (Except ι α) := fun s => (.ok (x s).1, (x s).2)

/-- A change of the state that yields a value. -/
def apply (f : σ → α × σ) : Routine σ ι α := fun s => (.ok (f s).1, (f s).2)

@[simp] theorem pure_apply (a : α) (s : σ) : (pure a : Routine σ ι α) s = (.ok a, s) := rfl

variable (x : Routine σ ι α)

@[simp] theorem bind_apply (f : α → Routine σ ι β) (s : σ) : (x >>= f) s = andThen f (x s) := rfl

@[simp] theorem get_apply (s : σ) : (get : Routine σ ι σ) s = (.ok s, s) := rfl

@[simp] theorem modify_apply (f : σ → σ) (s : σ) :
    (modify f : Routine σ ι Unit) s = (.ok (), f s) := rfl

@[simp] theorem fail_apply (error : ι) (s : σ) :
    (fail error : Routine σ ι α) s = (.error error, s) := rfl

@[simp] theorem lift_apply (result : Except ι α) (s : σ) :
    (lift result : Routine σ ι α) s = (result, s) := rfl

@[simp] theorem attempt_apply (s : σ) : attempt x s = (.ok (x s).1, (x s).2) := rfl

@[simp] theorem apply_apply (f : σ → α × σ) (s : σ) :
    (apply f : Routine σ ι α) s = (.ok (f s).1, (f s).2) := rfl

variable (f : α → Routine σ ι β)

@[simp] theorem andThen_ok (a : α) (s : σ) : andThen f (.ok a, s) = f a s := rfl

@[simp] theorem andThen_error (error : ι) (s : σ) :
    andThen f (.error error, s) = (.error error, s) := rfl

variable {x : Routine σ ι α} {f : α → Routine σ ι β} {s s' : σ}

/-- A sequence that returned went through both of its parts. -/
theorem bind_ok {b : β} (h : (x >>= f) s = (.ok b, s')) :
    ∃ a s₁, x s = (.ok a, s₁) ∧ f a s₁ = (.ok b, s') := by
  rw [bind_apply] at h
  rcases hx : x s with ⟨result, s₁⟩
  rw [hx] at h
  cases result with
  | ok a => exact ⟨a, s₁, rfl, h⟩
  | error error => cases h

theorem pure_ok {a b : α} (h : (pure a : Routine σ ι α) s = (.ok b, s')) : b = a ∧ s' = s := by
  cases h
  exact ⟨rfl, rfl⟩

theorem modify_ok {f : σ → σ} {result : Unit}
    (h : (modify f : Routine σ ι Unit) s = (.ok result, s')) : s' = f s := by
  cases h
  rfl

theorem attempt_ok {result : Except ι α} (h : attempt x s = (.ok result, s')) :
    x s = (result, s') := by
  cases h
  rfl

/-- A relation between states that holds along sequences of changes. -/
structure Frame (σ : Type) where
  rel : σ → σ → Prop
  refl : ∀ s, rel s s
  trans : ∀ {s₁ s₂ s₃}, rel s₁ s₂ → rel s₂ s₃ → rel s₁ s₃

/-- The routine changes the state as the frame allows, whatever it returns. -/
def Within (F : Frame σ) (x : Routine σ ι α) : Prop := ∀ s, F.rel s (x s).2

namespace Within

variable {F : Frame σ}

theorem pure (a : α) : Within F (Pure.pure a : Routine σ ι α) := fun s => F.refl s

theorem get : Within F (Routine.get : Routine σ ι σ) := fun s => F.refl s

theorem fail (error : ι) : Within F (Routine.fail error : Routine σ ι α) := fun s => F.refl s

theorem lift (result : Except ι α) : Within F (Routine.lift result : Routine σ ι α) :=
  fun s => F.refl s

theorem modify {f : σ → σ} (hf : ∀ s, F.rel s (f s)) :
    Within F (Routine.modify f : Routine σ ι Unit) := hf

theorem apply {f : σ → α × σ} (hf : ∀ s, F.rel s (f s).2) :
    Within F (Routine.apply f : Routine σ ι α) := hf

theorem attempt (hx : Within F x) : Within F (Routine.attempt x) := hx

theorem bind (hx : Within F x) (hf : ∀ a, Within F (f a)) : Within F (x >>= f) := by
  intro s
  have hfirst := hx s
  rw [bind_apply]
  rcases hxs : x s with ⟨result, s₁⟩
  rw [hxs] at hfirst
  cases result with
  | ok a => exact F.trans hfirst (hf a s₁)
  | error error => exact hfirst

/-- A routine that was run changed the state as the frame allows. -/
theorem of_eq (hx : Within F x) {result : Except ι α} (h : x s = (result, s')) : F.rel s s' := by
  have hrel := hx s
  rw [h] at hrel
  exact hrel

end Within

/-- A condition on runs that holds of both parts of a run if it holds of the whole. -/
structure Condition (F : Frame σ) where
  holds : σ → σ → Prop
  split : ∀ {s₁ s₂ s₃}, F.rel s₁ s₂ → F.rel s₂ s₃ → holds s₁ s₃ → holds s₁ s₂ ∧ holds s₂ s₃

/-- Total correctness under a condition on the run: the routine changes the state as the
frame allows, and from a state in `P` it returns a result in `Q` unless its own run
violates the condition. -/
structure Completes {F : Frame σ} (C : Condition F) (P : σ → Prop) (x : Routine σ ι α)
    (Q : α → σ → Prop) : Prop where
  within : Within F x
  ok : ∀ s, P s → C.holds s (x s).2 → ∃ a, (x s).1 = .ok a ∧ Q a (x s).2

namespace Completes

variable {F : Frame σ} {C : Condition F} {P P' : σ → Prop} {Q : α → σ → Prop} {R : β → σ → Prop}

theorem pure {a : α} (h : ∀ s, P s → Q a s) : Completes C P (Pure.pure a : Routine σ ι α) Q :=
  ⟨.pure a, fun s hs _ => ⟨a, rfl, h s hs⟩⟩

theorem get {Q : σ → σ → Prop} (h : ∀ s, P s → Q s s) :
    Completes C P (Routine.get : Routine σ ι σ) Q :=
  ⟨.get, fun s hs _ => ⟨s, rfl, h s hs⟩⟩

theorem modify {f : σ → σ} {Q : Unit → σ → Prop} (hf : ∀ s, F.rel s (f s))
    (h : ∀ s, P s → Q () (f s)) : Completes C P (Routine.modify f : Routine σ ι Unit) Q :=
  ⟨.modify hf, fun s hs _ => ⟨(), rfl, h s hs⟩⟩

/-- A routine that is not reached. -/
theorem unreached (hx : Within F x) (h : ∀ s, ¬P s) : Completes C P x Q :=
  ⟨hx, fun s hs => absurd hs (h s)⟩

theorem bind (hx : Completes C P x Q) (hf : ∀ a, Completes C (Q a) (f a) R) :
    Completes C P (x >>= f) R := by
  refine ⟨.bind hx.within fun a => (hf a).within, fun s hs hholds => ?_⟩
  have hfirst := hx.within s
  have hok := hx.ok s hs
  rw [bind_apply] at hholds ⊢
  rcases hxs : x s with ⟨result, s₁⟩
  rw [hxs] at hfirst hok hholds
  cases result with
  | error error =>
    obtain ⟨a, ha, -⟩ := hok hholds
    cases ha
  | ok a =>
    obtain ⟨hholds₁, hholds₂⟩ := C.split hfirst ((hf a).within s₁) hholds
    obtain ⟨_, ha, hQ⟩ := hok hholds₁
    cases ha
    exact (hf a).ok s₁ hQ hholds₂

theorem attempt (hx : Completes C P x Q) :
    Completes C P (Routine.attempt x) fun result s => ∃ a, result = .ok a ∧ Q a s :=
  ⟨.attempt hx.within, fun s hs hholds => ⟨_, rfl, hx.ok s hs hholds⟩⟩

theorem imp {Q' : α → σ → Prop} (hx : Completes C P x Q) (hP : ∀ s, P' s → P s)
    (hQ : ∀ a s, Q a s → Q' a s) : Completes C P' x Q' := by
  refine ⟨hx.within, fun s hs hholds => ?_⟩
  obtain ⟨a, ha, hQa⟩ := hx.ok s (hP s hs) hholds
  exact ⟨a, ha, hQ a _ hQa⟩

theorem weaken (hx : Completes C P x Q) (hP : ∀ s, P' s → P s) : Completes C P' x Q :=
  hx.imp hP fun _ _ hQ => hQ

/-- The run goes on after success, and a failure of the first part is not reached. -/
theorem attempt_bind {f : Except ι α → Routine σ ι β} (hx : Completes C P x Q)
    (hok : ∀ a, Completes C (Q a) (f (.ok a)) R) (herror : ∀ error, Within F (f (.error error))) :
    Completes C P (Routine.attempt x >>= f) R := by
  refine hx.attempt.bind fun result => ?_
  cases result with
  | ok a =>
    refine (hok a).weaken fun s ⟨_, ha, hs⟩ => ?_
    cases ha
    exact hs
  | error error => exact .unreached (herror error) (by simp)

/-- A fact that has nothing to do with the state. -/
theorem keep (φ : Prop) (hx : Completes C P x Q) :
    Completes C (fun s => P s ∧ φ) x fun a s => Q a s ∧ φ := by
  refine ⟨hx.within, fun s hs hholds => ?_⟩
  obtain ⟨a, ha, hQ⟩ := hx.ok s hs.1 hholds
  exact ⟨a, ha, hQ, hs.2⟩

/-- A fact that has nothing to do with the state may be assumed. -/
theorem given {φ : Prop} (hx : Within F x) (h : φ → Completes C P x Q) :
    Completes C (fun s => P s ∧ φ) x Q :=
  ⟨hx, fun s hs hholds => (h hs.2).ok s hs.1 hholds⟩

end Completes

/-- Total correctness: from a state in `P` the routine returns a result in `Q`. -/
def Returns (P : σ → Prop) (x : Routine σ ι α) (Q : α → σ → Prop) : Prop :=
  ∀ s, P s → ∃ a s', x s = (.ok a, s') ∧ Q a s'

namespace Returns

variable {P : σ → Prop} {Q : α → σ → Prop} {R : β → σ → Prop}

theorem pure {a : α} (h : ∀ s, P s → Q a s) : Returns P (Pure.pure a : Routine σ ι α) Q :=
  fun s hs => ⟨a, s, rfl, h s hs⟩

theorem apply {f : σ → α × σ} (h : ∀ s, P s → Q (f s).1 (f s).2) :
    Returns P (Routine.apply f : Routine σ ι α) Q :=
  fun s hs => ⟨(f s).1, (f s).2, rfl, h s hs⟩

theorem bind (hx : Returns P x Q) (hf : ∀ a, Returns (Q a) (f a) R) : Returns P (x >>= f) R := by
  intro s hs
  obtain ⟨a, s₁, hxs, hQ⟩ := hx s hs
  rw [bind_apply, hxs]
  exact hf a s₁ hQ

theorem imp {P' : σ → Prop} {Q' : α → σ → Prop} (hx : Returns P x Q) (hP : ∀ s, P' s → P s)
    (hQ : ∀ a s, Q a s → Q' a s) : Returns P' x Q' := by
  intro s hs
  obtain ⟨a, s₁, hxs, hQa⟩ := hx s (hP s hs)
  exact ⟨a, s₁, hxs, hQ a s₁ hQa⟩

/-- A fact that has nothing to do with the state may be assumed. -/
theorem given {φ : Prop} (h : φ → Returns P x Q) : Returns (fun s => P s ∧ φ) x Q :=
  fun s hs => h hs.2 s hs.1

end Returns

end Routine

end MessagingBench
