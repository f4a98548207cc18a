import MessagingBench.Core.Segments

/-!
# Programs in dialogue with an environment

A program is run against an environment with a state of its own: it answers the calls the
program waits for and supplies what it draws. The dialogue lists the waiting points in
order. What is known about the calls of a program bounds what the environment does
during the dialogue.
-/

namespace MessagingBench

/-- What a program talks to. -/
structure Environment (S : Signature) (σ : Type) where
  answer : List S.Call → σ → Except S.Failure (List S.Reply) × σ
  draw : σ → Nat × σ

/-- A whole run of a program. -/
structure Dialogue (S : Signature) (σ α : Type) where
  exchanges : List (Program.Exchange S)
  result : α
  after : σ

namespace Dialogue

variable {S : Signature} {σ α : Type}

/-- A dialogue that was preceded by other waiting points. -/
def prepend (exchanges : List (Program.Exchange S)) (d : Dialogue S σ α) : Dialogue S σ α :=
  { d with exchanges := exchanges ++ d.exchanges }

@[simp] theorem prepend_nil (d : Dialogue S σ α) : d.prepend [] = d := rfl

@[simp] theorem exchanges_prepend (exchanges : List (Program.Exchange S)) (d : Dialogue S σ α) :
    (d.prepend exchanges).exchanges = exchanges ++ d.exchanges := rfl

/-- A dialogue without waiting points of its own. -/
theorem prepend_end (exchanges : List (Program.Exchange S)) (result : α) (after : σ) :
    (⟨[], result, after⟩ : Dialogue S σ α).prepend exchanges = ⟨exchanges, result, after⟩ := by
  unfold prepend
  rw [List.append_nil]

end Dialogue

namespace Program

variable {S : Signature} {σ α β : Type} (env : Environment S σ)

/-- Run a program against an environment; a join of no calls is answered at once. -/
def converse : Program S α → σ → Dialogue S σ α
  | .done result, e => ⟨[], result, e⟩
  | .note _ next, e => next.converse e
  | .draw next, e => (next (env.draw e).1).converse (env.draw e).2
  | .await _ [] next, e => (next (.ok [])).converse e
  | .await state (call :: calls) next, e =>
    ((next (env.answer (call :: calls) e).1).converse (env.answer (call :: calls) e).2).prepend
      [⟨state, call :: calls, (env.answer (call :: calls) e).1⟩]

theorem converse_bind (p : Program S α) (f : α → Program S β) (e : σ) :
    (p.bind f).converse env e =
      ((f (p.converse env e).result).converse env (p.converse env e).after).prepend
        (p.converse env e).exchanges := by
  induction p generalizing e with
  | done result => rfl
  | note event next ih => exact ih e
  | draw next ih => exact ih _ _
  | await state calls next ih =>
    cases calls with
    | nil => exact ih _ e
    | cons call calls =>
      simp only [bind, converse, ih]
      rfl

variable {env} {p : Program S α} {P : S.Call → Prop}

/-- What holds between the states of the environment before and after every exchange and
every draw holds between the states before and after the dialogue. -/
theorem converse_rel {R : σ → σ → Prop} (hrefl : ∀ e, R e e)
    (htrans : ∀ {e₁ e₂ e₃}, R e₁ e₂ → R e₂ e₃ → R e₁ e₃) (hdraw : ∀ e, R e (env.draw e).2)
    {P : List S.Call → Prop} (hanswer : ∀ calls e, P calls → R e (env.answer calls e).2) {e : σ}
    (hcalls : ∀ x ∈ (p.converse env e).exchanges, P x.calls) : R e (p.converse env e).after := by
  induction p generalizing e with
  | done result => exact hrefl e
  | note event next ih => exact ih hcalls
  | draw next ih => exact htrans (hdraw e) (ih _ hcalls)
  | await state calls next ih =>
    cases calls with
    | nil => exact ih _ hcalls
    | cons call calls =>
      have hfirst := hcalls ⟨state, call :: calls, (env.answer (call :: calls) e).1⟩
        List.mem_cons_self
      exact htrans (hanswer _ e hfirst) (ih _ fun x hx => hcalls x (List.mem_cons_of_mem _ hx))

/-- All calls the program may ever issue are of a kind. -/
def Issues (P : S.Call → Prop) : Program S α → Prop
  | .done _ => True
  | .note _ next => next.Issues P
  | .draw next => ∀ n, (next n).Issues P
  | .await _ calls next => (∀ call ∈ calls, P call) ∧ ∀ replies, (next replies).Issues P

theorem Issues.bind {f : α → Program S β}
    (hp : p.Issues P) (hf : ∀ a, (f a).Issues P) : (p.bind f).Issues P := by
  induction p with
  | done result => exact hf result
  | note event next ih => exact ih hp
  | draw next ih => exact fun n => ih n (hp n)
  | await state calls next ih => exact ⟨hp.1, fun replies => ih replies (hp.2 replies)⟩

theorem Issues.converse (hp : p.Issues P) (env : Environment S σ) (e : σ) :
    ∀ x ∈ (p.converse env e).exchanges, ∀ call ∈ x.calls, P call := by
  induction p generalizing e with
  | done result => exact fun x hx => absurd hx List.not_mem_nil
  | note event next ih => exact ih hp e
  | draw next ih => exact ih _ (hp _) _
  | await state calls next ih =>
    cases calls with
    | nil => exact ih _ (hp.2 _) e
    | cons call calls =>
      intro x hx
      rcases List.mem_cons.mp hx with rfl | hx
      · exact hp.1
      · exact ih _ (hp.2 _) _ x hx

end Program

namespace Work

variable {S : Signature} {σ α β : Type} {env : Environment S σ} {s s₁ : S.State} {e : σ}
  {f : α → Work S β} {x : Work S α}

/-- Run a routine against an environment. -/
def converse (env : Environment S σ) (x : Work S α) (s : S.State) (e : σ) :
    Dialogue S σ (Except String α × S.State) :=
  (x s).converse env e

@[simp] theorem converse_draw :
    (draw : Work S Nat).converse env s e = ⟨[], (.ok (env.draw e).1, s), (env.draw e).2⟩ := rfl

@[simp] theorem converse_awaitAll_cons (call : S.Call) (calls : List S.Call) :
    (awaitAll (call :: calls) : Work S _).converse env s e =
      ⟨[⟨s, call :: calls, (env.answer (call :: calls) e).1⟩],
        (.ok (env.answer (call :: calls) e).1, s), (env.answer (call :: calls) e).2⟩ := rfl

/-- A sequence whose first part succeeds goes on with the second one. -/
theorem converse_bind_ok {a : α} (h : (x.converse env s e).result = (.ok a, s₁)) :
    (x >>= f).converse env s e =
      ((f a).converse env s₁ (x.converse env s e).after).prepend
        (x.converse env s e).exchanges := by
  have hbind := Program.converse_bind env (x s) (andThen f) e
  unfold converse at h
  rw [h] at hbind
  exact hbind

/-- A sequence whose first part fails is over. -/
theorem converse_bind_error {message : String}
    (h : (x.converse env s e).result = (.error message, s₁)) :
    (x >>= f).converse env s e =
      ⟨(x.converse env s e).exchanges, (.error message, s₁), (x.converse env s e).after⟩ := by
  have hbind := Program.converse_bind env (x s) (andThen f) e
  unfold converse at h
  rw [h] at hbind
  exact hbind.trans (Dialogue.prepend_end _ _ _)

theorem converse_attempt (x : Work S α) :
    (attempt x).converse env s e = ⟨(x.converse env s e).exchanges,
      (.ok (x.converse env s e).result.1, (x.converse env s e).result.2),
      (x.converse env s e).after⟩ :=
  (Program.converse_bind env (x s) _ e).trans (Dialogue.prepend_end _ _ _)

section Issues

variable {P : S.Call → Prop}

/-- All calls the routine may ever issue are of a kind. -/
def Issues (P : S.Call → Prop) (x : Work S α) : Prop := ∀ s, (x s).Issues P

namespace Issues

theorem pure (a : α) : Issues P (Pure.pure a : Work S α) := fun _ => trivial

theorem fail (message : String) : Issues P (Work.fail message : Work S α) := fun _ => trivial

theorem lift (result : Except String α) : Issues P (Work.lift result : Work S α) := fun _ => trivial

theorem get : Issues P (Work.get : Work S S.State) := fun _ => trivial

theorem note (event : S.Event) : Issues P (Work.note event : Work S Unit) := fun _ => trivial

theorem draw : Issues P (Work.draw : Work S Nat) := fun _ _ => trivial

theorem awaitAll {calls : List S.Call} (h : ∀ call ∈ calls, P call) :
    Issues P (Work.awaitAll calls : Work S _) := fun _ => ⟨h, fun _ => trivial⟩

variable {x : Work S α}

theorem bind {f : α → Work S β} (hx : Issues P x) (hf : ∀ a, Issues P (f a)) :
    Issues P (x >>= f) := by
  intro s
  refine (hx s).bind fun r => ?_
  obtain ⟨result, s₁⟩ := r
  cases result with
  | ok a => exact hf a s₁
  | error message => trivial

theorem attempt (hx : Issues P x) : Issues P (Work.attempt x) :=
  fun s => (hx s).bind fun _ => trivial

end Issues

end Issues

section Waits

/-- The routine waits at least once, unless it fails. -/
def Waits (env : Environment S σ) (x : Work S α) : Prop :=
  ∀ s e, (x.converse env s e).exchanges ≠ [] ∨
    ∃ message s', (x.converse env s e).result = (.error message, s')

variable {x : Work S α} {f : α → Work S β}

theorem Waits.bind (hx : Waits env x) : Waits env (x >>= f) := by
  intro s e
  rcases hresult : (x.converse env s e).result with ⟨result, s₁⟩
  cases result with
  | error message =>
    rw [converse_bind_error hresult]
    exact .inr ⟨message, s₁, rfl⟩
  | ok a =>
    rw [converse_bind_ok hresult]
    refine Or.inl ?_
    rcases hx s e with hne | ⟨message, s', herror⟩
    · simp [hne]
    · rw [hresult] at herror
      cases herror

theorem waits_bind (hf : ∀ a, Waits env (f a)) : Waits env (x >>= f) := by
  intro s e
  rcases hresult : (x.converse env s e).result with ⟨result, s₁⟩
  cases result with
  | error message =>
    rw [converse_bind_error hresult]
    exact .inr ⟨message, s₁, rfl⟩
  | ok a =>
    rw [converse_bind_ok hresult]
    rcases hf a s₁ (x.converse env s e).after with hne | herror
    · exact .inl (by simp [hne])
    · exact .inr herror

end Waits

end Work

end MessagingBench
