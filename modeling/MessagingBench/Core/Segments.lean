import MessagingBench.Core.Program

/-!
# Segments of interactive programs

While a program waits, its private state is shown; between two such points it runs
alone. A segment is the piece from one shown state to the next, and what resumes it
is the outcome of the calls the program waited for. A relation between the two states
of every segment is a statement about every step of the program that needs no record
of the run.
-/

namespace MessagingBench

/-- What a segment starts with: the beginning of the program, or calls and their outcome. -/
abbrev Resumption (S : Signature) : Type :=
  Option (List S.Call × Except S.Failure (List S.Reply))

namespace Program

variable {S : Signature} {α β : Type}
  (rel : Resumption S → S.State → S.State → Prop)

/-- Every segment that ends in a waiting point keeps `rel`, the last one ends in `post`.
A join of no calls is no waiting point. -/
def Segments (post : Resumption S → S.State → α → Prop) :
    Program S α → Resumption S → S.State → Prop
  | .done result, entry, shown => post entry shown result
  | .note _ next, entry, shown => next.Segments post entry shown
  | .draw next, entry, shown => ∀ n, (next n).Segments post entry shown
  | .await _ [] next, entry, shown => (next (.ok [])).Segments post entry shown
  | .await state (call :: calls) next, entry, shown => rel entry shown state ∧
      ∀ replies, (next replies).Segments post (some (call :: calls, replies)) state

/-- A program that has come to wait or has ended, with the segment that led there. -/
def Paused (post : Resumption S → S.State → α → Prop) (entry : Resumption S) (shown : S.State) :
    Program S α → Prop
  | .done result => post entry shown result
  | .await state calls next => rel entry shown state ∧
      ∀ replies, (next replies).Segments rel post (some (calls, replies)) state
  | _ => False

variable {rel} {post : Resumption S → S.State → α → Prop} {entry : Resumption S} {shown : S.State}
  {p : Program S α}

theorem segments_bind {f : α → Program S β}
    {post : Resumption S → S.State → β → Prop} : (p.bind f).Segments rel post entry shown ↔
      p.Segments rel (fun entry shown a => (f a).Segments rel post entry shown) entry shown := by
  induction p generalizing entry shown with
  | done result => exact Iff.rfl
  | note event next ih => exact ih
  | draw next ih => exact forall_congr' fun n => ih n
  | await state calls next ih =>
    cases calls with
    | nil => exact ih (.ok [])
    | cons call calls =>
      exact and_congr_right fun _ => forall_congr' fun replies => ih replies

theorem Segments.imp {post' : Resumption S → S.State → α → Prop}
    (h : p.Segments rel post entry shown)
    (himp : ∀ entry shown a, post entry shown a → post' entry shown a) :
    p.Segments rel post' entry shown := by
  induction p generalizing entry shown with
  | done result => exact himp entry shown result h
  | note event next ih => exact ih h
  | draw next ih => exact fun n => ih n (h n)
  | await state calls next ih =>
    cases calls with
    | nil => exact ih (.ok []) h
    | cons call calls => exact ⟨h.1, fun replies => ih replies (h.2 replies)⟩

/-- Running to the next waiting point completes one segment. -/
theorem Segments.settle (h : p.Segments rel post entry shown)
    (log : Log S.Event) : (p.settle log).1.Paused rel post entry shown := by
  induction p generalizing log with
  | done result => exact h
  | note event next ih => exact ih h (log.record event)
  | draw next ih => exact ih log.draws (h log.draws) log.advance
  | await state calls next ih =>
    cases calls with
    | nil => exact ih (.ok []) h log
    | cons call calls => exact h

/-- A waiting point of a run: the state that is shown, the calls and how they ended. -/
structure Exchange (S : Signature) where
  shown : S.State
  calls : List S.Call
  outcome : Except S.Failure (List S.Reply)

/-- A run of a program on its own: its waiting points and its result. What it waits for and
what it draws is given by its position in the run. -/
def play (outcomes : Nat → Except S.Failure (List S.Reply)) (draws : Nat → Nat) :
    Program S α → Nat → List (Exchange S) × α
  | .done result, _ => ([], result)
  | .note _ next, n => next.play outcomes draws n
  | .draw next, n => (next (draws n)).play outcomes draws (n + 1)
  | .await _ [] next, n => (next (.ok [])).play outcomes draws n
  | .await state (call :: calls) next, n =>
    (⟨state, call :: calls, outcomes n⟩ :: ((next (outcomes n)).play outcomes draws (n + 1)).1,
      ((next (outcomes n)).play outcomes draws (n + 1)).2)

end Program

namespace Work

variable {S : Signature} {α β : Type} (rel : Resumption S → S.State → S.State → Prop)

/-- The segments of a routine that is started in a state. -/
def Segments (x : Work S α)
    (post : Resumption S → S.State → Except String α → S.State → Prop) (s : S.State)
    (entry : Resumption S) (shown : S.State) : Prop :=
  (x s).Segments rel (fun entry shown r => post entry shown r.1 r.2) entry shown

variable {rel} {post : Resumption S → S.State → Except String α → S.State → Prop} {s : S.State}
  {entry : Resumption S} {shown : S.State} {x : Work S α}

@[simp] theorem segments_pure {a : α} :
    (pure a : Work S α).Segments rel post s entry shown ↔ post entry shown (.ok a) s := Iff.rfl

@[simp] theorem segments_fail {message : String} :
    (fail message : Work S α).Segments rel post s entry shown ↔ post entry shown (.error message) s :=
  Iff.rfl

@[simp] theorem segments_lift {result : Except String α} :
    (lift result : Work S α).Segments rel post s entry shown ↔ post entry shown result s := Iff.rfl

@[simp] theorem segments_get
    {post : Resumption S → S.State → Except String S.State → S.State → Prop} :
    (get : Work S S.State).Segments rel post s entry shown ↔ post entry shown (.ok s) s := Iff.rfl

@[simp] theorem segments_note {event : S.Event}
    {post : Resumption S → S.State → Except String Unit → S.State → Prop} :
    (note event : Work S Unit).Segments rel post s entry shown ↔ post entry shown (.ok ()) s :=
  Iff.rfl

@[simp] theorem segments_draw {post : Resumption S → S.State → Except String Nat → S.State → Prop} :
    (draw : Work S Nat).Segments rel post s entry shown ↔ ∀ n, post entry shown (.ok n) s := Iff.rfl

@[simp] theorem segments_bind {f : α → Work S β}
    {post : Resumption S → S.State → Except String β → S.State → Prop} :
    (x >>= f).Segments rel post s entry shown ↔ x.Segments rel (fun entry shown r s' =>
      match r with
      | .ok a => (f a).Segments rel post s' entry shown
      | .error message => post entry shown (.error message) s') s entry shown := by
  unfold Segments
  refine Program.segments_bind.trans (iff_of_eq ?_)
  refine congrArg (fun q => Program.Segments rel q (x s) entry shown) ?_
  funext entry shown r
  obtain ⟨result, s'⟩ := r
  cases result <;> rfl

@[simp] theorem segments_attempt
    {post : Resumption S → S.State → Except String (Except String α) → S.State → Prop} :
    (attempt x).Segments rel post s entry shown ↔
      x.Segments rel (fun entry shown r s' => post entry shown (.ok r) s') s entry shown :=
  Program.segments_bind

theorem segments_awaitAll {call : S.Call} {calls : List S.Call}
    {post : Resumption S → S.State → Except String (Except S.Failure (List S.Reply)) → S.State →
      Prop} :
    (awaitAll (call :: calls) : Work S _).Segments rel post s entry shown ↔ rel entry shown s ∧
      ∀ replies, post (some (call :: calls, replies)) s (.ok replies) s := Iff.rfl

theorem Segments.imp (h : x.Segments rel post s entry shown)
    {post' : Resumption S → S.State → Except String α → S.State → Prop}
    (himp : ∀ entry shown r s, post entry shown r s → post' entry shown r s) :
    x.Segments rel post' s entry shown :=
  Program.Segments.imp h fun entry shown r hr => himp entry shown r.1 r.2 hr

end Work

end MessagingBench
