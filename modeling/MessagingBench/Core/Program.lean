import Mathlib.Data.List.Basic

/-!
# Interactive programs and their contracts

An asynchronous routine is a tree: it finishes, records an observation, draws randomness, or
waits for a list of calls that the environment answers together. While it waits, it exposes
its private state and everything else may run. A contract states what it guarantees and what
it may rely on; that it is kept is proved by walking down the tree.
-/

namespace MessagingBench

/-- The private state, calls, call failures, replies and observations of a program. -/
structure Signature where
  State : Type
  Call : Type
  Failure : Type
  Reply : Type
  Event : Type

/-- The shared record of a run: observations in order and the number of random draws. -/
structure Log (ε : Type) where
  events : List ε
  draws : Nat

namespace Log

variable {ε : Type}

def empty : Log ε := ⟨[], 0⟩

def record (log : Log ε) (event : ε) : Log ε := { log with events := log.events ++ [event] }

def advance (log : Log ε) : Log ε := { log with draws := log.draws + 1 }

variable (log : Log ε)

@[simp] theorem events_record (event : ε) : (log.record event).events = log.events ++ [event] := rfl

@[simp] theorem draws_record (event : ε) : (log.record event).draws = log.draws := rfl

@[simp] theorem events_advance : log.advance.events = log.events := rfl

@[simp] theorem draws_advance : log.advance.draws = log.draws + 1 := rfl

end Log

inductive Program (S : Signature) (α : Type) : Type
  | done (result : α)
  | note (event : S.Event) (next : Program S α)
  | draw (next : Nat → Program S α)
  | await (state : S.State) (calls : List S.Call)
      (next : Except S.Failure (List S.Reply) → Program S α)

namespace Program

variable {S : Signature} {α β : Type}

def bind : Program S α → (α → Program S β) → Program S β
  | .done result, f => f result
  | .note event next, f => .note event (next.bind f)
  | .draw next, f => .draw fun n => (next n).bind f
  | .await state calls next, f => .await state calls fun replies => (next replies).bind f

/-- Run the program up to the point where it has finished or waits for some call; a
join of no calls is answered at once. -/
def settle : Program S α → Log S.Event → Program S α × Log S.Event
  | .done result, log => (.done result, log)
  | .note event next, log => next.settle (log.record event)
  | .draw next, log => (next log.draws).settle log.advance
  | .await _ [] next, log => (next (.ok [])).settle log
  | .await state (call :: calls) next, log => (.await state (call :: calls) next, log)

/-- Running a program keeps what was recorded. -/
theorem mem_settle {p : Program S α} {log : Log S.Event} {event : S.Event}
    (h : event ∈ log.events) : event ∈ (p.settle log).2.events := by
  induction p generalizing log with
  | done result => exact h
  | note event' next ih => exact ih (List.mem_append_left _ h)
  | draw next ih => exact ih log.draws h
  | await state calls next ih =>
    cases calls with
    | nil => exact ih (.ok []) h
    | cons call calls => exact h

end Program

/-- What a program guarantees and what it may rely on. -/
structure Contract (S : Signature) where
  /-- Holds of the record at every point. -/
  inv : Log S.Event → Prop
  /-- How the record may change while the program waits. -/
  rely : Log S.Event → Log S.Event → Prop
  /-- The calls the program may issue in a state. -/
  issue : Log S.Event → S.State → List S.Call → Prop
  /-- The observations the program may record. -/
  emit : Log S.Event → S.Event → Prop
  /-- What is known when the calls are answered. -/
  answer : Log S.Event → List S.Call → Except S.Failure (List S.Reply) → Prop
  rely_refl : ∀ log, rely log log
  rely_trans : ∀ {log₁ log₂ log₃}, rely log₁ log₂ → rely log₂ log₃ → rely log₁ log₃
  inv_emit : ∀ {log event}, inv log → emit log event → inv (log.record event)
  inv_draw : ∀ {log}, inv log → inv log.advance
  answer_nil : ∀ log, answer log [] (.ok [])

namespace Program

variable {S : Signature} {α β : Type} (C : Contract S)

/-- The program keeps the contract from the given record on and ends in `post`. -/
def Sat (post : Log S.Event → α → Prop) : Program S α → Log S.Event → Prop
  | .done result, log => post log result
  | .note event next, log => C.emit log event ∧ next.Sat post (log.record event)
  | .draw next, log => (next log.draws).Sat post log.advance
  | .await state calls next, log => C.issue log state calls ∧
      ∀ log', C.rely log log' → C.inv log' → ∀ replies, C.answer log' calls replies →
        (next replies).Sat post log'

variable {C} {p : Program S α} {log : Log S.Event}

/-- Walking down a sequence of two programs. -/
theorem sat_bind {f : α → Program S β} {post : Log S.Event → β → Prop} : (p.bind f).Sat C post log ↔
      p.Sat C (fun log' a => (f a).Sat C post log') log := by
  induction p generalizing log with
  | done result => exact Iff.rfl
  | note event next ih =>
    unfold bind Sat
    exact and_congr_right fun _ => ih
  | draw next ih =>
    unfold bind Sat
    exact ih log.draws
  | await state calls next ih =>
    unfold bind Sat
    refine and_congr_right fun _ => forall_congr' fun log' => ?_
    refine imp_congr_right fun _ => imp_congr_right fun _ => ?_
    exact forall_congr' fun replies => imp_congr_right fun _ => ih replies

/-- A stronger end condition. -/
theorem Sat.imp {post post' : Log S.Event → α → Prop}
    (h : p.Sat C post log) (himp : ∀ log a, post log a → post' log a) : p.Sat C post' log := by
  induction p generalizing log with
  | done result => exact himp log result h
  | note event next ih => exact ⟨h.1, ih h.2⟩
  | draw next ih => exact ih log.draws h
  | await state calls next ih =>
    exact ⟨h.1, fun log' hrely hinv replies hans => ih replies (h.2 log' hrely hinv replies hans)⟩

variable (C) in
/-- The program has finished in `post`, or waits and keeps the contract once resumed. -/
def Ready (post : Log S.Event → α → Prop) : Program S α → Log S.Event → Prop
  | .done result, log => post log result
  | .await _ calls next, log => ∀ log', C.rely log log' → C.inv log' → ∀ replies,
      C.answer log' calls replies → (next replies).Sat C post log'
  | _, _ => False

/-- A waiting program stays ready while the environment acts. -/
theorem Ready.mono {post : Log S.Event → α → Prop} {log' : Log S.Event} (h : p.Ready C post log)
    (hrely : C.rely log log') (hpost : ∀ a, post log a → post log' a) : p.Ready C post log' := by
  cases p with
  | done result => exact hpost result h
  | note event next => exact h
  | draw next => exact h
  | await state calls next =>
    exact fun log'' hrely' => h log'' (C.rely_trans hrely hrely')

variable (C) in
/-- The calls a waiting program has issued. -/
def Issued (log : Log S.Event) : Program S α → Prop
  | .await state calls _ => C.issue log state calls
  | _ => True

/-- Running to the next waiting point keeps the contract. -/
theorem Sat.settle {post : Log S.Event → α → Prop} (h : p.Sat C post log) (hinv : C.inv log) :
    C.inv (p.settle log).2 ∧ (p.settle log).1.Ready C post (p.settle log).2 ∧
      (p.settle log).1.Issued C (p.settle log).2 := by
  induction p generalizing log with
  | done result => exact ⟨hinv, h, trivial⟩
  | note event next ih => exact ih h.2 (C.inv_emit hinv h.1)
  | draw next ih => exact ih log.draws h (C.inv_draw hinv)
  | await state calls next ih =>
    obtain ⟨hissue, hresume⟩ := h
    cases calls with
    | nil => exact ih (.ok []) (hresume log (C.rely_refl log) hinv _ (C.answer_nil log)) hinv
    | cons call calls => exact ⟨hinv, hresume, hissue⟩

/-- What every allowed observation and every draw preserves is preserved by a whole
run to the next waiting point. -/
theorem Sat.settle_rel {post : Log S.Event → α → Prop} {R : Log S.Event → Prop}
    (hemit : ∀ log event, C.inv log → C.emit log event → R log → R (log.record event))
    (hdraw : ∀ log, R log → R log.advance)
    (h : p.Sat C post log) (hinv : C.inv log) (hR : R log) : R (p.settle log).2 := by
  induction p generalizing log with
  | done result => exact hR
  | note event next ih => exact ih h.2 (C.inv_emit hinv h.1) (hemit log event hinv h.1 hR)
  | draw next ih => exact ih log.draws h (C.inv_draw hinv) (hdraw log hR)
  | await state calls next ih =>
    obtain ⟨_, hresume⟩ := h
    cases calls with
    | nil => exact ih (.ok []) (hresume log (C.rely_refl log) hinv _ (C.answer_nil log)) hinv hR
    | cons call calls => exact hR

end Program

/-- A routine that reads and changes private state and may fail with a message; its
changes persist when it fails. -/
def Work (S : Signature) (α : Type) : Type := S.State → Program S (Except String α × S.State)

namespace Work

variable {S : Signature} {α β : Type}

/-- Continue after success, stop with the message after failure. -/
def andThen (f : α → Work S β) : Except String α × S.State → Program S (Except String β × S.State)
  | (.ok a, s) => f a s
  | (.error message, s) => .done (.error message, s)

instance : Monad (Work S) where
  pure a := fun s => .done (.ok a, s)
  bind x f := fun s => (x s).bind (andThen f)

def get : Work S S.State := fun s => .done (.ok s, s)

def set (s : S.State) : Work S Unit := fun _ => .done (.ok (), s)

def fail (message : String) : Work S α := fun s => .done (.error message, s)

/-- A result of pure code, where an error is passed on. -/
def lift (result : Except String α) : Work S α := fun s => .done (result, s)

/-- Run a routine and inspect its failure instead of passing it on. -/
def attempt (x : Work S α) : Work S (Except String α) :=
  fun s => (x s).bind fun r => .done (.ok r.1, r.2)

def note (event : S.Event) : Work S Unit := fun s => .note event (.done (.ok (), s))

def draw : Work S Nat := fun s => .draw fun n => .done (.ok n, s)

/-- Issue calls together and wait until all have succeeded or one has failed. -/
def awaitAll (calls : List S.Call) : Work S (Except S.Failure (List S.Reply)) :=
  fun s => .await s calls fun replies => .done (.ok replies, s)

variable (C : Contract S)

/-- The routine keeps the contract when started in the given state and record. -/
def Sat (x : Work S α) (post : Log S.Event → Except String α → S.State → Prop) (s : S.State)
    (log : Log S.Event) : Prop :=
  (x s).Sat C (fun log' r => post log' r.1 r.2) log

variable {C} {post : Log S.Event → Except String α → S.State → Prop} {s : S.State}
  {log : Log S.Event} {x : Work S α}

@[simp] theorem sat_pure {a : α} : (pure a : Work S α).Sat C post s log ↔ post log (.ok a) s :=
  Iff.rfl

@[simp] theorem sat_fail {message : String} :
    (fail message : Work S α).Sat C post s log ↔ post log (.error message) s := Iff.rfl

@[simp] theorem sat_lift {result : Except String α} :
    (lift result : Work S α).Sat C post s log ↔ post log result s := Iff.rfl

@[simp] theorem sat_get {post : Log S.Event → Except String S.State → S.State → Prop} :
    (get : Work S S.State).Sat C post s log ↔ post log (.ok s) s := Iff.rfl

@[simp] theorem sat_set {s' : S.State} {post : Log S.Event → Except String Unit → S.State → Prop} :
    (set s' : Work S Unit).Sat C post s log ↔ post log (.ok ()) s' := Iff.rfl

@[simp] theorem sat_note {event : S.Event}
    {post : Log S.Event → Except String Unit → S.State → Prop} :
    (note event : Work S Unit).Sat C post s log ↔
      C.emit log event ∧ post (log.record event) (.ok ()) s := Iff.rfl

@[simp] theorem sat_draw {post : Log S.Event → Except String Nat → S.State → Prop} :
    (draw : Work S Nat).Sat C post s log ↔ post log.advance (.ok log.draws) s := Iff.rfl

@[simp] theorem sat_awaitAll {calls : List S.Call}
    {post : Log S.Event → Except String (Except S.Failure (List S.Reply)) → S.State → Prop} :
    (awaitAll calls : Work S _).Sat C post s log ↔ C.issue log s calls ∧
      ∀ log', C.rely log log' → C.inv log' → ∀ replies, C.answer log' calls replies →
        post log' (.ok replies) s := Iff.rfl

@[simp] theorem sat_bind {f : α → Work S β}
    {post : Log S.Event → Except String β → S.State → Prop} :
    (x >>= f).Sat C post s log ↔ x.Sat C (fun log' r s' =>
      match r with
      | .ok a => (f a).Sat C post s' log'
      | .error message => post log' (.error message) s') s log := by
  unfold Sat
  refine Program.sat_bind.trans (iff_of_eq (congrArg (Program.Sat C · (x s) log) ?_))
  funext log' r
  obtain ⟨result, s'⟩ := r
  cases result <;> rfl

@[simp] theorem sat_attempt
    {post : Log S.Event → Except String (Except String α) → S.State → Prop} :
    (attempt x).Sat C post s log ↔ x.Sat C (fun log' r s' => post log' (.ok r) s') s log :=
  Program.sat_bind

theorem Sat.imp (h : x.Sat C post s log) {post' : Log S.Event → Except String α → S.State → Prop}
    (himp : ∀ log r s, post log r s → post' log r s) : x.Sat C post' s log :=
  Program.Sat.imp h fun log r hr => himp log r.1 r.2 hr

end Work

end MessagingBench
