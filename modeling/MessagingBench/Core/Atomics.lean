import Mathlib.Logic.Function.Basic

/-!
# Code on shared cells

A piece of code makes atomic accesses to shared cells of 64 bits; between two accesses other
code may run. A loop around a compare-and-exchange tries until the cell has not changed in
between, and attempts may fail for no reason. Proofs use which accesses a piece of code can
make, and what it ensures if other code changes the cells only in a known way.
-/

namespace MessagingBench

variable {κ α β : Type}

/-- The number of values of a cell of 64 bits. -/
def wordSize : Nat := 18446744073709551616

/-- An access to a cell; the reply is the value before the access. -/
inductive Access (κ : Type)
  | load (cell : κ)
  | store (cell : κ) (value : Nat)
  | swap (cell : κ) (value : Nat)
  | fetchAdd (cell : κ) (value : Nat)
  | fetchSub (cell : κ) (value : Nat)
  | compareExchange (cell : κ) (current new : Nat)

variable {memory : κ → Nat}

namespace Access

def cell : Access κ → κ
  | load cell | store cell _ | swap cell _ | fetchAdd cell _ | fetchSub cell _
  | compareExchange cell _ _ => cell

/-- What the access makes of the value of its cell. -/
def written : Access κ → Nat → Nat
  | load _, old => old
  | store _ value, _ => value
  | swap _ value, _ => value
  | fetchAdd _ value, old => (old + value) % wordSize
  | fetchSub _ value, old => (old + (wordSize - value % wordSize)) % wordSize
  | compareExchange _ current new, old => if old = current then new else old

variable [DecidableEq κ]

def effect (access : Access κ) (memory : κ → Nat) : κ → Nat :=
  Function.update memory access.cell (access.written (memory access.cell))

theorem effect_of_ne {access : Access κ} {cell : κ} (h : cell ≠ access.cell) :
    access.effect memory cell = memory cell := Function.update_of_ne h _ _

theorem effect_cell (access : Access κ) (memory : κ → Nat) :
    access.effect memory access.cell = access.written (memory access.cell) :=
  Function.update_self ..

@[simp] theorem effect_load (cell : κ) (memory : κ → Nat) : (load cell).effect memory = memory :=
  Function.update_eq_self ..

end Access

/-- Code that ends with a result. In a loop the last observed value is kept; the update has
nothing to write if the loop is left without one. -/
inductive Code (κ α : Type)
  | done (result : α)
  | access (access : Access κ) (next : Nat → Code κ α)
  | retry (cell : κ) (update : Nat → Option Nat) (observed : Option Nat) (next : Code κ α)

namespace Code

def bind : Code κ α → (α → Code κ β) → Code κ β
  | done result, f => f result
  | access a next, f => access a fun reply => (next reply).bind f
  | retry cell update observed next, f => retry cell update observed (next.bind f)

instance : Monad (Code κ) where
  pure := done
  bind := bind

def load (cell : κ) : Code κ Nat := access (.load cell) done

def store (cell : κ) (value : Nat) : Code κ Unit := access (.store cell value) fun _ => done ()

def swap (cell : κ) (value : Nat) : Code κ Nat := access (.swap cell value) done

def fetchAdd (cell : κ) (value : Nat) : Code κ Nat := access (.fetchAdd cell value) done

def fetchSub (cell : κ) (value : Nat) : Code κ Nat := access (.fetchSub cell value) done

/-- Whether the exchange took place. -/
def compareExchange (cell : κ) (current new : Nat) : Code κ Bool :=
  access (.compareExchange cell current new) fun old => done (decide (old = current))

/-- A loop around a weak compare-and-exchange. -/
def fetchUpdate (cell : κ) (update : Nat → Option Nat) : Code κ Unit :=
  retry cell update none (done ())

section Steps

variable [DecidableEq κ]

/-- One step; an attempt to exchange may fail although the cell has not changed. -/
def step (spurious : Bool) : Code κ α → (κ → Nat) → Code κ α × (κ → Nat)
  | done result, memory => (done result, memory)
  | access a next, memory => (next (memory a.cell), a.effect memory)
  | retry cell update none next, memory => (retry cell update (some (memory cell)) next, memory)
  | retry cell update (some observed) next, memory =>
    match update observed with
    | none => (next, memory)
    | some value =>
      if memory cell = observed ∧ spurious = false then (next, Function.update memory cell value)
      else (retry cell update (some (memory cell)) next, memory)

/-- A step of a loop tries again, leaves the loop, or writes what there is to write for the
value of the cell. -/
theorem step_retry (spurious : Bool) (cell : κ) (update : Nat → Option Nat)
    (observed : Option Nat) (next : Code κ α) (memory : κ → Nat) :
    (∃ observed', (retry cell update observed next).step spurious memory =
      (retry cell update observed' next, memory)) ∨
    (retry cell update observed next).step spurious memory = (next, memory) ∨
    ∃ value, update (memory cell) = some value ∧
      (retry cell update observed next).step spurious memory =
        (next, Function.update memory cell value) := by
  cases observed with
  | none => exact .inl ⟨some (memory cell), rfl⟩
  | some observed =>
    rw [step]
    cases hupdate : update observed with
    | none => exact .inr (.inl rfl)
    | some value =>
      by_cases hcell : memory cell = observed ∧ spurious = false
      · exact .inr (.inr ⟨value, by rw [hcell.1, hupdate], if_pos hcell⟩)
      · exact .inl ⟨some (memory cell), if_neg hcell⟩

/-- The code without interruption. -/
def run : Code κ α → (κ → Nat) → α × (κ → Nat)
  | done result, memory => (result, memory)
  | access a next, memory => (next (memory a.cell)).run (a.effect memory)
  | retry cell update _ next, memory =>
    match update (memory cell) with
    | none => next.run memory
    | some value => next.run (Function.update memory cell value)

@[simp] theorem run_pure (result : α) (memory : κ → Nat) :
    (pure result : Code κ α).run memory = (result, memory) := rfl

@[simp] theorem run_bind (code : Code κ α) (f : α → Code κ β) (memory : κ → Nat) :
    (code >>= f).run memory = (f (code.run memory).1).run (code.run memory).2 := by
  change (code.bind f).run memory = _
  induction code generalizing memory with
  | done result => rfl
  | access a next ih => exact ih _ _
  | retry cell update observed next ih =>
    simp only [bind, run]
    split
    · exact ih _
    · exact ih _

@[simp] theorem run_load (cell : κ) (memory : κ → Nat) :
    (load cell).run memory = (memory cell, memory) :=
  congrArg (memory cell, ·) (Access.effect_load cell memory)

@[simp] theorem run_store (cell : κ) (value : Nat) (memory : κ → Nat) :
    (store cell value).run memory = ((), Function.update memory cell value) := rfl

@[simp] theorem run_fetchAdd (cell : κ) (value : Nat) (memory : κ → Nat) :
    (fetchAdd cell value).run memory =
      (memory cell, Function.update memory cell ((memory cell + value) % wordSize)) := rfl

@[simp] theorem run_fetchSub (cell : κ) (value : Nat) (memory : κ → Nat) :
    (fetchSub cell value).run memory = (memory cell,
      Function.update memory cell
        ((memory cell + (wordSize - value % wordSize)) % wordSize)) := rfl

@[simp] theorem run_compareExchange (cell : κ) (current new : Nat) (memory : κ → Nat) :
    (compareExchange cell current new).run memory = (decide (memory cell = current),
      Function.update memory cell (if memory cell = current then new else memory cell)) := rfl

theorem run_fetchUpdate (cell : κ) (update : Nat → Option Nat) (memory : κ → Nat) :
    (fetchUpdate cell update).run memory =
      ((), Function.update memory cell ((update (memory cell)).getD (memory cell))) := by
  simp only [fetchUpdate, run]
  cases update (memory cell) with
  | none => exact congrArg ((), ·) (Function.update_eq_self ..).symm
  | some value => rfl

end Steps

variable {code : Code κ α}

section Only

variable {allowed : Access κ → Prop} {updates : κ → (Nat → Option Nat) → Prop}
  {results : α → Prop}

/-- All accesses, loops and results of the code are of the given kinds, whatever the replies
are. -/
def Only (allowed : Access κ → Prop) (updates : κ → (Nat → Option Nat) → Prop)
    (results : α → Prop) : Code κ α → Prop
  | done result => results result
  | access a next => allowed a ∧ ∀ reply, (next reply).Only allowed updates results
  | retry cell update _ next => updates cell update ∧ next.Only allowed updates results

theorem only_bind {f : α → Code κ β} {results' : β → Prop}
    (hcode : code.Only allowed updates results)
    (hf : ∀ result, results result → (f result).Only allowed updates results') :
    (code.bind f).Only allowed updates results' := by
  induction code with
  | done result => exact hf result hcode
  | access a next ih => exact ⟨hcode.1, fun reply => ih reply (hcode.2 reply)⟩
  | retry cell update observed next ih => exact ⟨hcode.1, ih hcode.2⟩

theorem only_ite {p : Prop} [Decidable p] {code code' : Code κ α}
    (hcode : code.Only allowed updates results) (hcode' : code'.Only allowed updates results) :
    (if p then code else code').Only allowed updates results := by
  split
  · exact hcode
  · exact hcode'

variable [DecidableEq κ]

theorem only_step (h : code.Only allowed updates results) (spurious : Bool) (memory : κ → Nat) :
    (code.step spurious memory).1.Only allowed updates results := by
  cases code with
  | done result => exact h
  | access a next => exact h.2 _
  | retry cell update observed next =>
    rcases step_retry spurious cell update observed next memory with
      ⟨observed', heq⟩ | heq | ⟨value, -, heq⟩
    · rw [heq]
      exact h
    · rw [heq]
      exact h.2
    · rw [heq]
      exact h.2

theorem only_step_keeps (h : code.Only allowed updates results) (rel : (κ → Nat) → (κ → Nat) → Prop)
    (hrefl : ∀ memory, rel memory memory)
    (haccess : ∀ a, allowed a → ∀ memory, rel memory (a.effect memory))
    (hupdate : ∀ cell update, updates cell update → ∀ memory value,
      update (memory cell) = some value → rel memory (Function.update memory cell value))
    (spurious : Bool) (memory : κ → Nat) : rel memory (code.step spurious memory).2 := by
  cases code with
  | done result => exact hrefl memory
  | access a next => exact haccess a h.1 memory
  | retry cell update observed next =>
    rcases step_retry spurious cell update observed next memory with
      ⟨observed', heq⟩ | heq | ⟨value, hvalue, heq⟩
    · rw [heq]
      exact hrefl memory
    · rw [heq]
      exact hrefl memory
    · rw [heq]
      exact hupdate cell update h.1 memory value hvalue

end Only

section Ensures

variable [DecidableEq κ] {rely : (κ → Nat) → (κ → Nat) → Prop} {post : α → (κ → Nat) → Prop}

/-- If other code changes the memory only as described, then the code ends as stated. -/
def Ensures (rely : (κ → Nat) → (κ → Nat) → Prop) (post : α → (κ → Nat) → Prop) :
    Code κ α → (κ → Nat) → Prop
  | done result, memory => ∀ memory', rely memory memory' → post result memory'
  | access a next, memory => ∀ memory', rely memory memory' →
      (next (memory' a.cell)).Ensures rely post (a.effect memory')
  | retry cell update _ next, memory => ∀ memory', rely memory memory' →
      next.Ensures rely post memory' ∧ ∀ value, update (memory' cell) = some value →
        next.Ensures rely post (Function.update memory' cell value)

theorem Ensures.of_rely {memory memory' : κ → Nat} (h : code.Ensures rely post memory)
    (hrely : rely memory memory') (htrans : ∀ m₁ m₂ m₃, rely m₁ m₂ → rely m₂ m₃ → rely m₁ m₃) :
    code.Ensures rely post memory' := by
  cases code with
  | done result | access a next | retry cell update observed next =>
    exact fun m hm => h m (htrans _ _ _ hrely hm)

theorem Ensures.step (hrefl : ∀ memory, rely memory memory) (h : code.Ensures rely post memory)
    (spurious : Bool) :
    (code.step spurious memory).1.Ensures rely post (code.step spurious memory).2 := by
  cases code with
  | done result => exact h
  | access a next => exact h memory (hrefl memory)
  | retry cell update observed next =>
    rcases step_retry spurious cell update observed next memory with
      ⟨observed', heq⟩ | heq | ⟨value, hvalue, heq⟩
    · rw [heq]
      exact h
    · rw [heq]
      exact (h memory (hrefl memory)).1
    · rw [heq]
      exact (h memory (hrefl memory)).2 value hvalue

theorem Ensures.result (hrefl : ∀ memory, rely memory memory) {result : α}
    (h : (done result : Code κ α).Ensures rely post memory) : post result memory :=
  h memory (hrefl memory)

theorem ensures_load {cell : κ} {next : Nat → Code κ α}
    (h : ∀ memory', rely memory memory' → (next (memory' cell)).Ensures rely post memory') :
    (access (.load cell) next).Ensures rely post memory := by
  intro m hm
  rw [Access.effect_load]
  exact h m hm

theorem Ensures.mono {post' : α → (κ → Nat) → Prop} (h : code.Ensures rely post memory)
    (hpost : ∀ result memory, post result memory →
      post' result memory) : code.Ensures rely post' memory := by
  induction code generalizing memory with
  | done result => exact fun m hm => hpost result m (h m hm)
  | access a next ih => exact fun m hm => ih _ (h m hm)
  | retry cell update observed next ih =>
    exact fun m hm => ⟨ih (h m hm).1, fun value hvalue => ih ((h m hm).2 value hvalue)⟩

theorem Ensures.bind {f : α → Code κ β} {post : β → (κ → Nat) → Prop}
    (h : code.Ensures rely (fun result memory => (f result).Ensures rely post memory) memory)
    (hrefl : ∀ memory, rely memory memory) : (code.bind f).Ensures rely post memory := by
  induction code generalizing memory with
  | done result => exact h memory (hrefl memory)
  | access a next ih => exact fun m hm => ih _ (h m hm)
  | retry cell update observed next ih =>
    exact fun m hm => ⟨ih (h m hm).1, fun value hvalue => ih ((h m hm).2 value hvalue)⟩

/-- Code that can only make changes that are relied on keeps what is stable under them. -/
theorem ensures_of_only {allowed : Access κ → Prop} {updates : κ → (Nat → Option Nat) → Prop}
    {results : α → Prop} (stable : (κ → Nat) → Prop)
    (hstable : ∀ {memory memory'}, rely memory memory' → stable memory → stable memory')
    (haccess : ∀ a, allowed a → ∀ memory, rely memory (a.effect memory))
    (hupdate : ∀ cell update, updates cell update → ∀ memory value,
      update (memory cell) = some value → rely memory (Function.update memory cell value))
    (h : code.Only allowed updates results) (hm : stable memory) :
    code.Ensures rely (fun _ memory => stable memory) memory := by
  induction code generalizing memory with
  | done result => exact fun m hrely => hstable hrely hm
  | access a next ih =>
    exact fun m hrely => ih _ (h.2 _) (hstable (haccess a h.1 m) (hstable hrely hm))
  | retry cell update observed next ih =>
    refine fun m hrely => ⟨ih h.2 (hstable hrely hm), fun value hvalue => ih h.2 ?_⟩
    exact hstable (hupdate cell update h.1 m value hvalue) (hstable hrely hm)

end Ensures

end Code

end MessagingBench
