import MessagingBench.Core.Run
import MessagingBench.Heap.Watching

/-!
# Reports of exceeded heap budgets

Allocations, deallocations and operations are interleaved between any two accesses to the
shared cells. An operation during which the live heap exceeds the budget reports it, provided
that no other operation begins before it ends, and that as long as the flag is not raised
allocations have compared the heap with the budget before it falls back or a report begins.
-/

namespace MessagingBench.Heap

open Function Code

section Process

/-- The calls that are not operations. -/
inductive Call
  | alloc (size : Nat)
  | dealloc (size : Nat)
  | setActiveContext (context : HeapBudgetContext)
  | setActiveSpanId (spanId : Option Nat)

def Call.code : Call → Code Cell Unit
  | alloc size => recordAlloc size
  | dealloc size => recordDealloc size
  | setActiveContext context => Heap.setActiveContext context
  | setActiveSpanId spanId => Heap.setActiveSpanId spanId

/-- What a task is doing. A call has started when it has made an access. An operation begins, is
active until its report begins, and ends when its guard is dropped. -/
inductive Task
  | idle
  | calling (call : Call) (started : Bool) (code : Code Cell Unit)
  | beginning (code : Code Cell Bool)
  | active
  | reporting (code : Code Cell (Option HeapBudgetSnapshot))
  | reported (failure : Option HeapBudgetSnapshot)
  | dropping (code : Code Cell Unit)
  | finished

structure Process where
  memory : Memory
  tasks : Nat → Task

inductive Action
  | call (task : Nat) (call : Call)
  | begin (task : Nat)
  | report (task : Nat)
  | drop (task : Nat)
  /-- The task makes one access; an exchange may fail for no reason. -/
  | step (task : Nat) (spurious : Bool)

/-- The task after its code has made a step. -/
def Task.settled : Task → Task
  | .calling _ _ (.done _) => .idle
  | .beginning (.done true) => .active
  | .beginning (.done false) => .finished
  | .reporting (.done failure) => .reported failure
  | .dropping (.done _) => .finished
  | task => task

/-- The task and the memory after a step of the code of the task. -/
def Task.advance (spurious : Bool) (memory : Memory) : Task → Task × Memory
  | .calling call _ code =>
    (Task.settled (.calling call true (code.step spurious memory).1),
      (code.step spurious memory).2)
  | .beginning code =>
    (Task.settled (.beginning (code.step spurious memory).1), (code.step spurious memory).2)
  | .reporting code =>
    (Task.settled (.reporting (code.step spurious memory).1), (code.step spurious memory).2)
  | .dropping code =>
    (Task.settled (.dropping (code.step spurious memory).1), (code.step spurious memory).2)
  | task => (task, memory)

namespace Process

def set (s : Process) (i : Nat) (task : Task) : Process :=
  { s with tasks := update s.tasks i task }

def step (s : Process) : Action → Process
  | .call i call =>
    match s.tasks i with
    | .idle => s.set i (.calling call false call.code)
    | _ => s
  | .begin i =>
    match s.tasks i with
    | .idle => s.set i (.beginning beginOperation)
    | _ => s
  | .report i =>
    match s.tasks i with
    | .active => s.set i (.reporting failureIfExceeded)
    | _ => s
  | .drop i =>
    match s.tasks i with
    | .active => s.set i (.dropping dropOperation)
    | .reported _ => s.set i (.dropping dropOperation)
    | _ => s
  | .step i spurious =>
    { memory := ((s.tasks i).advance spurious s.memory).2
      tasks := update s.tasks i ((s.tasks i).advance spurious s.memory).1 }

/-- What an action can do. -/
inductive Does (s : Process) : Action → Process → Prop
  | nothing (action : Action) : Does s action s
  | call {i : Nat} (call : Call) (h : s.tasks i = .idle) :
      Does s (.call i call) (s.set i (.calling call false call.code))
  | begin {i : Nat} (h : s.tasks i = .idle) :
      Does s (.begin i) (s.set i (.beginning beginOperation))
  | report {i : Nat} (h : s.tasks i = .active) :
      Does s (.report i) (s.set i (.reporting failureIfExceeded))
  | drop {i : Nat} (h : s.tasks i = .active ∨ ∃ failure, s.tasks i = .reported failure) :
      Does s (.drop i) (s.set i (.dropping dropOperation))
  | step (i : Nat) (spurious : Bool) : Does s (.step i spurious)
      ⟨((s.tasks i).advance spurious s.memory).2,
        update s.tasks i ((s.tasks i).advance spurious s.memory).1⟩

theorem does_step (s : Process) (action : Action) : s.Does action (s.step action) := by
  cases action with
  | call i call =>
    simp only [step]
    split
    · rename_i h
      exact .call call h
    · exact .nothing _
  | begin i =>
    simp only [step]
    split
    · rename_i h
      exact .begin h
    · exact .nothing _
  | report i =>
    simp only [step]
    split
    · rename_i h
      exact .report h
    · exact .nothing _
  | drop i =>
    simp only [step]
    split
    · rename_i h
      exact .drop (.inl h)
    · rename_i failure h
      exact .drop (.inr ⟨failure, h⟩)
    · exact .nothing _
  | step i spurious => exact .step i spurious

/-- A process in which some bytes are live when the budget is configured. -/
def start (budgetBytes : Option Nat) (live : Nat) : Process :=
  { memory := ((configureBudget budgetBytes).run (update (fun _ => 0) .currentLiveBytes
      live)).2
    tasks := fun _ => .idle }

end Process

/-- An allocation between its addition to the live bytes and its end. -/
def Task.inFlight : Task → Bool
  | .calling (.alloc _) true _ => true
  | _ => false

/-- An operation from its beginning to the end of its guard. -/
def Task.operating : Task → Bool
  | .beginning _ | .active | .reporting _ | .reported _ | .dropping _ => true
  | _ => false

/-- The heap exceeds the budget and the flag is not raised. -/
abbrev Unnoticed (memory : Memory) : Prop := Excess memory ∧ ¬Raised memory

/-- An operation begins only if no other one is under way. While an excess is not noticed, a
report begins, and the heap falls back to the budget, only if no allocation is in flight. Both
are asked of some of the tasks. -/
def OrderlyAmong (among : Nat → Prop) (s : Process) : Action → Prop
  | .begin _ => ∀ j, among j → (s.tasks j).operating = false
  | .report _ => Unnoticed s.memory → ∀ j, among j → (s.tasks j).inFlight = false
  | .step i spurious => Unnoticed s.memory → ¬Excess (s.step (.step i spurious)).memory →
      ∀ j, among j → (s.tasks j).inFlight = false
  | _ => True

abbrev Orderly : Process → Action → Prop := OrderlyAmong fun _ => True

end Process

section Advancing

variable {budget : Nat} {memory memory' : Memory} {task task' : Task}

/-- What is known of the rest of the code of a call. -/
def Call.Sound (started : Bool) (code : Code Cell Unit) : Call → Prop
  | .alloc size => if started then OnlyHarmless (fun _ => True) code else code = recordAlloc size
  | .dealloc _ => OnlyShrinking code
  | .setActiveContext _ | .setActiveSpanId _ => OnlyHarmless (fun _ => True) code

/-- What is known of the code of a task. -/
def Task.Sound (budget : Nat) (memory : Memory) : Task → Prop
  | .idle | .finished => True
  | .calling call started code => call.Sound started code
  | .beginning code =>
    memory .activeOperationCount = 0 ∧ Before budget code ∨
      memory .activeOperationCount = 1 ∧ 0 < budget ∧ OnlyHarmless (· = true) code
  | .active | .reported _ => memory .activeOperationCount = 1 ∧ 0 < budget
  | .reporting code =>
    memory .activeOperationCount = 1 ∧ 0 < budget ∧ OnlyHarmless (fun _ => True) code
  | .dropping code =>
    memory .activeOperationCount = 1 ∧ code = dropOperation ∨
      memory .activeOperationCount = 0 ∧ OnlyHarmless (fun _ => True) code

/-- The code of the task is about to raise the flag. -/
def Task.Flagging (memory : Memory) : Task → Prop
  | .calling (.alloc _) true code => code.Ensures Rely (fun _ m => Raised m) memory
  | .beginning code => code.Ensures Rely (fun _ m => Raised m) memory
  | _ => False

/-- The excess of the heap is of interest to the task. -/
def Task.watching : Task → Bool
  | .beginning _ | .active => true
  | _ => false

theorem Task.Flagging.of_rely (h : task.Flagging memory) (hrely : Rely memory memory') :
    task.Flagging memory' := by
  unfold Task.Flagging at *
  split at h
  · exact Ensures.of_rely h hrely fun _ _ _ h₁ h₂ => h₁.trans h₂
  · exact Ensures.of_rely h hrely fun _ _ _ h₁ h₂ => h₁.trans h₂
  · exact h.elim

theorem Task.Sound.congr (h : task.Sound budget memory) (hactive : task.operating = true →
    memory' .activeOperationCount = memory .activeOperationCount) :
    task.Sound budget memory' := by
  cases task with
  | idle => trivial
  | finished => trivial
  | calling call started code => exact h
  | _ =>
    unfold Task.Sound
    rw [hactive rfl]
    exact h

/-- What a step of one task does to it and to the memory. -/
structure Advances (budget : Nat) (task : Task) (memory : Memory) (task' : Task)
    (memory' : Memory) : Prop where
  budget_eq : memory' .budgetBytes = memory .budgetBytes
  sound : task'.Sound budget memory'
  operating : task'.operating = true → task.operating = true
  watching : task'.watching = true → task.watching = true
  /-- A task that is not an operation does not count operations and does not lower the flag. -/
  aside : task.operating = false → memory' .activeOperationCount = memory .activeOperationCount ∧
    (Raised memory → Raised memory') ∧ (Excess memory' → (Excess memory → Rely memory memory') ∧
      (Watched memory' → Excess memory ∨ task'.Flagging memory'))
  /-- An operation that ends is no longer counted. -/
  ended : task.operating = true → task'.operating = false → memory' .activeOperationCount = 0
  /-- While an operation is counted its own steps change nothing that matters to others. -/
  counted : task.operating = true → memory' .activeOperationCount = 1 →
    Undisturbed memory memory' ∨ (Watched memory' → task'.Flagging memory')
  flagging : task.Flagging memory → task'.Flagging memory' ∨ Raised memory'

abbrev StepAdvances (budget : Nat) (task : Task) (spurious : Bool) (memory : Memory) : Prop :=
  Advances budget task memory (task.advance spurious memory).1 (task.advance spurious memory).2

/-- A step that leaves alone what matters. -/
theorem Advances.of_undisturbed (hm : Undisturbed memory memory')
    (sound : task'.Sound budget memory')
    (operating : task'.operating = true → task.operating = true)
    (watching : task'.watching = true → task.watching = true)
    (ended : task.operating = true → task'.operating = false →
      memory' .activeOperationCount = 0)
    (flagging : task.Flagging memory → task'.Flagging memory' ∨ Raised memory') :
    Advances budget task memory task' memory' where
  budget_eq := hm.same _ (by decide)
  sound := sound
  operating := operating
  watching := watching
  aside _ := ⟨hm.same _ (by decide), hm.raised, fun hexcess =>
    ⟨fun _ => hm.rely, fun _ => .inl (hm.excess_iff.mp hexcess)⟩⟩
  ended := ended
  counted _ _ := Or.inl hm
  flagging := flagging

variable {code : Code Cell Unit} {started : Bool} {call : Call} {size : Nat}

theorem flagging_calling (h : (Task.calling call started code).Flagging memory) (spurious : Bool) :
    ((Task.calling call true (code.step spurious memory).1).settled).Flagging
        (code.step spurious memory).2 ∨ Raised (code.step spurious memory).2 := by
  cases call with
  | alloc size =>
    cases started with
    | false => exact h.elim
    | true =>
      have hstep := Ensures.step Rely.refl h spurious
      cases hcode : (code.step spurious memory).1 with
      | done result =>
        rw [hcode] at hstep
        exact .inr (Ensures.result Rely.refl hstep)
      | _ =>
        rw [hcode] at hstep
        exact .inl hstep
  | _ => exact h.elim

theorem sound_settled_calling (h : call.Sound true code) :
    ((Task.calling call true code).settled).Sound budget memory' := by
  cases code with
  | done result => trivial
  | _ => exact h

theorem operating_settled_calling (call : Call) (code : Code Cell Unit) :
    ((Task.calling call true code).settled).operating ≠ true ∧
      ((Task.calling call true code).settled).watching ≠ true := by
  cases code <;> exact ⟨nofun, nofun⟩

variable (spurious : Bool)

theorem advances_harmless_call (hcode : OnlyHarmless (fun _ => True) code)
    (hsound : call.Sound true (code.step spurious memory).1) :
    StepAdvances budget (.calling call started code) spurious memory := by
  have hidle := operating_settled_calling call (code.step spurious memory).1
  exact .of_undisturbed (hcode.undisturbed spurious memory) (sound_settled_calling hsound)
    (fun h => (hidle.1 h).elim) (fun h => (hidle.2 h).elim) nofun
    (fun h => flagging_calling h spurious)

theorem advances_dealloc (hcode : OnlyShrinking code) :
    StepAdvances budget (.calling (.dealloc size) started code) spurious memory := by
  have hm := hcode.shrinks spurious memory
  have hidle := operating_settled_calling (.dealloc size) (code.step spurious memory).1
  exact {
    budget_eq := hm.same _ (by decide) (by decide)
    sound := sound_settled_calling (only_step hcode spurious memory)
    operating := fun h => (hidle.1 h).elim
    watching := fun h => (hidle.2 h).elim
    aside := fun _ => ⟨hm.same _ (by decide) (by decide), fun h => hm.raised.trans_ne h,
      fun hexcess => ⟨fun _ => hm.rely hexcess, fun _ => .inl (hm.excess hexcess)⟩⟩
    ended := nofun
    counted := nofun
    flagging := fun h => h.elim }

theorem advances_alloc :
    StepAdvances budget (.calling (.alloc size) false (recordAlloc size)) spurious memory := by
  have hne (cell : Cell) (hcell : cell ≠ .currentLiveBytes) :
      (Access.fetchAdd .currentLiveBytes size).effect memory cell = memory cell :=
    Access.effect_of_ne hcell
  change Advances budget _ memory
    (.calling (.alloc size) true (afterAdd size (memory .currentLiveBytes)))
    ((Access.fetchAdd .currentLiveBytes size).effect memory)
  have hactive := hne .activeOperationCount (by decide)
  have hraised := hne .budgetExceeded (by decide)
  exact {
    budget_eq := hne _ (by decide)
    sound := onlyHarmless_afterAdd size _
    operating := nofun
    watching := nofun
    aside := fun _ => ⟨hactive, fun h => hraised.trans_ne h, fun hexcess =>
      ⟨fun _ => ⟨hne _ (by decide), hne _ (by decide), fun h => hactive.symm ▸ h,
        fun _ => hexcess, fun h => hraised.trans_ne h⟩,
        fun hwatched => .inr (afterAdd_ensures size _ hwatched)⟩⟩
    ended := nofun
    counted := nofun
    flagging := fun h => h.elim }

theorem advances_calling (h : call.Sound started code) :
    StepAdvances budget (.calling call started code) spurious memory := by
  cases call with
  | alloc size =>
    cases started with
    | false =>
      obtain rfl : code = recordAlloc size := h
      exact advances_alloc spurious
    | true => exact advances_harmless_call spurious h (only_step h spurious memory)
  | dealloc size => exact advances_dealloc spurious h
  | _ => exact advances_harmless_call spurious h (only_step h spurious memory)

theorem flagging_beginning {code : Code Cell Bool} (h : (Task.beginning code).Flagging memory)
    (spurious : Bool) :
    ((Task.beginning (code.step spurious memory).1).settled).Flagging
        (code.step spurious memory).2 ∨ Raised (code.step spurious memory).2 := by
  have hstep := Ensures.step Rely.refl h spurious
  cases hcode : (code.step spurious memory).1 with
  | done result =>
    rw [hcode] at hstep
    exact .inr (Ensures.result Rely.refl hstep)
  | _ =>
    rw [hcode] at hstep
    exact .inl hstep

/-- A step of `begin_operation` before the operation is counted. -/
theorem advances_before {code : Code Cell Bool} (hbudget : memory .budgetBytes = budget)
    (hactive : memory .activeOperationCount = 0) (hcode : Before budget code) :
    StepAdvances budget (.beginning code) spurious memory := by
  -- Uncounted steps keep the decisive cells and end at most without a guard.
  have hquiet {code' : Code Cell Bool} {m : Memory}
      (heq : (Task.beginning code).advance spurious memory =
        ((Task.beginning code').settled, m))
      (hsame : ∀ cell ∈ decisive, m cell = memory cell) (hcode' : Before budget code') :
      StepAdvances budget (.beginning code) spurious memory := by
    have hzero : m .activeOperationCount = 0 := (hsame _ (by decide)).trans hactive
    have hm : m = ((Task.beginning code).advance spurious memory).2 := by rw [heq]
    refine ⟨?_, ?_, fun _ => rfl, fun _ => rfl, Bool.noConfusion, ?_, ?_,
      (flagging_beginning · spurious)⟩
    · rw [heq]
      exact hsame _ (by decide)
    · rw [heq]
      cases code' with
      | done result =>
        obtain rfl : result = false := hcode'
        trivial
      | access a next => exact .inl ⟨hzero, hcode'⟩
      | retry cell update observed next => exact hcode'.elim
    · exact fun _ _ => hm ▸ hzero
    · intro _ hone
      rw [← hm, hzero] at hone
      cases hone
  cases code with
  | done result => exact hquiet rfl (fun _ _ => rfl) hcode
  | retry cell update observed next => exact hcode.elim
  | access a next =>
    rcases hcode with ⟨rfl, hpos, hnext⟩ | ⟨ha, hnext⟩
    · have hadd : (Access.fetchAdd .activeOperationCount 1).effect memory .activeOperationCount =
          1 := by
        refine (Access.effect_cell _ memory).trans ?_
        simp [Access.written, Access.cell, hactive, wordSize]
      have hbudgetSame : (Access.fetchAdd .activeOperationCount 1).effect memory .budgetBytes =
          memory .budgetBytes := Access.effect_of_ne (by decide)
      have heq : (Task.beginning (.access (.fetchAdd .activeOperationCount 1) next)).advance
          spurious memory =
          (.beginning afterCount, (Access.fetchAdd .activeOperationCount 1).effect memory) := by
        simp only [Task.advance, Code.step, hnext]
        rfl
      refine ⟨?_, ?_, fun _ => rfl, fun _ => rfl, Bool.noConfusion, ?_, ?_,
        (flagging_beginning · spurious)⟩
      · rw [heq]
        exact hbudgetSame
      · rw [heq]
        exact .inr ⟨hadd, hpos, onlyHarmless_afterCount⟩
      · rw [heq]
        exact fun _ => Bool.noConfusion
      · rw [heq]
        exact fun _ _ => .inr fun hwatched => afterCount_ensures hwatched
    · refine hquiet rfl (ha.same memory) (hnext _ fun hload => ?_)
      rw [hload]
      exact hbudget

theorem counted_settled {code : Code Cell Bool} (hcode : OnlyHarmless (· = true) code)
    (hactive : memory .activeOperationCount = 1) (hbudget : 0 < budget) :
    ((Task.beginning code).settled).Sound budget memory ∧
      ((Task.beginning code).settled).operating = true := by
  cases code with
  | done result =>
    obtain rfl : result = true := hcode
    exact ⟨⟨hactive, hbudget⟩, rfl⟩
  | _ => exact ⟨.inr ⟨hactive, hbudget, hcode⟩, rfl⟩

/-- A step of `begin_operation` after the operation was counted. -/
theorem advances_counted {code : Code Cell Bool} (hactive : memory .activeOperationCount = 1)
    (hbudget : 0 < budget) (hcode : OnlyHarmless (· = true) code) :
    StepAdvances budget (.beginning code) spurious memory := by
  have hm := hcode.undisturbed spurious memory
  have hsettled := counted_settled (only_step hcode spurious memory)
    ((hm.same _ (by decide)).trans hactive) hbudget
  exact .of_undisturbed hm hsettled.1 (fun _ => rfl) (fun _ => rfl)
    (fun _ h => absurd (h.symm.trans hsettled.2) Bool.false_ne_true)
    (fun h => flagging_beginning h spurious)

theorem advances_reporting {code : Code Cell (Option HeapBudgetSnapshot)}
    (hactive : memory .activeOperationCount = 1) (hbudget : 0 < budget)
    (hcode : OnlyHarmless (fun _ => True) code) :
    StepAdvances budget (.reporting code) spurious memory := by
  have hm := hcode.undisturbed spurious memory
  have hactive' : (code.step spurious memory).2 .activeOperationCount = 1 :=
    (hm.same _ (by decide)).trans hactive
  have hsettled : ((Task.reporting (code.step spurious memory).1).settled).Sound budget
      (code.step spurious memory).2 ∧
      ((Task.reporting (code.step spurious memory).1).settled).operating = true ∧
      ((Task.reporting (code.step spurious memory).1).settled).watching = false := by
    have hcode' := only_step hcode spurious memory
    cases hresult : (code.step spurious memory).1 with
    | done result => exact ⟨⟨hactive', hbudget⟩, rfl, rfl⟩
    | _ => exact ⟨⟨hactive', hbudget, hresult ▸ hcode'⟩, rfl, rfl⟩
  exact .of_undisturbed hm hsettled.1 (fun _ => rfl)
    (fun h => absurd (hsettled.2.2.symm.trans h) Bool.false_ne_true)
    (fun _ h => absurd (h.symm.trans hsettled.2.1) Bool.false_ne_true) (fun h => h.elim)

/-- The end of the guard, from the point where the operation is no longer counted. -/
theorem uncounted_settled (budget : Nat) (hcode : OnlyHarmless (fun _ => True) code)
    (hactive : memory .activeOperationCount = 0) :
    ((Task.dropping code).settled).Sound budget memory ∧
      ((Task.dropping code).settled).watching = false := by
  cases code with
  | done result => exact ⟨trivial, rfl⟩
  | _ => exact ⟨.inr ⟨hactive, hcode⟩, rfl⟩

theorem advances_dropping (h : (Task.dropping code).Sound budget memory) :
    StepAdvances budget (.dropping code) spurious memory := by
  rcases h with ⟨hactive, rfl⟩ | ⟨hactive, hcode⟩
  · have hsub : (Access.fetchSub .activeOperationCount 1).effect memory .activeOperationCount =
        0 := by
      refine (Access.effect_cell _ memory).trans ?_
      simp [Access.written, Access.cell, hactive, wordSize]
    have hcode : OnlyHarmless (fun _ => True) (dropOperation.step spurious memory).1 := by
      refine only_ite ⟨?_, fun _ => ⟨?_, fun _ => trivial⟩⟩ trivial
      · simp [Harmless, decisive, Access.cell]
      · simp [Harmless, decisive, Access.cell]
    have hbudget : (Access.fetchSub .activeOperationCount 1).effect memory .budgetBytes =
        memory .budgetBytes := Access.effect_of_ne (by decide)
    have hsettled := uncounted_settled budget hcode hsub
    refine ⟨hbudget, hsettled.1, fun _ => rfl,
      fun h => absurd (hsettled.2.symm.trans h) Bool.false_ne_true,
      Bool.noConfusion, fun _ _ => hsub, fun _ hone => ?_,
      fun h => h.elim⟩
    exact absurd (hsub.symm.trans hone) (by decide)
  · have hm := hcode.undisturbed spurious memory
    have hactive' : (code.step spurious memory).2 .activeOperationCount = 0 :=
      (hm.same _ (by decide)).trans hactive
    have hsettled := uncounted_settled budget (only_step hcode spurious memory) hactive'
    exact .of_undisturbed hm hsettled.1 (fun _ => rfl)
      (fun h => absurd (hsettled.2.symm.trans h) Bool.false_ne_true)
      (fun _ _ => hactive') (fun h => h.elim)

/-- What a step of any task does. -/
theorem advance_spec (hbudget : memory .budgetBytes = budget) (h : task.Sound budget memory) :
    StepAdvances budget task spurious memory := by
  have hstill (heq : task.advance spurious memory = (task, memory)) :
      StepAdvances budget task spurious memory := by
    rw [StepAdvances, heq]
    exact .of_undisturbed (.refl memory) h id id
      (fun ht hf => absurd (hf.symm.trans ht) Bool.false_ne_true) Or.inl
  cases task with
  | calling call started code => exact advances_calling spurious h
  | beginning code =>
    rcases h with ⟨hactive, hcode⟩ | ⟨hactive, hpos, hcode⟩
    · exact advances_before spurious hbudget hactive hcode
    · exact advances_counted spurious hactive hpos hcode
  | reporting code => exact advances_reporting spurious h.1 h.2.1 h.2.2
  | dropping code => exact advances_dropping spurious h
  | _ => exact hstill rfl

end Advancing

variable {action : Action}

section Runs

variable {budget i : Nat} {memory memory' : Memory} {tasks : Nat → Task} {task' : Task}

/-- At most one operation is under way and counted, and while it begins or is active an excess
of the heap has raised the flag or is about to. -/
structure Inv (budget : Nat) (memory : Memory) (tasks : Nat → Task) : Prop where
  budget_eq : memory .budgetBytes = budget
  sound : ∀ i, (tasks i).Sound budget memory
  unique : ∀ i j, (tasks i).operating = true → (tasks j).operating = true → i = j
  quiet : (∀ i, (tasks i).operating = false) → memory .activeOperationCount = 0
  watched : ∀ i, (tasks i).watching = true → memory .activeOperationCount = 1 →
    Excess memory → Raised memory ∨ ∃ j, (tasks j).Flagging memory

theorem Task.Sound.budget_pos {task : Task} (h : task.Sound budget memory)
    (hwatching : task.watching = true) (hactive : memory .activeOperationCount = 1) :
    0 < budget := by
  cases task with
  | beginning code =>
    rcases h with ⟨hzero, -⟩ | ⟨-, hpos, -⟩
    · rw [hzero] at hactive
      cases hactive
    · exact hpos
  | active => exact h.2
  | _ => cases hwatching

/-- Code that was about to raise the flag still is after a step that it can rely on. -/
theorem flagging_step (hadv : Advances budget (tasks i) memory task' memory')
    (hrely : Rely memory memory') (h : Raised memory ∨ ∃ j, (tasks j).Flagging memory) :
    Raised memory' ∨ ∃ j, (update tasks i task' j).Flagging memory' := by
  rcases h with h | ⟨j, hj⟩
  · exact .inl (hrely.raised h)
  · by_cases hji : j = i
    · subst hji
      rcases hadv.flagging hj with h | h
      · exact .inr ⟨j, by rwa [update_self]⟩
      · exact .inl h
    · exact .inr ⟨j, by rw [update_of_ne hji]; exact hj.of_rely hrely⟩

theorem Inv.advance (h : Inv budget memory tasks)
    (hadv : Advances budget (tasks i) memory task' memory') :
    Inv budget memory' (update tasks i task') := by
  have hold {j : Nat} {p : Task → Bool} (hp : p task' = true → p (tasks i) = true)
      (hj : p (update tasks i task' j) = true) : p (tasks j) = true := by
    by_cases hji : j = i
    · subst hji
      rw [update_self] at hj
      exact hp hj
    · rwa [update_of_ne hji] at hj
  have hsound (j : Nat) : (update tasks i task' j).Sound budget memory' := by
    by_cases hji : j = i
    · subst hji
      rw [update_self]
      exact hadv.sound
    · rw [update_of_ne hji]
      refine (h.sound j).congr fun hop => (hadv.aside ?_).1
      refine Bool.eq_false_iff.mpr fun hi => hji (h.unique j i hop hi)
  refine ⟨hadv.budget_eq.trans h.budget_eq, hsound, fun j k hj hk => ?_, fun hnone => ?_,
    fun j hj hactive hexcess => ?_⟩
  · exact h.unique j k (hold hadv.operating hj) (hold hadv.operating hk)
  · have hi := hnone i
    rw [update_self] at hi
    cases hop : (tasks i).operating with
    | true => exact hadv.ended hop hi
    | false =>
      refine (hadv.aside hop).1.trans (h.quiet fun j => ?_)
      by_cases hji : j = i
      · rw [hji]
        exact hop
      · have hj := hnone j
        rwa [update_of_ne hji] at hj
  · have hwatching : (tasks j).watching = true := hold hadv.watching hj
    have hwatched : Watched memory' := by
      refine ⟨?_, by omega, hexcess⟩
      rw [hadv.budget_eq.trans h.budget_eq]
      exact (hsound j).budget_pos hj hactive
    have hflagging (hf : task'.Flagging memory') :
        ∃ j, (update tasks i task' j).Flagging memory' :=
      ⟨i, by rwa [update_self]⟩
    cases hop : (tasks i).operating with
    | true =>
      rcases hadv.counted hop hactive with hm | hf
      · have hactive' := (hm.same .activeOperationCount (by decide)).symm.trans hactive
        exact flagging_step hadv hm.rely
          (h.watched j hwatching hactive' (hm.excess_iff.mp hexcess))
      · exact .inr (hflagging (hf hwatched))
    | false =>
      obtain ⟨hsame, -, hgrown⟩ := hadv.aside hop
      obtain ⟨hrely, hnew⟩ := hgrown hexcess
      rcases hnew hwatched with hbefore | hf
      · exact flagging_step hadv (hrely hbefore)
          (h.watched j hwatching (hsame.symm.trans hactive) hbefore)
      · exact .inr (hflagging hf)

/-- A task that changes without an access. -/
theorem Inv.replace (h : Inv budget memory tasks) {task : Task} (hi : tasks i = task)
    (sound : task'.Sound budget memory) (operating : task'.operating = task.operating)
    (watching : task'.watching = true → task.watching = true) (flagging : ¬task.Flagging memory) :
    Inv budget memory (update tasks i task') := by
  subst hi
  exact h.advance (.of_undisturbed (.refl memory) sound (fun ht => operating ▸ ht) watching
    (fun ht hf => absurd (hf.symm.trans (operating.trans ht)) Bool.false_ne_true)
    (fun hf => (flagging hf).elim))

theorem Call.sound_code (call : Call) : call.Sound false call.code := by
  cases call with
  | alloc size => exact rfl
  | dealloc size => exact onlyShrinking_recordDealloc size
  | _ => exact ⟨by simp [Harmless, decisive, Access.cell], fun _ => trivial⟩

theorem onlyHarmless_failureIfExceeded : OnlyHarmless (fun _ => True) failureIfExceeded := by
  simp [failureIfExceeded, snapshot, accountedLiveBytes, OnlyHarmless, Code.Only, Harmless, load,
    Bind.bind, Code.bind, Pure.pure]

theorem inv_of_does {s s' : Process} (h : Inv budget s.memory s.tasks)
    (hadmitted : Orderly s action) (hdoes : s.Does action s') : Inv budget s'.memory s'.tasks := by
  cases hdoes with
  | nothing => exact h
  | call call hidle =>
    exact h.replace hidle call.sound_code rfl nofun id
  | begin hidle =>
    rename_i i
    have hzero := h.quiet fun j => hadmitted j trivial
    have hself : update s.tasks i (.beginning beginOperation) i =
        .beginning beginOperation := update_self ..
    have hold {j : Nat} (hj : (update s.tasks i (.beginning beginOperation) j).operating =
        true) : j = i := by
      by_contra hji
      rw [update_of_ne hji, hadmitted j trivial] at hj
      cases hj
    refine ⟨h.budget_eq, fun j => ?_, fun j k hj hk => (hold hj).trans (hold hk).symm,
      fun _ => hzero, fun j _ hactive => ?_⟩
    · change (update s.tasks i (.beginning beginOperation) j).Sound budget s.memory
      by_cases hji : j = i
      · rw [hji, hself]
        exact .inl ⟨hzero, before_beginOperation budget⟩
      · rw [update_of_ne hji]
        exact h.sound j
    · exact absurd (hzero.symm.trans hactive) (by decide)
  | report hactive =>
    rename_i i
    have hsound := h.sound i
    rw [hactive] at hsound
    exact h.replace hactive ⟨hsound.1, hsound.2, onlyHarmless_failureIfExceeded⟩ rfl nofun id
  | drop hguard =>
    rename_i i
    have hsound := h.sound i
    rcases hguard with hguard | ⟨failure, hguard⟩
    · rw [hguard] at hsound
      exact h.replace hguard (.inl ⟨hsound.1, rfl⟩) rfl nofun id
    · rw [hguard] at hsound
      exact h.replace hguard (.inl ⟨hsound.1, rfl⟩) rfl nofun id
  | step i spurious => exact h.advance (advance_spec spurious h.budget_eq (h.sound i))

theorem inv_start {budgetBytes : Option Nat} {live : Nat} :
    Inv (budgetBytes.getD 0) (Process.start budgetBytes live).memory
      (Process.start budgetBytes live).tasks where
  budget_eq := rfl
  sound _ := trivial
  unique _ _ := nofun
  quiet _ := rfl
  watched _ := nofun

end Runs

section Reports

variable {budget i : Nat} {s s' : Process}

def Task.isActive : Task → Bool
  | .active => true
  | _ => false

/-- What the report of an operation says. -/
def Task.verdict : Task → Option Bool
  | .reported failure => some failure.isSome
  | _ => none

/-- The operation has seen an excess: the flag is raised or about to be while it is active, and
its report says so. -/
def Accountable (memory : Memory) (tasks : Nat → Task) : Task → Prop
  | .active => Raised memory ∨ Excess memory ∧ ∃ j, (tasks j).Flagging memory
  | .reporting code => Raised memory ∧ code.Ensures (fun m m' => Raised m → Raised m')
      (fun failure _ => failure.isSome = true) memory
  | .reported failure => failure.isSome = true
  | .dropping _ | .finished => True
  | _ => False

variable {j : Nat}

/-- While an operation is active, only allocations in flight are about to raise the flag. -/
theorem inFlight_of_flagging (h : Inv budget s.memory s.tasks) (hi : s.tasks i = .active)
    (hj : (s.tasks j).Flagging s.memory) : (s.tasks j).inFlight = true := by
  cases htask : s.tasks j with
  | calling call started code =>
    rw [htask] at hj
    cases call with
    | alloc size =>
      cases started with
      | false => exact hj.elim
      | true => rfl
    | _ => exact hj.elim
  | beginning code =>
    have hji : j = i := h.unique j i (by rw [htask]; rfl) (by rw [hi]; rfl)
    rw [hji, hi] at htask
    cases htask
  | _ =>
    rw [htask] at hj
    exact hj.elim

theorem accountable_step_self (h : Inv budget s.memory s.tasks) {spurious : Bool}
    (hacc : Accountable s.memory s.tasks (s.tasks i)) :
    Accountable ((s.tasks i).advance spurious s.memory).2
      (update s.tasks i ((s.tasks i).advance spurious s.memory).1)
      ((s.tasks i).advance spurious s.memory).1 := by
  have hsound := h.sound i
  cases htask : s.tasks i with
  | active =>
    rw [htask] at hacc
    change Accountable s.memory (update s.tasks i .active) .active
    rw [← htask, update_eq_self, htask]
    exact hacc
  | reporting code =>
    rw [htask] at hacc hsound
    have hm := hsound.2.2.undisturbed spurious s.memory
    have hstep := Ensures.step (fun m hr => hr) hacc.2 spurious
    cases hcode : (code.step spurious s.memory).1 with
    | done failure =>
      rw [hcode] at hstep
      simp only [Task.advance, hcode, Task.settled]
      exact Ensures.result (fun _ hr => hr) hstep
    | _ =>
      rw [hcode] at hstep
      simp only [Task.advance, hcode, Task.settled]
      exact ⟨hm.raised hacc.1, hstep⟩
  | reported failure =>
    rw [htask] at hacc
    exact hacc
  | dropping code =>
    simp only [Task.advance]
    cases (code.step spurious s.memory).1 <;> trivial
  | finished => trivial
  | _ =>
    rw [htask] at hacc
    exact hacc.elim

theorem accountable_step_other (h : Inv budget s.memory s.tasks) (hij : i ≠ j) {spurious : Bool}
    (hadmitted : Orderly s (.step j spurious)) (hacc : Accountable s.memory s.tasks (s.tasks i)) :
    Accountable ((s.tasks j).advance spurious s.memory).2
      (update s.tasks j ((s.tasks j).advance spurious s.memory).1) (s.tasks i) := by
  have hadv := advance_spec spurious h.budget_eq (h.sound j)
  have haside (hi : (s.tasks i).operating = true) : (s.tasks j).operating = false :=
    Bool.eq_false_iff.mpr fun hj => hij (h.unique i j hi hj)
  cases htask : s.tasks i with
  | active =>
    rw [htask] at hacc
    obtain ⟨-, hraised, hgrown⟩ := hadv.aside (haside (by rw [htask]; rfl))
    by_cases hnoticed : Raised s.memory
    · exact .inl (hraised hnoticed)
    · obtain ⟨hexcess, hflagging⟩ := hacc.resolve_left hnoticed
      by_cases hexcess' : Excess ((s.tasks j).advance spurious s.memory).2
      · rcases flagging_step hadv ((hgrown hexcess').1 hexcess) (.inr hflagging) with hr | hf
        · exact .inl hr
        · exact .inr ⟨hexcess', hf⟩
      · obtain ⟨k, hk⟩ := hflagging
        have hnone := hadmitted ⟨hexcess, hnoticed⟩ hexcess' k trivial
        rw [inFlight_of_flagging h htask hk] at hnone
        cases hnone
  | reporting code =>
    rw [htask] at hacc
    obtain ⟨-, hraised, -⟩ := hadv.aside (haside (by rw [htask]; rfl))
    exact ⟨hraised hacc.1, hacc.2.of_rely hraised fun _ _ _ h₁ h₂ => h₂ ∘ h₁⟩
  | reported failure =>
    rw [htask] at hacc
    exact hacc
  | dropping code => trivial
  | finished => trivial
  | _ =>
    rw [htask] at hacc
    exact hacc.elim

/-- A change of another task that is not about to raise the flag. -/
theorem Accountable.set {memory : Memory} {tasks : Nat → Task} {task task' : Task}
    (h : Accountable memory tasks task) (hj : ¬(tasks j).Flagging memory) :
    Accountable memory (update tasks j task') task := by
  cases task with
  | active =>
    rcases h with h | ⟨hexcess, k, hk⟩
    · exact .inl h
    · refine Or.inr ⟨hexcess, k, ?_⟩
      rw [update_of_ne]
      · exact hk
      · rintro rfl
        exact hj hk
  | _ => exact h

theorem accountable_of_does (h : Inv budget s.memory s.tasks) (hadmitted : Orderly s action)
    (hdoes : s.Does action s') (hacc : Accountable s.memory s.tasks (s.tasks i)) :
    Accountable s'.memory s'.tasks (s'.tasks i) := by
  -- A task that is set without a step is not the operation itself unless its guard changes.
  have hset {j : Nat} {task task' : Task} (hj : s.tasks j = task) (hf : ¬task.Flagging s.memory)
      (hself : Accountable s.memory s.tasks task →
        Accountable s.memory (update s.tasks j task') task') :
      Accountable s.memory (s.set j task').tasks ((s.set j task').tasks i) := by
    change Accountable s.memory (update s.tasks j task')
      (update s.tasks j task' i)
    subst hj
    by_cases hij : i = j
    · subst hij
      rw [update_self]
      exact hself hacc
    · rw [update_of_ne hij]
      exact hacc.set hf
  cases hdoes with
  | nothing => exact hacc
  | call call hidle | begin hidle => exact hset hidle id False.elim
  | report hactive =>
    refine hset hactive id fun hacc => ?_
    have hraised : Raised s.memory := by
      by_contra hnoticed
      obtain ⟨hexcess, k, hk⟩ := hacc.resolve_left hnoticed
      have hnone := hadmitted ⟨hexcess, hnoticed⟩ k trivial
      rw [inFlight_of_flagging h hactive hk] at hnone
      cases hnone
    exact ⟨hraised, failureIfExceeded_ensures hraised⟩
  | drop hguard =>
    rcases hguard with hguard | ⟨failure, hguard⟩
    · exact hset hguard id fun _ => trivial
    · exact hset hguard id fun _ => trivial
  | step j spurious =>
    by_cases hij : i = j
    · subst hij
      change Accountable _ _ (update s.tasks i _ i)
      rw [update_self]
      exact accountable_step_self h hacc
    · change Accountable _ _ (update s.tasks j _ i)
      rw [update_of_ne hij]
      exact accountable_step_other h hij hadmitted hacc

/-- In every orderly run, an operation during which the heap exceeds the budget reports it. -/
theorem operation_reports_excess (budgetBytes : Option Nat) (live : Nat)
    (before after : List Action) (i : Nat) (said : Bool)
    (hrun : Guarded Process.step Orderly (.start budgetBytes live) (before ++ after))
    (hactive : ((execute Process.step (.start budgetBytes live) before).tasks i).isActive = true)
    (hexcess : Excess (execute Process.step (.start budgetBytes live) before).memory)
    (hsaid : ((execute Process.step (.start budgetBytes live) (before ++ after)).tasks i).verdict =
      some said) : said = true := by
  obtain ⟨hbefore, hafter⟩ := (guarded_append ..).mp hrun
  have hstep (s : Process) (action : Action) (h : Inv (budgetBytes.getD 0) s.memory s.tasks)
      (hadmitted : Orderly s action) :
      Inv (budgetBytes.getD 0) (s.step action).memory (s.step action).tasks :=
    inv_of_does h hadmitted (s.does_step action)
  have hinv := hbefore.invariant hstep inv_start
  rw [execute_append] at hsaid
  revert hafter hactive hexcess hsaid hinv
  generalize execute Process.step (.start budgetBytes live) before = s
  intro hactive hexcess hsaid hafter hinv
  have htask : s.tasks i = .active := by
    cases htask : s.tasks i with
    | active => rfl
    | _ =>
      rw [htask] at hactive
      cases hactive
  have hacc : Accountable s.memory s.tasks (s.tasks i) := by
    have hsound := hinv.sound i
    rw [htask] at hsound ⊢
    rcases hinv.watched i (by rw [htask]; rfl) hsound.1 hexcess with hr | hf
    · exact .inl hr
    · exact .inr ⟨hexcess, hf⟩
  have hboth (s : Process) (action : Action) (h : Inv (budgetBytes.getD 0) s.memory s.tasks ∧
      Accountable s.memory s.tasks (s.tasks i)) (hadmitted : Orderly s action) :
      Inv (budgetBytes.getD 0) (s.step action).memory (s.step action).tasks ∧
        Accountable (s.step action).memory (s.step action).tasks ((s.step action).tasks i) :=
    ⟨hstep s action h.1 hadmitted, accountable_of_does h.1 hadmitted (s.does_step action) h.2⟩
  have hverdict := (hafter.invariant hboth ⟨hinv, hacc⟩).2
  cases hfinal : (execute Process.step s after).tasks i with
  | reported failure =>
    rw [hfinal] at hverdict hsaid
    exact (Option.some.inj hsaid).symm.trans hverdict
  | _ =>
    rw [hfinal] at hsaid
    cases hsaid

def Action.task : Action → Nat
  | .call task _ | .begin task | .report task | .drop task | .step task _ => task

instance (n : Nat) (s : Process) : (action : Action) →
    Decidable (OrderlyAmong (· < n) s action)
  | .begin _ => inferInstanceAs (Decidable (∀ j, j < n → _))
  | .report _ => inferInstanceAs (Decidable (_ → ∀ j, j < n → _))
  | .step _ _ => inferInstanceAs (Decidable (_ → _ → ∀ j, j < n → _))
  | .call _ _ | .drop _ => isTrue trivial

theorem Process.Does.tasks_of_ne {s s' : Process} (h : s.Does action s') (hj : j ≠ action.task) :
    s'.tasks j = s.tasks j := by
  cases h with
  | nothing => rfl
  | _ => exact update_of_ne hj _ _

/-- In a run of the first tasks the other tasks do not matter. -/
theorem guarded_orderly {n : Nat} {s : Process} {schedule : List Action}
    (hidle : ∀ j, n ≤ j → s.tasks j = .idle) (htasks : ∀ action ∈ schedule, action.task < n)
    (h : Guarded Process.step (OrderlyAmong (· < n)) s schedule) :
    Guarded Process.step Orderly s schedule := by
  induction schedule generalizing s with
  | nil => trivial
  | cons action schedule ih =>
    have hbelow {p : Task → Bool} (hp : p .idle = false) (hall : ∀ j < n, p (s.tasks j) = false)
        (j : Nat) (_ : True) : p (s.tasks j) = false := by
      by_cases hj : j < n
      · exact hall j hj
      · rw [hidle j (by omega)]
        exact hp
    refine ⟨?_, ih (fun j hj => ?_) (fun a ha => htasks a (List.mem_cons_of_mem _ ha)) h.2⟩
    · cases action with
      | begin i => exact hbelow rfl h.1
      | report i => exact fun hunnoticed => hbelow rfl (h.1 hunnoticed)
      | step i spurious => exact fun hunnoticed hless => hbelow rfl (h.1 hunnoticed hless)
      | call i call => trivial
      | drop i => trivial
    · have hne : j ≠ action.task := by
        have := htasks action List.mem_cons_self
        omega
      rw [(s.does_step action).tasks_of_ne hne]
      exact hidle j hj

abbrev steps (task count : Nat) : List Action := List.replicate count (.step task false)

/-- An operation begins and an allocation of ten bytes exceeds its budget of eight. -/
abbrev exceeding : List Action :=
  .begin 0 :: steps 0 22 ++ .call 1 (.alloc 10) :: steps 1 40

/-- The bytes are freed and a second operation begins before the first one reports. -/
abbrev overlapping : List Action :=
  .call 1 (.dealloc 10) :: steps 1 5 ++ .begin 2 :: steps 2 22 ++ .report 0 :: steps 0 19

/-- Without a second operation the first one reports the excess. -/
theorem operation_reports_excess_alone :
    ((execute Process.step (.start (some 8) 0) (exceeding ++ .report 0 :: steps 0 19)).tasks
      0).verdict = some true := by
  have hfacts : (∀ action ∈ exceeding ++ .report 0 :: steps 0 19, action.task < 2) ∧
      Guarded Process.step (OrderlyAmong (· < 2)) (.start (some 8) 0)
        (exceeding ++ .report 0 :: steps 0 19) ∧
      ((execute Process.step (.start (some 8) 0) exceeding).tasks 0).isActive = true ∧
      Excess (execute Process.step (.start (some 8) 0) exceeding).memory ∧
      ((execute Process.step (.start (some 8) 0) (exceeding ++ .report 0 :: steps 0 19)).tasks
        0).verdict.isSome = true := by
    decide +kernel
  obtain ⟨htasks, hrun, hactive, hexcess, hsome⟩ := hfacts
  obtain ⟨said, hsaid⟩ := Option.isSome_iff_exists.mp hsome
  rw [hsaid, operation_reports_excess (some 8) 0 exceeding (.report 0 :: steps 0 19) 0 said
    (guarded_orderly (fun _ _ => rfl) htasks hrun) hactive hexcess hsaid]

/-- The second operation lowers the flag that the first one was to report. -/
theorem operation_misses_excess :
    ((execute Process.step (.start (some 8) 0) exceeding).tasks 0).isActive = true ∧
      Excess (execute Process.step (.start (some 8) 0) exceeding).memory ∧
      ((execute Process.step (.start (some 8) 0) (exceeding ++ overlapping)).tasks 0).verdict =
        some false := by
  decide +kernel

end Reports

end MessagingBench.Heap
