import MessagingBench.Heap.Budget

/-!
# What the code of the heap budget ensures

The flag depends on four cells: the budget, the baseline, the live bytes and the number of
active operations. Code that has begun to compare the heap with the budget while it exceeds
the budget raises the flag, if other code leaves budget and baseline alone, does not end the
excess or the operation, and does not lower the flag.
-/

namespace MessagingBench.Heap

open Code

variable {memory : Memory}

section Cells

/-- The accounted live heap exceeds the budget. -/
def Excess (memory : Memory) : Prop :=
  memory .budgetBytes < memory .currentLiveBytes - memory .baselineLiveBytes

instance (memory : Memory) : Decidable (Excess memory) := inferInstanceAs (Decidable (_ < _))

def Raised (memory : Memory) : Prop := memory .budgetExceeded ≠ 0

instance (memory : Memory) : Decidable (Raised memory) := inferInstanceAs (Decidable (_ ≠ _))

/-- The cells that decide whether the flag is raised. -/
def decisive : List Cell :=
  [.budgetBytes, .baselineLiveBytes, .currentLiveBytes, .activeOperationCount]

/-- The decisive cells are the same and the flag is not lowered. -/
structure Undisturbed (memory memory' : Memory) : Prop where
  same : ∀ cell ∈ decisive, memory' cell = memory cell
  raised : Raised memory → Raised memory'

/-- What code that is about to raise the flag relies on. -/
structure Rely (memory memory' : Memory) : Prop where
  budget : memory' .budgetBytes = memory .budgetBytes
  baseline : memory' .baselineLiveBytes = memory .baselineLiveBytes
  active : 0 < memory .activeOperationCount → 0 < memory' .activeOperationCount
  excess : Excess memory → Excess memory'
  raised : Raised memory → Raised memory'

theorem Rely.refl (memory : Memory) : Rely memory memory := ⟨rfl, rfl, id, id, id⟩

theorem Rely.trans {m₁ m₂ m₃ : Memory} (h₁ : Rely m₁ m₂) (h₂ : Rely m₂ m₃) : Rely m₁ m₃ :=
  ⟨h₂.budget.trans h₁.budget, h₂.baseline.trans h₁.baseline, h₂.active ∘ h₁.active,
    h₂.excess ∘ h₁.excess, h₂.raised ∘ h₁.raised⟩

theorem Undisturbed.refl (memory : Memory) : Undisturbed memory memory := ⟨fun _ _ => rfl, id⟩

theorem Undisturbed.excess_iff {memory memory' : Memory} (h : Undisturbed memory memory') :
    Excess memory' ↔ Excess memory := by
  unfold Excess
  rw [h.same .budgetBytes (by decide), h.same .currentLiveBytes (by decide),
    h.same .baselineLiveBytes (by decide)]

theorem Undisturbed.rely {memory memory' : Memory} (h : Undisturbed memory memory') :
    Rely memory memory' :=
  ⟨h.same _ (by decide), h.same _ (by decide),
    fun hactive => by rwa [h.same .activeOperationCount (by decide)], h.excess_iff.mpr, h.raised⟩

/-- An access that does not touch the decisive cells and does not lower the flag. -/
def Harmless : Access Cell → Prop
  | .load _ => True
  | .compareExchange cell current new =>
    cell ∉ .budgetExceeded :: decisive ∨ cell = .budgetExceeded ∧ current = 0 ∧ new = 1
  | other => other.cell ∉ .budgetExceeded :: decisive

def HarmlessUpdate (cell : Cell) (_ : Nat → Option Nat) : Prop :=
  cell ∉ .budgetExceeded :: decisive

theorem undisturbed_update {cell : Cell} {value : Nat} (h : cell ∉ .budgetExceeded :: decisive) :
    Undisturbed memory (Function.update memory cell value) := by
  refine ⟨fun other hother => Function.update_of_ne ?_ _ _, fun hraised => ?_⟩
  · rintro rfl
    exact h (List.mem_cons_of_mem _ hother)
  · have hne : Cell.budgetExceeded ≠ cell := fun heq => h (heq ▸ List.mem_cons_self)
    rwa [Raised, Function.update_of_ne hne]

theorem Harmless.undisturbed {access : Access Cell} (h : Harmless access) (memory : Memory) :
    Undisturbed memory (access.effect memory) := by
  cases access with
  | load cell =>
    rw [Access.effect_load]
    exact .refl memory
  | compareExchange cell current new =>
    rcases h with h | ⟨rfl, rfl, rfl⟩
    · exact undisturbed_update h
    · refine ⟨fun other hother => Function.update_of_ne ?_ _ _, fun hraised => ?_⟩
      · rintro rfl
        revert hother
        decide
      · have hne : memory .budgetExceeded ≠ 0 := hraised
        simp [Raised, Access.effect, Access.cell, Access.written, hne]
  | store cell value | swap cell value | fetchAdd cell value | fetchSub cell value =>
    exact undisturbed_update h

/-- Code that only makes harmless accesses. -/
abbrev OnlyHarmless {α : Type} (results : α → Prop) (code : Code Cell α) : Prop :=
  code.Only Harmless HarmlessUpdate results

theorem OnlyHarmless.undisturbed {α : Type} {results : α → Prop} {code : Code Cell α}
    (h : OnlyHarmless results code) (spurious : Bool) (memory : Memory) :
    Undisturbed memory (code.step spurious memory).2 :=
  only_step_keeps h Undisturbed Undisturbed.refl (fun _ ha m => ha.undisturbed m)
    (fun _ _ hcell _ _ _ => undisturbed_update hcell) spurious memory

theorem OnlyHarmless.ensures_raised {α : Type} {results : α → Prop} {code : Code Cell α}
    (h : OnlyHarmless results code) (hm : Raised memory) :
    code.Ensures Rely (fun _ memory => Raised memory) memory :=
  ensures_of_only Raised Rely.raised (fun _ ha m => (ha.undisturbed m).rely)
    (fun _ _ hcell _ _ _ => (undisturbed_update hcell).rely) h hm

end Cells

section Codes

variable (failedAllocationSize : Nat)

theorem onlyHarmless_recordFailure {current : Nat} :
    OnlyHarmless (fun _ => True) (recordFailure failedAllocationSize current) := by
  simp [recordFailure, OnlyHarmless, Code.Only, Harmless, decisive, Access.cell, load, store,
    Bind.bind, Code.bind]

theorem onlyHarmless_checkBudget :
    OnlyHarmless (fun _ => True) (checkBudget failedAllocationSize) := by
  refine ⟨trivial, fun budget => only_ite trivial ⟨trivial, fun active => only_ite trivial
    ⟨trivial, fun current => ⟨trivial, fun baseline => only_ite trivial ⟨?_, fun old => ?_⟩⟩⟩⟩⟩
  · exact .inr ⟨rfl, rfl, rfl⟩
  · exact only_ite (onlyHarmless_recordFailure _) trivial

theorem onlyHarmless_afterAdd (size previous : Nat) :
    OnlyHarmless (fun _ => True) (afterAdd size previous) := by
  refine ⟨by simp [HarmlessUpdate, decisive], trivial, fun budget => only_ite ⟨?_, fun _ =>
    ⟨?_, fun _ => ⟨trivial, fun active => only_ite ⟨trivial, fun baseline => ⟨?_, ?_⟩⟩ trivial⟩⟩⟩
      trivial⟩
  · simp [Harmless, decisive, Access.cell]
  · simp [Harmless, decisive, Access.cell]
  · simp [HarmlessUpdate, decisive]
  · exact onlyHarmless_checkBudget size

/-- The budget is configured, an operation is counted, and the heap exceeds the budget. -/
structure Watched (memory : Memory) : Prop where
  budget : 0 < memory .budgetBytes
  active : 0 < memory .activeOperationCount
  excess : Excess memory

theorem Watched.of_rely {memory memory' : Memory} (h : Watched memory)
    (hrely : Rely memory memory') : Watched memory' :=
  ⟨hrely.budget ▸ h.budget, hrely.active h.active, hrely.excess h.excess⟩

theorem Watched.of_harmless (h : Watched memory) (access : Access Cell) (ha : Harmless access) :
    Watched (access.effect memory) :=
  h.of_rely (ha.undisturbed memory).rely

/-- A check of the budget that begins while the heap exceeds it raises the flag. -/
theorem checkBudget_ensures (h : Watched memory) :
    (checkBudget failedAllocationSize).Ensures Rely (fun _ memory => Raised memory) memory := by
  intro m₁ h₁
  rw [Access.effect_load]
  have w₁ := h.of_rely h₁
  have hbudget : m₁ .budgetBytes ≠ 0 := by
    have := w₁.budget
    omega
  refine (congrArg (Ensures Rely _ · m₁) (if_neg hbudget)).mpr ?_
  intro m₂ h₂
  rw [Access.effect_load]
  have w₂ := w₁.of_rely h₂
  have hactive : m₂ .activeOperationCount ≠ 0 := by
    have := w₂.active
    omega
  refine (congrArg (Ensures Rely _ · m₂) (if_neg hactive)).mpr ?_
  intro m₃ h₃
  rw [Access.effect_load]
  intro m₄ h₄
  rw [Access.effect_load]
  -- The budget was read in the first memory, the live bytes in the third, the baseline last.
  have hexcess : ¬m₃ .currentLiveBytes - m₄ .baselineLiveBytes ≤ m₁ .budgetBytes := by
    have hlive : Excess m₃ := (w₂.of_rely h₃).excess
    unfold Excess at hlive
    rw [h₃.budget, h₂.budget] at hlive
    rw [h₄.baseline]
    omega
  refine (congrArg (Ensures Rely _ · m₄) (if_neg hexcess)).mpr ?_
  intro m₅ h₅
  have hraised : Raised ((Access.compareExchange .budgetExceeded 0 1).effect m₅) := by
    unfold Raised
    by_cases hzero : m₅ .budgetExceeded = 0
    · simp [Access.effect, Access.cell, Access.written, hzero]
    · simp [Access.effect, Access.cell, Access.written, hzero]
  have hrest : OnlyHarmless (fun _ => True) (if decide (m₅ .budgetExceeded = 0) = true then
      recordFailure failedAllocationSize (m₃ .currentLiveBytes - m₄ .baselineLiveBytes)
      else done ()) :=
    only_ite (onlyHarmless_recordFailure _) trivial
  exact hrest.ensures_raised hraised

/-- An allocation after which the heap exceeds the budget raises the flag. -/
theorem afterAdd_ensures (size previous : Nat) (h : Watched memory) :
    (afterAdd size previous).Ensures Rely (fun _ memory => Raised memory) memory := by
  have hrest {m : Memory} (w : Watched m) : Ensures Rely (fun _ memory => Raised memory) (do
      let isEnabled ← enabled
      if isEnabled then
        let _ ← fetchAdd .totalAllocatedBytes size
        let _ ← fetchAdd .allocationCount 1
        let active ← load .activeOperationCount
        if 0 < active then
          let baseline ← load .baselineLiveBytes
          updateMax .operationPeakLiveBytes (min (previous + size) (wordSize - 1) - baseline)
          checkBudget size) m := by
    intro m₁ h₁
    rw [Access.effect_load]
    have w₁ := w.of_rely h₁
    refine (congrArg (Ensures Rely _ · m₁) (if_pos (decide_eq_true w₁.budget))).mpr ?_
    intro m₂ h₂
    have w₂ := (w₁.of_rely h₂).of_harmless (.fetchAdd .totalAllocatedBytes size)
      (by simp [Harmless, decisive, Access.cell])
    intro m₃ h₃
    have w₃ := (w₂.of_rely h₃).of_harmless (.fetchAdd .allocationCount 1)
      (by simp [Harmless, decisive, Access.cell])
    intro m₄ h₄
    rw [Access.effect_load]
    have w₄ := w₃.of_rely h₄
    refine (congrArg (Ensures Rely _ · m₄) (if_pos w₄.active)).mpr ?_
    intro m₅ h₅
    rw [Access.effect_load]
    have w₅ := w₄.of_rely h₅
    intro m₆ h₆
    have w₆ := w₅.of_rely h₆
    refine ⟨checkBudget_ensures size w₆, fun value _ => checkBudget_ensures size ?_⟩
    exact w₆.of_rely (undisturbed_update (by simp [decisive])).rely
  intro m₁ h₁
  have w₁ := h.of_rely h₁
  exact ⟨hrest w₁, fun value _ =>
    hrest (w₁.of_rely (undisturbed_update (by simp [decisive])).rely)⟩

theorem onlyHarmless_afterCount : OnlyHarmless (· = true) afterCount := by
  refine ⟨by simp [Harmless, decisive, Access.cell], fun _ =>
    ⟨by simp [Harmless, decisive, Access.cell], fun _ => ?_⟩⟩
  change OnlyHarmless (· = true) ((checkBudget 0).bind fun _ => done true)
  exact only_bind (onlyHarmless_checkBudget 0) fun _ _ => rfl

/-- An operation that begins while the heap exceeds the budget raises the flag. -/
theorem afterCount_ensures (h : Watched memory) :
    afterCount.Ensures Rely (fun _ memory => Raised memory) memory := by
  intro m₁ h₁
  have w₁ := (h.of_rely h₁).of_harmless (.store .activeSpanId 0)
    (by simp [Harmless, decisive, Access.cell])
  intro m₂ h₂
  have w₂ := (w₁.of_rely h₂).of_harmless
    (.store .activeContext HeapBudgetContext.operationEntry.toRaw)
    (by simp [Harmless, decisive, Access.cell])
  change ((checkBudget 0).bind fun _ => done true).Ensures Rely _ _
  refine Ensures.bind ((checkBudget_ensures 0 w₂).mono fun _ m hraised => ?_) Rely.refl
  exact fun m' hrely => hrely.raised hraised

/-- An access that does not write to the decisive cells. -/
def Preparing : Access Cell → Prop
  | .load _ => True
  | other => other.cell ∉ decisive

theorem Preparing.same {access : Access Cell} (h : Preparing access) (memory : Memory) :
    ∀ cell ∈ decisive, access.effect memory cell = memory cell := by
  intro cell hcell
  cases access with
  | load other => rw [Access.effect_load]
  | _ => exact Access.effect_of_ne fun heq => h (heq ▸ hcell)

/-- The code of `begin_operation` up to the point where the operation is counted. -/
def Before (budget : Nat) : Code Cell Bool → Prop
  | .done result => result = false
  | .access a next =>
    a = .fetchAdd .activeOperationCount 1 ∧ 0 < budget ∧ (∀ reply, next reply = afterCount) ∨
    Preparing a ∧ ∀ reply, (a = .load .budgetBytes → reply = budget) → Before budget (next reply)
  | .retry .. => False

theorem before_beginOperation (budget : Nat) : Before budget beginOperation := by
  have hload {next : Nat → Code Cell Bool} (h : Before budget (next budget)) :
      Before budget (.access (.load .budgetBytes) next) :=
    Or.inr ⟨trivial, fun reply hreply => hreply rfl ▸ h⟩
  have hother {a : Access Cell} {next : Nat → Code Cell Bool} (ha : Preparing a)
      (h : ∀ reply, Before budget (next reply)) : Before budget (.access a next) :=
    Or.inr ⟨ha, fun reply _ => h reply⟩
  refine hload ?_
  by_cases hbudget : 0 < budget
  · refine (congrArg (Before budget) (if_pos (decide_eq_true hbudget))).mpr ?_
    refine hload ((congrArg (Before budget) (if_pos (decide_eq_true hbudget))).mpr ?_)
    refine hother ?_ fun _ => hother ?_ fun _ => hother ?_ fun _ => hother ?_ fun _ =>
      hother ?_ fun _ => hother ?_ fun _ => hother ?_ fun _ => hother ?_ fun _ =>
      hother ?_ fun _ => hother ?_ fun _ => hother trivial fun _ => hother trivial fun _ =>
      hother ?_ fun _ => .inl ⟨rfl, hbudget, fun _ => rfl⟩
    all_goals simp [Preparing, decisive, Access.cell]
  · have hdisabled : ¬decide (0 < budget) = true := by simpa using hbudget
    exact (congrArg (Before budget) (if_neg hdisabled)).mpr rfl

/-- What a deallocation may do to the cells. -/
structure Shrinks (memory memory' : Memory) : Prop where
  same : ∀ cell ∈ decisive, cell ≠ .currentLiveBytes → memory' cell = memory cell
  current : memory' .currentLiveBytes ≤ memory .currentLiveBytes
  raised : memory' .budgetExceeded = memory .budgetExceeded

theorem Shrinks.excess {memory memory' : Memory} (h : Shrinks memory memory')
    (hexcess : Excess memory') : Excess memory := by
  unfold Excess at *
  rw [h.same .budgetBytes (by decide) (by decide), h.same .baselineLiveBytes (by decide)
    (by decide)] at hexcess
  have := h.current
  omega

theorem Shrinks.rely {memory memory' : Memory} (h : Shrinks memory memory')
    (hexcess : Excess memory') : Rely memory memory' :=
  ⟨h.same _ (by decide) (by decide), h.same _ (by decide) (by decide),
    fun hactive => by rwa [h.same .activeOperationCount (by decide) (by decide)],
    fun _ => hexcess, fun hraised => by rwa [Raised, h.raised]⟩

/-- The loop of a deallocation, and accesses that change none of the cells of interest. -/
abbrev OnlyShrinking (code : Code Cell Unit) : Prop :=
  code.Only (fun access => access.cell ∉ .budgetExceeded :: decisive ∨
      ∃ cell, access = .load cell)
    (fun cell update => cell = .currentLiveBytes ∧
      ∀ old value, update old = some value → value ≤ old) (fun _ => True)

theorem onlyShrinking_recordDealloc (size : Nat) : OnlyShrinking (recordDealloc size) := by
  refine ⟨⟨rfl, fun old value h => ?_⟩, .inr ⟨_, rfl⟩, fun budget => only_ite ⟨?_, fun _ =>
    trivial⟩ trivial⟩
  · rw [Option.some.injEq] at h
    omega
  · simp [decisive, Access.cell]

theorem OnlyShrinking.shrinks {code : Code Cell Unit} (h : OnlyShrinking code) (spurious : Bool)
    (memory : Memory) : Shrinks memory (code.step spurious memory).2 := by
  refine only_step_keeps h Shrinks (fun m => ⟨fun _ _ _ => rfl, Nat.le_refl _, rfl⟩)
    (fun access ha m => ?_) (fun cell update hcell m value hvalue => ?_) spurious memory
  · rcases ha with ha | ⟨cell, rfl⟩
    · have hne {cell : Cell} (hcell : cell ∈ .budgetExceeded :: decisive) :
          access.effect m cell = m cell := Access.effect_of_ne fun heq => ha (heq ▸ hcell)
      exact ⟨fun cell hcell _ => hne (List.mem_cons_of_mem _ hcell),
        Nat.le_of_eq (hne (by decide)), hne (by decide)⟩
    · rw [Access.effect_load]
      exact ⟨fun _ _ _ => rfl, Nat.le_refl _, rfl⟩
  · obtain ⟨rfl, hle⟩ := hcell
    refine ⟨fun cell _ hne => Function.update_of_ne hne _ _, ?_, ?_⟩
    · rw [Function.update_self]
      exact hle _ _ hvalue
    · exact Function.update_of_ne (by decide) _ _

/-- The report of a raised flag is a failure. -/
theorem failureIfExceeded_ensures (h : Raised memory) :
    failureIfExceeded.Ensures (fun m m' => Raised m → Raised m')
      (fun failure _ => failure.isSome = true) memory := by
  refine ensures_load fun m₁ h₁ => ensures_load fun m₂ h₂ => ensures_load fun m₃ h₃ =>
    ensures_load fun m₄ h₄ => ensures_load fun m₅ h₅ => ensures_load fun m₆ h₆ =>
    ensures_load fun m₇ h₇ => ensures_load fun m₈ h₈ => ensures_load fun m₉ h₉ =>
    ensures_load fun m₁₀ h₁₀ => ensures_load fun m₁₁ h₁₁ => ?_
  have hraised : m₁₁ .budgetExceeded ≠ 0 :=
    h₁₁ (h₁₀ (h₉ (h₈ (h₇ (h₆ (h₅ (h₄ (h₃ (h₂ (h₁ h))))))))))
  refine ensures_load fun _ _ => ensures_load fun _ _ => ensures_load fun _ _ =>
    ensures_load fun _ _ => ensures_load fun _ _ => ensures_load fun _ _ =>
    ensures_load fun _ _ => ensures_load fun _ _ => fun _ _ => ?_
  simp [hraised]

end Codes

end MessagingBench.Heap
