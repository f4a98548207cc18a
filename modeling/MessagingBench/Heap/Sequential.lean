import Mathlib.Order.Bounds.Basic
import MessagingBench.Heap.Watching

/-!
# The heap budget without concurrency

Histories in which the allocator's records, the configuration of the budget and the
operations come one after the other. Then each of them is one change of the cells, the live
bytes are a function of the history, and the flag with its failure fields is a latch that the
first excess of an operation closes.
-/

namespace MessagingBench.Heap

open List Code

variable {cell : Cell}

section Runs

variable (memory : Memory)

@[simp] theorem run_updateMax (cell : Cell) (value : Nat) :
    (updateMax cell value).run memory =
      ((), Function.update memory cell (max (memory cell) value)) := by
  rw [updateMax, run_fetchUpdate]
  split
  · rename_i hlt
    rw [Option.getD_some, Nat.max_eq_right (Nat.le_of_lt hlt)]
  · rename_i hle
    rw [Option.getD_none, Nat.max_eq_left (Nat.le_of_not_lt hle)]

@[simp] theorem run_subtractSaturating (cell : Cell) (value : Nat) :
    (subtractSaturating cell value).run memory =
      ((), Function.update memory cell (memory cell - value)) := rfl

@[simp] theorem run_enabled : enabled.run memory = (decide (0 < memory .budgetBytes), memory) := by
  simp [enabled]

@[simp] theorem run_accountedLiveBytes : accountedLiveBytes.run memory =
    (memory .currentLiveBytes - memory .baselineLiveBytes, memory) := by
  simp [accountedLiveBytes]

/-- The cells that are written when the flag is raised or lowered. -/
def failureCells : List Cell :=
  [.budgetExceeded, .failedAllocationSize, .failureCurrentLiveBytes, .failurePeakLiveBytes,
    .failureOperationPeakLiveBytes, .failureTotalAllocatedBytes, .failureAllocationCount,
    .failureDeallocationCount, .failureSpanId, .failureContext]

variable (size : Nat)

theorem recordFailure_other (current : Nat) (h : cell ∉ failureCells) :
    ((recordFailure size current).run memory).2 cell = memory cell := by
  simp only [failureCells, mem_cons, not_mem_nil, or_false, not_or] at h
  simp [recordFailure, h]

theorem recordFailure_fields {current : Nat} :
    ((recordFailure size current).run memory).2 .budgetExceeded = memory .budgetExceeded ∧
      ((recordFailure size current).run memory).2 .failedAllocationSize = size ∧
      ((recordFailure size current).run memory).2 .failureCurrentLiveBytes = current := by
  simp [recordFailure]

theorem checkBudget_other (h : cell ∉ failureCells) :
    ((checkBudget size).run memory).2 cell = memory cell := by
  have hflag : cell ≠ .budgetExceeded := fun heq => h (heq ▸ mem_cons_self)
  simp only [checkBudget, run_bind, run_load]
  split
  · rfl
  simp only [run_bind, run_load]
  split
  · rfl
  · simp only [run_bind, run_accountedLiveBytes]
    split
    · rfl
    · simp only [run_bind, run_compareExchange, decide_eq_true_eq]
      split
      · rw [recordFailure_other _ _ _ h, Function.update_of_ne hflag]
      · exact Function.update_of_ne hflag ..

variable {memory}

/-- Within an operation the first excess closes the latch. -/
theorem checkBudget_first {size : Nat} (hbudget : 0 < memory .budgetBytes)
    (hactive : memory .activeOperationCount ≠ 0) (hexcess : Excess memory)
    (hflag : memory .budgetExceeded = 0) :
    ((checkBudget size).run memory).2 .budgetExceeded = 1 ∧
      ((checkBudget size).run memory).2 .failedAllocationSize = size ∧
      ((checkBudget size).run memory).2 .failureCurrentLiveBytes =
        memory .currentLiveBytes - memory .baselineLiveBytes := by
  have hbudget' : memory .budgetBytes ≠ 0 := Nat.pos_iff_ne_zero.mp hbudget
  have hcurrent : ¬ memory .currentLiveBytes - memory .baselineLiveBytes ≤ memory .budgetBytes :=
    Nat.not_le_of_lt hexcess
  have hrun : ((checkBudget size).run memory).2 = ((recordFailure size
      (memory .currentLiveBytes - memory .baselineLiveBytes)).run
        (Function.update memory .budgetExceeded 1)).2 := by
    simp [checkBudget, hbudget', hactive, hcurrent, hflag]
  rw [hrun]
  obtain ⟨hexceeded, hsize, hlive⟩ := recordFailure_fields
    (Function.update memory .budgetExceeded 1) size
  exact ⟨hexceeded.trans (Function.update_self ..), hsize, hlive⟩

/-- A closed latch, or a heap within the budget, is left as it is. -/
theorem checkBudget_kept (h : memory .budgetExceeded ≠ 0 ∨ ¬ Excess memory) :
    ((checkBudget size).run memory).2 = memory := by
  simp only [checkBudget, run_bind, run_load]
  split
  · rfl
  simp only [run_bind, run_load]
  split
  · rfl
  · simp only [run_bind, run_accountedLiveBytes]
    split
    · rfl
    · rename_i hcurrent
      have hexcess : Excess memory := Nat.lt_of_not_le hcurrent
      have hflag : memory .budgetExceeded ≠ 0 := h.resolve_right fun hno => hno hexcess
      simp [hflag]

end Runs

section Records

/-- What the allocator records of an allocation or a deallocation. -/
inductive Primitive
  | alloc (size : Nat)
  | dealloc (size : Nat)
  deriving DecidableEq, Repr

/-- What a program asks of the allocator. -/
inductive HeapEvent
  | alloc (size : Nat)
  | dealloc (size : Nat)
  /-- The default `realloc`: a new allocation, and then the deallocation of the old one. -/
  | realloc (oldSize newSize : Nat)
  deriving DecidableEq, Repr

def HeapEvent.primitives : HeapEvent → List Primitive
  | .alloc size => [.alloc size]
  | .dealloc size => [.dealloc size]
  | .realloc oldSize newSize => [.alloc newSize, .dealloc oldSize]

namespace Primitive

def code : Primitive → Code Cell Unit
  | .alloc size => recordAlloc size
  | .dealloc size => recordDealloc size

/-- The live bytes afterwards. -/
def live : Primitive → Nat → Nat
  | .alloc size, live => (live + size) % wordSize
  | .dealloc size, live => live - size

/-- What an allocation offers as the peak of the live bytes. -/
def totals : Primitive → Nat → List Nat
  | .alloc size, live => [min (live + size) (wordSize - 1)]
  | .dealloc _, _ => []

end Primitive

def record : List Primitive → Code Cell Unit
  | [] => pure ()
  | primitive :: primitives => do
    primitive.code
    record primitives

variable (memory : Memory) {size : Nat}

/-- The cells of an allocation's counts and of the flag. -/
def countCells : List Cell :=
  [.totalAllocatedBytes, .allocationCount, .operationPeakLiveBytes] ++ failureCells

/-- The cells that an allocation may write. -/
def allocationCells : List Cell := [.currentLiveBytes, .peakLiveBytes] ++ countCells

/-- Apart from its counts and the flag, an allocation moves the live bytes and their peak. -/
theorem recordAlloc_run (h : cell ∉ countCells) :
    ((recordAlloc size).run memory).2 cell =
      Function.update (Function.update memory .currentLiveBytes
          ((memory .currentLiveBytes + size) % wordSize)) .peakLiveBytes
        (max (memory .peakLiveBytes) (min (memory .currentLiveBytes + size) (wordSize - 1)))
        cell := by
  have hfailure : cell ∉ failureCells := fun hmem => h (mem_append_right _ hmem)
  simp only [countCells, cons_append, mem_cons, not_or] at h
  simp only [recordAlloc, afterAdd, run_bind, run_fetchAdd, run_updateMax, run_enabled]
  split
  · simp only [run_bind, run_fetchAdd, run_load]
    split
    · simp [checkBudget_other _ _ hfailure, h]
    · simp [h]
  · simp

theorem recordAlloc_other (size : Nat) (h : cell ∉ allocationCells) :
    ((recordAlloc size).run memory).2 cell = memory cell := by
  rw [recordAlloc_run memory fun hmem => h (mem_append_right _ hmem)]
  simp only [allocationCells, cons_append, mem_cons, not_or] at h
  simp [h]

theorem recordAlloc_live :
    ((recordAlloc size).run memory).2 .currentLiveBytes =
      (memory .currentLiveBytes + size) % wordSize := by
  simp [recordAlloc_run memory (show Cell.currentLiveBytes ∉ countCells by decide)]

theorem recordAlloc_peak (size : Nat) :
    ((recordAlloc size).run memory).2 .peakLiveBytes =
      max (memory .peakLiveBytes) (min (memory .currentLiveBytes + size) (wordSize - 1)) := by
  simp [recordAlloc_run memory (show Cell.peakLiveBytes ∉ countCells by decide)]

theorem recordDealloc_other (size : Nat) (h : cell ∉ [Cell.currentLiveBytes, .deallocationCount]) :
    ((recordDealloc size).run memory).2 cell = memory cell := by
  simp only [mem_cons, not_mem_nil, or_false, not_or] at h
  simp only [recordDealloc, run_bind, run_subtractSaturating, run_enabled]
  split
  · simp [h]
  · simp [h]

theorem recordDealloc_live :
    ((recordDealloc size).run memory).2 .currentLiveBytes = memory .currentLiveBytes - size := by
  simp only [recordDealloc, run_bind, run_subtractSaturating, run_enabled]
  split
  · simp
  · simp

end Records

section Latch

/-- A moment at which an operation compares the heap with the budget: when it begins, and after
each of its allocations. -/
structure Point where
  requested : Option Nat
  live : Nat
  deriving DecidableEq, Repr

def Primitive.points (baseline : Nat) : Primitive → Nat → List Point
  | .alloc size, live => [⟨some size, (live + size) % wordSize - baseline⟩]
  | .dealloc _, _ => []

def pointsFrom (baseline : Nat) : Nat → List Primitive → List Point
  | _, [] => []
  | live, primitive :: primitives =>
    primitive.points baseline live ++ pointsFrom baseline (primitive.live live) primitives

def liveAfter (live : Nat) (primitives : List Primitive) : Nat :=
  primitives.foldl (fun live primitive => primitive.live live) live

def firstExcess (budget : Nat) (points : List Point) : Option Point :=
  points.find? fun point => decide (budget < point.live)

/-- The flag and the failure fields tell the first excess. -/
def LatchedAt (memory : Memory) : Option Point → Prop
  | none => memory .budgetExceeded = 0 ∧ ¬ Excess memory
  | some point => memory .budgetExceeded = 1 ∧
      memory .failedAllocationSize = point.requested.getD 0 ∧
      memory .failureCurrentLiveBytes = point.live ∧ point.requested ≠ some 0

/-- The cells during an operation that has seen some points. -/
structure Latched (budget baseline live : Nat) (points : List Point) (memory : Memory) : Prop where
  budget_eq : memory .budgetBytes = budget
  baseline_eq : memory .baselineLiveBytes = baseline
  live_eq : memory .currentLiveBytes = live
  active_eq : memory .activeOperationCount = 1
  configured : 0 < budget
  fits : live < wordSize
  latch : LatchedAt memory (firstExcess budget points)

variable {budget baseline live : Nat} {points : List Point} {memory memory' : Memory}
  {first : Option Point} {point : Point}

theorem recordAlloc_check (size : Nat) (hbudget : 0 < memory .budgetBytes)
    (hactive : memory .activeOperationCount ≠ 0) :
    ∃ memory', (∀ cell ∈ failureCells ++ [.budgetBytes, .baselineLiveBytes, .activeOperationCount],
        memory' cell = memory cell) ∧
      memory' .currentLiveBytes = (memory .currentLiveBytes + size) % wordSize ∧
      ((recordAlloc size).run memory).2 = ((checkBudget size).run memory').2 := by
  have hactive' : 0 < memory .activeOperationCount := Nat.pos_iff_ne_zero.mpr hactive
  simp only [recordAlloc, afterAdd, run_bind, run_fetchAdd, run_updateMax, run_enabled]
  simp only [ne_eq, reduceCtorEq, not_false_eq_true, Function.update_of_ne, hbudget, decide_true,
    ite_true, run_bind, run_fetchAdd, run_load, hactive', run_updateMax]
  refine ⟨_, ?_, ?_, rfl⟩
  · simp [failureCells]
  · simp

theorem firstExcess_append (points points' : List Point) : firstExcess budget (points ++ points') =
    (firstExcess budget points).or (firstExcess budget points') :=
  find?_append ..

theorem LatchedAt.check (hbudget : 0 < memory .budgetBytes)
    (hactive : memory .activeOperationCount ≠ 0)
    (hlive : point.live = memory .currentLiveBytes - memory .baselineLiveBytes)
    (hclosed : ∀ point, first = some point → LatchedAt memory (some point))
    (hopen : first = none →
      memory .budgetExceeded = 0 ∧ (Excess memory → point.requested ≠ some 0)) :
    LatchedAt ((checkBudget (point.requested.getD 0)).run memory).2
      (first.or (firstExcess (memory .budgetBytes) [point])) := by
  have hiff : memory .budgetBytes < point.live ↔ Excess memory := by rw [hlive, Excess]
  cases first with
  | some first =>
    have hfirst := hclosed first rfl
    have hflag : memory .budgetExceeded ≠ 0 := by
      rw [hfirst.1]
      exact Nat.one_ne_zero
    rw [checkBudget_kept _ (.inl hflag)]
    exact hfirst
  | none =>
    obtain ⟨hflag, hrequested⟩ := hopen rfl
    by_cases hexcess : Excess memory
    · have hfirst : firstExcess (memory .budgetBytes) [point] = some point :=
        find?_cons_of_pos (decide_eq_true (hiff.mpr hexcess))
      rw [Option.none_or, hfirst]
      obtain ⟨hraised, hfailed, hcurrent⟩ := checkBudget_first hbudget
        hactive hexcess hflag
      exact ⟨hraised, hfailed, hcurrent.trans hlive.symm, hrequested hexcess⟩
    · have hfirst : firstExcess (memory .budgetBytes) [point] = none :=
        find?_cons_of_neg fun hlt => hexcess (hiff.mp (of_decide_eq_true hlt))
      rw [Option.none_or, hfirst, checkBudget_kept _ (.inr hexcess)]
      exact ⟨hflag, hexcess⟩

theorem LatchedAt.closed (h : LatchedAt memory (some point))
    (hcells : ∀ cell ∈ failureCells, memory' cell = memory cell) :
    LatchedAt memory' (some point) := by
  obtain ⟨hflag, hsize, hlive, hrequested⟩ := h
  exact ⟨(hcells _ (by decide)).trans hflag, (hcells _ (by decide)).trans hsize,
    (hcells _ (by decide)).trans hlive, hrequested⟩

theorem LatchedAt.congr (h : LatchedAt memory first)
    (hcells : ∀ cell ∈ failureCells, memory' cell = memory cell)
    (hexcess : Excess memory' → Excess memory) : LatchedAt memory' first := by
  cases first with
  | none => exact ⟨(hcells _ (by decide)).trans h.1, fun h' => h.2 (hexcess h')⟩
  | some point => exact h.closed hcells

theorem Latched.alloc (h : Latched budget baseline live points memory) (size : Nat) :
    Latched budget baseline ((live + size) % wordSize)
      (points ++ [⟨some size, (live + size) % wordSize - baseline⟩])
      ((recordAlloc size).run memory).2 := by
  have hbudget : 0 < memory .budgetBytes := h.budget_eq ▸ h.configured
  have hactive : memory .activeOperationCount ≠ 0 := by
    rw [h.active_eq]
    exact Nat.one_ne_zero
  constructor
  · rw [recordAlloc_other memory size (by decide), h.budget_eq]
  · rw [recordAlloc_other memory size (by decide), h.baseline_eq]
  · rw [recordAlloc_live, h.live_eq]
  · rw [recordAlloc_other memory size (by decide), h.active_eq]
  · exact h.configured
  · exact Nat.mod_lt _ (by decide)
  · obtain ⟨memory', hcells, hlive, hrun⟩ := recordAlloc_check size hbudget hactive
    have hfailure : ∀ cell ∈ failureCells, memory' cell = memory cell :=
      fun cell hcell => hcells cell (mem_append_left _ hcell)
    have hbudget' : memory' .budgetBytes = budget := (hcells _ (by decide)).trans h.budget_eq
    have hbaseline' : memory' .baselineLiveBytes = baseline :=
      (hcells _ (by decide)).trans h.baseline_eq
    have hactive' : memory' .activeOperationCount = 1 := (hcells _ (by decide)).trans h.active_eq
    rw [h.live_eq] at hlive
    have hclosed : ∀ point, firstExcess budget points = some point →
        LatchedAt memory' (some point) :=
      fun point hfirst => LatchedAt.closed (hfirst ▸ h.latch) hfailure
    have hopen : firstExcess budget points = none →
        memory' .budgetExceeded = 0 ∧ (Excess memory' → some size ≠ some 0) := by
      intro hfirst
      have hlatch := h.latch
      rw [hfirst] at hlatch
      refine ⟨(hfailure _ (by decide)).trans hlatch.1, ?_⟩
      -- An allocation of nothing cannot end the time within the budget.
      intro hexcess hsize
      obtain rfl := Option.some.inj hsize
      apply hlatch.2
      rw [Excess, hbudget', hlive, hbaseline', Nat.add_zero, Nat.mod_eq_of_lt h.fits] at hexcess
      rw [Excess, h.budget_eq, h.live_eq, h.baseline_eq]
      exact hexcess
    have hpoint : (⟨some size, (live + size) % wordSize - baseline⟩ : Point).live =
        memory' .currentLiveBytes - memory' .baselineLiveBytes := by rw [hlive, hbaseline']
    have hcheck := LatchedAt.check (hbudget' ▸ h.configured)
      (by rw [hactive']; exact Nat.one_ne_zero) hpoint hclosed hopen
    rw [hbudget', ← firstExcess_append] at hcheck
    rw [hrun]
    exact hcheck

theorem Latched.dealloc (h : Latched budget baseline live points memory) (size : Nat) :
    Latched budget baseline (live - size) points ((recordDealloc size).run memory).2 := by
  have hother : ∀ cell, cell ∉ [Cell.currentLiveBytes, .deallocationCount] →
      ((recordDealloc size).run memory).2 cell = memory cell :=
    fun cell hcell => recordDealloc_other memory size hcell
  constructor
  · rw [hother _ (by decide), h.budget_eq]
  · rw [hother _ (by decide), h.baseline_eq]
  · rw [recordDealloc_live, h.live_eq]
  · rw [hother _ (by decide), h.active_eq]
  · exact h.configured
  · exact Nat.lt_of_le_of_lt (Nat.sub_le ..) h.fits
  · refine h.latch.congr (fun cell hcell => hother cell ?_) ?_
    · revert hcell cell
      decide
    · rw [Excess, Excess, recordDealloc_live, hother _ (by decide), hother _ (by decide)]
      omega

theorem Latched.record (h : Latched budget baseline live points memory)
    (primitives : List Primitive) :
    Latched budget baseline (liveAfter live primitives)
      (points ++ pointsFrom baseline live primitives) ((record primitives).run memory).2 := by
  induction primitives generalizing live points memory with
  | nil =>
    rw [pointsFrom, append_nil]
    exact h
  | cons primitive primitives ih =>
    rw [Heap.record, run_bind, pointsFrom, ← append_assoc]
    refine ih ?_
    cases primitive with
    | alloc size => exact h.alloc size
    | dealloc size =>
      rw [Primitive.points, append_nil]
      exact h.dealloc size

end Latch

section Operation

variable {budget baseline live : Nat} {points : List Point} {memory : Memory}

/-- An operation from its guard to its report and the end of the guard. -/
def operation (primitives : List Primitive) : Code Cell (Option HeapBudgetSnapshot) := do
  let active ← beginOperation
  record primitives
  if active then
    let report ← failureIfExceeded
    dropOperation
    return report
  else return none

theorem run_snapshot {memory : Memory} : (snapshot.run memory).2 = memory ∧
    (snapshot.run memory).1.budgetExceeded = decide (memory .budgetExceeded ≠ 0) ∧
    (snapshot.run memory).1.failedAllocationSizeBytes =
      (if 0 < memory .failedAllocationSize then some (memory .failedAllocationSize) else none) ∧
    (snapshot.run memory).1.failureCurrentLiveHeapBytes = memory .failureCurrentLiveBytes ∧
    (snapshot.run memory).1.peakLiveHeapBytes =
      memory .peakLiveBytes - memory .baselineLiveBytes := by
  simp [snapshot]

theorem beginOperation_latched (hbudget : memory .budgetBytes = budget)
    (hbaseline : memory .baselineLiveBytes = baseline) (hlive : memory .currentLiveBytes = live)
    (hactive : memory .activeOperationCount = 0) (hconfigured : 0 < budget)
    (hfits : live < wordSize) :
    (beginOperation.run memory).1 = true ∧
      Latched budget baseline live [⟨none, live - baseline⟩] (beginOperation.run memory).2 := by
  have hbudget' : 0 < memory .budgetBytes := hbudget ▸ hconfigured
  obtain ⟨memory', hcells, hflag, hfailed, hactive', hrun⟩ : ∃ memory' : Memory,
      (∀ cell ∈ [Cell.budgetBytes, .baselineLiveBytes, .currentLiveBytes],
        memory' cell = memory cell) ∧ memory' .budgetExceeded = 0 ∧
      memory' .failedAllocationSize = 0 ∧ memory' .activeOperationCount = 1 ∧
      beginOperation.run memory = (true, ((checkBudget 0).run memory').2) := by
    simp only [beginOperation, trackerBeginOperation, afterCount, resetOperationState, run_bind,
      run_enabled, hbudget', decide_true, ite_true, run_store, run_accountedLiveBytes,
      run_fetchAdd, run_pure]
    refine ⟨_, ?_, ?_, ?_, ?_, rfl⟩
    · simp
    · simp
    · simp
    · simp [hactive, wordSize]
  rw [hrun]
  refine ⟨rfl, ?_⟩
  have hother : ∀ cell, cell ∉ failureCells → ((checkBudget 0).run memory').2 cell = memory' cell :=
    fun cell hcell => checkBudget_other memory' 0 hcell
  have hbudget'' : memory' .budgetBytes = budget := (hcells _ (by decide)).trans hbudget
  have hpoint : (⟨none, live - baseline⟩ : Point).live =
      memory' .currentLiveBytes - memory' .baselineLiveBytes := by
    rw [hcells _ (by decide), hcells _ (by decide), hlive, hbaseline]
  constructor
  · rw [hother _ (by decide), hbudget'']
  · rw [hother _ (by decide), hcells _ (by decide), hbaseline]
  · rw [hother _ (by decide), hcells _ (by decide), hlive]
  · rw [hother _ (by decide), hactive']
  · exact hconfigured
  · exact hfits
  · have hnone : ∀ point, (none : Option Point) = some point → LatchedAt memory' (some point) :=
      fun _ hfirst => nomatch hfirst
    have hcheck := LatchedAt.check (hbudget'' ▸ hconfigured)
      (by rw [hactive']; exact Nat.one_ne_zero) hpoint hnone fun _ => ⟨hflag, fun _ => nofun⟩
    rw [hbudget''] at hcheck
    exact hcheck

/-- What an operation reports. -/
theorem Latched.report (h : Latched budget baseline live points memory) :
    match firstExcess budget points with
    | none => (failureIfExceeded.run memory).1 = none
    | some point => ∃ taken, (failureIfExceeded.run memory).1 = some taken ∧
        taken.failedAllocationSizeBytes = point.requested ∧
        taken.failureCurrentLiveHeapBytes = point.live := by
  obtain ⟨-, hflag, hsize, hlive, -⟩ := run_snapshot
  have hlatch := h.latch
  simp only [failureIfExceeded, run_bind, run_pure]
  cases hfirst : firstExcess budget points with
  | none =>
    rw [hfirst] at hlatch
    rw [hflag, hlatch.1]
    rfl
  | some point =>
    rw [hfirst] at hlatch
    obtain ⟨hraised, hfailed, hcurrent, hrequested⟩ := hlatch
    have hexceeded : (snapshot.run memory).1.budgetExceeded = true := by
      rw [hflag, hraised]
      rfl
    refine ⟨(snapshot.run memory).1, if_pos hexceeded, ?_, hlive.trans hcurrent⟩
    rw [hsize, hfailed]
    cases hpoint : point.requested with
    | none => rfl
    | some size =>
      have hpos : 0 < size := Nat.pos_of_ne_zero fun hzero => hrequested (hzero ▸ hpoint)
      exact if_pos hpos

end Operation

section Histories

/-- A use of the heap outside of operations, or an operation. -/
inductive Usage
  | event (event : HeapEvent)
  | operation (events : List HeapEvent)
  deriving DecidableEq, Repr

inductive HistoryItem
  | configure (budgetBytes : Option Nat)
  | usage (usage : Usage)
  deriving DecidableEq, Repr

def Usage.primitives : Usage → List Primitive
  | .event used => used.primitives
  | .operation events => events.flatMap HeapEvent.primitives

def Usage.code : Usage → Code Cell Unit
  | .event used => record used.primitives
  | .operation events => do
    let _ ← Heap.operation (events.flatMap HeapEvent.primitives)
    return ()

namespace HistoryItem

def primitives : HistoryItem → List Primitive
  | .configure _ => []
  | .usage used => used.primitives

def code : HistoryItem → Code Cell Unit
  | .configure budgetBytes => configureBudget budgetBytes
  | .usage used => used.code

end HistoryItem

/-- The cells after a history; in the beginning all of them are zero. -/
def memoryAfter (history : List HistoryItem) : Memory :=
  history.foldl (fun memory item => (item.code.run memory).2) fun _ => 0

/-- The budget, the live bytes when it was configured, and the live bytes. -/
structure Account where
  budget : Nat
  baseline : Nat
  live : Nat
  deriving DecidableEq, Repr

def Account.after (account : Account) : HistoryItem → Account
  | .configure budgetBytes => ⟨budgetBytes.getD 0, account.live, account.live⟩
  | .usage usage => { account with live := liveAfter account.live usage.primitives }

def accountAfter (history : List HistoryItem) : Account :=
  history.foldl Account.after ⟨0, 0, 0⟩

variable {memory memory : Memory}

theorem record_other (primitives : List Primitive)
    (h : cell ∉ .deallocationCount :: allocationCells) (memory : Memory) :
    ((record primitives).run memory).2 cell = memory cell := by
  induction primitives generalizing memory with
  | nil => rfl
  | cons primitive primitives ih =>
    rw [record, run_bind, ih]
    cases primitive with
    | alloc size => exact recordAlloc_other memory size fun hmem => h (mem_cons_of_mem _ hmem)
    | dealloc size =>
      apply recordDealloc_other
      revert h
      cases cell <;> decide

theorem record_live {primitives : List Primitive} :
    ((record primitives).run memory).2 .currentLiveBytes =
      liveAfter (memory .currentLiveBytes) primitives := by
  induction primitives generalizing memory with
  | nil => rfl
  | cons primitive primitives ih =>
    rw [record, run_bind, ih]
    cases primitive with
    | alloc size => exact congrArg (liveAfter · primitives) (recordAlloc_live memory)
    | dealloc size => exact congrArg (liveAfter · primitives) (recordDealloc_live memory)

/-- The cells that the beginning of an operation may write. -/
def beginningCells : List Cell :=
  [.operationPeakLiveBytes, .activeOperationCount, .activeSpanId, .activeContext] ++ failureCells

theorem beginOperation_other (h : cell ∉ beginningCells) {memory : Memory} :
    (beginOperation.run memory).2 cell = memory cell := by
  have hfailure : cell ∉ failureCells := fun hmem => h (mem_append_right _ hmem)
  simp only [beginningCells, failureCells, cons_append, nil_append, mem_cons,
    not_mem_nil, or_false, not_or] at h
  by_cases henabled : 0 < memory .budgetBytes
  · simp [beginOperation, trackerBeginOperation, afterCount, resetOperationState, henabled,
      checkBudget_other _ _ hfailure, h]
  · simp [beginOperation, henabled]

theorem dropOperation_other (h : cell ∉ [Cell.activeOperationCount, .activeSpanId, .activeContext])
    (memory : Memory) : (dropOperation.run memory).2 cell = memory cell := by
  simp only [mem_cons, not_mem_nil, or_false, not_or] at h
  by_cases hlast : memory .activeOperationCount = 1
  · simp [dropOperation, hlast, h]
  · simp [dropOperation, hlast, h]

theorem dropOperation_active (h : memory .activeOperationCount = 1) :
    (dropOperation.run memory).2 .activeOperationCount = 0 := by
  simp [dropOperation, h, wordSize]

/-- The cells that an operation leaves to the allocator. -/
theorem operation_other {primitives : List Primitive} (h : cell ∉ beginningCells)
    : ((operation primitives).run memory).2 cell =
      ((record primitives).run (beginOperation.run memory).2).2 cell := by
  have hdrop : cell ∉ [Cell.activeOperationCount, .activeSpanId, .activeContext] := by
    revert h
    cases cell <;> decide
  simp only [operation, run_bind]
  split
  · simp only [run_bind, run_pure]
    rw [dropOperation_other hdrop, failureIfExceeded, run_bind, run_pure]
    exact congrFun run_snapshot.1 cell
  · rfl

/-- The cells between two items of a history. -/
structure Settled (account : Account) (memory : Memory) : Prop where
  budget_eq : memory .budgetBytes = account.budget
  baseline_eq : memory .baselineLiveBytes = account.baseline
  live_eq : memory .currentLiveBytes = account.live
  active_eq : memory .activeOperationCount = 0
  fits : account.live < wordSize

variable {account : Account}

theorem liveAfter_lt {live : Nat} (h : live < wordSize) (primitives : List Primitive) :
    liveAfter live primitives < wordSize := by
  induction primitives generalizing live with
  | nil => exact h
  | cons primitive primitives ih =>
    apply ih
    cases primitive with
    | alloc size => exact Nat.mod_lt _ (by decide)
    | dealloc size => exact Nat.lt_of_le_of_lt (Nat.sub_le ..) h

theorem Usage.code_other (used : Usage)
    (h : cell ∉ beginningCells ++ .deallocationCount :: allocationCells) (memory : Memory) :
    (used.code.run memory).2 cell = memory cell := by
  rw [mem_append, not_or] at h
  cases used with
  | event used => exact record_other used.primitives h.2 memory
  | operation events =>
    simp only [code, run_bind, run_pure]
    rw [operation_other h.1, record_other _ h.2, beginOperation_other h.1]

theorem Usage.code_live (used : Usage) (memory : Memory) :
    (used.code.run memory).2 .currentLiveBytes =
      liveAfter (memory .currentLiveBytes) used.primitives := by
  cases used with
  | event used => exact record_live
  | operation events =>
    simp only [code, run_bind, run_pure]
    rw [operation_other (by decide), record_live, beginOperation_other (by decide)]
    rfl

/-- The guard of an operation takes back its count. -/
theorem operation_active (h : Settled account memory) (primitives : List Primitive) :
    ((operation primitives).run memory).2 .activeOperationCount = 0 := by
  by_cases henabled : 0 < account.budget
  · obtain ⟨hbegun, hlatched⟩ := beginOperation_latched h.budget_eq h.baseline_eq h.live_eq
      h.active_eq henabled h.fits
    have hactive := (hlatched.record primitives).active_eq
    simp only [operation, run_bind, hbegun, ite_true, run_pure]
    apply dropOperation_active
    rw [failureIfExceeded, run_bind, run_pure, run_snapshot.1]
    exact hactive
  · have hbegin : beginOperation.run memory = (false, memory) := by
      simp [beginOperation, h.budget_eq, henabled]
    simp only [operation, run_bind, hbegin, Bool.false_eq_true, ite_false, run_pure]
    exact (record_other primitives (by decide) memory).trans h.active_eq

theorem Settled.after (h : Settled account memory) (item : HistoryItem) :
    Settled (account.after item) (item.code.run memory).2 := by
  cases item with
  | configure budgetBytes =>
    constructor
    · simp [HistoryItem.code, configureBudget, resetOperationState, Account.after]
    · simp [HistoryItem.code, configureBudget, resetOperationState, Account.after, h.live_eq]
    · simp [HistoryItem.code, configureBudget, resetOperationState, Account.after, h.live_eq]
    · simp [HistoryItem.code, configureBudget, resetOperationState, h.active_eq]
    · exact h.fits
  | usage used =>
    constructor
    · exact (used.code_other (by decide) memory).trans h.budget_eq
    · exact (used.code_other (by decide) memory).trans h.baseline_eq
    · exact (used.code_live memory).trans (congrArg (liveAfter · used.primitives) h.live_eq)
    · cases used with
      | event used => exact (record_other used.primitives (by decide) memory).trans h.active_eq
      | operation events =>
        simp only [HistoryItem.code, Usage.code, run_bind, run_pure]
        exact operation_active h _
    · exact liveAfter_lt h.fits _

theorem Settled.history (h : Settled account memory) (history : List HistoryItem) :
    Settled (history.foldl Account.after account)
      (history.foldl (fun memory item => (item.code.run memory).2) memory) := by
  induction history generalizing account memory with
  | nil => exact h
  | cons item history ih => exact ih (h.after item)

theorem settled_memoryAfter {history : List HistoryItem} :
    Settled (accountAfter history) (memoryAfter history) :=
  Settled.history ⟨rfl, rfl, rfl, rfl, by decide⟩ history

end Histories

section Reports

/-- The points of an operation that begins with an account. -/
def Account.points (account : Account) (events : List HeapEvent) : List Point :=
  ⟨none, account.live - account.baseline⟩ ::
    pointsFrom account.baseline account.live (events.flatMap HeapEvent.primitives)

/-- After every history an operation is reported as over budget if and only if the live heap
exceeds the configured budget at one of its points, and the report tells the first of them. -/
theorem operation_reports_first_excess (history : List HistoryItem) (events : List HeapEvent) :
    let account := accountAfter history
    let report := ((operation (events.flatMap HeapEvent.primitives)).run (memoryAfter history)).1
    (report.isSome = true ↔ 0 < account.budget ∧
        ∃ point ∈ account.points events, account.budget < point.live) ∧
      ∀ taken ∈ report, (account.points events).find? (fun point => account.budget < point.live) =
        some ⟨taken.failedAllocationSizeBytes, taken.failureCurrentLiveHeapBytes⟩ := by
  intro account report
  have h : Settled account (memoryAfter history) := settled_memoryAfter
  by_cases henabled : 0 < account.budget
  · obtain ⟨hbegun, hlatched⟩ := beginOperation_latched h.budget_eq h.baseline_eq h.live_eq
      h.active_eq henabled h.fits
    have hreport := (hlatched.record (events.flatMap HeapEvent.primitives)).report
    have hrun : report = (failureIfExceeded.run ((record (events.flatMap HeapEvent.primitives)).run
        (beginOperation.run (memoryAfter history)).2).2).1 := by
      simp only [report, operation, run_bind, hbegun, ite_true, run_pure]
    rw [hrun]
    change match firstExcess account.budget (account.points events) with
      | none => _
      | some point => _ at hreport
    cases hfirst : firstExcess account.budget (account.points events) with
    | none =>
      rw [hfirst] at hreport
      have hnone : ¬ ∃ point ∈ account.points events, account.budget < point.live := by
        rintro ⟨point, hpoint, hlt⟩
        exact find?_eq_none.mp hfirst point hpoint (decide_eq_true hlt)
      rw [hreport]
      simp [hnone]
    | some point =>
      rw [hfirst] at hreport
      obtain ⟨taken, htaken, hrequested, hlive⟩ := hreport
      have hexcess : account.budget < point.live := by simpa using find?_some hfirst
      rw [htaken]
      refine ⟨⟨fun _ => ⟨henabled, point, mem_of_find?_eq_some hfirst, hexcess⟩,
        fun _ => rfl⟩, ?_⟩
      intro other hother
      obtain rfl := Option.mem_some_iff.mp hother
      rw [hrequested, hlive]
      exact hfirst
  · have hbegin : beginOperation.run (memoryAfter history) = (false, memoryAfter history) := by
      simp [beginOperation, h.budget_eq, henabled]
    have hrun : report = none := by
      simp only [report, operation, run_bind, hbegin, Bool.false_eq_true, ite_false, run_pure]
    rw [hrun]
    simp [henabled]

end Reports

section Peaks

/-- The live bytes before and after each record. -/
def livesFrom : Nat → List Primitive → List Nat
  | live, [] => [live]
  | live, primitive :: primitives => live :: livesFrom (primitive.live live) primitives

/-- The totals that the allocations offer as peaks. -/
def totalsFrom : Nat → List Primitive → List Nat
  | _, [] => []
  | live, primitive :: primitives =>
    primitive.totals live ++ totalsFrom (primitive.live live) primitives

/-- A number is the greatest of some numbers and zero. -/
structure Greatest (numbers : List Nat) (greatest : Nat) : Prop where
  le : ∀ number ∈ numbers, number ≤ greatest
  mem : greatest = 0 ∨ greatest ∈ numbers

theorem Greatest.append {numbers : List Nat} {greatest : Nat} (h : Greatest numbers greatest)
    (number : Nat) : Greatest (numbers ++ [number]) (max greatest number) := by
  constructor
  · intro other hother
    rcases mem_append.mp hother with hold | hnew
    · exact (h.le other hold).trans (Nat.le_max_left ..)
    · obtain rfl := mem_singleton.mp hnew
      exact Nat.le_max_right ..
  · rcases Nat.le_total greatest number with hle | hle
    · rw [Nat.max_eq_right hle]
      exact .inr (mem_append_right _ mem_cons_self)
    · rw [Nat.max_eq_left hle]
      exact h.mem.imp_right fun hmem => mem_append_left _ hmem

variable {memory : Memory} {totals : List Nat}

/-- The peak cell holds the greatest total so far, and the live bytes are below it. -/
structure Peaked (totals : List Nat) (live : Nat) (memory : Memory) : Prop where
  live_eq : memory .currentLiveBytes = live
  greatest : Greatest totals (memory .peakLiveBytes)
  live_le : live ≤ memory .peakLiveBytes

theorem Peaked.congr {memory' : Memory} {live : Nat} (h : Peaked totals live memory)
    (hlive : memory' .currentLiveBytes = memory .currentLiveBytes)
    (hpeak : memory' .peakLiveBytes = memory .peakLiveBytes) : Peaked totals live memory' :=
  ⟨hlive.trans h.live_eq, hpeak.symm ▸ h.greatest, hpeak.symm ▸ h.live_le⟩

theorem mod_wordSize_le (total : Nat) : total % wordSize ≤ min total (wordSize - 1) :=
  Nat.le_min.mpr ⟨Nat.mod_le .., Nat.le_pred_of_lt (Nat.mod_lt _ (by decide))⟩

theorem Peaked.record {live : Nat} (h : Peaked totals live memory) (primitives : List Primitive) :
    Peaked (totals ++ totalsFrom live primitives) (liveAfter live primitives)
      ((record primitives).run memory).2 := by
  induction primitives generalizing memory totals live with
  | nil =>
    rw [totalsFrom, append_nil]
    exact h
  | cons primitive primitives ih =>
    rw [Heap.record, run_bind, totalsFrom, ← append_assoc]
    apply ih
    cases primitive with
    | alloc size =>
      refine ⟨(recordAlloc_live memory).trans (by rw [h.live_eq]; rfl), ?_, ?_⟩
      · rw [Primitive.code, recordAlloc_peak, h.live_eq]
        exact h.greatest.append _
      · rw [Primitive.code, recordAlloc_peak, h.live_eq, Primitive.live]
        exact (mod_wordSize_le _).trans (Nat.le_max_right ..)
    | dealloc size =>
      rw [Primitive.totals, append_nil]
      have hpeak : ((recordDealloc size).run memory).2 .peakLiveBytes = memory .peakLiveBytes :=
        recordDealloc_other memory size (by decide)
      refine ⟨(recordDealloc_live memory).trans (by rw [h.live_eq]; rfl), ?_, ?_⟩
      · rw [Primitive.code, hpeak]
        exact h.greatest
      · rw [Primitive.code, hpeak]
        exact (Nat.sub_le ..).trans h.live_le

theorem Peaked.after {live : Nat} (h : Peaked totals live memory) (item : HistoryItem) :
    Peaked (totals ++ totalsFrom live item.primitives) (liveAfter live item.primitives)
      (item.code.run memory).2 := by
  cases item with
  | configure budgetBytes =>
    rw [HistoryItem.primitives, totalsFrom, append_nil]
    refine h.congr ?_ ?_
    · simp [HistoryItem.code, configureBudget, resetOperationState]
    · simp [HistoryItem.code, configureBudget, resetOperationState]
  | usage used =>
    cases used with
    | event used => exact h.record used.primitives
    | operation events =>
      have hbegun : Peaked totals live (beginOperation.run memory).2 :=
        h.congr (beginOperation_other (by decide)) (beginOperation_other (by decide))
      simp only [HistoryItem.code, Usage.code, run_bind, run_pure]
      exact (hbegun.record _).congr (operation_other (by decide))
        (operation_other (by decide))

theorem liveAfter_append (live : Nat) (first second : List Primitive) :
    liveAfter live (first ++ second) = liveAfter (liveAfter live first) second :=
  foldl_append ..

theorem totalsFrom_append (live : Nat) (first second : List Primitive) :
    totalsFrom live (first ++ second) =
      totalsFrom live first ++ totalsFrom (liveAfter live first) second := by
  induction first generalizing live with
  | nil => rfl
  | cons primitive first ih =>
    rw [cons_append, totalsFrom, totalsFrom, ih, append_assoc]
    rfl

/-- All records of a history. -/
def primitivesOf (history : List HistoryItem) : List Primitive :=
  history.flatMap HistoryItem.primitives

theorem Peaked.history {live : Nat} (h : Peaked totals live memory) (history : List HistoryItem) :
    Peaked (totals ++ totalsFrom live (primitivesOf history))
      (liveAfter live (primitivesOf history))
      (history.foldl (fun memory item => (item.code.run memory).2) memory) := by
  induction history generalizing memory totals live with
  | nil =>
    rw [primitivesOf, flatMap_nil, totalsFrom, append_nil]
    exact h
  | cons item history ih =>
    have hnext := ih (h.after item)
    rw [primitivesOf, flatMap_cons, totalsFrom_append, liveAfter_append, ← append_assoc]
    exact hnext

theorem peaked_memoryAfter {history : List HistoryItem} :
    Peaked (totalsFrom 0 (primitivesOf history)) (liveAfter 0 (primitivesOf history))
      (memoryAfter history) := by
  have hinitial : Peaked [] 0 fun _ => 0 := ⟨rfl, ⟨nofun, .inl rfl⟩, Nat.le_refl 0⟩
  exact hinitial.history history

theorem account_live {account : Account} {history : List HistoryItem} :
    (history.foldl Account.after account).live = liveAfter account.live (primitivesOf history) := by
  induction history generalizing account with
  | nil => rfl
  | cons item history ih =>
    have hitem : (account.after item).live = liveAfter account.live item.primitives := by
      cases item <;> rfl
    rw [foldl_cons, ih, hitem, ← liveAfter_append]
    rfl

theorem account_baseline (account : Account) (usages : List Usage) :
    ((usages.map HistoryItem.usage).foldl Account.after account).baseline = account.baseline := by
  induction usages generalizing account with
  | nil => rfl
  | cons used usages ih => exact ih _

theorem baseline_memoryAfter {before : List HistoryItem} {budgetBytes : Option Nat}
    {since : List Usage} :
    memoryAfter (before ++ .configure budgetBytes :: since.map .usage) .baselineLiveBytes =
      liveAfter 0 (primitivesOf before) := by
  rw [settled_memoryAfter.baseline_eq, accountAfter, foldl_append, foldl_cons,
    account_baseline]
  exact account_live

theorem mem_livesFrom_self (live : Nat) (primitives : List Primitive) :
    live ∈ livesFrom live primitives := by
  cases primitives <;> exact mem_cons_self

theorem liveAfter_mem_livesFrom (live : Nat) (primitives : List Primitive) :
    liveAfter live primitives ∈ livesFrom live primitives := by
  induction primitives generalizing live with
  | nil => exact mem_cons_self
  | cons primitive primitives ih => exact mem_cons_of_mem _ (ih _)

/-- Live bytes are below the live bytes at the beginning or below some total. -/
theorem le_of_mem_livesFrom {live other bound : Nat} {primitives : List Primitive}
    (h : other ∈ livesFrom live primitives) (hlive : live ≤ bound)
    (hbound : ∀ total ∈ totalsFrom live primitives, total ≤ bound) : other ≤ bound := by
  induction primitives generalizing live with
  | nil =>
    obtain rfl := mem_singleton.mp h
    exact hlive
  | cons primitive primitives ih =>
    rcases mem_cons.mp h with rfl | hrest
    · exact hlive
    · refine ih hrest ?_ fun total htotal => hbound total (mem_append_right _ htotal)
      cases primitive with
      | alloc size =>
        exact (mod_wordSize_le _).trans (hbound _ (mem_append_left _ mem_cons_self))
      | dealloc size => exact Nat.le_trans (Nat.sub_le ..) hlive

/-- The reported peak is the greatest accounted live heap since the last configuration if and
only if no allocation of the whole history left more live bytes than there were at some moment
since then: the configuration does not reset the peak. -/
theorem peak_since_configuration_iff (before : List HistoryItem) (budgetBytes : Option Nat)
    (since : List Usage) : let history := before ++ .configure budgetBytes :: since.map .usage
    let baseline := liveAfter 0 (primitivesOf before)
    let lives := livesFrom baseline (since.flatMap Usage.primitives)
    IsGreatest {accounted | ∃ live ∈ lives, accounted = live - baseline}
        (snapshot.run (memoryAfter history)).1.peakLiveHeapBytes ↔
      ∀ total ∈ totalsFrom 0 (primitivesOf history), ∃ live ∈ lives, total ≤ live := by
  intro history baseline lives
  have hprimitives : primitivesOf history =
      primitivesOf before ++ since.flatMap Usage.primitives := by
    simp [history, primitivesOf, HistoryItem.primitives, flatMap_map]
  have hbaseline : memoryAfter history .baselineLiveBytes = baseline :=
    baseline_memoryAfter
  obtain ⟨-, hgreatest, -⟩ := peaked_memoryAfter
  have hself : baseline ∈ lives := mem_livesFrom_self ..
  -- The live bytes since the configuration are below the peak of the whole history.
  have hbelow : ∀ live ∈ lives, live ≤ memoryAfter history .peakLiveBytes := by
    intro live hlive
    rw [hprimitives, totalsFrom_append] at hgreatest
    refine le_of_mem_livesFrom hlive ?_ fun total htotal =>
      hgreatest.le total (mem_append_right _ htotal)
    exact le_of_mem_livesFrom (liveAfter_mem_livesFrom ..) (Nat.zero_le _) fun total htotal =>
      hgreatest.le total (mem_append_left _ htotal)
  rw [run_snapshot.2.2.2.2, hbaseline]
  constructor
  · rintro ⟨⟨live, hlive, heq⟩, -⟩ total htotal
    have htotal' := hgreatest.le total htotal
    have hlive' := hbelow live hlive
    by_cases hpeak : memoryAfter history .peakLiveBytes ≤ baseline
    · exact ⟨baseline, hself, htotal'.trans hpeak⟩
    · exact ⟨live, hlive, by omega⟩
  · intro h
    obtain ⟨live, hlive, hle⟩ : ∃ live ∈ lives, memoryAfter history .peakLiveBytes ≤ live := by
      rcases hgreatest.mem with hzero | hmem
      · exact ⟨baseline, hself, hzero ▸ Nat.zero_le _⟩
      · exact h _ hmem
    have hpeak : memoryAfter history .peakLiveBytes = live :=
      Nat.le_antisymm hle (hbelow live hlive)
    refine ⟨⟨live, hlive, by rw [hpeak]⟩, ?_⟩
    rintro _ ⟨other, hother, rfl⟩
    exact Nat.sub_le_sub_right (hbelow other hother) baseline

/-- Ten bytes were live before the budget was configured a second time, and none since; ten
bytes are reported. -/
theorem stale_peak_after_configuration :
    let before : List HistoryItem := [.configure (some 100), .usage (.event (.alloc 10)),
      .usage (.event (.dealloc 10))]
    let history := before ++ [.configure (some 100)]
    livesFrom (liveAfter 0 (primitivesOf before)) [] = [0] ∧
      (snapshot.run (memoryAfter history)).1.peakLiveHeapBytes = 10 ∧
      ¬ IsGreatest {accounted | ∃ live ∈ livesFrom (liveAfter 0 (primitivesOf before)) [],
        accounted = live - liveAfter 0 (primitivesOf before)}
          (snapshot.run (memoryAfter history)).1.peakLiveHeapBytes := by
  intro before history
  have hlives : livesFrom (liveAfter 0 (primitivesOf before)) [] = [0] := by decide
  have hpeak : (snapshot.run (memoryAfter history)).1.peakLiveHeapBytes = 10 := by decide +kernel
  refine ⟨hlives, hpeak, ?_⟩
  rw [hlives, hpeak]
  rintro ⟨⟨live, hlive, heq⟩, -⟩
  obtain rfl := mem_singleton.mp hlive
  rw [Nat.zero_sub] at heq
  cases heq

end Peaks

end MessagingBench.Heap
