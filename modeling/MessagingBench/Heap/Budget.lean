import MessagingBench.Core.Atomics

/-!
# The heap budget of a worker process

`embedded_heap_budget`: the allocator counts live bytes in shared cells, and while an operation
is active an allocation that leaves more live bytes than the budget raises a flag. An operation
lowers the flag when it begins and reports whether it is raised when it ends. All operations of
the process share the same cells.
-/

namespace MessagingBench.Heap

inductive Cell
  | budgetBytes
  | baselineLiveBytes
  | currentLiveBytes
  | peakLiveBytes
  | operationPeakLiveBytes
  | totalAllocatedBytes
  | allocationCount
  | deallocationCount
  | activeOperationCount
  | activeSpanId
  | activeContext
  | budgetExceeded
  | failedAllocationSize
  | failureCurrentLiveBytes
  | failurePeakLiveBytes
  | failureOperationPeakLiveBytes
  | failureTotalAllocatedBytes
  | failureAllocationCount
  | failureDeallocationCount
  | failureSpanId
  | failureContext
  deriving DecidableEq, Repr

abbrev Memory : Type := Cell → Nat

inductive HeapBudgetContext
  | unknown
  | operationEntry
  | workerCommand
  | openMlsSpanExecution
  | profilingStart
  | profilingFinish
  | profilingEmit
  deriving DecidableEq, Repr

namespace HeapBudgetContext

def toRaw : HeapBudgetContext → Nat
  | unknown => 0
  | operationEntry => 1
  | workerCommand => 2
  | openMlsSpanExecution => 3
  | profilingStart => 4
  | profilingFinish => 5
  | profilingEmit => 6

def fromRaw : Nat → HeapBudgetContext
  | 1 => operationEntry
  | 2 => workerCommand
  | 3 => openMlsSpanExecution
  | 4 => profilingStart
  | 5 => profilingFinish
  | 6 => profilingEmit
  | _ => unknown

end HeapBudgetContext

structure HeapBudgetSnapshot where
  configuredHeapBudgetBytes : Nat
  currentLiveHeapBytes : Nat
  peakLiveHeapBytes : Nat
  operationPeakLiveHeapBytes : Nat
  totalAllocatedBytes : Nat
  allocationCount : Nat
  deallocationCount : Nat
  budgetExceeded : Bool
  failedAllocationSizeBytes : Option Nat
  failureCurrentLiveHeapBytes : Nat
  failurePeakLiveHeapBytes : Nat
  failureOperationPeakLiveHeapBytes : Nat
  failureTotalAllocatedBytes : Nat
  failureAllocationCount : Nat
  failureDeallocationCount : Nat
  failureSpanId : Option Nat
  failureContext : HeapBudgetContext
  deriving DecidableEq, Repr

open Code

section Allocator

def updateMax (cell : Cell) (value : Nat) : Code Cell Unit :=
  fetchUpdate cell fun observed => if observed < value then some value else none

def subtractSaturating (cell : Cell) (value : Nat) : Code Cell Unit :=
  fetchUpdate cell fun observed => some (observed - value)

def enabled : Code Cell Bool := do
  let budget ← load .budgetBytes
  return decide (0 < budget)

def accountedLiveBytes : Code Cell Nat := do
  let current ← load .currentLiveBytes
  let baseline ← load .baselineLiveBytes
  return current - baseline

def resetOperationState : Code Cell Unit := do
  store .budgetExceeded 0
  store .failedAllocationSize 0
  store .failureCurrentLiveBytes 0
  store .failurePeakLiveBytes 0
  store .failureOperationPeakLiveBytes 0
  store .failureTotalAllocatedBytes 0
  store .failureAllocationCount 0
  store .failureDeallocationCount 0
  store .failureSpanId 0
  store .failureContext 0

/-- The fields that are written by the one that raises the flag. -/
def recordFailure (failedAllocationSize current : Nat) : Code Cell Unit := do
  store .failedAllocationSize failedAllocationSize
  store .failureCurrentLiveBytes current
  let peak ← load .peakLiveBytes
  let baseline ← load .baselineLiveBytes
  store .failurePeakLiveBytes (peak - baseline)
  let operationPeak ← load .operationPeakLiveBytes
  store .failureOperationPeakLiveBytes operationPeak
  let totalAllocated ← load .totalAllocatedBytes
  store .failureTotalAllocatedBytes totalAllocated
  let allocationCount ← load .allocationCount
  store .failureAllocationCount allocationCount
  let deallocationCount ← load .deallocationCount
  store .failureDeallocationCount deallocationCount
  let spanId ← load .activeSpanId
  store .failureSpanId spanId
  let context ← load .activeContext
  store .failureContext context

def checkBudget (failedAllocationSize : Nat) : Code Cell Unit := do
  let budget ← load .budgetBytes
  if budget = 0 then return ()
  let active ← load .activeOperationCount
  if active = 0 then return ()
  let current ← accountedLiveBytes
  if current ≤ budget then return ()
  let raised ← compareExchange .budgetExceeded 0 1
  if raised then recordFailure failedAllocationSize current

/-- What `record_alloc` does after it has added to the live bytes. -/
def afterAdd (size previous : Nat) : Code Cell Unit := do
  let current := min (previous + size) (wordSize - 1)
  updateMax .peakLiveBytes current
  let isEnabled ← enabled
  if isEnabled then
    let _ ← fetchAdd .totalAllocatedBytes size
    let _ ← fetchAdd .allocationCount 1
    let active ← load .activeOperationCount
    if 0 < active then
      let baseline ← load .baselineLiveBytes
      updateMax .operationPeakLiveBytes (current - baseline)
      checkBudget size

def recordAlloc (size : Nat) : Code Cell Unit := do
  let previous ← fetchAdd .currentLiveBytes size
  afterAdd size previous

def recordDealloc (size : Nat) : Code Cell Unit := do
  subtractSaturating .currentLiveBytes size
  let isEnabled ← enabled
  if isEnabled then
    let _ ← fetchAdd .deallocationCount 1

end Allocator

section Operations

def configureBudget (budgetBytes : Option Nat) : Code Cell Unit := do
  store .budgetBytes (budgetBytes.getD 0)
  let current ← load .currentLiveBytes
  store .baselineLiveBytes current
  resetOperationState

/-- What `begin_operation` does after it has counted the operation. -/
def afterCount : Code Cell Bool := do
  store .activeSpanId 0
  store .activeContext HeapBudgetContext.operationEntry.toRaw
  checkBudget 0
  return true

/-- `begin_operation` of the tracker; the result tells whether the guard is active. -/
def trackerBeginOperation : Code Cell Bool := do
  let isEnabled ← enabled
  if isEnabled then
    resetOperationState
    let current ← accountedLiveBytes
    store .operationPeakLiveBytes current
    let _ ← fetchAdd .activeOperationCount 1
    afterCount
  else return false

/-- `begin_operation` of the worker; without a budget there is no guard. -/
def beginOperation : Code Cell Bool := do
  let isEnabled ← enabled
  if isEnabled then trackerBeginOperation else return false

def snapshot : Code Cell HeapBudgetSnapshot := do
  let failedSize ← load .failedAllocationSize
  let configured ← load .budgetBytes
  let current ← accountedLiveBytes
  let peak ← load .peakLiveBytes
  let baseline ← load .baselineLiveBytes
  let operationPeak ← load .operationPeakLiveBytes
  let totalAllocated ← load .totalAllocatedBytes
  let allocationCount ← load .allocationCount
  let deallocationCount ← load .deallocationCount
  let exceeded ← load .budgetExceeded
  let failureCurrent ← load .failureCurrentLiveBytes
  let failurePeak ← load .failurePeakLiveBytes
  let failureOperationPeak ← load .failureOperationPeakLiveBytes
  let failureTotalAllocated ← load .failureTotalAllocatedBytes
  let failureAllocationCount ← load .failureAllocationCount
  let failureDeallocationCount ← load .failureDeallocationCount
  let failureSpan ← load .failureSpanId
  let failureContext ← load .failureContext
  return {
    configuredHeapBudgetBytes := configured
    currentLiveHeapBytes := current
    peakLiveHeapBytes := peak - baseline
    operationPeakLiveHeapBytes := operationPeak
    totalAllocatedBytes := totalAllocated
    allocationCount := allocationCount
    deallocationCount := deallocationCount
    budgetExceeded := decide (exceeded ≠ 0)
    failedAllocationSizeBytes := if 0 < failedSize then some failedSize else none
    failureCurrentLiveHeapBytes := failureCurrent
    failurePeakLiveHeapBytes := failurePeak
    failureOperationPeakLiveHeapBytes := failureOperationPeak
    failureTotalAllocatedBytes := failureTotalAllocated
    failureAllocationCount := failureAllocationCount
    failureDeallocationCount := failureDeallocationCount
    failureSpanId := if failureSpan = 0 then none else some failureSpan
    failureContext := .fromRaw failureContext }

/-- The report at the end of an operation; the attribution of the operation is left out. -/
def failureIfExceeded : Code Cell (Option HeapBudgetSnapshot) := do
  let taken ← snapshot
  return if taken.budgetExceeded then some taken else none

/-- The end of an active guard. -/
def dropOperation : Code Cell Unit := do
  let count ← fetchSub .activeOperationCount 1
  if count = 1 then
    store .activeSpanId 0
    store .activeContext 0

/-- `mark_worker_command_execution`, or the context of a span or of the profiler. -/
def setActiveContext (context : HeapBudgetContext) : Code Cell Unit :=
  store .activeContext context.toRaw

def setActiveSpanId (spanId : Option Nat) : Code Cell Unit :=
  store .activeSpanId (spanId.getD 0)

end Operations

end MessagingBench.Heap
