import MessagingBench.Worker.Actor

/-!
# Batch fan-out of the runner

`batch_fanout_workers` posts the commands of a phase, one batch for each physical worker,
asks failed clients for their group state, and posts the commands of those that are still
failing once more. An arbitrary environment decides in which order batches are completed, how
each ends, and what a client shows as its state. Latencies, parallelism and benchmark fields
are not part of the model.
-/

namespace MessagingBench.Runner

open Delivery Worker

inductive ContainerMode
  | singleton
  | packed
  deriving DecidableEq, Repr

structure WorkerSpec where
  id : String
  url : String
  physicalWorkerId : String
  containerMode : ContainerMode
  profileEnabled : Bool
  deviceKind : String
  deriving DecidableEq, Repr

structure BatchFanoutCommand where
  clientId : String
  requestId : Option String
  command : Command
  expectedEpoch : Option Epoch
  deriving DecidableEq, Repr

/-- The commands for the clients of one physical worker. -/
structure Batch where
  physicalId : String
  commands : List BatchFanoutCommand
  deriving DecidableEq, Repr

structure FanoutFailure where
  worker : WorkerSpec
  error : String
  deriving DecidableEq, Repr

structure BatchFanoutError where
  phase : String
  operation : String
  failures : List FanoutFailure
  deriving DecidableEq, Repr

structure GroupStateSnapshot where
  groupId : String
  epoch : Epoch
  members : List String
  deriving DecidableEq, Repr

structure ExpectedGroupState where
  groupId : String
  epoch : Epoch
  members : List String
  deriving DecidableEq, Repr

inductive ExpectedReceiveCommitState
  | group (state : ExpectedGroupState)
  | removed (expectedEpoch : Epoch)
  deriving DecidableEq, Repr

def ExpectedGroupState.matches (expected : ExpectedGroupState) (snapshot : GroupStateSnapshot) :
    Bool :=
  snapshot.groupId == expected.groupId && snapshot.epoch == expected.epoch &&
    snapshot.members == expected.members

/-- The worker under an id; of several the last one. -/
def workersById (workers : List WorkerSpec) (id : String) : Option WorkerSpec :=
  workers.reverse.find? (·.id == id)

section Requests

def batchCommandItem (command : BatchFanoutCommand) : BatchCommandItem :=
  ⟨command.clientId, command.requestId, command.command, command.expectedEpoch⟩

def trimEndSlashes (text : List Char) : List Char := text.rdropWhile (· == '/')

def batchPhysicalBaseUrl (workers : List WorkerSpec) (batch : Batch) : List Char :=
  match batch.commands.findSome? fun command => workersById workers command.clientId with
  | some worker =>
    match splitOnce "/client/".toList worker.url.toList with
    | some (base, _) => trimEndSlashes base
    | none => trimEndSlashes worker.url.toList
  | none => ("http://" ++ batch.physicalId ++ ":8080").toList

/-- A batch on its way: the address and the items that are posted for it. -/
structure Posted where
  batch : Batch
  url : String
  items : List BatchCommandItem
  deriving DecidableEq, Repr

def post (workers : List WorkerSpec) (batch : Batch) : Posted where
  batch := batch
  url := String.ofList (trimEndSlashes (batchPhysicalBaseUrl workers batch)) ++ "/batch-command"
  items := batch.commands.map batchCommandItem

end Requests

/-- How a post ends: without a response, with an error status, with a body that is not
a batch response, or with the results of its items. -/
inductive Exchange
  | failed (text : String)
  | rejected (status body : String)
  | unparsable (text : String)
  | parsed (items : List BatchCommandResult)
  deriving DecidableEq, Repr

section Collect

structure BatchPhysicalAttempt where
  successes : List WorkerSpec
  failures : List FanoutFailure
  timeoutCount : Nat
  connectErrorCount : Nat
  deriving DecidableEq, Repr

variable (workers : List WorkerSpec)

def failAll (commands : List BatchFanoutCommand) (error : String) :
    List FanoutFailure :=
  commands.filterMap fun command =>
    (workersById workers command.clientId).map fun worker => ⟨worker, error⟩

def itemSuccess (item : BatchCommandResult) : Option WorkerSpec :=
  if item.response.status = "ok" then workersById workers item.clientId else none

def itemFailure (item : BatchCommandResult) : Option FanoutFailure :=
  if item.response.status = "ok" then none
  else (workersById workers item.clientId).map fun worker =>
    ⟨worker, "client " ++ item.clientId ++ " batch error: " ++ item.response.message⟩

def batchFanoutCollectPhysical (commands : List BatchFanoutCommand) :
    Exchange → BatchPhysicalAttempt
  | .parsed items =>
    ⟨items.filterMap (itemSuccess workers), items.filterMap (itemFailure workers), 0, 0⟩
  | .unparsable text =>
    ⟨[], failAll workers commands ("batch response parse error: " ++ text), 0, 0⟩
  | .rejected status body =>
    ⟨[], failAll workers commands ("batch HTTP error: " ++ status ++ " " ++ body), 0, 0⟩
  | .failed text =>
    let isTimeout := containsText "timeout" text || containsText "timed out" text ||
      containsText "deadline" text
    let isConnect := containsText "unreachable" text || containsText "connect" text ||
      containsText "refused" text
    ⟨[], failAll workers commands ("batch request error: " ++ text),
      if isTimeout then commands.length else 0, if isConnect then commands.length else 0⟩

structure BatchFanoutCollectPass where
  successes : List WorkerSpec
  failures : List FanoutFailure
  requestCount : Nat
  timeoutCount : Nat
  connectErrorCount : Nat
  deriving DecidableEq, Repr

/-- The outcome of a pass whose batches are completed in the given order. -/
def batchFanoutCollectPass (attempts : List (Posted × Exchange)) :
    BatchFanoutCollectPass :=
  let collected := attempts.map fun attempt =>
    batchFanoutCollectPhysical workers attempt.1.batch.commands attempt.2
  { successes := collected.flatMap (·.successes)
    failures := collected.flatMap (·.failures)
    requestCount := collected.length
    timeoutCount := (collected.map (·.timeoutCount)).sum
    connectErrorCount := (collected.map (·.connectErrorCount)).sum }

end Collect

/-- The posts of a pass with how they end, in the order of their completion. -/
structure PassCompletion (posted : List Posted) where
  attempts : List (Posted × Exchange)
  perm : (attempts.map Prod.fst).Perm posted

/-- The network with the physical workers. -/
structure Environment (ε : Type) where
  complete : (posted : List Posted) → ε → PassCompletion posted × ε
  showGroupState : WorkerSpec → ε → Except String GroupStateSnapshot × ε

section Reconcile

def lowerText (text : String) : String := String.ofList (text.toList.map Char.toLower)

inductive WorkerErrorClass
  | appHeapBudgetExceeded
  | appHeapBudgetAllocatorAbort
  | embeddedBudgetTimeout
  | containerExit
  | cpuStarvationTimeout
  | workerUnreachable
  | infrastructureFailure
  deriving DecidableEq, Repr

def classifyWorkerError (error : String) : WorkerErrorClass :=
  let lower := lowerText error
  if containsText "app_heap_budget_exceeded" lower then .appHeapBudgetExceeded
  else if containsText "app_heap_budget_allocator_abort" lower then .appHeapBudgetAllocatorAbort
  else if containsText "embedded_budget_timeout" lower then .embeddedBudgetTimeout
  else if containsText "connection refused" lower then .containerExit
  else if containsText "timeout" lower || containsText "deadline" lower ||
      containsText "timed out" lower then .cpuStarvationTimeout
  else if containsText "connect" lower then .workerUnreachable
  else .infrastructureFailure

def isResourceBudgetFailure (error : String) : Bool :=
  match classifyWorkerError error with
  | .appHeapBudgetExceeded | .appHeapBudgetAllocatorAbort | .embeddedBudgetTimeout |
    .cpuStarvationTimeout => true
  | _ => false

def isProfiledResourceBudgetFailure (worker : WorkerSpec) (error : String) : Bool :=
  worker.profileEnabled && worker.containerMode == .singleton && isResourceBudgetFailure error

def describe (groupId : String) (epoch : Epoch) (members : List String) : String :=
  "group_id=" ++ groupId ++ " epoch=" ++ epoch.toNat.repr ++ " members=" ++ debugList members

/-- Whether a client has the state it should have after its commit. -/
def receiveCommitReconciledByState (worker : WorkerSpec) (expected : ExpectedReceiveCommitState)
    (originalError : String) : Except String GroupStateSnapshot → Except String Bool
  | .ok snapshot =>
    let got := describe snapshot.groupId snapshot.epoch snapshot.members ++ "; original_error=" ++
      originalError
    match expected with
    | .group state =>
      if state.matches snapshot then .ok true
      else if snapshot.epoch < state.epoch then .ok false
      else .error ("receive_commit ambiguous transport error could not be reconciled for worker " ++
        worker.id ++ ": expected " ++ describe state.groupId state.epoch state.members ++ "; got " ++
        got)
    | .removed expectedEpoch =>
      .error ("receive_commit ambiguous transport error could not be reconciled for removed " ++
        "worker " ++ worker.id ++ ": expected removed after epoch " ++ expectedEpoch.toNat.repr ++
        ", but ShowGroupState still returned " ++ got)
  | .error text =>
    match expected, containsText "Client is not in a group" text with
    | .removed _, true => .ok true
    | _, _ => .error ("receive_commit ambiguous transport error reconciliation could not query " ++
        "worker " ++ worker.id ++ " state: " ++ text ++ "; original_error=" ++ originalError)

/-- A client that was asked for its group state, and what it showed. -/
structure Query where
  worker : WorkerSpec
  shown : Except String GroupStateSnapshot

/-- What reconciliation has found out about a list of failures. -/
structure Reconciliation where
  reconciledIds : List String
  remaining : List FanoutFailure
  queries : List Query

variable {ε : Type} (env : Environment ε)
  (expectedByClient : String → Option ExpectedReceiveCommitState)

def reconcileFailure (failure : FanoutFailure) (e : ε) : Reconciliation × ε :=
  match expectedByClient failure.worker.id with
  | none => (⟨[], [failure], []⟩, e)
  | some expected =>
    if isProfiledResourceBudgetFailure failure.worker failure.error then (⟨[], [failure], []⟩, e)
    else
      let (shown, e) := env.showGroupState failure.worker e
      let queries := [⟨failure.worker, shown⟩]
      match receiveCommitReconciledByState failure.worker expected failure.error shown with
      | .ok true => (⟨[failure.worker.id], [failure], queries⟩, e)
      | .ok false => (⟨[], [failure], queries⟩, e)
      | .error text =>
        let error := if containsText "could not query worker" text then failure.error
          else "batch receive reconciliation failed: " ++ text ++ "; original_error=" ++
            failure.error
        (⟨[], [⟨failure.worker, error⟩], queries⟩, e)

def reconcileFailures : List FanoutFailure → ε → Reconciliation × ε
  | [], e => (⟨[], [], []⟩, e)
  | failure :: failures, e =>
    let (first, e) := reconcileFailure env expectedByClient failure e
    let (rest, e) := reconcileFailures failures e
    (⟨first.reconciledIds ++ rest.reconciledIds, first.remaining ++ rest.remaining,
      first.queries ++ rest.queries⟩, e)

def partitionBatchFailuresByReconciledState (failures : List FanoutFailure)
    (reconciledIds : List String) : List WorkerSpec × List FanoutFailure :=
  ((failures.filter (reconciledIds.contains ·.worker.id)).map (·.worker),
    failures.filter (!reconciledIds.contains ·.worker.id))

end Reconcile

section Passes

def retryBatchCommandsForFailures (commandsByPhysical : List Batch)
    (failures : List FanoutFailure) : List Batch :=
  commandsByPhysical.filterMap fun batch =>
    let retryCmds := batch.commands.filter fun command =>
      (failures.map (·.worker.id)).contains command.clientId
    if retryCmds.isEmpty then none else some ⟨batch.physicalId, retryCmds⟩

/-- Timeouts and connection errors among the failures. -/
def classifyFanoutFailures (failures : List FanoutFailure) : Nat × Nat :=
  let isTimeout (lower : String) := containsText "timeout" lower ||
    containsText "timed out" lower || containsText "deadline has elapsed" lower
  let isConnect (lower : String) := containsText "host is unreachable" lower ||
    containsText "no route to host" lower || containsText "network is unreachable" lower ||
    containsText "tcp connect" lower || containsText "connect error" lower ||
    containsText "failed to connect" lower || containsText "dns error" lower ||
    containsText "failed to resolve" lower
  (failures.countP fun failure => isTimeout (lowerText failure.error),
    failures.countP fun failure => isConnect (lowerText failure.error))

/-- What was observed in a pass. -/
structure PassRecord where
  attempts : List (Posted × Exchange)
  queries : List Query

/-- The variables of `batch_fanout_workers`, and what was observed so far. -/
structure FanoutState where
  successes : List WorkerSpec
  failures : List FanoutFailure
  retryCommands : List Batch
  requestCount : Nat
  retryPassCount : Nat
  timeoutCount : Nat
  connectErrorCount : Nat
  passes : List PassRecord

structure FanoutSummary where
  requestCount : Nat
  recipientCount : Nat
  successCount : Nat
  failureCount : Nat
  timeoutCount : Nat
  connectErrorCount : Nat
  retryPassCount : Nat
  deriving DecidableEq, Repr

def defaultFanoutRetryPasses : Nat := 1

variable {ε : Type} (env : Environment ε) (workers : List WorkerSpec)
  (expectedByClient : Option (String → Option ExpectedReceiveCommitState))

/-- The failures of a pass after reconciliation, if there is something to compare with. -/
def reconcileBatchReceiveFailures (failures : List FanoutFailure) (e : ε) :
    (List WorkerSpec × List FanoutFailure × List Query) × ε :=
  match expectedByClient with
  | none => (([], failures, []), e)
  | some expected =>
    let (reconciliation, e) := reconcileFailures env expected failures e
    let (successes, remaining) := partitionBatchFailuresByReconciledState reconciliation.remaining
      reconciliation.reconciledIds
    ((successes, remaining, reconciliation.queries), e)

/-- One round of the loop over the passes. -/
def fanoutPass (retryPass : Nat) (s : FanoutState) (e : ε) : FanoutState × ε :=
  let (completion, e) := env.complete (s.retryCommands.map (post workers)) e
  let pass := batchFanoutCollectPass workers completion.attempts
  let ((reconciled, passFailures, queries), e) :=
    reconcileBatchReceiveFailures env expectedByClient pass.failures e
  let (timeouts, connectErrors) := classifyFanoutFailures passFailures
  ({ successes := s.successes ++ pass.successes ++ reconciled
     failures := passFailures
     retryCommands := retryBatchCommandsForFailures s.retryCommands passFailures
     requestCount := s.requestCount + pass.requestCount
     retryPassCount := if retryPass = 0 then s.retryPassCount else s.retryPassCount + 1
     timeoutCount := s.timeoutCount + max pass.timeoutCount timeouts
     connectErrorCount := s.connectErrorCount + max pass.connectErrorCount connectErrors
     passes := s.passes ++ [⟨completion.attempts, queries⟩] }, e)

/-- The passes from a given one on; the loop ends early when nothing is left to send. -/
def fanoutPasses : List Nat → FanoutState → ε → FanoutState × ε
  | [], s, e => (s, e)
  | retryPass :: rest, s, e =>
    if s.retryCommands.isEmpty then (s, e)
    else
      let (s, e) := fanoutPass env workers expectedByClient retryPass s e
      fanoutPasses rest s e

def FanoutState.start (commandsByPhysical : List Batch) : FanoutState :=
  ⟨[], [], commandsByPhysical, 0, 0, 0, 0, []⟩

/-- All passes of a fan-out. -/
def fanout (commandsByPhysical : List Batch) (e : ε) : FanoutState × ε :=
  fanoutPasses env workers expectedByClient (List.range (defaultFanoutRetryPasses + 1))
    (.start commandsByPhysical) e

def FanoutState.summary (s : FanoutState) : FanoutSummary where
  requestCount := s.requestCount
  recipientCount := workers.length
  successCount := s.successes.length
  failureCount := s.failures.length
  timeoutCount := s.timeoutCount
  connectErrorCount := s.connectErrorCount
  retryPassCount := s.retryPassCount

def batchFanoutWorkers (phase operation : String) (commandsByPhysical : List Batch) (e : ε) :
    Except BatchFanoutError Unit × FanoutSummary :=
  let (s, _) := fanout env workers expectedByClient commandsByPhysical e
  (if s.failures.isEmpty then .ok () else .error ⟨phase, operation, s.failures⟩, s.summary workers)

end Passes

end MessagingBench.Runner
