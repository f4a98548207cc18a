import MessagingBench.Core.Random
import MessagingBench.Runner.Fanout

/-!
# The runner's commands and its event log

What the phases are made of: worker commands with the text their answer must contain,
questions for the group state, fan-outs, and the log of worker failures that decides whether
a phase goes on without a worker. Workers, network, clock and random numbers are an arbitrary
environment. The observations that are kept have no counterpart in the source; the log can
always be written.
-/

namespace MessagingBench.Runner

open Routine Delivery Worker

section Errors

/-- Why a command was given up. -/
inductive WorkerCommandErrorClass
  | transportRetryable
  | fatalHttpStatus
  | fatalDecode
  deriving DecidableEq, Repr

/-- Its name in error texts. -/
def WorkerCommandErrorClass.asStr : WorkerCommandErrorClass → String
  | .transportRetryable => "transport-retryable"
  | .fatalHttpStatus => "fatal-http-status"
  | .fatalDecode => "fatal-decode"

/-- A command that was given up. -/
structure WorkerCommandError where
  workerId : String
  command : String
  url : String
  requestId : String
  attempts : Nat
  classification : WorkerCommandErrorClass
  lastError : String
  diagnostic : Option String
  deriving DecidableEq, Repr

/-- Nobody knows whether the command was executed. -/
def WorkerCommandError.isAmbiguousTransport (error : WorkerCommandError) : Bool :=
  error.classification == .transportRetryable

/-- The text of a failed command; the runners differ in the label of the diagnostic. -/
def WorkerCommandError.labelled (label : String) (error : WorkerCommandError) : String :=
  "runner.worker_command failed: worker=" ++ error.workerId ++ " command=" ++ error.command ++
    " url=" ++ error.url ++ " request_id=" ++ error.requestId ++ " attempts=" ++
    error.attempts.repr ++ " classification=" ++ error.classification.asStr ++ " last_error=" ++
    error.lastError ++ ((error.diagnostic.map (label ++ ·)).getD "")

/-- The text of the error. -/
def WorkerCommandError.text : WorkerCommandError → String := labelled " diagnostics="

/-- All failures of a fan-out in one text. -/
def formatFanoutFailures (failures : List FanoutFailure) : String :=
  "; ".intercalate (failures.map fun failure => failure.worker.id ++ ": " ++ failure.error)

/-- The text of the error quotes every failure. -/
def BatchFanoutError.text (error : BatchFanoutError) : String :=
  "batch_fanout phase=" ++ error.phase ++ " operation=" ++ error.operation ++ " failed_workers=" ++
    error.failures.length.repr ++ " failures=[" ++ formatFanoutFailures error.failures ++ "]"

/-- What a phase may fail with. -/
inductive RunnerError
  | message (text : String)
  | worker (error : WorkerCommandError)
  | batch (error : BatchFanoutError)
  | expectedProfiledFailureStop (count limit : Nat)
  deriving DecidableEq, Repr

/-- The text that failures are classified by. -/
def RunnerError.text : RunnerError → String
  | .message text => text
  | .worker error => error.text
  | .batch error => error.text
  | .expectedProfiledFailureStop count limit =>
    "expected profiled resource-failure stop after " ++ count.repr ++ "/" ++ limit.repr ++ " workers"

end Errors

/-- A command with the request id it is sent under. -/
structure CommandRequest where
  requestId : String
  command : Command
  expectedEpoch : Option Epoch
  deriving DecidableEq, Repr

/-- The workers and everything else the runner depends on. -/
structure RunnerEnvironment (ε : Type) extends Environment ε where
  send : WorkerSpec → CommandRequest → ε → Except WorkerCommandError CommandResponse × ε
  /-- The evidence file names the worker or its container. -/
  oomEvidence : WorkerSpec → ε → Bool × ε
  /-- The timeout of a command that is repeated has passed. -/
  expired : ε → Bool × ε
  random : Nat → ε → Nat × ε

/-- An entry of the log of worker failures. -/
structure RunnerEvent where
  failedWorkerId : String
  failedPhysicalWorkerId : String
  failureClass : String
  failureDetail : String
  failureAction : String
  reassignedToWorkerId : Option String
  deriving DecidableEq, Repr

/-- What the runner observes: the answer to a command or that it came too late, a group
state, whether it is the expected one, or the result of a fan-out. -/
inductive Observation
  | answered (worker : WorkerSpec) (request : CommandRequest)
      (result : Except WorkerCommandError CommandResponse)
  | timedOut (worker : WorkerSpec)
  | showed (worker : WorkerSpec) (result : Except String GroupStateSnapshot)
  | compared (worker : WorkerSpec) (expected : ExpectedReceiveCommitState) (reached : Bool)
  | fannedOut (phase : String) (workers : List WorkerSpec) (result : Except BatchFanoutError Unit)

/-- The settings of a run. -/
structure RunnerConfig where
  processId : String
  continueAfterProfiledFailure : Bool
  profiledFailureStopAfter : Nat
  processPendingFanout : Bool

/-- A run that is to end after so many budget failures. -/
def RunnerConfig.resourceSweep (config : RunnerConfig) : Bool :=
  decide (0 < config.profiledFailureStopAfter)

/-- What the phases work on. -/
structure RunnerState (ε : Type) where
  env : ε
  active : List WorkerSpec
  idle : List WorkerSpec
  events : List RunnerEvent
  profiledBudgetFailures : List String
  requestCounter : Nat
  observed : List Observation

/-- Code of the runner. -/
abbrev Phase (ε α : Type) : Type := Routine (RunnerState ε) RunnerError α

variable {ε : Type} (env : RunnerEnvironment ε) (config : RunnerConfig)

namespace Phase

def fail {α : Type} (text : String) : Phase ε α := Routine.fail (.message text)

def active : Phase ε (List WorkerSpec) := do
  let s ← get
  pure s.active

def setActive (active : List WorkerSpec) : Phase ε Unit :=
  modify fun s => { s with active := active }

def setIdle (idle : List WorkerSpec) : Phase ε Unit :=
  modify fun s => { s with idle := idle }

theorem active_ok {s s' : RunnerState ε} {workers : List WorkerSpec}
    (h : Phase.active s = (.ok workers, s')) : workers = s.active ∧ s' = s := by
  cases h
  exact ⟨rfl, rfl⟩

/-- The random numbers of the environment. -/
def generator : Generator (RunnerState ε) where
  next bound s := ((env.random bound s.env).1, { s with env := (env.random bound s.env).2 })

/-- A number below a bound. -/
def genRange (bound : Nat) : Phase ε Nat := (generator env).below bound

end Phase

section Commands

/-- The name of a command in request ids. -/
def kind : Command → String
  | .createGroup => "CreateGroup"
  | .generateKeyPackage => "GenerateKeyPackage"
  | .addMembers _ => "AddMembers"
  | .joinFromWelcome => "JoinFromWelcome"
  | .sendApplicationMessage _ => "SendApplicationMessage"
  | .receiveApplicationMessage => "ReceiveApplicationMessage"
  | .selfUpdate => "SelfUpdate"
  | .removeMembers _ => "RemoveMembers"
  | .receiveCommit => "ReceiveCommit"
  | .processPending _ _ _ => "ProcessPending"
  | .showGroupState => "ShowGroupState"

/-- A request with an id of its own. -/
def newRequest (worker : WorkerSpec) (command : Command) (expectedEpoch : Option Epoch) :
    Phase ε CommandRequest :=
  apply fun s =>
    (⟨"runner-" ++ config.processId ++ "-" ++ worker.id ++ "-" ++ kind command ++ "-" ++
        s.requestCounter.repr, command, expectedEpoch⟩,
      { s with requestCounter := s.requestCounter + 1 })

/-- Send a request and wait for the answer. -/
def sendCommandWithContext (worker : WorkerSpec) (request : CommandRequest) :
    Phase ε CommandResponse := do
  let result ← apply fun s =>
    ((env.send worker request s.env).1, { s with
      env := (env.send worker request s.env).2
      observed := s.observed ++ [.answered worker request (env.send worker request s.env).1] })
  match result with
  | .ok response => pure response
  | .error error => Routine.fail (.worker error)

/-- What is said of an answer that is not the expected one. -/
def answerText (workerId : String) (response : CommandResponse) : String :=
  "Worker " ++ workerId ++
    (if response.status = "ok" then " returned unexpected ok message: "
    else if response.status = "error" then " error: "
    else " returned unknown status '" ++ response.status ++ "': ") ++ response.message

/-- An answer that is not the one expected. -/
def answerError (worker : WorkerSpec) (response : CommandResponse) : RunnerError :=
  .message (answerText worker.id response)

/-- The answer must be good and contain a text. -/
def sendCmdExpectOkFragmentWithContext (worker : WorkerSpec) (request : CommandRequest)
    (okFragment : String) : Phase ε String := do
  let response ← sendCommandWithContext env worker request
  if response.status = "ok" ∧ containsText okFragment response.message = true then
    pure response.message
  else Routine.fail (answerError worker response)

/-- The same for a command without a request yet. -/
def sendCmdExpectOkFragment (worker : WorkerSpec) (command : Command) (okFragment : String) :
    Phase ε String := do
  let request ← newRequest config worker command none
  sendCmdExpectOkFragmentWithContext env worker request okFragment

/-- Whether the time for a worker is up. -/
def expired (worker : WorkerSpec) : Phase ε Bool :=
  apply fun s => ((env.expired s.env).1, { s with
    env := (env.expired s.env).2
    observed := if (env.expired s.env).1 = true then s.observed ++ [.timedOut worker]
      else s.observed })

/-- A repeated command waits 500 ms after each answer that may be retried, so that at
most this many rounds start within its timeout of 30 s. -/
def untilOkRounds : Nat := 60

/-- Send a command until it succeeds, for so many rounds. -/
def sendCmdUntilOk (worker : WorkerSpec) (command : Command) (okFragment : String)
    (retryableErrorFragment : String) : Nat → Phase ε String
  | 0 => Phase.fail ("Timeout waiting for ok fragment '" ++ okFragment ++ "' from worker " ++
      worker.id)
  | rounds + 1 => do
    let isExpired ← expired env worker
    if isExpired = true then
      Phase.fail ("Timeout waiting for ok fragment '" ++ okFragment ++ "' from worker " ++
        worker.id)
    else
      let request ← newRequest config worker command none
      let response ← sendCommandWithContext env worker request
      if response.status = "ok" ∧ containsText okFragment response.message = true then
        pure response.message
      else if response.status = "error" ∧
          containsText retryableErrorFragment response.message = true then
        sendCmdUntilOk worker command okFragment retryableErrorFragment rounds
      else Routine.fail (answerError worker response)

/-- Ask a worker for its group state. -/
def showGroupState (worker : WorkerSpec) : Phase ε GroupStateSnapshot := do
  let result ← apply fun s =>
    ((env.showGroupState worker s.env).1, { s with
      env := (env.showGroupState worker s.env).2
      observed := s.observed ++ [.showed worker (env.showGroupState worker s.env).1] })
  match result with
  | .ok snapshot => pure snapshot
  | .error text => Phase.fail text

/-- The state a group should be in after a commit. -/
def expectedGroupState (reference : GroupStateSnapshot) (epoch : Epoch) (members : List String) :
    ExpectedGroupState :=
  ⟨reference.groupId, epoch, members.insertionSort (· ≤ ·)⟩

/-- The epoch at which a worker should have arrived. -/
def expectedEpoch : ExpectedReceiveCommitState → Epoch
  | .group state => state.epoch
  | .removed epoch => epoch

end Commands

section Failures

/-- The name of a class in the log. -/
def classText : WorkerErrorClass → String
  | .appHeapBudgetExceeded => "app_heap_budget_exceeded"
  | .appHeapBudgetAllocatorAbort => "app_heap_budget_allocator_abort"
  | .embeddedBudgetTimeout => "embedded_budget_timeout"
  | .containerExit => "container_exit"
  | .cpuStarvationTimeout => "cpu_starvation_timeout"
  | .workerUnreachable => "worker_unreachable"
  | .infrastructureFailure => "infrastructure_failure"

/-- The failure classes that count towards the stop of a resource sweep. -/
def isBudgetClass (failureClass : String) : Bool :=
  failureClass == "app_heap_budget_exceeded" ||
    failureClass == "app_heap_budget_allocator_abort" ||
    failureClass == "embedded_budget_timeout" || failureClass == "cpu_starvation_timeout" ||
    failureClass == "oom_kill"

/-- A profiled worker in a container of its own. -/
def isProfiledSingleton (worker : WorkerSpec) : Bool :=
  worker.profileEnabled && worker.containerMode == .singleton

/-- The run stops once enough profiled workers have failed. -/
def countProfiledBudgetFailure (worker : WorkerSpec) (failureClass : String) : Phase ε Unit :=
  if config.profiledFailureStopAfter = 0 ∨ isProfiledSingleton worker = false ∨
      isBudgetClass failureClass = false then pure ()
  else do
    modify fun s =>
      { s with profiledBudgetFailures := s.profiledBudgetFailures.insert worker.id }
    let s ← get
    if config.profiledFailureStopAfter ≤ s.profiledBudgetFailures.length then
      Routine.fail (.expectedProfiledFailureStop s.profiledBudgetFailures.length
        config.profiledFailureStopAfter)
    else pure ()

/-- Log a failure and count it. -/
def recordFailure (worker : WorkerSpec) (error failureClass action : String)
    (reassignedTo : Option WorkerSpec) : Phase ε Unit := do
  modify fun s =>
    { s with events := s.events ++ [⟨worker.id, worker.physicalWorkerId, failureClass, error, action,
      reassignedTo.map (·.id)⟩] }
  countProfiledBudgetFailure config worker failureClass

/-- Record the failure of a worker if there is evidence that it ran out of memory or if it
is profiled on its own; the result says whether the phase goes on without it. -/
def recordProfiledWorkerFailure (worker : WorkerSpec) (error action : String)
    (reassignedTo : Option WorkerSpec) : Phase ε Bool := do
  let evidence ← apply fun s =>
    ((env.oomEvidence worker s.env).1, { s with env := (env.oomEvidence worker s.env).2 })
  if evidence = true then
    recordFailure config worker error "oom_kill" action reassignedTo
    pure (config.continueAfterProfiledFailure || !isProfiledSingleton worker)
  else if isProfiledSingleton worker = true then
    recordFailure config worker error (classText (classifyWorkerError error)) action reassignedTo
    pure config.continueAfterProfiledFailure
  else pure false

/-- Record the failures of a fan-out; none is returned as soon as one is not recorded. -/
def recordBatchOomFailures (action : String) (reassignedTo : Option WorkerSpec) :
    List FanoutFailure → Phase ε (Option (List WorkerSpec))
  | [] => pure (some [])
  | failure :: failures => do
    let goesOn ← recordProfiledWorkerFailure env config failure.worker failure.error action
      reassignedTo
    if goesOn = true then
      let rest ← recordBatchOomFailures action reassignedTo failures
      pure (rest.map (failure.worker :: ·))
    else pure none

/-- The worker says that it is in no group. -/
def isNotInGroupError (error : String) : Bool := containsText "Client is not in a group" error

end Failures

section Receiving

/-- Whether a worker has the state it should have after its commit. -/
def reconciledByState (worker : WorkerSpec) (expected : ExpectedReceiveCommitState)
    (originalError : String) : Phase ε Bool := do
  let shown ← attempt (showGroupState env worker)
  lift ((receiveCommitReconciledByState worker expected originalError
    (shown.mapError RunnerError.text)).mapError RunnerError.message)

/-- A commit whose command failed in a way that leaves open whether it was applied. -/
def reconcileReceiveCommit (worker : WorkerSpec) (request : CommandRequest) (okFragment : String)
    (expected : ExpectedReceiveCommitState) (phase : String) (error : RunnerError) :
    Phase ε Unit := do
  let reconciled ← reconciledByState env worker expected error.text
  if reconciled = true then pure ()
  else
    match ← attempt (sendCmdExpectOkFragmentWithContext env worker request okFragment) with
    | .ok _ => pure ()
    | .error retryError =>
      if isResourceBudgetFailure retryError.text = true then Routine.fail retryError
      else
        let reconciled ← reconciledByState env worker expected retryError.text
        if reconciled = true then pure ()
        else
          Phase.fail ("receive_commit failed after ambiguous transport reconciliation " ++
            "retry: worker=" ++ worker.id ++ " request_id=" ++ request.requestId ++
            " phase=" ++ phase ++ " initial_error=" ++ error.text ++ " retry_error=" ++
            retryError.text)

/-- Only transport errors are ambiguous. -/
def receiveCommitAfterError (worker : WorkerSpec) (request : CommandRequest) (okFragment : String)
    (expected : ExpectedReceiveCommitState) (phase : String) (error : RunnerError) : Phase ε Unit :=
  if isResourceBudgetFailure error.text = true then Routine.fail error
  else
    match error with
    | .worker commandError =>
      if commandError.isAmbiguousTransport = true then
        reconcileReceiveCommit env worker request okFragment expected phase error
      else Routine.fail error
    | _ => Routine.fail error

/-- A worker receives a commit and must arrive at a state. -/
def receiveCommitExpect (worker : WorkerSpec) (okFragment : String)
    (expected : ExpectedReceiveCommitState) (phase : String) : Phase ε Unit := do
  let request ← newRequest config worker .receiveCommit (some (expectedEpoch expected))
  match ← attempt (sendCmdExpectOkFragmentWithContext env worker request okFragment) with
  | .ok _ => pure ()
  | .error error => receiveCommitAfterError env worker request okFragment expected phase error

/-- Whether a worker shows the state it should be in. -/
def expectedReceiveCommitStateReached (worker : WorkerSpec)
    (expected : ExpectedReceiveCommitState) : Phase ε Bool := do
  match ← attempt (showGroupState env worker) with
  | .ok snapshot =>
    match expected with
    | .group state => pure (state.matches snapshot)
    | .removed epoch =>
      Phase.fail ("worker " ++ worker.id ++ " was expected to be removed after epoch " ++
        epoch.toNat.repr ++ ", but ShowGroupState returned " ++
        describe snapshot.groupId snapshot.epoch snapshot.members)
  | .error error =>
    match expected, containsText "Client is not in a group" error.text with
    | .removed _, true => pure true
    | _, _ =>
      Phase.fail ("could not query worker " ++ worker.id ++ " state after ProcessPending: " ++
        error.text)

/-- The end of a successful `ProcessPending`. -/
def expectReached (worker : WorkerSpec) (expected : ExpectedReceiveCommitState) (label : String) :
    Phase ε Unit := do
  let reached ← expectedReceiveCommitStateReached env worker expected
  modify fun s => { s with observed := s.observed ++ [.compared worker expected reached] }
  if reached = true then pure ()
  else Phase.fail (label ++ " completed but worker " ++ worker.id ++ " did not reach expected state")

/-- A `ProcessPending` that failed: the worker may have the expected state all the same, and
the command is repeated once. -/
def processPendingAfterError (worker : WorkerSpec) (request : CommandRequest)
    (expected : ExpectedReceiveCommitState) (phase : String) (error : RunnerError) :
    Phase ε Unit := do
  if isResourceBudgetFailure error.text = true then Routine.fail error
  else
    let reconciled ← reconciledByState env worker expected error.text
    if reconciled = true then pure ()
    else
      match ← attempt (sendCmdExpectOkFragmentWithContext env worker request
          "process_pending processed;") with
      | .ok _ => expectReached env worker expected "process_pending retry"
      | .error retryError =>
        if isResourceBudgetFailure retryError.text = true then Routine.fail retryError
        else
          let reconciled ← reconciledByState env worker expected retryError.text
          if reconciled = true then pure ()
          else
            Phase.fail ("process_pending failed after reconciliation retry: worker=" ++
              worker.id ++ " request_id=" ++ request.requestId ++ " phase=" ++ phase ++
              " initial_error=" ++ error.text ++ " retry_error=" ++ retryError.text)

/-- The same by processing pending commits. -/
def processPendingCommitExpect (worker : WorkerSpec) (expected : ExpectedReceiveCommitState)
    (phase : String) : Phase ε Unit := do
  let request ← newRequest config worker
    (.processPending (some [.commits]) (some 8) (some (expectedEpoch expected)))
    (some (expectedEpoch expected))
  match ← attempt (sendCmdExpectOkFragmentWithContext env worker request
      "process_pending processed;") with
  | .ok _ => expectReached env worker expected "process_pending"
  | .error error => processPendingAfterError env worker request expected phase error

/-- The actor itself applies its commit. -/
def actorCommit (actor : WorkerSpec) (expected : ExpectedGroupState) (phase : String) :
    Phase ε Unit :=
  if config.processPendingFanout = true then
    processPendingCommitExpect env config actor (.group expected)
      (phase ++ ".actor_process_pending")
  else
    receiveCommitExpect env config actor "own commit accepted from DS" (.group expected)
      (phase ++ ".actor_receive_commit")

end Receiving

end MessagingBench.Runner
