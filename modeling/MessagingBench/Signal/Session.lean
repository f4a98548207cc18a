import MessagingBench.Runner.Session

/-!
# The Signal runner's commands and its event log

What the phases of the Signal runner are made of: worker commands with the text their answer
must contain, fan-outs, and the log of worker failures that decides whether a phase goes on
without a worker, over an arbitrary environment. The observations that are kept have no
counterpart in the source; the log can always be written.
-/

namespace MessagingBench.Signal

open Routine Runner Worker

inductive GroupModel
  | pairwise
  | senderKeys
  deriving DecidableEq, Repr

structure WorkerSpec where
  id : String
  physicalWorkerId : String
  containerMode : ContainerMode
  profileEnabled : Bool
  deriving DecidableEq, Repr

inductive Command
  | senderKeyDistribute (recipients : List String) (generation : Option UInt64)
  | senderKeyOnboard (participants : List String) (generation : UInt64)
  | senderKeyReceiveDistribution (sender : String) (expectedGeneration : Option UInt64)
  | senderKeyEncrypt (recipients : List String) (message : String)
  | senderKeyDecrypt (sender : String) (expectedPlaintextBytes : Nat)
  | registerParticipant
  | generatePrekeyBundle
  | publishPrekeyBundle
  | updateOneTimePrekeys
  | establishSessions (participants : List String)
  | encryptMessage (recipient message : String)
  | decryptMessage (sender : String) (expectedPlaintextBytes : Option Nat)
  | removeParticipants (participants : List String)
  deriving DecidableEq, Repr

section Errors

structure FanoutFailure where
  worker : WorkerSpec
  error : String
  deriving DecidableEq, Repr

structure BatchFanoutError where
  phase : String
  operation : String
  failures : List FanoutFailure
  deriving DecidableEq, Repr

/-- The text of a failed fan-out quotes the errors of its first five failures. -/
def BatchFanoutError.text (error : BatchFanoutError) : String :=
  "batch_fanout phase=" ++ error.phase ++ " operation=" ++ error.operation ++ " failed_workers=" ++
    error.failures.length.repr ++ " sample_errors=[" ++ "; ".intercalate
      ((error.failures.take 5).map fun failure => failure.worker.id ++ ": " ++ failure.error) ++ "]"

inductive RunnerError
  | message (text : String)
  | worker (error : WorkerCommandError)
  | batch (error : BatchFanoutError)
  /-- `SenderKeyEndpointFailure` under the error of the command that failed. -/
  | endpoint (workerId : String) (cause : String)
  | expectedProfiledFailureStop (count limit : Nat)
  deriving DecidableEq, Repr

def RunnerError.text : RunnerError → String
  | .message text => text
  | .worker error => error.labelled " diagnostic="
  | .batch error => error.text
  | .endpoint workerId cause =>
    cause ++ ": Sender Keys endpoint " ++ workerId ++ " removed after resource failure"
  | .expectedProfiledFailureStop count limit =>
    "expected profiled resource-failure stop after " ++ count.repr ++ "/" ++ limit.repr ++
      " workers"

end Errors

/-- The workers and everything else the runner depends on. -/
structure RunnerEnvironment (ε : Type) where
  /-- A command is sent to a worker, in a phase that the worker may look at. -/
  send : WorkerSpec → Command → Option String → ε → Except WorkerCommandError CommandResponse × ε
  /-- Commands are fanned out; what is left are the failures after the last pass. -/
  fanout : List (WorkerSpec × Command) → ε → List FanoutFailure × ε
  /-- The evidence file names the worker or its container. -/
  oomEvidence : WorkerSpec → ε → Bool × ε
  random : Nat → ε → Nat × ε

/-- What the runner observes: the result of a command, or the failures of a fan-out. -/
inductive Observation
  | answered (worker : WorkerSpec) (command : Command) (result : Except RunnerError String)
  | fannedOut (commands : List (WorkerSpec × Command)) (failures : List FanoutFailure)

structure RunnerConfig where
  groupModel : GroupModel
  profiledFailureStopAfter : Nat
  externalDevices : Bool

def RunnerConfig.resourceSweep (config : RunnerConfig) : Bool :=
  decide (0 < config.profiledFailureStopAfter)

structure RunnerState (ε : Type) where
  env : ε
  active : List WorkerSpec
  idle : List WorkerSpec
  events : List RunnerEvent
  profiledBudgetFailures : List String
  workflowCounter : UInt64
  observed : List Observation

abbrev Phase (ε α : Type) : Type := Routine (RunnerState ε) RunnerError α

variable {ε : Type} (env : RunnerEnvironment ε) (config : RunnerConfig)

namespace Phase

def fail {α : Type} (text : String) : Phase ε α := Routine.fail (.message text)

def active : Phase ε (List WorkerSpec) := do
  let s ← get
  pure s.active

def setActive (active : List WorkerSpec) : Phase ε Unit :=
  modify fun s => { s with active := active }

/-- A number below a bound. -/
def randomRange (bound : Nat) : Phase ε Nat :=
  apply fun s =>
    ((env.random bound s.env).1 % bound, { s with env := (env.random bound s.env).2 })

def nextWorkflowId : Phase ε UInt64 :=
  apply fun s => (s.workflowCounter, { s with workflowCounter := s.workflowCounter + 1 })

end Phase

section Commands

/-- What the answer to a command means. -/
def expectOkFragment (worker : WorkerSpec) (okFragment : String) :
    Except WorkerCommandError CommandResponse → Except RunnerError String
  | .error error => .error (.worker error)
  | .ok response =>
    if response.status = "ok" ∧ containsText okFragment response.message = true then
      .ok response.message
    else .error (.message (answerText worker.id response))

def sendCmdExpectOkFragmentWithContext (worker : WorkerSpec) (command : Command)
    (phase : Option String) (okFragment : String) : Phase ε String :=
  fun s =>
    let sent := env.send worker command phase s.env
    let result := expectOkFragment worker okFragment sent.1
    (result, { s with
      env := sent.2
      observed := s.observed ++ [.answered worker command result] })

end Commands

section Failures

def isProfiledSingleton (worker : WorkerSpec) : Bool :=
  worker.profileEnabled && worker.containerMode == .singleton

def countProfiledBudgetFailure (worker : WorkerSpec) (failureClass : String) : Phase ε Unit :=
  if config.profiledFailureStopAfter = 0 ∨ isProfiledSingleton worker = false ∨
      isBudgetClass failureClass = false then pure ()
  else do
    modify fun s =>
      { s with profiledBudgetFailures := s.profiledBudgetFailures.insert worker.id }
    let s ← get
    if config.profiledFailureStopAfter ≤ s.profiledBudgetFailures.length then
      Routine.fail (.expectedProfiledFailureStop s.profiledBudgetFailures.length
        config.profiledFailureStopAfter)
    else pure ()

def recordWorkerFailure (worker : WorkerSpec) (error failureClass action : String)
    (reassignedTo : Option WorkerSpec) : Phase ε Unit := do
  modify fun s =>
    { s with events := s.events ++ [⟨worker.id, worker.physicalWorkerId, failureClass, error, action,
      reassignedTo.map (·.id)⟩] }
  countProfiledBudgetFailure config worker failureClass

/-- The classes of errors that are recorded without further evidence. -/
def isRecordedClass : WorkerErrorClass → Bool
  | .appHeapBudgetExceeded | .appHeapBudgetAllocatorAbort | .embeddedBudgetTimeout => true
  | _ => false

/-- Record the failure of a worker if there is evidence that it ran out of memory, or if the
error is of a class that says so. -/
def recordWorkerOomIfEvidenced (worker : WorkerSpec) (error action : String)
    (reassignedTo : Option WorkerSpec) : Phase ε Bool := do
  let evidence ← apply fun s =>
    ((env.oomEvidence worker s.env).1, { s with env := (env.oomEvidence worker s.env).2 })
  if evidence = true then
    recordWorkerFailure config worker error "oom_kill" action reassignedTo
    pure true
  else if isRecordedClass (classifyWorkerError error) = true then
    recordWorkerFailure config worker error (classText (classifyWorkerError error)) action
      reassignedTo
    pure true
  else pure false

end Failures

section Records

variable {env config}

/-- The failure of a worker is appended to the log; the phases see no other change. -/
structure Logged (worker : WorkerSpec) (action : String) (s s' : RunnerState ε) : Prop where
  active : s'.active = s.active
  idle : s'.idle = s.idle
  observed : s'.observed = s.observed
  events : ∃ event, s'.events = s.events ++ [event] ∧ event.failedWorkerId = worker.id ∧
    event.failureAction = action

variable {reassignedTo : Option WorkerSpec} {s s' : RunnerState ε} {worker : WorkerSpec}

theorem recordWorkerFailure_spec {error failureClass action : String}
    {result : Except RunnerError Unit}
    (h : recordWorkerFailure config worker error failureClass action reassignedTo s = (result, s')) :
    Logged worker action s s' ∧
      ∀ failure, result = .error failure → ∀ id cause, failure ≠ .endpoint id cause := by
  unfold recordWorkerFailure countProfiledBudgetFailure at h
  simp only [bind_apply, modify_apply, andThen_ok] at h
  split at h
  · cases h
    exact ⟨⟨rfl, rfl, rfl, _, rfl, rfl, rfl⟩, by simp⟩
  · simp only [bind_apply, modify_apply, andThen_ok, get_apply] at h
    split at h <;> cases h <;> exact ⟨⟨rfl, rfl, rfl, _, rfl, rfl, rfl⟩, by simp⟩

/-- A failure that is recorded in any case. -/
theorem recordWorkerFailure_true {error failureClass action : String}
    {result : Except RunnerError Bool} (h : (do
      recordWorkerFailure config worker error failureClass action reassignedTo
      pure true : Phase ε Bool) s = (result, s')) :
    Logged worker action s s' ∧ (result = .ok true ∨
      ∃ failure, result = .error failure ∧ ∀ id cause, failure ≠ .endpoint id cause) := by
  rw [bind_apply] at h
  rcases hrecord : recordWorkerFailure config worker error failureClass action reassignedTo s with
    ⟨recorded, s₁⟩
  obtain ⟨hlogged, hendpoint⟩ := recordWorkerFailure_spec hrecord
  rw [hrecord] at h
  cases recorded with
  | ok done =>
    cases h
    exact ⟨hlogged, .inl rfl⟩
  | error failure =>
    cases h
    exact ⟨hlogged, .inr ⟨failure, rfl, hendpoint failure rfl⟩⟩

/-- Either nothing is recorded, or the worker's failure is, because of evidence or because of
the class of its error. -/
theorem recordWorkerOomIfEvidenced_spec {error action : String} {result : Except RunnerError Bool}
    (h : recordWorkerOomIfEvidenced env config worker error action reassignedTo s = (result, s')) :
    result = .ok false ∧ s' = { s with env := (env.oomEvidence worker s.env).2 } ∧
        isRecordedClass (classifyWorkerError error) = false ∨
      Logged worker action s s' ∧ (result = .ok true ∨
          ∃ failure, result = .error failure ∧ ∀ id cause, failure ≠ .endpoint id cause) ∧
        ((env.oomEvidence worker s.env).1 = true ∨
          isRecordedClass (classifyWorkerError error) = true) := by
  unfold recordWorkerOomIfEvidenced at h
  rw [bind_apply, apply_apply, andThen_ok] at h
  by_cases hevidence : (env.oomEvidence worker s.env).1 = true
  · rw [if_pos hevidence] at h
    obtain ⟨hlogged, hrecorded⟩ := recordWorkerFailure_true h
    exact .inr ⟨{ hlogged with }, hrecorded, .inl hevidence⟩
  · rw [if_neg hevidence] at h
    by_cases hclass : isRecordedClass (classifyWorkerError error) = true
    · rw [if_pos hclass] at h
      obtain ⟨hlogged, hrecorded⟩ := recordWorkerFailure_true h
      exact .inr ⟨{ hlogged with }, hrecorded, .inr hclass⟩
    · rw [if_neg hclass] at h
      cases h
      exact .inl ⟨rfl, rfl, Bool.eq_false_iff.mpr hclass⟩

end Records

end MessagingBench.Signal
