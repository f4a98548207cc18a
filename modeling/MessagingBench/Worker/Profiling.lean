import MessagingBench.Core.Strand
import MessagingBench.Worker.Commands

/-!
# The profile context of an OpenMLS worker

A worker process runs the commands of several clients on the threads of one runtime. The
worker id and the benchmark context of profile events are kept per thread. After every
request a command may go on on another thread, so that the code sets them again before it
calls the client. Outcomes of requests and client operations are left open.
-/

namespace MessagingBench.Worker.Profiling

open Handler Delivery

section Contexts

structure BenchmarkContextFields where
  benchmarkPlateauIndex : Option Nat := none
  benchmarkTargetSize : Option Nat := none
  benchmarkActiveSize : Option Nat := none
  benchmarkPhase : Option String := none
  benchmarkOperation : Option String := none
  benchmarkOperationSeq : Option Nat := none
  benchmarkPayloadSize : Option Nat := none
  membershipBatchRequested : Option Nat := none
  membershipBatchEffective : Option Nat := none
  membershipBatchGroupCap : Option Nat := none
  membershipBatchTransitionCap : Option Nat := none
  membershipBatchSource : Option String := none
  deviceKind : Option String := none
  executionBackend : Option String := none
  ciphersuite : Option String := none
  deriving DecidableEq

structure BenchmarkContext extends BenchmarkContextFields where
  configuredPayloadLabel : Option String := none
  deriving DecidableEq

/-- What a thread keeps for profile events. -/
structure Locals where
  workerId : Option String := none
  benchmarkContext : Option BenchmarkContext := none

/-- The operations of a client that are profiled. -/
inductive Operation
  | createGroup
  | generateKeyPackage
  | addMembers
  | removeMembers
  | selfUpdate
  | joinFromWelcome
  | sendApplicationMessage
  | receiveApplicationMessage
  | receiveCommit
  deriving DecidableEq

/-- The benchmark operation of the context that an operation sets while it runs. -/
def Operation.benchmarkOperation : Operation → Option String
  | createGroup => none
  | generateKeyPackage => some "key_package_create"
  | addMembers => some "add_commit"
  | removeMembers => some "remove_commit"
  | selfUpdate => some "update_commit"
  | joinFromWelcome => some "welcome_receive"
  | sendApplicationMessage => some "application_message_create"
  | receiveApplicationMessage => some "application_message_receive"
  | receiveCommit => some "commit_receive"

/-- A span that ends inside an operation: what the environment of the process says, the cipher
suite of a profiled commit receive, the one that the code of the span fills in, and whether the
context of the operation is set. -/
structure Span where
  workerId : Option String := none
  deviceKind : Option String := none
  executionBackend : Option String := none
  receivedCiphersuite : Option String := none
  filledCiphersuite : Option String := none
  inContext : Bool := true

/-- The worker id and the benchmark columns of a profile event. -/
structure ProfileEvent where
  workerId : Option String
  columns : BenchmarkContext
  deriving DecidableEq

/-- The event of a span, from the state of the thread. -/
def Span.finish (span : Span) (l : Locals) : ProfileEvent where
  workerId := l.workerId.or span.workerId
  columns :=
    match l.benchmarkContext with
    | none =>
      { deviceKind := span.deviceKind
        executionBackend := span.executionBackend
        ciphersuite := span.receivedCiphersuite }
    | some context =>
      { context with
        deviceKind := context.deviceKind.or span.deviceKind
        executionBackend := context.executionBackend.or span.executionBackend
        ciphersuite := context.ciphersuite.or span.receivedCiphersuite }

/-- The code of the span completes its event. -/
def Span.fill (span : Span) (event : ProfileEvent) : ProfileEvent :=
  { event with columns :=
    { event.columns with ciphersuite := span.filledCiphersuite.or event.columns.ciphersuite } }

/-- The context of an add commit replaces the benchmark operation, the other contexts give one
where there is none. -/
def emittedOperation (operation : Operation) (present : Option String) : Option String :=
  if operation = .addMembers then operation.benchmarkOperation
  else present.or operation.benchmarkOperation

/-- The event as it is written. -/
def emitEvent (operation : Operation) (span : Span) (event : ProfileEvent) : ProfileEvent :=
  if span.inContext then
    { event with columns :=
      { event.columns with
        benchmarkOperation := emittedOperation operation event.columns.benchmarkOperation } }
  else event

/-- A written event, with the client and the operation it was written for and the benchmark
context that the operation is due to. -/
structure Emission where
  client : String
  operation : Operation
  due : BenchmarkContext
  span : Span
  event : ProfileEvent

/-- The columns of a context, completed by what the span and the operation say where the context
says nothing. -/
def BenchmarkContext.completed (context : BenchmarkContext) (operation : Operation) (span : Span) :
    BenchmarkContext :=
  { context with
    deviceKind := context.deviceKind.or span.deviceKind
    executionBackend := context.executionBackend.or span.executionBackend
    ciphersuite := context.ciphersuite.or (span.filledCiphersuite.or span.receivedCiphersuite)
    benchmarkOperation := context.benchmarkOperation.or
      (if span.inContext then operation.benchmarkOperation else none) }

/-- The event carries the worker id of the client and the benchmark context. -/
def Emission.Carries (e : Emission) : Prop :=
  e.event.workerId = some e.client ∧ e.event.columns = e.due.completed e.operation e.span

instance (e : Emission) : Decidable e.Carries := inferInstanceAs (Decidable (_ ∧ _))

/-- An operation does not replace what a context says. -/
def BenchmarkContext.Suits (context : BenchmarkContext) (operation : Operation) : Prop :=
  context.ciphersuite = none ∧ (operation = .addMembers →
    context.benchmarkOperation = none ∨ context.benchmarkOperation = some "add_commit")

instance (context : BenchmarkContext) (operation : Operation) :
    Decidable (context.Suits operation) := inferInstanceAs (Decidable (_ ∧ (_ → _)))

variable {context : BenchmarkContext}

theorem emittedOperation_eq {operation : Operation}
    (h : context.Suits operation) : emittedOperation operation context.benchmarkOperation =
      context.benchmarkOperation.or operation.benchmarkOperation := by
  unfold emittedOperation
  split
  · rename_i hadd
    subst hadd
    rcases h.2 rfl with hnone | hsome
    · rw [hnone, Option.none_or]
    · rw [hsome]
      rfl
  · rfl

theorem carries_event {client : String} {operation : Operation}
    (h : context.Suits operation) (span : Span) :
    Emission.Carries ⟨client, operation, context, span,
      emitEvent operation span (span.fill (span.finish ⟨some client, some context⟩))⟩ := by
  unfold Emission.Carries emitEvent BenchmarkContext.completed Span.fill Span.finish
  cases hin : span.inContext with
  | true => simp [h.1, emittedOperation_eq h]
  | false => simp [h.1]

end Contexts

section Code

/-- What a request or an operation comes back with: a failure, whether the delivery service
found a conflict, the spans that ended in an operation, what a received commit did, whether the
client has reached an epoch, how many, and byte strings. -/
structure Answer where
  failure : Option String := none
  conflict : Bool := false
  spans : List Span := []
  own : Bool := false
  selfRemoved : Bool := false
  welcome : Bool := false
  duplicate : Bool := false
  reached : Bool := false
  count : Nat := 0
  bodies : List Bytes := []

abbrev threading : Threading := ⟨Locals, Unit, Emission, Answer⟩

/-- An intent that waits for its retry, with the benchmark context of its command. -/
structure PendingIntent where
  intent : Worker.PendingIntent
  benchmarkContext : BenchmarkContext

/-- The client operation that carries out an intent. -/
def PendingIntent.operation (intent : PendingIntent) : Operation :=
  match intent.intent with
  | .addMembers _ _ => .addMembers
  | .removeMembers _ => .removeMembers
  | .selfUpdate => .selfUpdate

abbrev Code (α : Type) : Type := Handler threading (Option PendingIntent) α

def setWorkerId (id : String) : Code Unit :=
  act (fun l g => ({ l with workerId := some id }, g, [])) fun _ _ => ()

def setBenchmarkContext (context : BenchmarkContext) : Code Unit :=
  act (fun l g => ({ l with benchmarkContext := some context }, g, [])) fun _ _ => ()

def demand (answer : Answer) : Code Unit :=
  match answer.failure with
  | none => pure ()
  | some text => fail text

/-- Something local that may fail. -/
def consult : Code Answer := do
  let answer ← choose
  demand answer
  pure answer

/-- A request, or several at a time. -/
def request : Code Answer := do
  let answer ← await
  demand answer
  pure answer

section Client

variable (client : String)

/-- The events of an operation, from the state of the thread. -/
def emissions (operation : Operation) (due : BenchmarkContext) (suppressed : Bool)
    (spans : List Span) (l : Locals) : List Emission :=
  if suppressed then []
  else spans.map fun span =>
    ⟨client, operation, due, span, emitEvent operation span (span.fill (span.finish l))⟩

def operate (operation : Operation) (due : BenchmarkContext) (suppressed : Bool) : Code Answer := do
  let answer ← choose
  act
    (fun l g => (l, g, emissions client operation due suppressed answer.spans l)) fun _ _ => ()
  pure answer

def updateDsGroupState : Code Unit := do
  let _ ← consult
  let _ ← request
  pure ()

/-- Whether the delivery service found a conflict. -/
def publishEpochChange : Code Bool := do
  let _ ← consult
  let answer ← request
  pure answer.conflict

def treeFillPhase : String := "tree_fill"

def isUnprofiledSetup (context : BenchmarkContext) : Bool :=
  context.benchmarkPhase == some treeFillPhase

/-- A lost commit is rolled back. -/
def rollbackIf (conflict : Bool) : Code Unit := do
  if conflict then
    let _ ← consult
    pure ()
  else pure ()

/-- Carry out an intent, which is due to a benchmark context; whether it lost the epoch race. -/
def tryStartIntent (due : BenchmarkContext) (intent : PendingIntent) : Code Bool := do
  setWorkerId client
  setBenchmarkContext intent.benchmarkContext
  let answer ← operate client intent.operation due
    (intent.operation == .selfUpdate && isUnprofiledSetup intent.benchmarkContext)
  demand answer
  let conflict ← publishEpochChange
  rollbackIf conflict
  pure conflict

/-- Carry out the intent of a command; one that lost the epoch race is kept for a retry. -/
def startOrQueue (due : BenchmarkContext) (intent : PendingIntent) : Code Unit := do
  let conflict ← tryStartIntent client due intent
  if conflict then set (some intent) else pure ()

def retryIntent (intent : PendingIntent) : Code Unit := do
  let conflict ← tryStartIntent client intent.benchmarkContext intent
  set (if conflict then some intent else none)

/-- The queued intent is due to its own benchmark context. -/
def maybeRetryPendingIntent : Code Unit := do
  let queuedIntent ← get
  match queuedIntent with
  | none => pure ()
  | some intent => retryIntent client intent

variable (context : BenchmarkContext)

def restoreProfilingContext : Code Unit := do
  setWorkerId client
  setBenchmarkContext context

/-- After an own commit the welcomes are stored. -/
def publishWelcomes (welcome : Bool) : Code Unit := do
  if welcome then
    let _ ← request
    pure ()
  else pure ()

/-- What follows a commit that was applied. -/
def commitApplied (answer : Answer) : Code Unit :=
  if answer.selfRemoved then set none
  else if answer.own then do
    publishWelcomes answer.welcome
    updateDsGroupState
  else do
    updateDsGroupState
    maybeRetryPendingIntent client

def applyCommitBytes : Code Unit := do
  restoreProfilingContext client context
  let answer ← operate client .receiveCommit context (isUnprofiledSetup context)
  demand answer
  commitApplied client answer

/-- End well if the expected epoch is reached, else with the failure. -/
def settleExpected (failure : String) : Code Unit := do
  let answer ← choose
  if answer.reached then pure () else fail failure

/-- A round ends the command if the expected epoch is reached, else another one follows. -/
def unlessReached (again : Code Unit) : Code Unit := do
  let answer ← choose
  if answer.reached then pure () else again

/-- A delivery for an epoch that the client has reached is only acknowledged. -/
def ackStale (again : Code Unit) : Code Unit := do
  let acked ← await
  match acked.failure with
  | some text => settleExpected text
  | none => unlessReached again

def applyDelivery (again : Code Unit) : Code Unit := do
  let _ ← consult
  applyCommitBytes client context
  let _ ← await
  unlessReached again

/-- The rounds of the receive loop; a run of the process sees only finitely many. -/
def receiveRounds : Nat → Code Unit
  | 0 => fail "not finished"
  | rounds + 1 => do
    let delivery ← await
    match delivery.failure with
    | some text => settleExpected text
    | none =>
      if delivery.reached then ackStale (receiveRounds rounds)
      else applyDelivery client context (receiveRounds rounds)

def receiveCommitDelivery : Code Unit := do
  let rounds ← choose
  receiveRounds client context rounds.count

/-- A message that was received, or looks like a duplicate, is acknowledged. -/
def ackMessage (answer : Answer) : Code Unit := do
  if answer.failure.isNone || answer.duplicate then
    let _ ← await
    pure ()
  else demand answer

def receiveApplicationDelivery : Code Unit := do
  let _ ← request
  let _ ← consult
  restoreProfilingContext client context
  let answer ← operate client .receiveApplicationMessage context false
  ackMessage answer

def joinFromWelcome : Code Unit := do
  restoreProfilingContext client context
  let answer ← operate client .joinFromWelcome context false
  demand answer

/-- Apply pending commits in turn up to the first one that fails; how many more messages may be
processed. -/
def processCommits : Nat → Nat → Code Nat
  | 0, remaining => pure remaining
  | pending + 1, remaining => do
    let _ ← consult
    let result ← attempt (applyCommitBytes client context)
    match result with
    | .ok _ => processCommits pending (remaining - 1)
    | .error _ => pure remaining

def pendingCommitsPhase (remaining : Nat) : Code Nat := do
  let pending ← request
  processCommits client context (min pending.count remaining) remaining

def pendingWelcomesPhase (remaining : Nat) : Code Nat := do
  let answer ← await
  match answer.failure with
  | some _ => pure remaining
  | none =>
    joinFromWelcome client context
    pure (remaining - 1)

def pendingMessagesPhase (remaining : Nat) : Code Nat := do
  let _ ← attempt (receiveApplicationDelivery client context)
  pure remaining

/-- A phase runs if its kind is asked for and messages may still be processed. -/
def pendingPhase (kinds : List PendingKind) (kind : PendingKind) (phase : Nat → Code Nat)
    (remaining : Nat) : Code Nat :=
  if 0 < remaining ∧ kind ∈ kinds then phase remaining else pure remaining

def processPending (kinds : Option (List PendingKind)) (maxMessages : Option Nat)
    (context : BenchmarkContext) : Code Unit := do
  let kinds := kinds.getD [.commits, .welcomes, .applicationMessages]
  let remaining ← pendingPhase kinds .commits (pendingCommitsPhase client context)
    (maxMessages.getD usizeMax)
  let remaining ← pendingPhase kinds .welcomes (pendingWelcomesPhase client context) remaining
  let _ ← pendingPhase kinds .applicationMessages (pendingMessagesPhase client context) remaining
  let _ ← consult
  pure ()

def handleCommand (command : Command) (context : BenchmarkContext) : Code Unit :=
  match command with
  | .createGroup => do
    let answer ← operate client .createGroup context false
    demand answer
    updateDsGroupState
  | .generateKeyPackage => do
    let answer ← operate client .generateKeyPackage context false
    demand answer
    let _ ← request
    pure ()
  | .addMembers members => do
    let fetched ← request
    startOrQueue client context ⟨.addMembers members fetched.bodies, context⟩
  | .joinFromWelcome => do
    let _ ← request
    joinFromWelcome client context
  | .sendApplicationMessage _ => do
    let answer ← operate client .sendApplicationMessage context false
    demand answer
    let _ ← consult
    let _ ← request
    pure ()
  | .receiveApplicationMessage => receiveApplicationDelivery client context
  | .selfUpdate => startOrQueue client context ⟨.selfUpdate, context⟩
  | .removeMembers members => startOrQueue client context ⟨.removeMembers members, context⟩
  | .receiveCommit => receiveCommitDelivery client context
  | .processPending kinds maxMessages _ => processPending client kinds maxMessages context
  | .showGroupState => do
    let _ ← consult
    pure ()

/-- A command with the benchmark fields of its request. -/
structure Envelope where
  command : Command
  fields : BenchmarkContextFields

def Envelope.hasBenchmarkContext (envelope : Envelope) : Bool :=
  envelope.fields.benchmarkPhase.isSome || envelope.fields.benchmarkOperation.isSome ||
    envelope.fields.benchmarkPlateauIndex.isSome

def Envelope.benchmarkContext (envelope : Envelope) : BenchmarkContext :=
  { envelope.fields with
    configuredPayloadLabel := envelope.fields.benchmarkPayloadSize.map Nat.repr }

def clientCommandActor (envelope : Envelope) : Code Unit := do
  setBenchmarkContext {}
  setWorkerId client
  if envelope.hasBenchmarkContext then
    setBenchmarkContext envelope.benchmarkContext
    handleCommand client envelope.command envelope.benchmarkContext
  else handleCommand client envelope.command envelope.benchmarkContext

/-- The command as the code of a task; only the queued intent is kept. -/
def begin (client : String) (envelope : Envelope) (queuedIntent : Option PendingIntent) :
    Strand threading (Option PendingIntent) :=
  (clientCommandActor client envelope queuedIntent).bind fun r => .done r.2

end Client

end Code

end MessagingBench.Worker.Profiling
