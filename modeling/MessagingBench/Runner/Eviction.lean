import MessagingBench.Runner.Session

/-!
# Evicting workers that failed

A worker that failed stays in the group until somebody removes it. The first active
worker that is not known to be dead publishes the removal and applies it, the others
receive it. Whoever fails on the way is recorded, counts as dead from then on, and the
eviction starts again.
-/

namespace MessagingBench.Runner

open Routine Delivery Worker

variable {ε : Type} (env : RunnerEnvironment ε) (config : RunnerConfig)

section Fanouts

/-- Workers by container. The source iterates over a hash map, so that the order of the
containers says nothing. -/
def physicalGroups (workers : List WorkerSpec) : List (String × List WorkerSpec) :=
  (workers.map (·.physicalWorkerId)).eraseDups.map fun physicalId =>
    (physicalId, workers.filter (·.physicalWorkerId == physicalId))

def batchCommands (command : WorkerSpec → Command) (epoch : WorkerSpec → Option Epoch) :
    List WorkerSpec → Phase ε (List BatchFanoutCommand)
  | [] => pure []
  | worker :: workers => do
    let request ← newRequest config worker (command worker) (epoch worker)
    let rest ← batchCommands command epoch workers
    pure (⟨worker.id, some request.requestId, request.command, request.expectedEpoch⟩ :: rest)

def buildBatchCommands (command : WorkerSpec → Command) (epoch : WorkerSpec → Option Epoch) :
    List (String × List WorkerSpec) → Phase ε (List Batch)
  | [] => pure []
  | (physicalId, group) :: groups => do
    let commands ← batchCommands config command epoch group
    let rest ← buildBatchCommands command epoch groups
    pure (⟨physicalId, commands⟩ :: rest)

/-- The result of a fan-out. -/
def fanoutResult (phase operation : String) (s : FanoutState) : Except BatchFanoutError Unit :=
  if s.failures.isEmpty then .ok () else .error ⟨phase, operation, s.failures⟩

def runBatchFanout (phase operation : String) (workers : List WorkerSpec)
    (commandsByPhysical : List Batch)
    (expectedByClient : Option (String → Option ExpectedReceiveCommitState)) :
    Phase ε (Except BatchFanoutError Unit) :=
  apply fun s =>
    let (end', e) := fanout env.toEnvironment workers expectedByClient commandsByPhysical s.env
    (fanoutResult phase operation end', { s with
      env := e
      observed := s.observed ++ [.fannedOut phase workers (fanoutResult phase operation end')] })

def commitFanout (phase operation : String) (recipients : List WorkerSpec)
    (expected : WorkerSpec → ExpectedReceiveCommitState) :
    Phase ε (Except BatchFanoutError Unit) := do
  let epoch (worker : WorkerSpec) := some (expectedEpoch (expected worker))
  let command (worker : WorkerSpec) : Command :=
    if config.processPendingFanout = true then
      .processPending (some [.commits]) none (epoch worker)
    else .receiveCommit
  let commandsByPhysical ← buildBatchCommands config command epoch (physicalGroups recipients)
  runBatchFanout env phase operation recipients commandsByPhysical
    (some fun id => (workersById recipients id).map expected)

end Fanouts

section Removal

def bestEffortProcessPendingCommitsAfterEpochRace (actor : WorkerSpec) :
    Phase ε (Option String) := do
  let request ← newRequest config actor (.processPending (some [.commits]) (some 8) none) none
  match ← attempt (sendCmdExpectOkFragmentWithContext env actor request
      "process_pending processed;") with
  | .ok message => pure (some message)
  | .error _ => pure none

/-- The actor catches up if it does not see all dead members. -/
def catchUp (actor : WorkerSpec) (missingDeadIds : List String) : Phase ε (Option String) :=
  if missingDeadIds.isEmpty then pure none
  else bestEffortProcessPendingCommitsAfterEpochRace env config actor

def isQueuedEpochRaceMessage (message : String) : Bool :=
  containsText "lost the epoch race" message && containsText "queued for retry" message

def queuedRemoveMembersRepublished (message : String) : Bool :=
  containsText "queued remove_members" message && containsText "was retried and published" message

/-- The members that are left, as the actor sees them after its retry. -/
def expectedAfterRetry (deadIds : List String) (actorAfter : GroupStateSnapshot) :
    ExpectedGroupState :=
  let expectedMembers := actorAfter.members.filter (!deadIds.contains ·)
  expectedGroupState actorAfter
    (if expectedMembers.length = actorAfter.members.length then actorAfter.epoch
      else actorAfter.epoch + 1) expectedMembers

/-- The attempts of `publish_remove_members_with_epoch_race_recovery`. -/
def publishRemoveMembers (actor : WorkerSpec) (deadIds : List String) :
    List Nat → Phase ε ExpectedGroupState
  | [] => Phase.fail "remove_members for OOM eviction kept losing the epoch race after 3 attempts"
  | _ :: attempts => do
    let actorBefore ← showGroupState env actor
    let removedIds := actorBefore.members.filter (deadIds.contains ·)
    let caughtUp ← catchUp env config actor (deadIds.filter (!actorBefore.members.contains ·))
    if caughtUp.isSome then publishRemoveMembers actor deadIds attempts
    else
      let expectedMembers := actorBefore.members.filter (!deadIds.contains ·)
      if removedIds.isEmpty then
        pure (expectedGroupState actorBefore actorBefore.epoch expectedMembers)
      else
        let expectedAfterCommit :=
          expectedGroupState actorBefore (actorBefore.epoch + 1) expectedMembers
        let request ← newRequest config actor (.removeMembers removedIds) none
        let response ← sendCommandWithContext env actor request
        if response.status = "ok" ∧
            containsText "removed locally; group commit published" response.message = true then
          pure expectedAfterCommit
        else if response.status = "ok" ∧ isQueuedEpochRaceMessage response.message = true then
          match ← bestEffortProcessPendingCommitsAfterEpochRace env config actor with
          | some message =>
            if queuedRemoveMembersRepublished message = true then
              let actorAfter ← showGroupState env actor
              pure (expectedAfterRetry deadIds actorAfter)
            else publishRemoveMembers actor deadIds attempts
          | none => publishRemoveMembers actor deadIds attempts
        else if response.status = "error" ∧
            containsText "pending commit exists" response.message = true then
          let _ ← bestEffortProcessPendingCommitsAfterEpochRace env config actor
          publishRemoveMembers actor deadIds attempts
        else fail (answerError actor response)

def publishRemoveMembersWithEpochRaceRecovery (actor : WorkerSpec) (deadIds : List String) :
    Phase ε ExpectedGroupState :=
  publishRemoveMembers env config actor deadIds [1, 2, 3]

end Removal

section Eviction

/-- The ids of the workers that report that they are in no group, if all failures say so. -/
def onlyNotInGroup (failures : List FanoutFailure) : Option (List String) :=
  let notInGroup := ((failures.filter fun failure => isNotInGroupError failure.error).map
    (·.worker.id)).eraseDups
  if notInGroup.isEmpty ∨ notInGroup.length ≠ failures.length then none else some notInGroup

def isLive (deadIds : List String) (worker : WorkerSpec) : Bool := !deadIds.contains worker.id

/-- The actor of an eviction has failed: go on without it if its failure is recorded. -/
def retryWithoutActor (actor : WorkerSpec) (deadIds : List String) (active : List WorkerSpec)
    (error : RunnerError) (again : List String → Phase ε Unit) : Phase ε Unit := do
  let goesOn ← recordProfiledWorkerFailure env config actor error.text
    "evict_oom_eviction_actor_and_retry"
    (active.find? fun worker => worker.id != actor.id && isLive deadIds worker)
  if goesOn = true then again (actor.id :: deadIds) else fail error

/-- The recipients of the removal receive it; those that fail are recorded. -/
def evictionFanout (actor : WorkerSpec) (deadIds : List String) (active : List WorkerSpec)
    (expected : ExpectedGroupState) (again : List String → Phase ε Unit) : Phase ε Unit := do
  let recipients := active.filter fun worker => worker.id != actor.id && isLive deadIds worker
  let operation := if config.processPendingFanout = true then "process_pending"
    else "receive_commit"
  match ← commitFanout env config "oom_eviction" operation recipients fun _ => .group expected with
  | .ok () => Phase.setActive (active.filter (isLive deadIds))
  | .error batchError =>
    match ← recordBatchOomFailures env config "evict_oom_eviction_recipient_and_retry" (some actor)
        batchError.failures with
    | some newDeadWorkers => again (newDeadWorkers.map (·.id) ++ deadIds)
    | none =>
      match config.resourceSweep, onlyNotInGroup batchError.failures with
      | true, some notInGroup =>
        Phase.setActive (active.filter fun worker =>
          isLive deadIds worker && !notInGroup.contains worker.id)
      | _, _ => fail (.batch batchError)

/-- One round of `evict_oom_group_members`, whatever its new starts do. -/
def evictionRound (again : List String → Phase ε Unit) (deadIds : List String) : Phase ε Unit := do
  let active ← Phase.active
  match active.find? (isLive deadIds) with
  | none => Phase.fail "No live OpenMLS member remains to evict OOM workers"
  | some actor =>
    let retry (error : RunnerError) := retryWithoutActor env config actor deadIds active error again
    match ← attempt (showGroupState env actor) with
    | .error error => retry error
    | .ok actorBefore =>
      if (actorBefore.members.filter (deadIds.contains ·)).isEmpty then
        Phase.setActive (active.filter (isLive deadIds))
      else
        match ← attempt
            (publishRemoveMembersWithEpochRaceRecovery env config actor deadIds) with
        | .error error => retry error
        | .ok expected =>
          match ← attempt (actorCommit env config actor expected "oom_eviction") with
          | .error error => retry error
          | .ok () => evictionFanout env config actor deadIds active expected again

/-- The loop of `evict_oom_group_members`. Every further round knows one more active worker
to be dead, so that as many rounds as there are active workers, and one, are enough. -/
def evictionRounds : Nat → List String → Phase ε Unit
  | 0 => fun _ => Phase.fail "eviction ran out of rounds"
  | rounds + 1 => evictionRound env config (evictionRounds rounds)

def evictOomGroupMembers (deadWorkers : List WorkerSpec) : Phase ε Unit :=
  if deadWorkers.isEmpty then pure ()
  else do
    let active ← Phase.active
    evictionRounds env config (active.length + 1) (deadWorkers.map (·.id))

end Eviction

end MessagingBench.Runner
