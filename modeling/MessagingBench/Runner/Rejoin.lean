import MessagingBench.Runner.Plateau

/-!
# Removing members and letting them rejoin

With an external coverage lane every device is to be welcomed, to remove somebody and to
receive a removal a number of times. A cycle removes a victim and adds it again with the same
actor; its roles are chosen for what is missing, first for actors and victims, then for
receivers. Without the lane, one random pair of profiled members does one cycle.
-/

namespace MessagingBench.Runner

open Routine Worker

section Roles

/-- The samples of each device as victim, actor and receiver of a removal. -/
structure RejoinCounts where
  welcome : String → Nat
  actor : String → Nat
  receiver : String → Nat

/-- No sample yet. -/
def RejoinCounts.zero : RejoinCounts := ⟨fun _ => 0, fun _ => 0, fun _ => 0⟩

/-- The selection of roles fails with an error, or it panics. -/
inductive RoleFault
  | error (text : String)
  | panic (text : String)
  deriving DecidableEq, Repr

def RoleFault.text : RoleFault → String
  | .error text => text
  | .panic text => "panicked: " ++ text

structure Roles where
  actorId : String
  victimId : String
  supplementalReceiverId : Option String
  deriving DecidableEq, Repr

def belowRequired (required : Nat) (counts : String → Nat) (ids : List String) : List String :=
  ids.filter fun id => decide (counts id < required)

variable (required plateauSize : Nat)

/-- A receiver that needs a sample, another device as actor, and a victim that is not external,
not profiled if possible. -/
def selectSupplementalRemoveReceiverRoles (active : List WorkerSpec) (ids : List String)
    (actorCounts receiverCounts : String → Nat) : Except RoleFault (Option Roles) :=
  match leastSampled receiverCounts (belowRequired required receiverCounts ids) with
  | none => .ok none
  | some receiverId =>
    match leastSampled actorCounts (ids.filter (· != receiverId)) with
    | none => .error (.panic "at least two external devices are active")
    | some actorId =>
      match ((active.filter (!isExternalDevice ·)).filter fun worker =>
          worker.id != actorId && worker.id != receiverId).minOn? fun worker =>
            toLex (worker.profileEnabled, worker.id) with
      | none => .error (.error ("remove/rejoin receiver density at plateau " ++ plateauSize.repr ++
          " needs a non-external victim after external attrition"))
      | some victim => .ok (some ⟨actorId, victim.id, some receiverId⟩)

/-- The roles of the next cycle, if any sample is missing. -/
def selectRoles (active : List WorkerSpec) (ids : List String) (counts : RejoinCounts) :
    Except RoleFault (Option Roles) :=
  let actorId := leastSampled counts.actor (belowRequired required counts.actor ids)
  let others := ids.filter fun id => actorId != some id
  let victimId := (leastSampled counts.welcome (belowRequired required counts.welcome others)).or
    (leastSampled counts.welcome others)
  match actorId, victimId with
  | some actorId, some victimId => .ok (some ⟨actorId, victimId, none⟩)
  | some _, none => .error (.panic ("internal error: entered unreachable code: " ++
      "two active external devices always provide a victim"))
  | none, _ =>
    match leastSampled counts.welcome (belowRequired required counts.welcome ids) with
    | some victimId =>
      match leastSampled counts.actor (ids.filter (· != victimId)) with
      | some actorId => .ok (some ⟨actorId, victimId, none⟩)
      | none => .error (.panic "at least two external devices are active")
    | none => selectSupplementalRemoveReceiverRoles required plateauSize active ids counts.actor
        counts.receiver

/-- The workers of a cycle and the devices that receive its removal. -/
structure Cycle where
  victim : WorkerSpec
  actor : WorkerSpec
  receiverIds : List String
  deriving DecidableEq, Repr

/-- The next cycle. The last panic is that of a debug build. -/
def selectCycle (active : List WorkerSpec) (counts : RejoinCounts) :
    Except RoleFault (Option Cycle) :=
  match selectRoles required plateauSize active (externalIds active) counts with
  | .error fault => .error fault
  | .ok none => .ok none
  | .ok (some roles) =>
    match active.find? (·.id == roles.victimId), active.find? (·.id == roles.actorId) with
    | none, _ => .error (.panic "selected remove/rejoin victim remains active")
    | some _, none => .error (.panic "selected external actor remains active")
    | some victim, some actor =>
      let receiverIds := (externalIds active).filter fun id =>
        id != roles.actorId && id != roles.victimId
      if roles.supplementalReceiverId.all receiverIds.contains then
        .ok (some ⟨victim, actor, receiverIds⟩)
      else .error (.panic "assertion failed: receiver_ids.contains(required_receiver_id)")

/-- A cycle that has succeeded is a sample for everybody in it. -/
def RejoinCounts.record (counts : RejoinCounts) (cycle : Cycle) : RejoinCounts where
  welcome := if isExternalDevice cycle.victim = true then bump counts.welcome cycle.victim.id
    else counts.welcome
  actor := bump counts.actor cycle.actor.id
  receiver := cycle.receiverIds.foldl bump counts.receiver

end Roles

variable {ε : Type} (env : RunnerEnvironment ε) (config : RunnerConfig)

section Cycles

/-- The actor receives the commit with which it adds the victim again. -/
def actorReceivesAddition (actor : WorkerSpec) (expected : ExpectedGroupState) : Phase ε Unit :=
  if config.processPendingFanout = true then
    processPendingCommitExpect env config actor (.group expected)
      "remove_rejoin.actor_process_pending_add"
  else
    receiveCommitExpect env config actor "own commit accepted from DS" (.group expected)
      "remove_rejoin.actor_receive_commit_add"

/-- The recipients receive a commit of the cycle. -/
def cycleFanout (operation : String) (recipients : List WorkerSpec)
    (expected : ExpectedGroupState) : Phase ε Unit := do
  let phase := (if config.processPendingFanout = true then "remove_rejoin.fanout_process_pending_"
    else "remove_rejoin.fanout_receive_commit_") ++ operation
  match ← commitFanout env config phase "receive_commit" recipients fun _ => .group expected with
  | .ok () => pure ()
  | .error batchError => fail (.batch batchError)

/-- The first half of a cycle: the victim has a new key package and is removed. -/
def removeVictim (victim actor : WorkerSpec) : Phase ε Unit := do
  let keyPackage ← newRequest config victim .generateKeyPackage none
  let _ ← sendCommandWithContext env victim keyPackage
  let request ← newRequest config actor (.removeMembers [victim.id]) none
  let actorBefore ← showGroupState env actor
  let expectedAfterRemove := expectedGroupState actorBefore (actorBefore.epoch + 1)
    (actorBefore.members.filter (· != victim.id))
  let _ ← sendCmdExpectOkFragmentWithContext env actor request
    "removed locally; group commit published"
  actorCommit env config actor expectedAfterRemove "remove_rejoin"
  let active ← Phase.active
  cycleFanout env config "remove"
    (active.filter fun worker => worker.id != victim.id && worker.id != actor.id)
    expectedAfterRemove
  modify fun s => { s with
    active := s.active.filter (·.id != victim.id)
    idle := s.idle ++ [victim] }

/-- The second half: the victim is added and joins. -/
def addVictim (victim actor : WorkerSpec) : Phase ε Unit := do
  let request ← newRequest config actor (.addMembers [victim.id]) none
  let actorBefore ← showGroupState env actor
  let expectedAfterAdd := expectedGroupState actorBefore (actorBefore.epoch + 1)
    (actorBefore.members ++ [victim.id])
  let _ ← sendCmdExpectOkFragmentWithContext env actor request "added locally in one commit"
  actorReceivesAddition env config actor expectedAfterAdd
  let active ← Phase.active
  cycleFanout env config "add" (active.filter (·.id != actor.id)) expectedAfterAdd
  let welcome ← newRequest config victim .joinFromWelcome none
  let _ ← sendCmdExpectOkFragmentWithContext env victim welcome "joined from welcome"
  modify fun s => { s with
    active := s.active ++ [victim]
    idle := s.idle.filter (·.id != victim.id) }

def runSingleRemoveRejoinCycle (victim actor : WorkerSpec) : Phase ε Unit := do
  removeVictim env config victim actor
  addVictim env config victim actor

/-- The workers that a failed cycle has lost, if their failures are recorded. -/
def cycleFailures (victim actor : WorkerSpec) (error : RunnerError) :
    Phase ε (Option (List WorkerSpec)) := do
  let s ← get
  match error with
  | .batch batchError =>
    recordBatchOomFailures env config "quarantine_remove_rejoin_cycle_and_continue"
      (s.active.find? fun worker => worker.id != actor.id && worker.id != victim.id)
      batchError.failures
  | .worker commandError =>
    match (s.active ++ s.idle ++ [victim, actor]).find? (·.id == commandError.workerId) with
    | none => pure none
    | some failedWorker =>
      let goesOn ← recordProfiledWorkerFailure env config failedWorker error.text
        "quarantine_remove_rejoin_cycle_and_continue"
        (s.active.find? fun worker => worker.id != failedWorker.id && worker.id != victim.id)
      pure (if goesOn = true then some [failedWorker] else none)
  | _ => pure none

/-- Those who failed and the two of the cycle leave the group; the two become idle unless they
failed themselves. -/
def recoverRemoveRejoinCycleFailure (victim actor : WorkerSpec) (error : RunnerError) :
    Phase ε Bool := do
  match ← cycleFailures env config victim actor error with
  | none => pure false
  | some failedWorkers =>
    let failedIds := failedWorkers.map (·.id)
    let quarantined := [victim, actor].foldl (fun quarantined participant =>
      if quarantined.any (·.id == participant.id) then quarantined
      else quarantined ++ [participant]) failedWorkers
    evictOomGroupMembers env config quarantined
    modify fun s => { s with
      idle := s.idle.filter (!(quarantined.map (·.id)).contains ·.id) ++
        [victim, actor].filter (!failedIds.contains ·.id) }
    pure true

end Cycles

section Phases

variable (plateauSize : Nat)

/-- A round of the loop of the external branch; its result are the samples at the end. -/
def rejoinRound (required : Nat) (counts : RejoinCounts) :
    Phase ε (RejoinCounts ⊕ RejoinCounts) := do
  let s ← get
  if (externalIds s.active).length < 2 then pure (.inr counts)
  else
    match selectCycle required plateauSize s.active counts with
    | .error fault => Phase.fail fault.text
    | .ok none => pure (.inr counts)
    | .ok (some cycle) =>
      match ← attempt (runSingleRemoveRejoinCycle env config cycle.victim cycle.actor) with
      | .ok () => pure (.inl (counts.record cycle))
      | .error error =>
        let recovered ← recoverRemoveRejoinCycleFailure env config cycle.victim cycle.actor error
        if recovered = true then
          restoreDensityPlateau env config plateauSize
          pure (.inl counts)
        else fail error

def activeProfiledIndices (active : List WorkerSpec) : List Nat :=
  (List.range active.length).filter fun idx => active[idx]?.any (·.profileEnabled)

/-- Every device with the next one, if there are two. -/
def externalRemoveRejoinPairs (active : List WorkerSpec) : List (String × String) :=
  let ids := externalIds active
  if ids.length < 2 then []
  else ids.zip (ids.rotate 1)

def randomCycleFailed (externalCoverageLane : Bool) (victim actor : WorkerSpec)
    (error : RunnerError) : Phase ε Unit :=
  if externalCoverageLane = false ∧ config.resourceSweep = false then
    match error with
    | .worker commandError =>
      if commandError.command = "JoinFromWelcome" then pure () else fail error
    | _ => fail error
  else do
    let recovered ← recoverRemoveRejoinCycleFailure env config victim actor error
    if recovered = true then pure () else fail error

/-- The loop of the external branch has no bound in the source; the number of rounds is a
parameter. -/
def runRemoveRejoinPhase (externalCoverageLane : Bool) (minProfiledSamplesPerOperation : Nat)
    (rounds : Nat) : Phase ε Unit := do
  let active ← Phase.active
  let profiled := activeProfiledIndices active
  if profiled.length < 2 then pure ()
  else if externalCoverageLane = true ∧ externalRemoveRejoinPairs active ≠ [] then
    let _ ← loop (rejoinRound env config plateauSize (max minProfiledSamplesPerOperation 1))
      (.message "the remove/rejoin phase ran out of rounds") rounds .zero
    pure ()
  else
    let victimIdx ← choose env profiled
    let actorIdx ← choose env (profiled.filter (· != victimIdx))
    match active[victimIdx]?, active[actorIdx]? with
    | some victim, some actor =>
      match ← attempt (runSingleRemoveRejoinCycle env config victim actor) with
      | .ok () => pure ()
      | .error error => randomCycleFailed env config externalCoverageLane victim actor error
    | _, _ => Phase.fail "index out of bounds"

end Phases

end MessagingBench.Runner
