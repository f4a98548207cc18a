import MessagingBench.Runner.Batches
import MessagingBench.Runner.Growth

/-!
# Removing members

`remove_n_members` lets an active worker remove others, which become idle. External
devices and profiled workers can be protected: they may act, but they are not removed.
An actor that cannot remove as many workers as requested removes fewer.
-/

namespace MessagingBench.Runner

variable {ε : Type} (env : RunnerEnvironment ε) (config : RunnerConfig)

def isExternalDevice (worker : WorkerSpec) : Bool :=
  worker.deviceKind != "" && worker.deviceKind != "scratch_container"

/-- The worker may not be removed. -/
def isProtected (protectExternalMembers protectProfileEnabledMembers : Bool) (worker : WorkerSpec) :
    Bool :=
  protectExternalMembers && isExternalDevice worker ||
    protectProfileEnabledMembers && worker.profileEnabled

def removableMemberIndices (active : List WorkerSpec) (actorIdx : Nat)
    (protectExternalMembers protectProfileEnabledMembers : Bool) : List Nat :=
  (List.range active.length).filter fun idx => idx != actorIdx &&
    active[idx]?.any fun worker => (!protectExternalMembers || !isExternalDevice worker) &&
      (!protectProfileEnabledMembers || !worker.profileEnabled)

def chooseRemoveActorAndRemovableIndices (active : List WorkerSpec) (forcedActorId : Option String)
    (protectExternalMembers protectProfileEnabledMembers : Bool) (requestedBatchSize : Nat) :
    Phase ε (Nat × List Nat) :=
  let removable (actorIdx : Nat) := removableMemberIndices active actorIdx protectExternalMembers
    protectProfileEnabledMembers
  match forcedActorId.bind fun id => active.findIdx? (·.id == id) with
  | some actorIdx => pure (actorIdx, removable actorIdx)
  | none =>
    let candidates := (List.range active.length).map fun actorIdx => (actorIdx, removable actorIdx)
    let capable := candidates.filter (decide <| requestedBatchSize ≤ ·.2.length)
    if capable.isEmpty then
      let maxRemovable := (candidates.map (·.2.length)).max?.getD 0
      let best := candidates.filter (·.2.length == maxRemovable)
      if best.isEmpty then Phase.fail "No active removal actor candidates" else choose env best
    else choose env capable

/-- The actor has failed: it is evicted, and nobody is removed. -/
def removeActorFailed (actor : WorkerSpec) (error : RunnerError) : Phase ε Unit := do
  let active ← Phase.active
  let goesOn ← recordProfiledWorkerFailure env config actor error.text
    "evict_remove_actor_and_retry" (active.find? (·.id != actor.id))
  if goesOn = true then evictOomGroupMembers env config [actor] else Routine.fail error

def removeChosen (actor : WorkerSpec) (removed : List WorkerSpec) : Phase ε Unit := do
  let removedIds := removed.map (·.id)
  let actorBefore ← showGroupState env actor
  let expectedAfterCommit := expectedGroupState actorBefore (actorBefore.epoch + 1)
    (actorBefore.members.filter (!removedIds.contains ·))
  let request ← newRequest config actor (.removeMembers removedIds) none
  match ← Routine.attempt (sendCmdExpectOkFragmentWithContext env actor request
      "removed locally; group commit published") with
  | .error error => removeActorFailed env config actor error
  | .ok _ =>
    actorCommit env config actor expectedAfterCommit "remove_member"
    let active ← Phase.active
    let expected (worker : WorkerSpec) : ExpectedReceiveCommitState :=
      if removedIds.contains worker.id then .removed expectedAfterCommit.epoch
      else .group expectedAfterCommit
    match ← commitFanout env config "remove_member" "receive_commit"
        (active.filter (·.id != actor.id)) expected with
    | .error batchError => Routine.fail (.batch batchError)
    | .ok () =>
      Routine.modify fun s => { s with
        active := s.active.filter (!removedIds.contains ·.id)
        idle := removed.reverse ++ s.idle }

def removeBatch (batchSize : Nat) (forcedActorId : Option String)
    (protectExternalMembers protectProfileEnabledMembers : Bool) (active : List WorkerSpec) :
    Phase ε Unit := do
  let (actorIdx, removableIndices) ← chooseRemoveActorAndRemovableIndices env active forcedActorId
    protectExternalMembers protectProfileEnabledMembers batchSize
  match active[actorIdx]? with
  | none => Phase.fail "index out of bounds"
  | some actor =>
    if removableIndices.isEmpty then
      Phase.fail ("Cannot remove any member from " ++ active.length.repr ++
        " active members without removing protected clients; actor=" ++ actor.id)
    else
      -- a batch that is too large is reduced, after which the source's second check passes
      let removedIndices ← draw env (min batchSize removableIndices.length) removableIndices
      removeChosen env config actor (removedIndices.filterMap (active[·]?))

def removeNMembers (batchSize : Nat) (forcedActorId : Option String)
    (protectExternalMembers protectProfileEnabledMembers : Bool) : Phase ε Unit := do
  let active ← Phase.active
  if active.length ≤ 1 then Phase.fail "Cannot remove the last remaining member"
  else if batchSize = 0 then Phase.fail "Cannot remove zero members"
  else if active.length ≤ batchSize then
    Phase.fail ("Requested remove batch of " ++ batchSize.repr ++ " members from " ++
      active.length.repr ++ " active members; actor self-removal is not supported")
  else
    removeBatch env config batchSize forcedActorId protectExternalMembers
      protectProfileEnabledMembers active

end MessagingBench.Runner
