import MessagingBench.Runner.Eviction

/-!
# Adding members

`add_n_members` takes workers from the front of the idle queue, has them publish key
packages, has one active worker add them, and lets the others receive the commit. It is
cut here after its fan-out: whatever happens before leaves the active workers alone
unless the actor fails.
-/

namespace MessagingBench.Runner

open Routine Delivery Worker

variable {ε : Type} (env : RunnerEnvironment ε) (config : RunnerConfig)

/-- How an addition stands after its fan-out, if it has not ended before. -/
inductive AddProgress
  | finished
  | fannedOut (actor : WorkerSpec) (joined failedJoiners : List WorkerSpec)
      (result : Except BatchFanoutError Unit)

/-- The position of the forced actor if it is active, or any position. -/
def addActorIndex (forcedActorId : Option String) (active : List WorkerSpec) : Phase ε Nat :=
  match forcedActorId.bind fun id => active.findIdx? (·.id == id) with
  | some index => pure index
  | none => Phase.genRange env active.length

def chooseAddActor (forcedActorId : Option String) : Phase ε (Nat × WorkerSpec) := do
  let active ← Phase.active
  let index ← addActorIndex env forcedActorId active
  match active[index]? with
  | some actor => pure (index, actor)
  | none => Phase.fail "index out of bounds"

/-- The joiners that have published a key package; failed ones are dropped. -/
def prepareJoiners (actor : WorkerSpec) : List WorkerSpec → Phase ε (List WorkerSpec)
  | [] => pure []
  | joiner :: joiners => do
    match ← attempt (sendCmdExpectOkFragment env config joiner .generateKeyPackage
        ("key package uploaded for " ++ joiner.id)) with
    | .ok _ =>
      let rest ← prepareJoiners actor joiners
      pure (joiner :: rest)
    | .error error =>
      let goesOn ← recordProfiledWorkerFailure env config joiner error.text "drop_idle_joiner"
        (some actor)
      if goesOn = true then prepareJoiners actor joiners else fail error

def joinJoiners (actor : WorkerSpec) :
    List WorkerSpec → Phase ε (List WorkerSpec × List WorkerSpec)
  | [] => pure ([], [])
  | joiner :: joiners => do
    match ← attempt (sendCmdUntilOk env config joiner .joinFromWelcome
        (joiner.id ++ " joined from welcome") "404 Not Found" untilOkRounds) with
    | .ok _ =>
      let (joined, failed) ← joinJoiners actor joiners
      pure (joiner :: joined, failed)
    | .error error =>
      let goesOn ← recordProfiledWorkerFailure env config joiner error.text
        "evict_joiner_after_add_commit" (some actor)
      if goesOn = true then
        let (joined, failed) ← joinJoiners actor joiners
        pure (joined, joiner :: failed)
      else fail error

/-- The actor has failed: the joiners are idle again, and everybody is evicted. -/
def addActorFailed (actor : WorkerSpec) (joiners : List WorkerSpec) (error : RunnerError)
    (action : String) : Phase ε Unit := do
  let active ← Phase.active
  let goesOn ← recordProfiledWorkerFailure env config actor error.text action
    (active.find? (·.id != actor.id))
  if goesOn = true then
    modify fun s => { s with idle := joiners ++ s.idle }
    evictOomGroupMembers env config (actor :: joiners)
  else fail error

/-- From the add commit to its fan-out. -/
def addPrepared (actorIndex : Nat) (actor : WorkerSpec) (joiners : List WorkerSpec) :
    Phase ε AddProgress := do
  let joinerIds := joiners.map (·.id)
  let actorBefore ← showGroupState env actor
  let expectedAfterCommit := expectedGroupState actorBefore (actorBefore.epoch + 1)
    (actorBefore.members ++ joinerIds)
  let request ← newRequest config actor (.addMembers joinerIds) none
  match ← attempt (sendCmdExpectOkFragmentWithContext env actor request
      "added locally in one commit") with
  | .error error =>
    addActorFailed env config actor joiners error "evict_add_actor_and_retry"
    pure .finished
  | .ok _ =>
    match ← attempt (actorCommit env config actor expectedAfterCommit "add_member") with
    | .error error =>
      addActorFailed env config actor joiners error "evict_add_actor_receive_and_retry"
      pure .finished
    | .ok () =>
      let (joined, failedJoiners) ← joinJoiners env config actor joiners
      let active ← Phase.active
      let result ← commitFanout env config "add_member" "receive_commit"
        (active.eraseIdx actorIndex) fun _ => .group expectedAfterCommit
      pure (.fannedOut actor joined failedJoiners result)

def addBatch (batchSize : Nat) (forcedActorId : Option String) (idle : List WorkerSpec) :
    Phase ε AddProgress := do
  let (actorIndex, actor) ← chooseAddActor env forcedActorId
  Phase.setIdle (idle.drop batchSize)
  let joiners ← prepareJoiners env config actor (idle.take batchSize)
  if joiners.isEmpty then pure .finished else addPrepared env config actorIndex actor joiners

/-- `add_n_members` up to its fan-out. -/
def addUntilFanout (batchSize : Nat) (forcedActorId : Option String) : Phase ε AddProgress := do
  let s ← get
  if s.active.isEmpty then Phase.fail "No active group member available to add new member"
  else if batchSize = 0 then Phase.fail "Cannot add zero members"
  else if s.idle.length < batchSize then
    Phase.fail ("Requested add batch of " ++ batchSize.repr ++ " members, but only " ++
      s.idle.length.repr ++ " idle workers are available")
  else addBatch env config batchSize forcedActorId s.idle

/-- The joiners become active and those that failed are evicted. -/
def addJoined (joined failed : List WorkerSpec) : Phase ε Unit := do
  modify fun s => { s with active := s.active ++ joined }
  evictOomGroupMembers env config failed

def addAfterFanout : AddProgress → Phase ε Unit
  | .finished => pure ()
  | .fannedOut _ joined failedJoiners (.ok ()) => addJoined env config joined failedJoiners
  | .fannedOut actor joined failedJoiners (.error batchError) => do
    match ← recordBatchOomFailures env config "evict_add_recipient_and_retry" (some actor)
        batchError.failures with
    | some deadWorkers => addJoined env config joined (failedJoiners ++ deadWorkers)
    | none =>
      match config.resourceSweep, onlyNotInGroup batchError.failures with
      | true, some notInGroup =>
        modify fun s =>
          { s with active := s.active.filter (!notInGroup.contains ·.id) }
      | _, _ => fail (.batch batchError)

def addNMembers (batchSize : Nat) (forcedActorId : Option String) : Phase ε Unit := do
  let progress ← addUntilFanout env config batchSize forcedActorId
  addAfterFanout env config progress

end MessagingBench.Runner
