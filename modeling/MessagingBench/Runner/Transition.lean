import MessagingBench.Runner.Shrinking

/-!
# Transitions between plateaus

`transition_to_size` adds members in batches until the group has its target size, or
removes members in batches. If external devices are to be covered, the one that has
acted least often acts next, and batches are kept small enough for the others to act as
well. The loops run for a number of rounds that is a parameter here.
-/

namespace MessagingBench.Runner

open Routine

variable {ε : Type} (env : RunnerEnvironment ε) (config : RunnerConfig)

structure TransitionSettings where
  targetSize : Nat
  externalCoverageLane : Bool
  protectProfileEnabledMembers : Bool

/-- The variables of a transition besides the workers, and the number of active workers
after each batch, which has no counterpart in the source. -/
structure TransitionLocals where
  addPlans : MembershipBatchPlans
  removePlans : MembershipBatchPlans
  profiledAddActorSeen : List String
  addActorUse : String → Nat
  removeActorUse : String → Nat
  sizes : List Nat

structure TransitionState (ε : Type) where
  runner : RunnerState ε
  locals : TransitionLocals

abbrev Transition (ε α : Type) : Type := Routine (TransitionState ε) RunnerError α

namespace Transition

def onRunner {α : Type} (x : Phase ε α) : Transition ε α := fun t =>
  ((x t.runner).1, { t with runner := (x t.runner).2 })

def onLocals (f : TransitionLocals → TransitionLocals) : Transition ε Unit :=
  modify fun t => { t with locals := f t.locals }

/-- The size of the group after a batch. -/
def noteSize : Transition ε Unit :=
  modify fun t => { t with
    locals := { t.locals with sizes := t.locals.sizes ++ [t.runner.active.length] } }

end Transition

section Actors

def leastUsedExternalActorId (active : List WorkerSpec) (actorUse : String → Nat) :
    Phase ε (Option String) :=
  match ((active.filter isExternalDevice).map fun worker => actorUse worker.id).min? with
  | none => pure none
  | some minimum => do
    let candidates ← shuffle env ((active.filter fun worker => isExternalDevice worker &&
      actorUse worker.id == minimum).map (·.id))
    pure candidates.getLast?

variable (settings : TransitionSettings)

/-- The external device that acts next, if external devices are to be covered. -/
def externalActor (active : List WorkerSpec)
    (actorUse : String → Nat) : Phase ε (Option String) :=
  if settings.externalCoverageLane = true then leastUsedExternalActorId env active actorUse
  else pure none

/-- The profiled worker that acts next, if profiled workers are protected. -/
def profiledActor (active : List WorkerSpec) (seen : List String) :
    Phase ε (Option String) :=
  if settings.protectProfileEnabledMembers = true then do
    let unseenProfiled ← shuffle env ((active.filter fun worker => worker.profileEnabled &&
      !seen.contains worker.id).map (·.id))
    pure (unseenProfiled.getLast?.or ((active.find? (·.profileEnabled)).map (·.id)))
  else pure none

def countUse (actorId : Option String) (actorUse : String → Nat) : String → Nat :=
  match actorId with
  | some id => Function.update actorUse id (actorUse id + 1)
  | none => actorUse

/-- The profiled workers that have acted. -/
def markSeen (actorId : Option String) (active : List WorkerSpec) (seen : List String) :
    List String :=
  match actorId with
  | some id => if active.any fun worker => worker.id == id && worker.profileEnabled then
      seen.insert id else seen
  | none => seen

/-- Members that are left for external devices that have not acted yet. -/
def reservedForExternal (active : List WorkerSpec)
    (actorId : Option String) (actorUse : String → Nat) (maxAllowed : Nat) : Nat :=
  if settings.externalCoverageLane = true then
    min (active.countP fun worker => isExternalDevice worker && actorId != some worker.id &&
      actorUse worker.id == 0) (maxAllowed - 1)
  else 0

def decisionCap (maxAllowed reserved : Nat) : Nat := max (maxAllowed - reserved) 1

def anyProfileEnabledRemaining (active idle : List WorkerSpec) : Bool :=
  (active ++ idle).any (·.profileEnabled)

end Actors

section Rounds

open Transition

variable (settings : TransitionSettings)

/-- A batch of additions; the result says whether the loop goes on. -/
def growBatch (active : List WorkerSpec) (maxAllowed : Nat) (locals : TransitionLocals) :
    Transition ε Bool := do
  let externalActorId ← onRunner (externalActor env settings active locals.addActorUse)
  let profiledActorId ← onRunner (profiledActor env settings active locals.profiledAddActorSeen)
  let forcedActorId := externalActorId.or profiledActorId
  let actorUse := countUse externalActorId locals.addActorUse
  let cap := decisionCap maxAllowed
    (reservedForExternal settings active externalActorId actorUse maxAllowed)
  let (decision, plans) ← onRunner (locals.addPlans.nextBatch env active.length cap externalActorId)
  onLocals fun locals => { locals with
    addActorUse := actorUse
    profiledAddActorSeen := markSeen forcedActorId active locals.profiledAddActorSeen
    addPlans := plans }
  onRunner (addNMembers env config decision.effective forcedActorId)
  noteSize
  let t ← get
  pure (!(settings.protectProfileEnabledMembers && config.resourceSweep &&
    !anyProfileEnabledRemaining t.runner.active t.runner.idle))

def growRound : Transition ε Bool := do
  let t ← get
  let maxAllowed := min (settings.targetSize - t.runner.active.length) t.runner.idle.length
  if maxAllowed = 0 then pure false
  else growBatch env config settings t.runner.active maxAllowed t.locals

/-- The loop that adds members. -/
def grow : Nat → Transition ε Unit
  | 0 => fail (.message "transition ran out of rounds")
  | rounds + 1 => do
    let t ← get
    if t.runner.active.length < settings.targetSize then
      let goesOn ← growRound env config settings
      if goesOn = true then grow rounds else pure ()
    else pure ()

/-- A batch of removals. -/
def shrinkBatch (active : List WorkerSpec) (maxAllowed : Nat) (locals : TransitionLocals) :
    Transition ε Unit := do
  let forcedActorId ← onRunner (externalActor env settings active locals.removeActorUse)
  let actorUse := countUse forcedActorId locals.removeActorUse
  let cap := decisionCap maxAllowed
    (reservedForExternal settings active forcedActorId actorUse maxAllowed)
  let (decision, plans) ← onRunner (locals.removePlans.nextBatch env active.length cap forcedActorId)
  onLocals fun locals => { locals with removeActorUse := actorUse, removePlans := plans }
  onRunner (removeNMembers env config decision.effective forcedActorId
    settings.externalCoverageLane settings.protectProfileEnabledMembers)
  noteSize

def shrinkRound : Transition ε Unit := do
  let t ← get
  let active := t.runner.active
  let maxAllowed := min (active.length - settings.targetSize) (active.length - 1)
  if maxAllowed = 0 then fail (.message "Cannot remove the last remaining member")
  else shrinkBatch env config settings active maxAllowed t.locals

/-- The loop that removes members. -/
def shrink : Nat → Transition ε Unit
  | 0 => fail (.message "transition ran out of rounds")
  | rounds + 1 => do
    let t ← get
    if settings.targetSize < t.runner.active.length then
      shrinkRound env config settings
      shrink rounds
    else pure ()

def transitionToSize (rounds : Nat) : Transition ε Unit := do
  onLocals fun locals => { locals with addActorUse := fun _ => 0 }
  grow env config settings rounds
  onLocals fun locals => { locals with removeActorUse := fun _ => 0 }
  shrink env config settings rounds

end Rounds

end MessagingBench.Runner
