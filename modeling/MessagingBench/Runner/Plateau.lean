import Mathlib.Data.Prod.Lex
import Mathlib.Data.String.Basic
import MessagingBench.Core.Counters
import MessagingBench.Core.Loop
import MessagingBench.Runner.Shrinking

/-!
# Samples of external devices at a plateau

Every external device is to act in a number of additions and removals at the same size of
the group: batches of one and eight for additions, single workers for welcomes and removals.
The loops choose the device with the fewest samples until nobody needs another one; a size
that a failure has changed is restored from the idle workers.
-/

namespace MessagingBench.Runner

open Routine Worker

variable {ε : Type} (env : RunnerEnvironment ε) (config : RunnerConfig)

section Devices

/-- A device whose samples are counted. -/
def isDensityDevice (worker : WorkerSpec) : Bool := worker.profileEnabled && isExternalDevice worker

/-- The ids of the devices, sorted. -/
def externalIds (workers : List WorkerSpec) : List String :=
  ((workers.filter isDensityDevice).map (·.id)).insertionSort (· ≤ ·)

/-- The id with the fewest samples, of several the smallest. -/
def leastSampled (counts : String → Nat) (ids : List String) : Option String :=
  ids.minOn? fun id => toLex (counts id, id)

end Devices

section Restoring

/-- A worker moves to the front of the queue. -/
def requeueFront (idle : List WorkerSpec) (id : String) : List WorkerSpec :=
  match idle.find? (·.id == id) with
  | some worker => worker :: idle.eraseP (·.id == id)
  | none => idle

/-- The idle devices move to the front, in the order of their ids. -/
def requeueExternal (idle : List WorkerSpec) : List WorkerSpec :=
  (externalIds idle).reverse.foldl requeueFront idle

variable (plateauSize : Nat)

/-- A round of the loop that fills the group up. -/
def restoreRound (_ : Unit) : Phase ε (Unit ⊕ Unit) := do
  let s ← get
  let batchSize := min (min (plateauSize - s.active.length) s.idle.length)
    maxRandomMembershipBatchSize
  if plateauSize ≤ s.active.length ∨ batchSize = 0 then pure (.inr ())
  else
    addNMembers env config batchSize ((s.active.find? isDensityDevice).map (·.id))
    let after ← get
    if after.active.length ≤ s.active.length then
      Phase.fail ("external density recovery made no progress at plateau " ++ plateauSize.repr ++
        " (active=" ++ after.active.length.repr ++ ", idle=" ++ after.idle.length.repr ++ ")")
    else pure (.inl ())

/-- The loop adds somebody in every round, so that it has as many rounds as the plateau has
members, and one. -/
def restoreDensityPlateau : Phase ε Unit := do
  modify fun s => { s with idle := requeueExternal s.idle }
  loop (restoreRound env config plateauSize) (.message "restoring ran out of rounds")
    (plateauSize + 1) ()
  let s ← get
  if s.active.length ≠ plateauSize then
    Phase.fail ("external density recovery could not restore plateau " ++ plateauSize.repr ++
      " (active=" ++ s.active.length.repr ++ ", idle=" ++ s.idle.length.repr ++ ")")
  else pure ()

end Restoring

section AddDensity

variable (plateauSize minProfiledSamplesPerOperation : Nat)

/-- The batches that are sampled, as far as there are enough members that may be removed. -/
def densityBatchSizes (active : List WorkerSpec) : List Nat :=
  let protectedCount := active.countP fun worker =>
    worker.profileEnabled || isExternalDevice worker
  if maxRandomMembershipBatchSize ≤ active.length - protectedCount then
    [1, maxRandomMembershipBatchSize]
  else [1]

/-- The batch size and the device with the fewest samples below the required number. -/
def nextSample (batchSizes : List Nat) (ids : List String) (counts : Nat × String → Nat) :
    Option (Nat × String) :=
  ((batchSizes.flatMap fun batchSize => ids.map fun id => (batchSize, id)).filter fun key =>
    decide (counts key < minProfiledSamplesPerOperation)).minOn? fun key =>
      toLex (counts key, toLex key)

/-- Restore the plateau if the group has another size. -/
def restoreIfNeeded (active : List WorkerSpec) : Phase ε Unit :=
  if active.length ≠ plateauSize then restoreDensityPlateau env config plateauSize else pure ()

/-- Members are removed and added again by one device. The sample counts if nobody is lost. -/
def sampleAddition (counts : Nat × String → Nat) (batchSize : Nat) (actorId : String) :
    Phase ε (Nat × String → Nat) := do
  removeNMembers env config batchSize (some actorId) true true
  let s ← get
  if s.active.any (·.id == actorId) = false ∨ s.active.length ≠ plateauSize - batchSize then
    restoreDensityPlateau env config plateauSize
    pure counts
  else
    addNMembers env config batchSize (some actorId)
    let s ← get
    if s.active.any (·.id == actorId) = true ∧ s.active.length = plateauSize then
      pure (bump counts (batchSize, actorId))
    else
      restoreDensityPlateau env config plateauSize
      pure counts

/-- A round of the loop of `run_external_add_density_phase`. -/
def densityRound (batchSizes : List Nat) (counts : Nat × String → Nat) :
    Phase ε ((Nat × String → Nat) ⊕ Unit) := do
  let s ← get
  if (externalIds s.active).isEmpty then pure (.inr ())
  else
    match nextSample minProfiledSamplesPerOperation batchSizes (externalIds s.active) counts with
    | none => pure (.inr ())
    | some (batchSize, actorId) =>
      restoreIfNeeded env config plateauSize s.active
      let counts ← sampleAddition env config plateauSize counts batchSize actorId
      pure (.inl counts)

/-- The loop has no bound in the source; the number of rounds is a parameter. -/
def runExternalAddDensityPhase (externalCoverageLane : Bool) (rounds : Nat) : Phase ε Unit :=
  if externalCoverageLane = false ∨ minProfiledSamplesPerOperation = 0 then pure ()
  else do
    let s ← get
    loop (densityRound env config plateauSize minProfiledSamplesPerOperation
      (densityBatchSizes s.active)) (.message "the add density phase ran out of rounds") rounds
      fun _ => 0

end AddDensity

end MessagingBench.Runner
