import MessagingBench.Runner.Session

/-!
# Random choices and batch sizes

Members are added and removed in batches. A planner deals out the sizes in cycles: each
size up to the cap once, in random order but with the largest one first, or only the
largest and one. Every external device that acts has a planner of its own. All random
numbers come from the environment, so that seeds are not part of the model.
-/

namespace MessagingBench.Runner

variable {ε α : Type} (env : RunnerEnvironment ε)

section Choices

/-- The values in a random order. -/
def shuffle (values : List α) : Phase ε (List α) := (Phase.generator env).shuffle values

/-- Remove a position and let the last value take its place. -/
def swapRemove (values : List α) (position : Nat) : List α :=
  (values.swap position (values.length - 1)).dropLast

def choose (values : List α) : Phase ε α := do
  let position ← Phase.genRange env values.length
  match values[position]? with
  | some value => pure value
  | none => Phase.fail "index out of bounds"

/-- Draw values one after the other without putting them back. -/
def draw : Nat → List α → Phase ε (List α)
  | 0, _ => pure []
  | count + 1, values => do
    let position ← Phase.genRange env values.length
    match values[position]? with
    | some value =>
      let rest ← draw count (swapRemove values position)
      pure (value :: rest)
    | none => Phase.fail "index out of bounds"

end Choices

section Planner

def maxRandomMembershipBatchSize : Nat := 8

def membershipBatchGroupCap (_currentGroupSize : Nat) : Nat := maxRandomMembershipBatchSize

structure MembershipBatchDecision where
  requested : Nat
  effective : Nat
  groupCap : Nat
  transitionCap : Nat
  source : String
  deriving DecidableEq, Repr

structure MembershipBatchPlanner where
  cycle : List Nat
  cycleCap : Nat
  extremesOnly : Bool
  deriving DecidableEq, Repr

namespace MembershipBatchPlanner

def new (extremesOnly : Bool) : MembershipBatchPlanner := ⟨[], 0, extremesOnly⟩

def newCycle (extremesOnly : Bool) (feasibleCap : Nat) : Phase ε (List Nat) :=
  if extremesOnly = true then
    pure (if 1 < feasibleCap then [feasibleCap, 1] else List.range' 1 feasibleCap)
  else do
    let values ← shuffle env (List.range' 1 feasibleCap)
    pure (if 1 < feasibleCap then values.swap 0 ((values.idxOf? feasibleCap).getD 0) else values)

/-- Begin a new cycle if the last one is used up or had another cap. -/
def refill (planner : MembershipBatchPlanner) (feasibleCap : Nat) :
    Phase ε MembershipBatchPlanner :=
  if planner.cycle.isEmpty ∨ planner.cycleCap ≠ feasibleCap then do
    let cycle ← newCycle env planner.extremesOnly feasibleCap
    pure { planner with cycle := cycle, cycleCap := feasibleCap }
  else pure planner

def nextBatch (planner : MembershipBatchPlanner) (currentGroupSize maxAllowed : Nat)
    (source : String) : Phase ε (MembershipBatchDecision × MembershipBatchPlanner) :=
  if maxAllowed = 0 then pure (⟨0, 0, 0, 0, source⟩, planner)
  else do
    let groupCap := membershipBatchGroupCap currentGroupSize
    let planner ← planner.refill env (min groupCap maxAllowed)
    let requested := planner.cycle.headD 1
    pure (⟨requested, requested, groupCap, maxAllowed, source⟩,
      { planner with cycle := planner.cycle.tail })

end MembershipBatchPlanner

structure MembershipBatchPlans where
  regular : MembershipBatchPlanner
  external : String → Option MembershipBatchPlanner
  extremesOnly : Bool

namespace MembershipBatchPlans

def new (extremesOnly : Bool) : MembershipBatchPlans :=
  ⟨.new extremesOnly, fun _ => none, extremesOnly⟩

def nextBatch (plans : MembershipBatchPlans) (currentGroupSize maxAllowed : Nat)
    (externalActorId : Option String) : Phase ε (MembershipBatchDecision × MembershipBatchPlans) :=
  match externalActorId with
  | some actorId => do
    let (decision, planner) ← ((plans.external actorId).getD (.new plans.extremesOnly)).nextBatch env
      currentGroupSize maxAllowed
      (if plans.extremesOnly = true then "extremes_external" else "balanced_seeded_external")
    pure (decision,
      { plans with external := Function.update plans.external actorId (some planner) })
  | none => do
    let (decision, planner) ← plans.regular.nextBatch env currentGroupSize maxAllowed
      (if plans.extremesOnly = true then "extremes_regular" else "balanced_seeded_regular")
    pure (decision, { plans with regular := planner })

end MembershipBatchPlans

end Planner

end MessagingBench.Runner
