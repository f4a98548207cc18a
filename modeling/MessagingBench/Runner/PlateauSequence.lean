import MessagingBench.Plateau.Steps

/-!
# The plateau sequence

Group sizes between a smallest and a largest one, in the order asked for: up and down again a
number of times, once upwards, or each time in another random order. Whatever the random
numbers are, the sequence is complete after finitely many rounds. A single size is visited
once, also in random order.
-/

namespace MessagingBench.Runner

open Plateau Routine

variable {ρ : Type} (rng : Generator ρ) (rounds : Nat)

def steppedSizes (minSize maxSize stepSize : Nat) : Routine ρ Unit (List Nat) := do
  let vars ← climb (fun current => pure (min (current + stepSize) maxSize)) maxSize rounds
    (minSize, [minSize])
  pure vars.2

def buildPlateauSequence (minSize maxSize stepSize roundtrips : Nat) :
    Routine ρ Unit (List Nat) := do
  let ascent ← steppedSizes rounds minSize maxSize stepSize
  pure ((roundtrip ascent)^[roundtrips] [])

def buildPlateauSequenceForStepSize (minSize maxSize : Nat) (stepSize : StepSize)
    (roundtrips : Nat) : Routine ρ Unit (List Nat) :=
  match stepSize with
  | .fixed step _ => buildPlateauSequence rounds minSize maxSize step roundtrips
  | .uniformRange _ _ _ _ =>
    walkRoundtrips rng stepSize minSize maxSize rounds roundtrips (minSize, [])

def buildAscendingPlateauSequenceForStepSize (minSize maxSize : Nat) (stepSize : StepSize) :
    Routine ρ Unit (List Nat) :=
  match stepSize with
  | .fixed step _ => steppedSizes rounds minSize maxSize step
  | .uniformRange _ _ _ _ => ascend rng stepSize minSize maxSize rounds

def buildPlateauSequenceForOrder (minSize maxSize : Nat) (stepSize : StepSize) (roundtrips : Nat)
    (plateauOrder : PlateauOrder) : Routine ρ Unit (List Nat) :=
  match plateauOrder with
  | .staircase => buildPlateauSequenceForStepSize rng rounds minSize maxSize stepSize roundtrips
  | .ascending => buildAscendingPlateauSequenceForStepSize rng rounds minSize maxSize stepSize
  | .randomized => do
    let candidates ← ascend rng stepSize minSize maxSize rounds
    shuffledRounds rng candidates roundtrips []

/-- What is asked for. The moves of a staircase are between different sizes that are at most
the largest step apart. -/
def InOrder (minSize maxSize : Nat) (stepSize : StepSize) (roundtrips : Nat) :
    PlateauOrder → List Nat → Prop
  | .staircase, sequence =>
    sequence.head? = some minSize ∧ sequence.getLast? = some minSize ∧
      sequence.IsChain (fun a b => a ≠ b ∧ a ≤ b + stepSize.largest ∧ b ≤ a + stepSize.largest) ∧
      ∃ legs : List (List Nat), legs.length = roundtrips ∧ sequence = minSize :: legs.flatten ∧
        ∀ leg ∈ legs, maxSize ∈ minSize :: leg ∧ (minSize :: leg).getLast? = some minSize
  | .ascending, sequence =>
    sequence.head? = some minSize ∧ sequence.getLast? = some maxSize ∧ sequence.Pairwise (· < ·)
  | .randomized, sequence =>
    ∃ candidates : List Nat, candidates.head? = some minSize ∧
      candidates.getLast? = some maxSize ∧
      candidates.IsChain (fun a b => a < b ∧ Reaches stepSize maxSize a b) ∧
      (1 < candidates.length → ∃ blocks : List (List Nat), blocks.length = roundtrips ∧
        (∀ block ∈ blocks, block.Perm candidates) ∧ sequence = blocks.flatten ∧
        sequence.IsChain (· ≠ ·)) ∧
      (candidates.length = 1 → sequence = [minSize])

section Proofs

variable {rng rounds} {minSize maxSize roundtrips : Nat} {stepSize : StepSize}

theorem inOrder_staircase {sequence : List Nat}
    (h : IsStaircase (Rises stepSize.largest) minSize maxSize roundtrips sequence)
    (hle : minSize ≤ maxSize) : InOrder minSize maxSize stepSize roundtrips .staircase sequence := by
  obtain ⟨legs, hlength, hlegs, htrips⟩ := h.trips
  obtain ⟨rest, hrest, hpath⟩ := h.path
  refine ⟨by rw [hrest]; rfl, h.getLast, ?_, legs, hlength, hlegs, fun leg hleg => ?_⟩
  · rw [hrest]
    refine hpath.isChain.imp fun a b hab => ⟨hab.1, ?_⟩
    have hne := hab.1
    rcases Nat.lt_or_gt_of_ne hab.1 with hlt | hlt
    · have hrise : b ≤ a + stepSize.largest := hab.2.1 hlt
      omega
    · have hrise : a ≤ b + stepSize.largest := hab.2.2 hlt
      omega
  · refine ⟨?_, (htrips leg hleg).path.getLast⟩
    rcases hle.eq_or_lt with heq | hlt
    · rw [heq]
      exact List.mem_cons_self
    · exact List.mem_cons_of_mem _ ((htrips leg hleg).reaches hlt)

section

variable (hle : minSize ≤ maxSize) (hrounds : maxSize - minSize < rounds)
include hle hrounds

theorem returns_steppedSizes {step : Nat} (positive : 0 < step) :
    Returns (fun _ : ρ => True) (steppedSizes rounds minSize maxSize step) fun sizes _ =>
      IsAscent (Reaches (.fixed step positive) maxSize) minSize maxSize sizes := by
  refine returns_ascent (fun a ha => .pure fun _ _ => ?_) hle hrounds
  exact ⟨by omega, Nat.min_le_right _ _, step, rfl, rfl⟩

theorem returns_buildPlateauSequence {step : Nat} (positive : 0 < step) :
    Returns (fun _ : ρ => True) (buildPlateauSequence rounds minSize maxSize step (roundtrips + 1))
      fun sequence _ => IsStaircase (Rises step) minSize maxSize (roundtrips + 1) sequence := by
  refine (returns_steppedSizes hle hrounds positive).bind fun ascent => .pure ?_
  rintro _ ⟨ups, rfl, hpath⟩
  have hups := hpath.imp fun a b hab => And.imp_right Reaches.rises hab
  have hstairs := isStaircase_roundtrips hups roundtrips .empty
  rw [Nat.zero_add] at hstairs
  exact hstairs

theorem returns_staircase {stepSize : StepSize} :
    Returns (fun _ => True)
      (buildPlateauSequenceForStepSize rng rounds minSize maxSize stepSize (roundtrips + 1))
      fun sequence _ =>
        IsStaircase (Rises stepSize.largest) minSize maxSize (roundtrips + 1) sequence := by
  cases stepSize with
  | fixed step positive => exact returns_buildPlateauSequence hle hrounds positive
  | uniformRange least most positive ordered =>
    refine Returns.imp (returns_walkRoundtrips hle hrounds .empty) (fun _ hr => hr) ?_
    intro sequence _ hstairs
    rw [Nat.zero_add] at hstairs
    exact hstairs

theorem returns_ascending {stepSize : StepSize} :
    Returns (fun _ => True)
      (buildAscendingPlateauSequenceForStepSize rng rounds minSize maxSize stepSize)
      fun sequence _ => IsAscent (Reaches stepSize maxSize) minSize maxSize sequence := by
  cases stepSize with
  | fixed step positive => exact returns_steppedSizes hle hrounds positive
  | uniformRange least most positive ordered => exact returns_ascend hle hrounds

theorem returns_randomized {stepSize : StepSize} :
    Returns (fun _ => True)
      (buildPlateauSequenceForOrder rng rounds minSize maxSize stepSize (roundtrips + 1)
        .randomized)
      fun sequence _ => (∀ size ∈ sequence, minSize ≤ size ∧ size ≤ maxSize) ∧
        InOrder minSize maxSize stepSize (roundtrips + 1) .randomized sequence := by
  refine (returns_ascend hle hrounds).bind fun candidates => ?_
  intro r hascent
  rcases hle.eq_or_lt with rfl | hlt
  · obtain rfl := hascent.eq_singleton
    have hpush : pushNew [] minSize = [minSize] := rfl
    obtain ⟨sequence, r', hrun, rfl⟩ := returns_shuffledRounds_singleton hpush r trivial
    refine ⟨_, r', hrun, hascent.bounds, [minSize], rfl, rfl, .singleton _, ?_, fun _ => rfl⟩
    intro hlength
    exact absurd hlength (lt_irrefl 1)
  · have hlength := hascent.one_lt_length hlt
    obtain ⟨sequence, r', hrun, blocks, hcount, hblocks, heq, hne⟩ :=
      returns_shuffledRounds hascent.nodup hlength (roundtrips + 1) .nil r trivial
    rw [List.nil_append] at heq
    refine ⟨sequence, r', hrun, ?_, candidates, hascent.head, hascent.getLast, hascent.isChain,
      fun _ => ⟨blocks, hcount, hblocks, heq, hne⟩, fun hone => absurd hone hlength.ne'⟩
    intro size hsize
    rw [heq] at hsize
    obtain ⟨block, hblock, hmem⟩ := List.mem_flatten.mp hsize
    exact hascent.bounds size ((hblocks block hblock).subset hmem)

end

/-- Whatever the random numbers are, the sequence is built, stays within its bounds and is in
the order asked for. -/
theorem plateau_sequence_in_order (rng : Generator ρ) (r : ρ) (stepSize : StepSize)
    (order : PlateauOrder) (hle : minSize ≤ maxSize) (htrips : 1 ≤ roundtrips)
    (hrounds : maxSize - minSize < rounds) :
    ∃ sequence r', buildPlateauSequenceForOrder rng rounds minSize maxSize stepSize roundtrips
        order r = (.ok sequence, r') ∧
      (∀ size ∈ sequence, minSize ≤ size ∧ size ≤ maxSize) ∧
      InOrder minSize maxSize stepSize roundtrips order sequence := by
  obtain ⟨trips, rfl⟩ := Nat.exists_eq_add_of_le' htrips
  cases order with
  | staircase =>
    obtain ⟨sequence, r', hrun, hstairs⟩ := returns_staircase hle hrounds r trivial
    exact ⟨sequence, r', hrun, hstairs.bounds hle, inOrder_staircase hstairs hle⟩
  | ascending =>
    obtain ⟨sequence, r', hrun, hascent⟩ := returns_ascending hle hrounds r trivial
    exact ⟨sequence, r', hrun, hascent.bounds, hascent.head, hascent.getLast, hascent.pairwise⟩
  | randomized => exact returns_randomized hle hrounds r trivial

/-- From two to six members and back, twice, by one to three members at a time. -/
theorem plateau_sequence_in_order_two_six :
    ∃ sequence r', buildPlateauSequenceForOrder ⟨fun _ seed => (seed, seed + 1)⟩ 5 2 6
        (.uniformRange 1 3 (by decide) (by decide)) 2 .staircase 0 = (.ok sequence, r') ∧
      (∀ size ∈ sequence, 2 ≤ size ∧ size ≤ 6) ∧
      InOrder 2 6 (.uniformRange 1 3 (by decide) (by decide)) 2 .staircase sequence :=
  plateau_sequence_in_order _ 0 _ .staircase (by decide) (by decide) (by decide)

/-- A single size in random order is visited once, not once for each of the two roundtrips. -/
theorem randomized_single_size_once :
    (buildPlateauSequenceForOrder ⟨fun _ seed => (seed, seed)⟩ 1 1 1 (.fixed 1 (by decide)) 2
      .randomized 0).1 = .ok [1] ∧
    ¬∃ blocks : List (List Nat), blocks.length = 2 ∧ (∀ block ∈ blocks, block.Perm [1]) ∧
      [1] = blocks.flatten := by
  refine ⟨rfl, ?_⟩
  rintro ⟨blocks, hlength, hblocks, heq⟩
  match blocks, hlength with
  | [first, second], _ =>
    have hfirst := (hblocks first (by simp)).length_eq
    have hsecond := (hblocks second (by simp)).length_eq
    have htotal := congrArg List.length heq
    simp [hfirst, hsecond] at htotal

end Proofs

end MessagingBench.Runner
