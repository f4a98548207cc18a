import Mathlib.Data.List.Chain
import Mathlib.Data.List.Rotate
import MessagingBench.Core.Random
import MessagingBench.Core.Staircase

/-!
# Steps between plateaus

What both runners build their sequences of group sizes from: the way up, the way down,
roundtrips, and shuffled rounds over candidate sizes, with steps that are fixed or drawn from
a range. Loops take a number of rounds and fail when it is used up; the number of sizes to
cover is enough.
-/

namespace MessagingBench.Plateau

open List Routine

/-- As parsed: a fixed step is positive, and so are the numbers of a range, which is not empty. -/
inductive StepSize
  | fixed (step : Nat) (positive : 0 < step)
  | uniformRange (min max : Nat) (positive : 0 < min) (ordered : min ≤ max)

/-- In which order the sizes are visited. -/
inductive PlateauOrder
  | staircase
  | ascending
  | randomized
  deriving DecidableEq, Repr

variable {ρ : Type} (rng : Generator ρ)

section Sequences

/-- A step; both ends of a range may be drawn. -/
def StepSize.sample : StepSize → Routine ρ Unit Nat
  | .fixed step _ => pure step
  | .uniformRange min max _ _ => do
    let offset ← rng.below (max + 1 - min)
    pure (min + offset)

/-- The farthest a step may go. -/
def StepSize.largest : StepSize → Nat
  | .fixed step _ => step
  | .uniformRange _ max _ _ => max

/-- Steps up until the largest size is reached. -/
def climb (advance : Nat → Routine ρ Unit Nat) (maxSize rounds : Nat) (vars : Nat × List Nat) :
    Routine ρ Unit (Nat × List Nat) :=
  walk (fun current => decide (current < maxSize)) advance () rounds vars

/-- Steps down until the smallest size is reached. -/
def descend (retreat : Nat → Routine ρ Unit Nat) (minSize rounds : Nat) (vars : Nat × List Nat) :
    Routine ρ Unit (Nat × List Nat) :=
  walk (fun current => decide (minSize < current)) retreat () rounds vars

/-- Saturation is not visible below the largest size. -/
def stepUp (stepSize : StepSize) (maxSize current : Nat) : Routine ρ Unit Nat := do
  let step ← stepSize.sample rng
  pure (min (current + step) maxSize)

/-- The next size on the way down, at least the smallest one. -/
def stepDown (stepSize : StepSize) (minSize current : Nat) : Routine ρ Unit Nat := do
  let step ← stepSize.sample rng
  pure (max (current - step) minSize)

/-- Up and down the same sizes. -/
def roundtrip (ascent sequence : List Nat) : List Nat :=
  pushAll (pushAll sequence ascent) ascent.reverse.tail

/-- Up and down with new steps each time. -/
def walkRoundtrips (stepSize : StepSize) (minSize maxSize rounds : Nat) :
    Nat → Nat × List Nat → Routine ρ Unit (List Nat)
  | 0, (_, sequence) => pure sequence
  | roundtrips + 1, (current, sequence) => do
    let top ← climb (stepUp rng stepSize maxSize) maxSize rounds
      (current, pushNew sequence current)
    let bottom ← descend (stepDown rng stepSize minSize) minSize rounds top
    walkRoundtrips stepSize minSize maxSize rounds roundtrips bottom

/-- The way up from the smallest size. -/
def ascend (stepSize : StepSize) (minSize maxSize rounds : Nat) : Routine ρ Unit (List Nat) := do
  let vars ← climb (stepUp rng stepSize maxSize) maxSize rounds (minSize, [minSize])
  pure vars.2

/-- A round does not begin with the size at which the last one ended. -/
def turned (sequence randomized : List Nat) : List Nat :=
  if 1 < randomized.length ∧ sequence.getLast? = randomized.head? then randomized.rotate 1
  else randomized

/-- All candidates in a new random order, round after round. -/
def shuffledRounds (candidates : List Nat) : Nat → List Nat → Routine ρ Unit (List Nat)
  | 0, sequence => pure sequence
  | roundtrips + 1, sequence => do
    let randomized ← rng.shuffle candidates
    shuffledRounds candidates roundtrips (pushAll sequence (turned sequence randomized))

end Sequences

section Ways

variable {rng} {stepSize : StepSize} {R : Nat → Nat → Prop} {minSize maxSize rounds a : Nat}
  {sequence : List Nat}

/-- The steps that may be drawn. -/
def StepSize.Draws : StepSize → Nat → Prop
  | .fixed step _, drawn => drawn = step
  | .uniformRange min max _ _, drawn => min ≤ drawn ∧ drawn ≤ max

/-- A step that is drawn is positive and not too large. -/
theorem StepSize.Draws.bounds {step : Nat} (h : stepSize.Draws step) :
    0 < step ∧ step ≤ stepSize.largest := by
  cases stepSize with
  | fixed size positive =>
    obtain rfl : step = size := h
    exact ⟨positive, Nat.le_refl step⟩
  | uniformRange min max positive ordered => exact ⟨positive.trans_le h.1, h.2⟩

/-- Only steps of the step size are drawn. -/
theorem returns_sample {stepSize : StepSize} :
    Returns (fun _ => True) (stepSize.sample rng) fun step _ => stepSize.Draws step := by
  cases stepSize with
  | fixed step positive => exact .pure fun _ _ => rfl
  | uniformRange min max positive ordered =>
    refine (Generator.returns_below (by omega)).bind fun offset => .pure fun _ hoffset => ?_
    change min ≤ min + offset ∧ min + offset ≤ max
    omega

/-- A size and the next one on the way up. -/
def Reaches (stepSize : StepSize) (maxSize a b : Nat) : Prop :=
  ∃ step, stepSize.Draws step ∧ b = min (a + step) maxSize

/-- Two sizes that are at most a distance apart. -/
def Rises (distance a b : Nat) : Prop := b ≤ a + distance

/-- A step up is at most the largest step. -/
theorem Reaches.rises {b : Nat} (h : Reaches stepSize maxSize a b) :
    Rises stepSize.largest a b := by
  obtain ⟨step, hstep, rfl⟩ := h
  have hle := hstep.bounds.2
  unfold Rises
  omega

/-- A step up goes up and stays below the largest size. -/
theorem returns_stepUp {stepSize : StepSize} (ha : a < maxSize) :
    Returns (fun _ => True) (stepUp rng stepSize maxSize a)
      fun b _ => a < b ∧ b ≤ maxSize ∧ Reaches stepSize maxSize a b := by
  refine returns_sample.bind fun step => .pure fun _ hstep => ?_
  have hpos := hstep.bounds.1
  exact ⟨by omega, Nat.min_le_right _ _, step, hstep, rfl⟩

/-- A step down goes down and stays above the smallest size. -/
theorem returns_stepDown {stepSize : StepSize} (ha : minSize < a) :
    Returns (fun _ => True) (stepDown rng stepSize minSize a)
      fun b _ => b < a ∧ minSize ≤ b ∧ Rises stepSize.largest b a := by
  refine returns_sample.bind fun step => .pure fun _ hstep => ?_
  have hbounds := hstep.bounds
  unfold Rises
  omega

section

variable {advance : Nat → Routine ρ Unit Nat} (hadvance : ∀ a < maxSize,
  Returns (fun _ => True) (advance a) fun b _ => a < b ∧ b ≤ maxSize ∧ R a b)
include hadvance

/-- With enough rounds the way up arrives, and it is appended as a path. -/
theorem returns_climb (ha : a ≤ maxSize) (hrounds : maxSize - a < rounds)
    (hlast : sequence.getLast? = some a) :
    Returns (fun _ => True) (climb advance maxSize rounds (a, sequence)) fun vars _ =>
      vars.1 = maxSize ∧
        ∃ ups, vars.2 = sequence ++ ups ∧ Path (fun a b => a < b ∧ R a b) a ups maxSize := by
  refine Returns.imp (returns_walk (R := fun a b => a < b ∧ R a b) (I := (· ≤ maxSize))
    (P := fun _ => True) (fun a => maxSize - a) ?_ ha hrounds hlast) (fun _ _ => trivial) ?_
  · intro a _ hgoes
    have hlt := of_decide_eq_true hgoes
    refine (hadvance a hlt).imp (fun _ _ => trivial) fun b _ hb => ?_
    exact ⟨trivial, hb.2.1, ⟨hb.1, hb.2.2⟩, by omega⟩
  · rintro ⟨top, sequence'⟩ _ ⟨-, hle, hdone, ups, hsequence, hpath⟩
    have htop : top = maxSize := Nat.le_antisymm hle (Nat.le_of_not_lt (of_decide_eq_false hdone))
    subst htop
    exact ⟨rfl, ups, hsequence, hpath⟩

/-- The sizes of a way up from the smallest to the largest one. -/
def IsAscent (R : Nat → Nat → Prop) (minSize maxSize : Nat) (sizes : List Nat) : Prop :=
  ∃ ups, sizes = minSize :: ups ∧ Path (fun a b => a < b ∧ R a b) minSize ups maxSize

/-- So the way up from the smallest size is an ascent. -/
theorem returns_ascent (hle : minSize ≤ maxSize) (hrounds : maxSize - minSize < rounds) :
    Returns (fun _ => True)
      (do let vars ← climb advance maxSize rounds (minSize, [minSize]); pure vars.2)
      fun sizes _ => IsAscent R minSize maxSize sizes := by
  refine (returns_climb hadvance hle hrounds rfl).bind fun vars => .pure fun _ hvars => ?_
  obtain ⟨-, ups, hups, hpath⟩ := hvars
  exact ⟨ups, hups, hpath⟩

end

/-- The random way up is an ascent of steps of the step size. -/
theorem returns_ascend {stepSize : StepSize} (hle : minSize ≤ maxSize)
    (hrounds : maxSize - minSize < rounds) :
    Returns (fun _ => True) (ascend rng stepSize minSize maxSize rounds)
      fun sizes _ => IsAscent (Reaches stepSize maxSize) minSize maxSize sizes :=
  returns_ascent (fun _ ha => returns_stepUp ha) hle hrounds

namespace IsAscent

variable {sizes : List Nat}

theorem head (h : IsAscent R minSize maxSize sizes) : sizes.head? = some minSize := by
  obtain ⟨ups, rfl, -⟩ := h
  rfl

theorem getLast (h : IsAscent R minSize maxSize sizes) : sizes.getLast? = some maxSize := by
  obtain ⟨ups, rfl, hpath⟩ := h
  exact hpath.getLast

theorem isChain (h : IsAscent R minSize maxSize sizes) :
    sizes.IsChain fun a b => a < b ∧ R a b := by
  obtain ⟨ups, rfl, hpath⟩ := h
  exact hpath.isChain

theorem pairwise (h : IsAscent R minSize maxSize sizes) : sizes.Pairwise (· < ·) :=
  (h.isChain.imp fun _ _ hab => hab.1).pairwise

theorem nodup (h : IsAscent R minSize maxSize sizes) : sizes.Nodup :=
  h.pairwise.imp fun hab => hab.ne

theorem bounds (h : IsAscent R minSize maxSize sizes) :
    ∀ size ∈ sizes, minSize ≤ size ∧ size ≤ maxSize := by
  obtain ⟨ups, rfl, hpath⟩ := h
  exact hpath.between Nat.le_refl (fun _ _ _ => Nat.le_trans) fun _ _ hab => hab.1.le

theorem one_lt_length (h : IsAscent R minSize maxSize sizes) (hlt : minSize < maxSize) :
    1 < sizes.length := by
  obtain ⟨ups, rfl, hpath⟩ := h
  cases hpath with
  | nil => exact absurd hlt (lt_irrefl _)
  | cons step rest => simp

theorem eq_singleton (h : IsAscent R minSize minSize sizes) : sizes = [minSize] := by
  have hbounds := h.bounds
  obtain ⟨ups, rfl, hpath⟩ := h
  cases hpath with
  | nil => rfl
  | @cons _ b _ _ step rest =>
    have hb := hbounds b (by simp)
    omega

end IsAscent

/-- With enough rounds the way down arrives, and it is appended as a path. -/
theorem returns_descend {retreat : Nat → Routine ρ Unit Nat}
    (hretreat : ∀ a, minSize < a → Returns (fun _ => True) (retreat a)
      fun b _ => b < a ∧ minSize ≤ b ∧ R b a)
    (ha : minSize ≤ a) (hrounds : a - minSize < rounds)
    (hlast : sequence.getLast? = some a) :
    Returns (fun _ => True) (descend retreat minSize rounds (a, sequence)) fun vars _ =>
      vars.1 = minSize ∧
        ∃ downs, vars.2 = sequence ++ downs ∧ Path (fun a b => b < a ∧ R b a) a downs minSize := by
  refine Returns.imp (returns_walk (R := fun a b => b < a ∧ R b a) (I := (minSize ≤ ·))
    (P := fun _ => True) (fun a => a - minSize) ?_ ha hrounds hlast) (fun _ _ => trivial) ?_
  · intro a _ hgoes
    have hlt := of_decide_eq_true hgoes
    refine (hretreat a hlt).imp (fun _ _ => trivial) fun b _ hb => ?_
    exact ⟨trivial, hb.2.1, ⟨hb.1, hb.2.2⟩, by omega⟩
  · rintro ⟨bottom, sequence'⟩ _ ⟨-, hle, hdone, downs, hsequence, hpath⟩
    have hbottom : bottom = minSize :=
      Nat.le_antisymm (Nat.le_of_not_lt (of_decide_eq_false hdone)) hle
    subst hbottom
    exact ⟨rfl, downs, hsequence, hpath⟩

end Ways

section Staircases

variable {R : Nat → Nat → Prop} {minSize maxSize count : Nat} {sequence trip ups : List Nat}

/-- A way up to the largest size and back. -/
inductive IsRoundtrip (R : Nat → Nat → Prop) (minSize maxSize : Nat) : List Nat → Prop
  | intro {ups downs : List Nat} (up : Path (fun a b => a < b ∧ R a b) minSize ups maxSize)
      (down : Path (fun a b => b < a ∧ R b a) maxSize downs minSize) :
      IsRoundtrip R minSize maxSize (ups ++ downs)

/-- One size and a number of roundtrips from it. -/
inductive IsStaircase (R : Nat → Nat → Prop) (minSize maxSize : Nat) : Nat → List Nat → Prop
  | start : IsStaircase R minSize maxSize 0 [minSize]
  | extend {count : Nat} {sequence trip : List Nat}
      (before : IsStaircase R minSize maxSize count sequence)
      (last : IsRoundtrip R minSize maxSize trip) :
      IsStaircase R minSize maxSize (count + 1) (sequence ++ trip)

/-- Either way, a move to another size. -/
def Moves (R : Nat → Nat → Prop) (a b : Nat) : Prop := a ≠ b ∧ (a < b → R a b) ∧ (b < a → R b a)

/-- A roundtrip is a path from the smallest size to itself. -/
theorem IsRoundtrip.path (h : IsRoundtrip R minSize maxSize trip) :
    Path (Moves R) minSize trip minSize := by
  obtain ⟨hups, hdowns⟩ := h
  have hup : Path (Moves R) minSize _ maxSize :=
    hups.imp fun a b hab => ⟨hab.1.ne, fun _ => hab.2, fun hlt => absurd hlt hab.1.asymm⟩
  have hdown : Path (Moves R) maxSize _ minSize :=
    hdowns.imp fun a b hab => ⟨hab.1.ne', fun hlt => absurd hlt hab.1.asymm, fun _ => hab.2⟩
  exact hup.append hdown

/-- A roundtrip stays within its bounds. -/
theorem IsRoundtrip.bounds (h : IsRoundtrip R minSize maxSize trip) :
    ∀ size ∈ trip, minSize ≤ size ∧ size ≤ maxSize := by
  obtain ⟨hups, hdowns⟩ := h
  intro size hsize
  rcases mem_append.mp hsize with hsize | hsize
  · exact hups.between Nat.le_refl (fun _ _ _ => Nat.le_trans) (fun _ _ hab => hab.1.le) size
      (mem_cons_of_mem _ hsize)
  · have h := hdowns.between (S := fun a b => b ≤ a) Nat.le_refl
      (fun _ _ _ hba hcb => Nat.le_trans hcb hba) (fun _ _ hab => hab.1.le) size
      (mem_cons_of_mem _ hsize)
    exact ⟨h.2, h.1⟩

/-- A roundtrip visits the largest size. -/
theorem IsRoundtrip.reaches (h : IsRoundtrip R minSize maxSize trip) (hlt : minSize < maxSize) :
    maxSize ∈ trip := by
  obtain ⟨hups, -⟩ := h
  rcases mem_cons.mp hups.last_mem with heq | hmem
  · exact absurd heq hlt.ne'
  · exact mem_append_left _ hmem

namespace IsStaircase

theorem empty : IsStaircase R minSize maxSize 0 (pushNew [] minSize) := .start

/-- A staircase is a path that comes back to where it began. -/
theorem path (h : IsStaircase R minSize maxSize count sequence) :
    ∃ rest, sequence = minSize :: rest ∧ Path (Moves R) minSize rest minSize := by
  induction h with
  | start => exact ⟨[], rfl, .nil _⟩
  | extend _ last ih =>
    obtain ⟨rest, rfl, hpath⟩ := ih
    exact ⟨_, rfl, hpath.append last.path⟩

theorem getLast (h : IsStaircase R minSize maxSize count sequence) :
    sequence.getLast? = some minSize := by
  obtain ⟨rest, rfl, hpath⟩ := h.path
  exact hpath.getLast

theorem bounds (h : IsStaircase R minSize maxSize count sequence) (hle : minSize ≤ maxSize) :
    ∀ size ∈ sequence, minSize ≤ size ∧ size ≤ maxSize := by
  induction h with
  | start =>
    intro size hsize
    rw [mem_singleton.mp hsize]
    exact ⟨Nat.le_refl _, hle⟩
  | extend _ last ih =>
    intro size hsize
    rcases mem_append.mp hsize with hsize | hsize
    · exact ih size hsize
    · exact last.bounds size hsize

theorem trips (h : IsStaircase R minSize maxSize count sequence) :
    ∃ legs : List (List Nat), legs.length = count ∧ sequence = minSize :: legs.flatten ∧
      ∀ trip ∈ legs, IsRoundtrip R minSize maxSize trip := by
  induction h with
  | start => exact ⟨[], rfl, rfl, by simp⟩
  | @extend count sequence trip _ last ih =>
    obtain ⟨legs, hlength, rfl, hlegs⟩ := ih
    refine ⟨legs ++ [trip], by simp [hlength], by simp, ?_⟩
    intro leg hleg
    rcases mem_append.mp hleg with hleg | hleg
    · exact hlegs leg hleg
    · rw [mem_singleton.mp hleg]
      exact last

/-- Going on from the end of a staircase adds no size. -/
theorem pushNew_eq (h : IsStaircase R minSize maxSize count sequence) :
    pushNew sequence minSize = sequence :=
  pushNew_of_eq h.getLast

end IsStaircase

/-- The way up and back over the same sizes is a roundtrip. -/
theorem isStaircase_roundtrip (hups : Path (fun a b => a < b ∧ R a b) minSize ups maxSize)
    (h : IsStaircase R minSize maxSize count (pushNew sequence minSize)) :
    IsStaircase R minSize maxSize (count + 1) (roundtrip (minSize :: ups) sequence) := by
  have hdowns := hups.reverse
  have hup : pushAll sequence (minSize :: ups) = pushNew sequence minSize ++ ups :=
    pushAll_cons_path (hups.imp fun _ _ hab => hab.1.ne)
  have hlast : (pushNew sequence minSize ++ ups).getLast? = some maxSize := by
    obtain ⟨rest, hrest, hpath⟩ := h.path
    rw [hrest]
    exact (hpath.append (hups.imp fun a b hab => ⟨hab.1.ne, fun _ => hab.2,
      fun hlt => absurd hlt hab.1.asymm⟩)).getLast
  unfold roundtrip
  rw [hup, pushAll_path (hdowns.imp fun _ _ hab => hab.1.ne') hlast, append_assoc]
  exact h.extend ⟨hups, hdowns⟩

/-- Repeated roundtrips over one way up build a staircase. -/
theorem isStaircase_roundtrips (hups : Path (fun a b => a < b ∧ R a b) minSize ups maxSize)
    (trips : Nat) (h : IsStaircase R minSize maxSize count (pushNew sequence minSize)) :
    IsStaircase R minSize maxSize (count + (trips + 1))
      ((roundtrip (minSize :: ups))^[trips + 1] sequence) := by
  have hnext := isStaircase_roundtrip hups h
  induction trips generalizing count sequence with
  | zero => exact hnext
  | succ trips ih =>
    rw [Function.iterate_succ_apply, Nat.add_left_comm, Nat.add_comm]
    have hpush := hnext.pushNew_eq.symm ▸ hnext
    exact ih hpush (isStaircase_roundtrip hups hpush)

/-- They visit the sizes of the way up, and no others. -/
theorem mem_roundtrips {ascent : List Nat} (trips : Nat) {size : Nat} :
    size ∈ (roundtrip ascent)^[trips + 1] sequence ↔ size ∈ sequence ∨ size ∈ ascent := by
  have hmem : ∀ sequence, size ∈ roundtrip ascent sequence ↔ size ∈ sequence ∨ size ∈ ascent := by
    intro sequence
    have hback : size ∈ ascent.reverse.tail → size ∈ ascent :=
      fun h => mem_reverse.mp (mem_of_mem_tail h)
    unfold roundtrip
    rw [mem_pushAll, mem_pushAll]
    tauto
  induction trips generalizing sequence with
  | zero => exact hmem sequence
  | succ trips ih =>
    rw [Function.iterate_succ_apply]
    refine ih.trans ?_
    rw [hmem, or_assoc, or_self]

section Walks

variable {rng : Generator ρ} {stepSize : StepSize} {rounds trips : Nat}

/-- The first of several roundtrips. -/
theorem returns_walkRoundtrips_succ {Q : List Nat → ρ → Prop} (hle : minSize ≤ maxSize)
    (hrounds : maxSize - minSize < rounds)
    (h : IsStaircase (Rises stepSize.largest) minSize maxSize count (pushNew sequence minSize))
    (hrest : ∀ sequence',
      IsStaircase (Rises stepSize.largest) minSize maxSize (count + 1) sequence' →
        Returns (fun _ => True)
          (walkRoundtrips rng stepSize minSize maxSize rounds trips (minSize, sequence')) Q) :
    Returns (fun _ => True)
      (walkRoundtrips rng stepSize minSize maxSize rounds (trips + 1) (minSize, sequence)) Q := by
  refine (returns_climb (fun a ha => returns_stepUp ha) hle hrounds h.getLast).bind ?_
  rintro ⟨top, up⟩ r ⟨htop, ups, hup, hreach⟩
  have hups := hreach.imp fun a b hab => And.imp_right Reaches.rises hab
  obtain rfl : top = maxSize := htop
  obtain rfl : up = pushNew sequence minSize ++ ups := hup
  have hlast : (pushNew sequence minSize ++ ups).getLast? = some top := by
    obtain ⟨rest, hrest, hpath⟩ := h.path
    rw [hrest]
    exact (hpath.append (hups.imp fun a b hab => ⟨hab.1.ne, fun _ => hab.2,
      fun hlt => absurd hlt hab.1.asymm⟩)).getLast
  refine (returns_descend (fun a ha => returns_stepDown ha) hle hrounds hlast).bind ?_ r
    trivial
  rintro ⟨bottom, down⟩ r' ⟨hbottom, downs, hdown, hdowns⟩
  obtain rfl : bottom = minSize := hbottom
  obtain rfl : down = pushNew sequence bottom ++ ups ++ downs := hdown
  rw [append_assoc]
  exact hrest _ (h.extend ⟨hups, hdowns⟩) r' trivial

/-- Roundtrips with new steps build a staircase too. -/
theorem returns_walkRoundtrips (hle : minSize ≤ maxSize) (hrounds : maxSize - minSize < rounds)
    (h : IsStaircase (Rises stepSize.largest) minSize maxSize count (pushNew sequence minSize)) :
    Returns (fun _ => True)
      (walkRoundtrips rng stepSize minSize maxSize rounds (trips + 1) (minSize, sequence))
      fun result _ =>
        IsStaircase (Rises stepSize.largest) minSize maxSize (count + (trips + 1)) result := by
  induction trips generalizing count sequence with
  | zero =>
    exact returns_walkRoundtrips_succ hle hrounds h fun sequence' hnext => .pure fun _ _ => hnext
  | succ trips ih =>
    refine returns_walkRoundtrips_succ hle hrounds h fun sequence' hnext => ?_
    have hcount : count + (trips + 1 + 1) = count + 1 + (trips + 1) := by omega
    rw [hcount]
    exact ih (hnext.pushNew_eq.symm ▸ hnext)

end Walks

end Staircases

section Shuffling

variable {rng : Generator ρ} {candidates sequence block : List Nat}

/-- Turning a round loses no size. -/
theorem turned_perm (sequence randomized : List Nat) :
    (turned sequence randomized).Perm randomized := by
  unfold turned
  split
  · exact rotate_perm randomized 1
  · exact .refl _

/-- A list of two or more different sizes can be turned so that it begins with a new one. -/
theorem head_turned_ne {randomized : List Nat} (hnodup : randomized.Nodup)
    (hlength : 1 < randomized.length) : sequence.getLast? ≠ (turned sequence randomized).head? := by
  match randomized, hnodup, hlength with
  | a :: b :: rest, hnodup, hlength =>
    have hab : a ≠ b := by
      rintro rfl
      simp at hnodup
    unfold turned
    by_cases hlast : sequence.getLast? = some a
    · rw [if_pos ⟨hlength, hlast⟩, hlast]
      simp [rotate, hab]
    · rw [if_neg fun h => hlast h.2]
      exact hlast

/-- Nothing is left out if neighbours differ. -/
theorem pushAll_of_nodup (hnodup : block.Nodup) (hhead : sequence.getLast? ≠ block.head?) :
    pushAll sequence block = sequence ++ block := by
  cases block with
  | nil => exact (append_nil _).symm
  | cons a rest =>
    obtain ⟨b, hpath⟩ := Path.of_isChain hnodup.isChain
    rw [pushAll_cons_path hpath, pushNew_of_ne hhead, append_assoc]
    rfl

/-- Each round visits all candidates, and neighbours differ. -/
theorem returns_shuffledRounds (hnodup : candidates.Nodup) (hlength : 1 < candidates.length)
    (rounds : Nat) (hchain : sequence.IsChain (· ≠ ·)) :
    Returns (fun _ => True) (shuffledRounds rng candidates rounds sequence) fun result _ =>
      ∃ blocks : List (List Nat), blocks.length = rounds ∧
        (∀ block ∈ blocks, block.Perm candidates) ∧ result = sequence ++ blocks.flatten ∧
        result.IsChain (· ≠ ·) := by
  induction rounds generalizing sequence with
  | zero => exact .pure fun _ _ => ⟨[], rfl, by simp, by simp, hchain⟩
  | succ rounds ih =>
    refine (Generator.returns_shuffle candidates).bind fun randomized => ?_
    intro r hperm
    have hblock := (turned_perm sequence randomized).trans hperm
    have hhead : sequence.getLast? ≠ (turned sequence randomized).head? :=
      head_turned_ne (hperm.nodup_iff.mpr hnodup) (hperm.length_eq ▸ hlength)
    rw [pushAll_of_nodup (hblock.nodup_iff.mpr hnodup) hhead]
    have hchain' : (sequence ++ turned sequence randomized).IsChain (· ≠ ·) := by
      rw [isChain_append]
      refine ⟨hchain, (hblock.nodup_iff.mpr hnodup).isChain, ?_⟩
      rintro a ha b hb rfl
      exact hhead (ha.trans hb.symm)
    obtain ⟨result, r', hresult, blocks, hcount, hblocks, heq, hne⟩ := ih hchain' r trivial
    refine ⟨result, r', hresult, turned sequence randomized :: blocks, ?_, ?_, ?_, hne⟩
    · rw [length_cons, hcount]
    · exact forall_mem_cons.mpr ⟨hblock, hblocks⟩
    · rw [heq, append_assoc, flatten_cons]

/-- Even if the candidates are few, all of them are visited. -/
theorem returns_shuffledRounds_mem (candidates sequence : List Nat) (rounds : Nat) :
    Returns (fun _ => True) (shuffledRounds rng candidates (rounds + 1) sequence) fun result _ =>
      ∀ size, size ∈ result ↔ size ∈ sequence ∨ size ∈ candidates := by
  have hround : ∀ (sequence randomized : List Nat), randomized.Perm candidates → ∀ size,
      size ∈ pushAll sequence (turned sequence randomized) ↔
        size ∈ sequence ∨ size ∈ candidates := by
    intro sequence randomized hperm size
    rw [mem_pushAll, ((turned_perm sequence randomized).trans hperm).mem_iff]
  induction rounds generalizing sequence with
  | zero =>
    refine (Generator.returns_shuffle candidates).bind fun randomized => ?_
    exact .pure fun _ hperm => hround sequence randomized hperm
  | succ rounds ih =>
    refine (Generator.returns_shuffle candidates).bind fun randomized => ?_
    intro r hperm
    obtain ⟨result, r', hrun, hmem⟩ := ih (pushAll sequence (turned sequence randomized)) r trivial
    refine ⟨result, r', hrun, fun size => ?_⟩
    rw [hmem, hround sequence randomized hperm, or_assoc, or_self]

/-- A single candidate is visited once, however many rounds there are. -/
theorem returns_shuffledRounds_singleton {size : Nat} (h : pushNew sequence size = [size])
    {rounds : Nat} :
    Returns (fun _ => True) (shuffledRounds rng [size] (rounds + 1) sequence)
      fun result _ => result = [size] := by
  have hround : ∀ randomized : List Nat, randomized.Perm [size] →
      pushAll sequence (turned sequence randomized) = [size] := by
    intro randomized hperm
    rw [perm_singleton.mp ((turned_perm sequence randomized).trans hperm)]
    exact h
  induction rounds generalizing sequence with
  | zero =>
    refine (Generator.returns_shuffle [size]).bind fun randomized => ?_
    exact .pure fun _ hperm => hround randomized hperm
  | succ rounds ih =>
    refine (Generator.returns_shuffle [size]).bind fun randomized => ?_
    intro r hperm
    rw [hround randomized hperm]
    have hagain : pushNew [size] size = [size] := pushNew_of_eq rfl
    refine ih hagain (fun randomized' hperm' => ?_) r trivial
    rw [perm_singleton.mp ((turned_perm _ randomized').trans hperm')]
    exact hagain

end Shuffling

end MessagingBench.Plateau
