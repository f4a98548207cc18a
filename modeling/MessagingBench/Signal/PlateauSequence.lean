import Mathlib.Data.Finset.Sort
import MessagingBench.Plateau.Steps

/-!
# Plateaus with two step sizes

The sequence of group sizes may change its step at a switch size, which is then a plateau
itself. With a fixed step this holds for the way up, and so for the staircase. The candidates
of a random order are built without a look at the switch: they cover it only if the
first step happens to lead there and to be fine enough for the sizes above it.
-/

namespace MessagingBench.Signal

open List Plateau Routine

/-- Both numbers are checked before a sequence is built. -/
structure PiecewiseStep where
  switchAt : Nat
  afterSwitch : Nat
  switchPositive : 0 < switchAt
  afterPositive : 0 < afterSwitch

variable {ρ : Type} (rng : Generator ρ) (rounds : Nat)

section Sequences

def nextSize (maxSize stepSize : Nat) (piecewise : Option PiecewiseStep) (current : Nat) : Nat :=
  match piecewise with
  | some piecewise =>
    if current < piecewise.switchAt then
      min (min (current + stepSize) piecewise.switchAt) maxSize
    else
      min (current + piecewise.afterSwitch) maxSize
  | none => min (current + stepSize) maxSize

def buildingPlateauSequenceWithPiecewise (minSize maxSize stepSize : Nat)
    (piecewise : Option PiecewiseStep) : Routine ρ Unit (List Nat) := do
  let vars ← climb (fun current => pure (nextSize maxSize stepSize piecewise current)) maxSize
    rounds (minSize, [minSize])
  pure vars.2

/-- The number of roundtrips is not used. -/
def buildingPlateauSequence (minSize maxSize stepSize _roundtrips : Nat)
    (piecewise : Option PiecewiseStep) : Routine ρ Unit (List Nat) :=
  buildingPlateauSequenceWithPiecewise rounds minSize maxSize stepSize piecewise

def buildPlateauSequenceForStepSize (minSize maxSize : Nat) (stepSize : StepSize)
    (roundtrips : Nat) (piecewise : Option PiecewiseStep) : Routine ρ Unit (List Nat) :=
  match stepSize with
  | .fixed step _ => do
    let ascent ← buildingPlateauSequence rounds minSize maxSize step roundtrips piecewise
    pure ((roundtrip ascent)^[roundtrips] [])
  | .uniformRange _ _ _ _ =>
    walkRoundtrips rng stepSize minSize maxSize rounds roundtrips (minSize, [])

def buildAscendingPlateauSequenceForStepSize (minSize maxSize : Nat) (stepSize : StepSize)
    (piecewise : Option PiecewiseStep) : Routine ρ Unit (List Nat) :=
  match stepSize with
  | .fixed step _ => buildingPlateauSequence rounds minSize maxSize step 0 piecewise
  | .uniformRange _ _ _ _ => ascend rng stepSize minSize maxSize rounds

def buildPlateauSequenceForOrder (minSize maxSize : Nat) (stepSize : StepSize) (roundtrips : Nat)
    (plateauOrder : PlateauOrder) (piecewise : Option PiecewiseStep) :
    Routine ρ Unit (List Nat) :=
  match plateauOrder with
  | .staircase =>
    buildPlateauSequenceForStepSize rng rounds minSize maxSize stepSize roundtrips piecewise
  | .ascending =>
    buildAscendingPlateauSequenceForStepSize rng rounds minSize maxSize stepSize piecewise
  | .randomized => do
    -- `piecewise` is not looked at
    let candidates ← ascend rng stepSize minSize maxSize rounds
    shuffledRounds rng candidates roundtrips []

end Sequences

section Visited

variable {minSize maxSize step : Nat} {piecewise : PiecewiseStep} {sequence sizes : List Nat}

/-- The sizes of a sequence, in increasing order. -/
def visited (sequence : List Nat) : List Nat := sequence.toFinset.sort (· ≤ ·)

theorem visited_eq (hsizes : sizes.Pairwise (· < ·))
    (hmem : ∀ size, size ∈ sequence ↔ size ∈ sizes) : visited sequence = sizes := by
  have heq : sequence.toFinset = sizes.toFinset := by
    ext size
    rw [mem_toFinset, mem_toFinset, hmem]
  unfold visited
  rw [heq, toFinset_sort (· ≤ ·) (hsizes.imp fun hab => hab.ne)]
  exact hsizes.imp fun hab => hab.le

/-- The sizes go from the smallest to the largest one by way of the switch, with gaps of at most
the step of the part they are in. -/
structure CoversSwitch (minSize maxSize step : Nat) (piecewise : PiecewiseStep)
    (sizes : List Nat) : Prop where
  head : sizes.head? = some minSize
  getLast : sizes.getLast? = some maxSize
  switch_mem : minSize ≤ piecewise.switchAt → piecewise.switchAt ≤ maxSize →
    piecewise.switchAt ∈ sizes
  gaps : sizes.IsChain fun a b => (b ≤ piecewise.switchAt → b - a ≤ step) ∧
    (piecewise.switchAt ≤ a → b - a ≤ piecewise.afterSwitch)

/-- The first step leads to the switch, and is fine enough for the sizes above it. -/
def StepFits (minSize maxSize step : Nat) (piecewise : PiecewiseStep) : Prop :=
  (minSize ≤ piecewise.switchAt → piecewise.switchAt < maxSize →
    step ∣ piecewise.switchAt - minSize) ∧
  min step (maxSize - max minSize piecewise.switchAt) ≤ piecewise.afterSwitch

section Piecewise

/-- One step of the way up that looks at the switch. -/
def NextSize (maxSize step : Nat) (piecewise : PiecewiseStep) (a b : Nat) : Prop :=
  b = nextSize maxSize step (some piecewise) a

theorem nextSize_bounds (positive : 0 < step) {a : Nat} (ha : a < maxSize) :
    a < nextSize maxSize step (some piecewise) a ∧
      nextSize maxSize step (some piecewise) a ≤ maxSize := by
  have hafter := piecewise.afterPositive
  unfold nextSize
  dsimp only
  split
  · omega
  · omega

theorem returns_buildingPlateauSequence (piecewise : PiecewiseStep) (positive : 0 < step)
    (hle : minSize ≤ maxSize) {rounds : Nat} (hrounds : maxSize - minSize < rounds) (roundtrips : Nat) :
    Returns (fun _ : ρ => True)
      (buildingPlateauSequence rounds minSize maxSize step roundtrips (some piecewise))
      fun sizes _ => IsAscent (NextSize maxSize step piecewise) minSize maxSize sizes := by
  refine returns_ascent (fun a ha => .pure fun _ _ => ?_) hle hrounds
  exact ⟨(nextSize_bounds positive ha).1, (nextSize_bounds positive ha).2, rfl⟩

/-- The way up does not skip the switch. -/
theorem switch_mem_of_path {a top : Nat} {ups : List Nat}
    (h : Path (fun a b => a < b ∧ NextSize maxSize step piecewise a b) a ups top)
    (ha : a ≤ piecewise.switchAt) (htop : piecewise.switchAt ≤ top) :
    piecewise.switchAt ∈ a :: ups := by
  induction h with
  | nil a =>
    rw [Nat.le_antisymm htop ha]
    exact mem_singleton_self a
  | @cons a b c ups hab rest ih =>
    rcases ha.eq_or_lt with rfl | hlt
    · exact mem_cons_self
    · have hb : b ≤ piecewise.switchAt := by
        rw [hab.2, nextSize, if_pos hlt]
        omega
      exact mem_cons_of_mem _ (ih hb htop)

theorem coversSwitch_of_isAscent
    (h : IsAscent (NextSize maxSize step piecewise) minSize maxSize sizes) :
    CoversSwitch minSize maxSize step piecewise sizes where
  head := h.head
  getLast := h.getLast
  switch_mem hmin hmax := by
    obtain ⟨ups, rfl, hpath⟩ := h
    exact switch_mem_of_path hpath hmin hmax
  gaps := by
    refine h.isChain.imp fun a b hab => ?_
    obtain ⟨hlt, hnext⟩ := hab
    unfold NextSize nextSize at hnext
    dsimp only at hnext
    split at hnext
    · omega
    · omega

end Piecewise

section Uniform

variable {positive : 0 < step}

/-- The sizes below the largest one are whole steps away from the smallest. -/
theorem mem_path_iff_dvd {a x top : Nat} {ups : List Nat}
    (h : Path (fun a b => a < b ∧ Reaches (.fixed step positive) maxSize a b) a ups top)
    (htop : top ≤ maxSize) (ha : a ≤ x) (hx : x < top) : x ∈ a :: ups ↔ step ∣ x - a := by
  induction h with
  | nil a => omega
  | @cons a b c ups hab rest ih =>
    obtain ⟨hlt, drawn, hdrawn, hb⟩ := hab
    obtain rfl : drawn = step := hdrawn
    rw [mem_cons]
    rcases ha.eq_or_lt with rfl | halt
    · simp
    rcases Nat.lt_or_ge x b with hxb | hbx
    · -- between two neighbours
      have hbounds := rest.between Nat.le_refl (fun _ _ _ => Nat.le_trans) fun _ _ h => h.1.le
      have hnot : x ∉ b :: ups := fun hmem => absurd (hbounds x hmem).1 (by omega)
      have hdvd : ¬drawn ∣ x - a := Nat.not_dvd_of_pos_of_lt (by omega) (by omega)
      simp [hnot, hdvd, halt.ne']
    · have hsub : x - a = x - b + drawn := by omega
      rw [ih htop hbx hx, hsub, Nat.dvd_add_self_right]
      exact or_iff_right halt.ne'

theorem coversSwitch_iff_stepFits
    (h : IsAscent (Reaches (.fixed step positive) maxSize) minSize maxSize sizes) :
    CoversSwitch minSize maxSize step piecewise sizes ↔
      StepFits minSize maxSize step piecewise := by
  obtain ⟨ups, rfl, hpath⟩ := h
  constructor
  · intro hcovers
    have hdvd : minSize ≤ piecewise.switchAt → piecewise.switchAt < maxSize →
        step ∣ piecewise.switchAt - minSize := by
      intro hmin hmax
      rw [← mem_path_iff_dvd hpath (Nat.le_refl _) hmin hmax]
      exact hcovers.switch_mem hmin hmax.le
    refine ⟨hdvd, ?_⟩
    rcases Nat.lt_or_ge (max minSize piecewise.switchAt) maxSize with hlt | hge
    · -- the first gap above the switch
      have hmem : max minSize piecewise.switchAt ∈ minSize :: ups := by
        rcases Nat.le_total piecewise.switchAt minSize with hle | hle
        · rw [Nat.max_eq_left hle]
          exact mem_cons_self
        · rw [Nat.max_eq_right hle]
          exact hcovers.switch_mem hle (by omega)
      rcases (hpath.inter hcovers.gaps).eq_or_step hmem with heq | ⟨b, -, hab⟩
      · omega
      · obtain ⟨⟨hab, drawn, hdrawn, hb⟩, -, hgap⟩ := hab
        obtain rfl : drawn = step := hdrawn
        have hle := hgap (Nat.le_max_right _ _)
        omega
    · omega
  · intro hfits
    have hascent : IsAscent (Reaches (.fixed step positive) maxSize) minSize maxSize
        (minSize :: ups) := ⟨ups, rfl, hpath⟩
    refine ⟨hascent.head, hascent.getLast, ?_, ?_⟩
    · intro hmin hmax
      rcases hmax.eq_or_lt with heq | hlt
      · rw [heq]
        exact hpath.last_mem
      · rw [mem_path_iff_dvd hpath (Nat.le_refl _) hmin hlt]
        exact hfits.1 hmin hlt
    · refine hascent.isChain.imp_of_mem_imp fun a b ha _ hab => ?_
      have hbounds := hascent.bounds a ha
      obtain ⟨hlt, drawn, hdrawn, hb⟩ := hab
      obtain rfl : drawn = step := hdrawn
      have hfine := hfits.2
      omega

/-- In random order the switch has no influence. -/
theorem returns_randomized_visited {rng : Generator ρ} (piecewise : Option PiecewiseStep)
    (positive : 0 < step) (hle : minSize ≤ maxSize) {rounds : Nat}
    (hrounds : maxSize - minSize < rounds) (trips : Nat) :
    Returns (fun _ => True)
      (buildPlateauSequenceForOrder rng rounds minSize maxSize (.fixed step positive) (trips + 1)
        .randomized piecewise)
      fun sequence _ =>
        IsAscent (Reaches (.fixed step positive) maxSize) minSize maxSize (visited sequence) := by
  refine (returns_ascend hle hrounds).bind fun candidates => ?_
  intro r hascent
  obtain ⟨sequence, r', hrun, hmem⟩ := returns_shuffledRounds_mem candidates [] trips r trivial
  have hvisited : visited sequence = candidates :=
    visited_eq hascent.pairwise fun size => by rw [hmem]; simp
  refine ⟨sequence, r', hrun, ?_⟩
  change IsAscent _ _ _ (visited sequence)
  rw [hvisited]
  exact hascent

end Uniform

/-- With a fixed step every sequence is built. Up and down, and upwards, it covers the switch. In
random order it does exactly if the first step fits. -/
theorem plateaus_cover_switch_iff (rng : Generator ρ) (r : ρ) (positive : 0 < step)
    (piecewise : PiecewiseStep) (order : PlateauOrder) {rounds roundtrips : Nat}
    (hle : minSize ≤ maxSize) (htrips : 1 ≤ roundtrips) (hrounds : maxSize - minSize < rounds) :
    ∃ sequence r', buildPlateauSequenceForOrder rng rounds minSize maxSize (.fixed step positive)
        roundtrips order (some piecewise) r = (.ok sequence, r') ∧
      (CoversSwitch minSize maxSize step piecewise (visited sequence) ↔
        order ≠ .randomized ∨ StepFits minSize maxSize step piecewise) := by
  obtain ⟨trips, rfl⟩ := Nat.exists_eq_add_of_le' htrips
  cases order with
  | staircase =>
    obtain ⟨ascent, r', hrun, hascent⟩ :=
      returns_buildingPlateauSequence piecewise positive hle hrounds (trips + 1) r trivial
    have hvisited : visited ((roundtrip ascent)^[trips + 1] []) = ascent :=
      visited_eq hascent.pairwise fun size => by rw [mem_roundtrips]; simp
    refine ⟨(roundtrip ascent)^[trips + 1] [], r', ?_, ?_⟩
    · simp only [buildPlateauSequenceForOrder, buildPlateauSequenceForStepSize,
        bind_apply, hrun, andThen_ok, pure_apply]
    · rw [hvisited]
      exact iff_of_true (coversSwitch_of_isAscent hascent) (.inl (by decide))
  | ascending =>
    obtain ⟨ascent, r', hrun, hascent⟩ :=
      returns_buildingPlateauSequence piecewise positive hle hrounds 0 r trivial
    refine ⟨ascent, r', hrun, ?_⟩
    rw [visited_eq hascent.pairwise fun size => Iff.rfl]
    exact iff_of_true (coversSwitch_of_isAscent hascent) (.inl (by decide))
  | randomized =>
    obtain ⟨sequence, r', hrun, hascent⟩ :=
      returns_randomized_visited (some piecewise) positive hle hrounds trips r trivial
    refine ⟨sequence, r', hrun, (coversSwitch_iff_stepFits hascent).trans ?_⟩
    exact (or_iff_right fun h => h rfl).symm

/-- Four members at a time up to five members, and then two. -/
def switchAtFive : PiecewiseStep where
  switchAt := 5
  afterSwitch := 2
  switchPositive := by decide
  afterPositive := by decide

theorem plateaus_cover_switch_iff_five :
    ∃ sequence r', buildPlateauSequenceForOrder ⟨fun _ seed => (seed, seed)⟩ 9 2 10
        (.fixed 4 (by decide)) 1 .staircase (some switchAtFive) 0 = (.ok sequence, r') ∧
      (CoversSwitch 2 10 4 switchAtFive (visited sequence) ↔
        PlateauOrder.staircase ≠ .randomized ∨ StepFits 2 10 4 switchAtFive) :=
  plateaus_cover_switch_iff _ 0 _ switchAtFive .staircase (by decide) (by decide) (by decide)

/-- In random order the sizes are two, six and ten. -/
theorem randomized_misses_switch :
    (buildPlateauSequenceForOrder ⟨fun _ seed => (seed, seed)⟩ 9 2 10 (.fixed 4 (by decide)) 1
      .randomized (some switchAtFive) 0).1 = .ok [6, 10, 2] ∧
    ¬CoversSwitch 2 10 4 switchAtFive (visited [6, 10, 2]) := by
  refine ⟨rfl, fun hcovers => ?_⟩
  have hmem := hcovers.switch_mem (by decide) (by decide)
  simp [visited, switchAtFive] at hmem

end Visited

end MessagingBench.Signal
