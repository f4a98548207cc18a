import Mathlib.Data.BitVec
import MessagingBench.Core.Congruential
import MessagingBench.Core.Even
import MessagingBench.Runner.Plateau
import MessagingBench.Runner.Resizing

/-!
# Who is sampled

The members whose operations are sampled are spread evenly over the group. Of the recipients
of a commit some are profiled: the first, the middle and the last one, others that a seeded
generator draws until there are enough, and all devices. The loop that draws has no bound in
the source, but the generator comes to every index.
-/

namespace MessagingBench.Runner

open List

section Members

/-- The member for a sample; nothing if an assertion fails. -/
def sampledMemberIndex (memberCount sampleCount seqNo : Nat) : Option Nat :=
  if memberCount = 0 ∨ sampleCount = 0 then none
  else if memberCount ≤ sampleCount then some (seqNo % memberCount)
  else some ((seqNo % sampleCount + 1) * memberCount / sampleCount - 1)

variable {memberCount sampleCount : Nat}

theorem sampledMemberIndex_of_le (hmembers : 0 < memberCount) (hle : memberCount ≤ sampleCount)
    (seqNo : Nat) : sampledMemberIndex memberCount sampleCount seqNo = some (seqNo % memberCount) := by
  rw [sampledMemberIndex, if_neg (by omega), if_pos hle]

theorem sampledMemberIndex_of_lt (hsamples : 0 < sampleCount) (hlt : sampleCount < memberCount)
    (block : Nat) {sampleNo : Nat} (h : sampleNo < sampleCount) :
    sampledMemberIndex memberCount sampleCount (block * sampleCount + sampleNo) =
      some ((sampleNo + 1) * memberCount / sampleCount - 1) := by
  rw [sampledMemberIndex, if_neg (by omega), if_neg (by omega), Nat.mul_comm block,
    Nat.mul_add_mod, Nat.mod_eq_of_lt h]

/-- The first sample is beyond the first member, as there are fewer samples than members. -/
theorem one_le_sample (hsamples : 0 < sampleCount) (hlt : sampleCount < memberCount)
    (sampleNo : Nat) : 1 ≤ (sampleNo + 1) * memberCount / sampleCount := by
  rw [Nat.le_div_iff_mul_le hsamples, Nat.one_mul]
  exact Nat.le_trans (Nat.le_of_lt hlt) (Nat.le_mul_of_pos_left _ (Nat.succ_pos sampleNo))

theorem sample_step (hsamples : 0 < sampleCount) (hlt : sampleCount < memberCount)
    (sampleNo : Nat) : ∃ step, (step = memberCount / sampleCount ∨
        step = memberCount ⌈/⌉ sampleCount) ∧ 0 < step ∧
      (sampleNo + 1 + 1) * memberCount / sampleCount - 1 =
        (sampleNo + 1) * memberCount / sampleCount - 1 + step := by
  have hfirst := one_le_sample hsamples hlt sampleNo
  have hquotient : 1 ≤ memberCount / sampleCount := Nat.div_pos (Nat.le_of_lt hlt) hsamples
  have hceil := ceilDiv_eq_div_add memberCount hsamples
  have hstep := add_div_sub_div ((sampleNo + 1) * memberCount) memberCount hsamples
  rw [← Nat.succ_mul, Nat.succ_eq_add_one] at hstep
  exact ⟨_, hstep, by omega, by omega⟩

/-- In a block of consecutive numbers the samples are spread evenly over the members. -/
theorem sampledMemberIndex_evenly (hmembers : 1 ≤ memberCount) (hsamples : 1 ≤ sampleCount)
    (block : Nat) : ∃ index : Nat → Nat,
      (∀ i < sampleCount,
        sampledMemberIndex memberCount sampleCount (block * sampleCount + i) = some (index i) ∧
          index i < memberCount) ∧
      (sampleCount < memberCount →
        (∀ i j, i < j → j < sampleCount → index i < index j) ∧
        index (sampleCount - 1) = memberCount - 1 ∧
        ∀ i, i + 1 < sampleCount → index (i + 1) - index i = memberCount / sampleCount ∨
          index (i + 1) - index i = memberCount ⌈/⌉ sampleCount) ∧
      (memberCount ≤ sampleCount → ∀ member < memberCount,
        0 < Nat.count (fun i => index i = member) sampleCount ∧
        (Nat.count (fun i => index i = member) sampleCount = sampleCount / memberCount ∨
          Nat.count (fun i => index i = member) sampleCount = sampleCount ⌈/⌉ memberCount)) := by
  rcases Nat.lt_or_ge sampleCount memberCount with hlt | hle
  · have hincreasing : StrictMono fun i => (i + 1) * memberCount / sampleCount - 1 := by
      refine strictMono_nat_of_lt_succ fun i => ?_
      obtain ⟨step, -, hpositive, heq⟩ := sample_step hsamples hlt i
      omega
    have hlast : (sampleCount - 1 + 1) * memberCount / sampleCount - 1 = memberCount - 1 := by
      rw [Nat.sub_add_cancel hsamples, Nat.mul_div_cancel_left _ hsamples]
    refine ⟨fun i => (i + 1) * memberCount / sampleCount - 1, fun i hi => ?_, fun _ => ?_,
      fun hle => absurd hlt (Nat.not_lt.mpr hle)⟩
    · refine ⟨sampledMemberIndex_of_lt hsamples hlt block hi, ?_⟩
      have hle := hincreasing.monotone (Nat.le_sub_one_of_lt hi)
      dsimp only at hle ⊢
      omega
    · refine ⟨fun i j hij _ => hincreasing hij, hlast, fun i _ => ?_⟩
      obtain ⟨step, hstep, -, heq⟩ := sample_step hsamples hlt i
      dsimp only
      rw [heq, Nat.add_sub_cancel_left]
      exact hstep
  · refine ⟨fun i => (block * sampleCount + i) % memberCount, fun i _ => ?_,
      fun hlt => absurd hle (Nat.not_le.mpr hlt), fun _ member hmember => ?_⟩
    · exact ⟨sampledMemberIndex_of_le hmembers hle _, Nat.mod_lt _ hmembers⟩
    · have hcount := count_mod_eq (block * sampleCount) hmember sampleCount
      have hquotient : 1 ≤ sampleCount / memberCount := Nat.div_pos hle hmembers
      have hceil := ceilDiv_eq_div_add sampleCount hmembers
      have hpositive : 0 < Nat.count (fun i => (block * sampleCount + i) % memberCount = member)
          sampleCount := by
        omega
      exact ⟨hpositive, hcount⟩

/-- Five members are sampled four times in the second block. -/
theorem sampledMemberIndex_evenly_five : ∃ index : Nat → Nat,
    sampledMemberIndex 5 4 7 = some (index 3) ∧ index 3 = 4 := by
  obtain ⟨index, hindex, hfewer, -⟩ :=
    sampledMemberIndex_evenly (show 1 ≤ 5 by decide) (show 1 ≤ 4 by decide) 1
  exact ⟨index, (hindex 3 (by decide)).1, (hfewer (by decide)).2.1⟩

end Members

section Recipients

/-- The generator of the sampling. -/
def nextState : BitVec 64 → BitVec 64 := affine 6364136223846793005 1442695040888963407

/-- The first, the last and the middle recipient, as far as they are different ones. -/
def anchorIndices (recipientCount : Nat) : List Nat :=
  [0] ++ (if 1 < recipientCount then [recipientCount - 1] else []) ++
    (if 2 < recipientCount then [recipientCount / 2] else [])

/-- Draw until enough recipients are chosen; nothing if the rounds do not suffice. -/
def drawIndices (recipientCount maxSamples : Nat) :
    Nat → BitVec 64 → List Nat → Option (List Nat)
  | 0, _, chosen => if chosen.length < maxSamples then none else some chosen
  | rounds + 1, state, chosen =>
    if chosen.length < maxSamples then
      let state := nextState state
      let idx := state.toNat % recipientCount
      drawIndices recipientCount maxSamples rounds state
        (if chosen.contains idx then chosen else chosen ++ [idx])
    else some chosen

/-- The loop has no bound in the source; the number of rounds is a parameter. -/
def deterministicCommitReceiveSampleIndices (recipientCount maxSamples : Nat) (seed : BitVec 64)
    (plateauSize : Nat) (epoch : BitVec 64) (seqNo rounds : Nat) : Option (List Nat) :=
  if recipientCount = 0 ∨ maxSamples = 0 then some []
  else if recipientCount ≤ maxSamples then some (range recipientCount)
  else
    let state := seed ^^^ (BitVec.ofNat 64 plateauSize <<< 32) ^^^ epoch ^^^
      (BitVec.ofNat 64 seqNo * 0x9E3779B97F4A7C15#64)
    (drawIndices recipientCount maxSamples rounds state (anchorIndices recipientCount)).map
      (·.insertionSort (· ≤ ·))

variable {recipientCount maxSamples rounds : Nat} {state : BitVec 64} {chosen indices : List Nat}

/-- Every state of the generator comes up after each state. -/
theorem exists_iterate_nextState {x y : BitVec 64} : ∃ n < 2 ^ 64, nextState^[n] x = y := by
  let e : BitVec 64 ≃ Fin (2 ^ 64) := ⟨BitVec.toFin, BitVec.ofFin, fun _ => rfl, fun _ => rfl⟩
  let : Fintype (BitVec 64) := Fintype.ofEquiv _ e.symm
  have hcard : Fintype.card (BitVec 64) = 2 ^ (63 + 1) := by
    rw [Fintype.card_congr e, Fintype.card_fin]
  exact exists_iterate_affine (t := 1591034055961698251) (u := 721347520444481703) (by decide)
    (by decide) (by decide +kernel) (by decide +kernel) hcard x y

/-- One index more, unless it is there already. -/
theorem mem_addIndex {idx other : Nat} :
    other ∈ (if chosen.contains idx then chosen else chosen ++ [idx]) ↔
      other ∈ chosen ∨ other = idx := by
  split
  · rename_i hcontains
    constructor
    · exact .inl
    · rintro (hmem | rfl)
      · exact hmem
      · exact contains_iff_mem.mp hcontains
  · rw [mem_append, mem_singleton]

/-- If the rounds did not suffice, everything that was drawn has been chosen, and it is not
enough. -/
theorem drawIndices_none (h : drawIndices recipientCount maxSamples rounds state chosen = none) :
    ∃ final : List Nat, final.length < maxSamples ∧ chosen ⊆ final ∧
      ∀ n < rounds, (nextState^[n + 1] state).toNat % recipientCount ∈ final := by
  induction rounds generalizing state chosen with
  | zero =>
    unfold drawIndices at h
    split at h
    · exact ⟨chosen, ‹_›, Subset.refl _, nofun⟩
    · cases h
  | succ rounds ih =>
    unfold drawIndices at h
    split at h
    · obtain ⟨final, hshort, hsubset, hdrawn⟩ := ih h
      refine ⟨final, hshort, fun idx hidx => hsubset (mem_addIndex.mpr (.inl hidx)),
        fun n hn => ?_⟩
      cases n with
      | zero => exact hsubset (mem_addIndex.mpr (.inr rfl))
      | succ n =>
        rw [Function.iterate_succ_apply]
        exact hdrawn n (Nat.lt_of_succ_lt_succ hn)
    · cases h

theorem drawIndices_isSome (hmore : maxSamples < recipientCount)
    (hsize : recipientCount ≤ 2 ^ 64) {state : BitVec 64} {chosen : List Nat} :
    ∃ rounds indices, drawIndices recipientCount maxSamples rounds state chosen =
      some indices := by
  refine ⟨2 ^ 64, Option.ne_none_iff_exists'.mp fun hnone => ?_⟩
  obtain ⟨final, hshort, -, hdrawn⟩ := drawIndices_none hnone
  have hall : range recipientCount ⊆ final := by
    intro idx hidx
    have hlt := mem_range.mp hidx
    obtain ⟨n, hn, hstate⟩ := exists_iterate_nextState
    have hmem := hdrawn n hn
    rw [Function.iterate_succ_apply, hstate, BitVec.toNat_ofNat,
      Nat.mod_eq_of_lt (Nat.lt_of_lt_of_le hlt hsize), Nat.mod_eq_of_lt hlt] at hmem
    exact hmem
  have hle := (subperm_of_subset nodup_range hall).length_le
  rw [length_range] at hle
  omega

/-- Further rounds change nothing. -/
theorem drawIndices_mono {more : Nat}
    (h : drawIndices recipientCount maxSamples rounds state chosen = some indices)
    (hle : rounds ≤ more) :
    drawIndices recipientCount maxSamples more state chosen = some indices := by
  induction rounds generalizing more state chosen with
  | zero =>
    unfold drawIndices at h
    split at h
    · cases h
    cases more with
    | zero | succ more =>
      rw [drawIndices, if_neg ‹_›]
      exact h
  | succ rounds ih =>
    obtain ⟨more, rfl⟩ : ∃ n, more = n + 1 := ⟨more - 1, by omega⟩
    unfold drawIndices at h ⊢
    split at h
    · rw [if_pos ‹_›]
      exact ih h (Nat.le_of_succ_le_succ hle)
    · rw [if_neg ‹_›]
      exact h

/-- Different indices below a bound, with what was chosen before, and enough but not more. -/
structure Draws (recipientCount maxSamples : Nat) (chosen indices : List Nat) : Prop where
  nodup : indices.Nodup
  lt : ∀ idx ∈ indices, idx < recipientCount
  subset : chosen ⊆ indices
  length : indices.length = max maxSamples chosen.length

theorem drawIndices_some (hpositive : 0 < recipientCount) (hnodup : chosen.Nodup)
    (hlt : ∀ idx ∈ chosen, idx < recipientCount)
    (h : drawIndices recipientCount maxSamples rounds state chosen = some indices) :
    Draws recipientCount maxSamples chosen indices := by
  induction rounds generalizing state chosen with
  | zero =>
    unfold drawIndices at h
    split at h
    · cases h
    · cases h
      exact ⟨hnodup, hlt, Subset.refl _, by omega⟩
  | succ rounds ih =>
    unfold drawIndices at h
    split at h
    · rename_i hshort
      dsimp only at h
      split at h
      · exact ih hnodup hlt h
      · rename_i hnew
        have hnew := fun hmem => hnew (contains_iff_mem.mpr hmem)
        have hnodup' := hnodup.concat hnew
        rw [concat_eq_append] at hnodup'
        have hdraws := ih hnodup' (fun idx hidx => ?_) h
        · refine ⟨hdraws.nodup, hdraws.lt, fun idx hidx => ?_, ?_⟩
          · exact hdraws.subset (mem_append_left _ hidx)
          · rw [hdraws.length, length_append, length_singleton]
            omega
        · rcases mem_append.mp hidx with hidx | hidx
          · exact hlt idx hidx
          · rw [mem_singleton.mp hidx]
            exact Nat.mod_lt _ hpositive
    · cases h
      exact ⟨hnodup, hlt, Subset.refl _, by omega⟩

theorem anchorIndices_spec (h : 1 < recipientCount) :
    (anchorIndices recipientCount).Nodup ∧
      (∀ idx ∈ anchorIndices recipientCount, idx < recipientCount) ∧
      (anchorIndices recipientCount).toFinset = {0, recipientCount / 2, recipientCount - 1} := by
  unfold anchorIndices
  rw [if_pos h]
  split
  · refine ⟨?_, ?_, ?_⟩
    · simp only [cons_append, nil_append, nodup_cons, mem_cons,
        not_mem_nil, or_false, not_or, nodup_nil, and_true, not_false_eq_true]
      omega
    · simp only [cons_append, nil_append, forall_mem_cons, not_mem_nil,
        false_imp_iff, implies_true, and_true]
      omega
    · ext idx
      simp only [cons_append, nil_append, mem_toFinset, mem_cons,
        not_mem_nil, or_false, Finset.mem_insert, Finset.mem_singleton]
      omega
  · obtain rfl : recipientCount = 2 := by omega
    decide

/-- More recipients than samples: the loop ends, and the anchors are among the recipients that
are chosen. -/
theorem sampleIndices_of_more (hpositive : 0 < maxSamples) (hmore : maxSamples < recipientCount)
    (hsize : recipientCount ≤ 2 ^ 64) {seed : BitVec 64} {plateauSize : Nat} {epoch : BitVec 64}
    {seqNo : Nat} : ∃ rounds indices,
      (∀ more, rounds ≤ more → deterministicCommitReceiveSampleIndices recipientCount maxSamples
        seed plateauSize epoch seqNo more = some indices) ∧
      indices.Pairwise (· < ·) ∧
      Draws recipientCount maxSamples (anchorIndices recipientCount) indices := by
  obtain ⟨hnodup, hlt, -⟩ := anchorIndices_spec (show 1 < recipientCount by omega)
  obtain ⟨rounds, drawn, hdrawn⟩ := drawIndices_isSome hmore hsize
  have hdraws := drawIndices_some (by omega) hnodup hlt hdrawn
  have hperm := perm_insertionSort (· ≤ ·) drawn
  have hnodup' := hperm.nodup_iff.mpr hdraws.nodup
  refine ⟨rounds, drawn.insertionSort (· ≤ ·), fun more hle => ?_, ?_, hnodup',
    fun idx hidx => hdraws.lt idx (hperm.mem_iff.mp hidx),
    fun idx hidx => hperm.mem_iff.mpr (hdraws.subset hidx), hperm.length_eq.trans hdraws.length⟩
  · rw [deterministicCommitReceiveSampleIndices, if_neg (by omega), if_neg (by omega)]
    dsimp only
    rw [drawIndices_mono hdrawn hle, Option.map_some]
  · exact ((pairwise_insertionSort (· ≤ ·) drawn).and hnodup').imp
      fun ⟨hle, hne⟩ => Nat.lt_of_le_of_ne hle hne

/-- The sample has the first, the middle and the last recipient, and as many recipients as
required if these are not more. -/
theorem deterministicSample_spec (hpositive : 0 < maxSamples) (hmore : maxSamples < recipientCount)
    (hsize : recipientCount ≤ 2 ^ 64) (seed : BitVec 64) (plateauSize : Nat) (epoch : BitVec 64)
    (seqNo : Nat) : ∃ rounds indices,
      (∀ more, rounds ≤ more → deterministicCommitReceiveSampleIndices recipientCount maxSamples
        seed plateauSize epoch seqNo more = some indices) ∧
      indices.Pairwise (· < ·) ∧ (∀ idx ∈ indices, idx < recipientCount) ∧
      0 ∈ indices ∧ recipientCount / 2 ∈ indices ∧ recipientCount - 1 ∈ indices ∧
      indices.length =
        max maxSamples ({0, recipientCount / 2, recipientCount - 1} : Finset Nat).card := by
  obtain ⟨rounds, indices, hsampled, hincreasing, hdraws⟩ :=
    sampleIndices_of_more hpositive hmore hsize
  obtain ⟨hnodup, -, hanchors⟩ := anchorIndices_spec (show 1 < recipientCount by omega)
  have hmem : ∀ idx ∈ ({0, recipientCount / 2, recipientCount - 1} : Finset Nat),
      idx ∈ indices := by
    intro idx hidx
    rw [← hanchors] at hidx
    exact hdraws.subset (mem_toFinset.mp hidx)
  refine ⟨rounds, indices, hsampled, hincreasing, hdraws.lt, hmem _ (by simp), hmem _ (by simp),
    hmem _ (by simp), ?_⟩
  rw [hdraws.length, ← hanchors, toFinset_card_of_nodup hnodup]

theorem deterministicSample_spec_five : ∃ rounds indices,
    deterministicCommitReceiveSampleIndices 5 4 42 16 3 0 rounds = some indices ∧
      indices.length = 4 := by
  obtain ⟨rounds, indices, hsampled, -, -, -, -, -, hlength⟩ := deterministicSample_spec
    (show 0 < 4 by decide) (show 4 < 5 by decide) (by decide) 42 16 3 0
  exact ⟨rounds, indices, hsampled rounds (Nat.le_refl _), hlength⟩

end Recipients

section SamplingMap

/-- The recipients that are profiled, with the position of each among them. -/
structure SamplingMap where
  sampledIds : List String
  indexMap : List (String × Nat)
  sampleCount : Nat
  deriving DecidableEq, Repr

variable (recipients : List WorkerSpec)

def addDevices (sampleIndices : List Nat) : List Nat :=
  (range recipients.length).foldl (fun indices idx =>
    if recipients[idx]?.any isDensityDevice && !indices.contains idx then indices ++ [idx]
    else indices) sampleIndices

def samplingMap (sampleIndices : List Nat) : SamplingMap :=
  let sampleIndices := (addDevices recipients sampleIndices).insertionSort (· ≤ ·)
  let sampledIds := ((sampleIndices.filterMap (recipients[·]?)).map (·.id)).eraseDups
  { sampledIds
    indexMap := sampleIndices.zipIdx.filterMap fun (recipientIndex, sampleIndex) =>
      recipients[recipientIndex]?.map fun worker => (worker.id, sampleIndex)
    sampleCount := sampledIds.length }

def buildCommitReceiveSamplingMap (maxSamples : Nat)
    (seed : BitVec 64) (plateauSize : Nat) (epoch : BitVec 64) (seqNo rounds : Nat) :
    Option SamplingMap :=
  (deterministicCommitReceiveSampleIndices recipients.length maxSamples seed plateauSize epoch seqNo
    rounds).map (samplingMap recipients)

/-- The number of recipients that are profiled although they are no devices. -/
def profiledBesides (map : SamplingMap) : Nat :=
  recipients.countP fun worker => !isDensityDevice worker && map.sampledIds.contains worker.id

variable {recipients : List WorkerSpec} {maxSamples idx : Nat} {sampleIndices : List Nat}

theorem mem_foldl_addDevices {indices : List Nat} :
    idx ∈ indices.foldl (fun indices idx =>
      if recipients[idx]?.any isDensityDevice && !indices.contains idx then indices ++ [idx]
      else indices) sampleIndices ↔
    idx ∈ sampleIndices ∨ (idx ∈ indices ∧ recipients[idx]?.any isDensityDevice = true) := by
  induction indices generalizing sampleIndices with
  | nil => simp
  | cons next indices ih =>
    rw [foldl_cons, ih]
    split
    · grind
    · grind

theorem mem_addDevices :
    idx ∈ addDevices recipients sampleIndices ↔
      idx ∈ sampleIndices ∨ recipients[idx]?.any isDensityDevice = true := by
  rw [addDevices, mem_foldl_addDevices]
  refine or_congr_right ⟨And.right, fun hdevice => ⟨?_, hdevice⟩⟩
  rw [mem_range]
  by_contra hge
  rw [getElem?_eq_none (Nat.le_of_not_lt hge)] at hdevice
  cases hdevice

/-- With different ids, a recipient is profiled if its index is sampled or it is a device. -/
theorem mem_sampledIds (hids : (recipients.map (·.id)).Nodup) (sampleIndices : List Nat)
    {worker : WorkerSpec} (hget : recipients[idx]? = some worker) :
    worker.id ∈ (samplingMap recipients sampleIndices).sampledIds ↔
      idx ∈ sampleIndices ∨ isDensityDevice worker = true := by
  have hdevice : recipients[idx]?.any isDensityDevice = isDensityDevice worker := by rw [hget]; rfl
  rw [← hdevice, ← mem_addDevices]
  simp only [samplingMap, mem_eraseDups, mem_map, mem_filterMap,
    mem_insertionSort]
  constructor
  · rintro ⟨other, ⟨position, hposition, hother⟩, hid⟩
    have hgetId : (recipients.map (·.id))[position]? = some worker.id := by
      rw [getElem?_map, hother, Option.map_some, hid]
    have hgetId' : (recipients.map (·.id))[idx]? = some worker.id := by
      rw [getElem?_map, hget, Option.map_some]
    have heq := (getElem?_inj (List.getElem?_eq_some_iff.mp hgetId).1 hids).mp
      (hgetId.trans hgetId'.symm)
    exact heq ▸ hposition
  · exact fun hmem => ⟨worker, ⟨idx, hmem, hget⟩, rfl⟩

theorem profiledBesides_eq (hids : (recipients.map (·.id)).Nodup)
    (hnodup : sampleIndices.Nodup) (hlt : ∀ idx ∈ sampleIndices, idx < recipients.length) :
    profiledBesides recipients (samplingMap recipients sampleIndices) =
      sampleIndices.countP (!recipients[·]?.any isDensityDevice) := by
  have hperm : ((range recipients.length).filter (sampleIndices.contains ·)).Perm
      sampleIndices := by
    refine (perm_ext_iff_of_nodup (nodup_range.filter _) hnodup).mpr fun idx => ?_
    rw [mem_filter, mem_range, contains_iff_mem]
    exact ⟨And.right, fun hmem => ⟨hlt idx hmem, hmem⟩⟩
  rw [← hperm.countP_eq, countP_filter, profiledBesides]
  nth_rewrite 2 [← filterMap_getElem?_range recipients]
  rw [countP_filterMap]
  refine countP_congr fun idx hidx => ?_
  obtain ⟨worker, hget⟩ : ∃ worker, recipients[idx]? = some worker :=
    ⟨_, getElem?_eq_getElem (mem_range.mp hidx)⟩
  have hmem := mem_sampledIds hids sampleIndices hget
  simp only [hget, Option.map_some, Option.getD_some, Option.any_some, Bool.and_eq_true,
    contains_iff_mem, hmem, Bool.not_eq_true']
  constructor
  · rintro ⟨hplain, hsampled | hdevice⟩
    · exact ⟨hplain, hsampled⟩
    · cases hplain.symm.trans hdevice
  · exact fun ⟨hplain, hsampled⟩ => ⟨hplain, .inl hsampled⟩

theorem length_anchorIndices_le (h : 0 < recipients.length) :
    (anchorIndices recipients.length).length ≤ recipients.length := by
  unfold anchorIndices
  split <;> split <;> simp only [length_append, length_cons, length_nil] <;> omega

/-- The indices of a sample: different ones, and within the cap exactly if the anchors that are
no devices are. -/
theorem sampleIndices_spec (hpositive : 0 < maxSamples) (hsize : recipients.length ≤ 2 ^ 64)
    {seed : BitVec 64} {plateauSize : Nat} {epoch : BitVec 64} {seqNo : Nat} :
    ∃ rounds indices, (∀ more, rounds ≤ more → deterministicCommitReceiveSampleIndices
        recipients.length maxSamples seed plateauSize epoch seqNo more = some indices) ∧
      indices.Nodup ∧ (∀ idx ∈ indices, idx < recipients.length) ∧
      (recipients.length ≤ maxSamples → ∀ idx < recipients.length, idx ∈ indices) ∧
      (indices.countP (!recipients[·]?.any isDensityDevice) ≤ maxSamples ↔
        (anchorIndices recipients.length).countP (!recipients[·]?.any isDensityDevice) ≤
          maxSamples) := by
  rcases Nat.lt_or_ge maxSamples recipients.length with hmore | hle
  · obtain ⟨rounds, indices, hsampled, -, hdraws⟩ :=
      sampleIndices_of_more hpositive hmore hsize
    refine ⟨rounds, indices, hsampled, hdraws.nodup, hdraws.lt,
      fun hle => absurd hmore (Nat.not_lt.mpr hle), ?_⟩
    have hlength := hdraws.length
    have hcount := countP_le_length (l := indices)
      (p := (!recipients[·]?.any isDensityDevice))
    have hanchors := countP_le_length (l := anchorIndices recipients.length)
      (p := (!recipients[·]?.any isDensityDevice))
    rcases Nat.lt_or_ge maxSamples (anchorIndices recipients.length).length with hshort | henough
    · -- nothing was drawn
      have hnodup := (anchorIndices_spec (show 1 < recipients.length by omega)).1
      have hperm := (subperm_of_subset hnodup hdraws.subset).perm_of_length_le (by omega)
      rw [hperm.countP_eq]
    · exact iff_of_true (by omega) (by omega)
  · refine ⟨0, range recipients.length, fun more _ => ?_, nodup_range,
      fun idx hidx => mem_range.mp hidx, fun _ idx hidx => mem_range.mpr hidx, ?_⟩
    · unfold deterministicCommitReceiveSampleIndices
      split
      · rw [show recipients.length = 0 by omega, range_zero]
      · rfl
    · have hcount := countP_le_length (l := range recipients.length)
        (p := (!recipients[·]?.any isDensityDevice))
      rw [length_range] at hcount
      refine iff_of_true (Nat.le_trans hcount hle) ?_
      refine Nat.le_trans countP_le_length ?_
      rcases Nat.eq_zero_or_pos recipients.length with hzero | hsome
      · rw [hzero]
        exact hpositive
      · exact Nat.le_trans (length_anchorIndices_le hsome) hle

/-- The cap is kept exactly if there is room for those of the first, the middle and the last
recipient that are no devices. -/
theorem samplingMap_capped_iff (hids : (recipients.map (·.id)).Nodup) (hpositive : 0 < maxSamples)
    (hsize : recipients.length ≤ 2 ^ 64) (seed : BitVec 64) (plateauSize : Nat)
    (epoch : BitVec 64) (seqNo : Nat) :
    ∃ rounds map, (∀ more, rounds ≤ more → buildCommitReceiveSamplingMap recipients maxSamples seed
        plateauSize epoch seqNo more = some map) ∧
      (∀ worker ∈ recipients, isDensityDevice worker = true → worker.id ∈ map.sampledIds) ∧
      (recipients.length ≤ maxSamples → ∀ worker ∈ recipients, worker.id ∈ map.sampledIds) ∧
      (profiledBesides recipients map ≤ maxSamples ↔
        (anchorIndices recipients.length).countP (!recipients[·]?.any isDensityDevice) ≤
          maxSamples) := by
  obtain ⟨rounds, indices, hsampled, hnodup, hlt, hall, hcapped⟩ :=
    sampleIndices_spec hpositive hsize
  refine ⟨rounds, samplingMap recipients indices, fun more hmore => ?_,
    fun worker hworker hdevice => ?_, fun hle worker hworker => ?_, ?_⟩
  · rw [buildCommitReceiveSamplingMap, hsampled more hmore, Option.map_some]
  · obtain ⟨idx, hget⟩ := mem_iff_getElem?.mp hworker
    exact (mem_sampledIds hids indices hget).mpr (.inr hdevice)
  · obtain ⟨idx, hget⟩ := mem_iff_getElem?.mp hworker
    exact (mem_sampledIds hids indices hget).mpr
      (.inl (hall hle idx (List.getElem?_eq_some_iff.mp hget).1))
  · rw [profiledBesides_eq hids hnodup hlt]
    exact hcapped

/-- Three members that are no devices. -/
def threePlain : List WorkerSpec := ["w1", "w2", "w3"].map fun id =>
  ⟨id, "http://worker-0:8080/client/" ++ id, "worker-0", .packed, false, ""⟩

theorem samplingMap_capped_three : ∃ rounds map,
    buildCommitReceiveSamplingMap threePlain 3 42 16 3 0 rounds = some map ∧
      profiledBesides threePlain map ≤ 3 := by
  have hids : (threePlain.map (·.id)).Nodup := by decide
  obtain ⟨rounds, map, hmap, -, -, hcapped⟩ :=
    samplingMap_capped_iff hids (show 0 < 3 by decide) (by decide) 42 16 3 0
  exact ⟨rounds, map, hmap rounds (Nat.le_refl _), hcapped.mpr (by decide)⟩

/-- All three are profiled, although the cap is one. -/
theorem samplingMap_exceeds_cap : ∃ map,
    buildCommitReceiveSamplingMap threePlain 1 42 16 3 0 0 = some map ∧
      profiledBesides threePlain map = 3 :=
  ⟨_, rfl, by decide⟩

end SamplingMap

end MessagingBench.Runner
