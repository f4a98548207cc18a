import Mathlib.Data.Finset.Prod
import MessagingBench.Runner.Population

/-!
# The add density phase and its end

A round that goes on has completed a sample or lost a worker, provided that its actor may
remove as many members as the round asks for. Once members have been replaced by workers
that may not be removed, a batch of eight is reduced without an error, the sample does not
count, and the next round asks for the same batch again.
-/

namespace MessagingBench.Runner

open List Routine

variable {ε : Type} {env : RunnerEnvironment ε} {config : RunnerConfig}
  {plateauSize minProfiledSamplesPerOperation batchSize : Nat} {batchSizes : List Nat}
  {counts counts' : Nat × String → Nat} {actorId : String} {s s' : RunnerState ε}

section Rounds

variable (env config plateauSize minProfiledSamplesPerOperation batchSizes) in
/-- The actor of the next round may remove as many members as the round will ask for. -/
def BatchFeasible (counts : Nat × String → Nat) (s : RunnerState ε) : Prop :=
  ∀ batchSize actorId s₁ actorIdx,
    nextSample minProfiledSamplesPerOperation batchSizes (externalIds s.active) counts =
      some (batchSize, actorId) →
    restoreIfNeeded env config plateauSize s.active s = (.ok (), s₁) →
    s₁.active.findIdx? (·.id == actorId) = some actorIdx →
    batchSize ≤ (removableMemberIndices s₁.active actorIdx true true).length

theorem nextSample_some {ids : List String}
    (h : nextSample minProfiledSamplesPerOperation batchSizes ids counts =
      some (batchSize, actorId)) :
    batchSize ∈ batchSizes ∧ actorId ∈ ids ∧
      counts (batchSize, actorId) < minProfiledSamplesPerOperation := by
  obtain ⟨hmem, hlt⟩ := mem_filter.mp (List.minOn?_mem h)
  obtain ⟨size, hsize, hkey⟩ := mem_flatMap.mp hmem
  obtain ⟨id, hid, heq⟩ := mem_map.mp hkey
  cases heq
  exact ⟨hsize, hid, of_decide_eq_true hlt⟩

theorem restoreIfNeeded_ok (h : restoreIfNeeded env config plateauSize s.active s = (.ok (), s')) :
    Retained s s' ∧ s'.active.length = plateauSize := by
  unfold restoreIfNeeded at h
  split at h
  · exact restoreDensityPlateau_ok h
  · rename_i hsize
    obtain ⟨-, rfl⟩ := pure_ok h
    exact ⟨⟨.refl _, fun _ _ hmem => hmem⟩, Decidable.not_not.mp hsize⟩

/-- A sample that was tried without losing anybody counts, if its batch was not reduced. -/
theorem sampleAddition_ok (hsize : s.active.length = plateauSize)
    (h : sampleAddition env config plateauSize counts batchSize actorId s = (.ok counts', s')) :
    Shrinks s s' ∧ (population s' = population s → ∀ actorIdx,
      s.active.findIdx? (·.id == actorId) = some actorIdx →
      batchSize ≤ (removableMemberIndices s.active actorIdx true true).length →
      counts' = bump counts (batchSize, actorId)) := by
  obtain ⟨_, s₁, hremoved, h⟩ := bind_ok h
  have hremoves := removeNMembers_removes hremoved
  obtain ⟨_, _, ⟨⟩, h⟩ := bind_ok h
  split at h
  · rename_i hfailed
    obtain ⟨_, s₂, hrestored, h⟩ := bind_ok h
    obtain ⟨rfl, rfl⟩ := pure_ok h
    have hrestored := (restoreDensityPlateau_ok hrestored).1.shrinks
    refine ⟨hremoves.shrinks.trans hrestored, fun heq actorIdx hfound hfeasible => ?_⟩
    have hle := hremoves.shrinks.population
    have hle' := hrestored.population
    obtain ⟨hlength, hany⟩ := hremoves.complete (by omega) actorIdx hfound
    rw [Nat.min_eq_left hfeasible] at hlength
    rcases hfailed with hgone | hother
    · rw [hany] at hgone
      cases hgone
    · omega
  · rename_i hremovedAll
    obtain ⟨_, s₂, hadded, h⟩ := bind_ok h
    have hadds := addNMembers_adds hadded
    obtain ⟨_, _, ⟨⟩, h⟩ := bind_ok h
    split at h
    · obtain ⟨rfl, rfl⟩ := pure_ok h
      exact ⟨hremoves.shrinks.trans hadds.shrinks, fun _ _ _ _ => rfl⟩
    · rename_i hincomplete
      obtain ⟨_, s₃, hrestored, h⟩ := bind_ok h
      obtain ⟨rfl, rfl⟩ := pure_ok h
      have hrestored := (restoreDensityPlateau_ok hrestored).1.shrinks
      refine ⟨(hremoves.shrinks.trans hadds.shrinks).trans hrestored,
        fun heq actorIdx hfound hfeasible => ?_⟩
      have hle := hremoves.shrinks.population
      have hle' := hadds.shrinks.population
      have hle'' := hrestored.population
      obtain ⟨hlength, hany⟩ := hremoves.complete (by omega) actorIdx hfound
      obtain ⟨hlength', hkept⟩ := hadds.complete (by omega)
      rw [Nat.min_eq_left hfeasible] at hlength
      refine absurd ⟨?_, by omega⟩ hincomplete
      obtain ⟨worker, hworker, hid⟩ := any_eq_true.mp hany
      exact any_eq_true.mpr ⟨worker, hkept worker hworker, hid⟩

/-- A round that goes on completes a sample that was missing, unless a worker is lost or the
batch is reduced. -/
theorem densityRound_inl
    (h : densityRound env config plateauSize minProfiledSamplesPerOperation batchSizes counts s =
      (.ok (.inl counts'), s')) :
    Shrinks s s' ∧ (population s' = population s →
      BatchFeasible env config plateauSize minProfiledSamplesPerOperation batchSizes counts s →
      ∃ batchSize actorId, batchSize ∈ batchSizes ∧ actorId ∈ s.active.map (·.id) ∧
        counts (batchSize, actorId) < minProfiledSamplesPerOperation ∧
        counts' = bump counts (batchSize, actorId)) := by
  obtain ⟨_, _, ⟨⟩, h⟩ := bind_ok h
  split at h
  · cases h
  cases hnext : nextSample minProfiledSamplesPerOperation batchSizes (externalIds s.active)
      counts with
  | none =>
    rw [hnext] at h
    cases h
  | some key =>
    obtain ⟨batchSize, actorId⟩ := key
    rw [hnext] at h
    obtain ⟨_, s₁, hrestored, h⟩ := bind_ok h
    obtain ⟨hretained, hsize⟩ := restoreIfNeeded_ok hrestored
    obtain ⟨after, s₂, hsampled, h⟩ := bind_ok h
    obtain ⟨heq, rfl⟩ := pure_ok h
    cases heq
    obtain ⟨hshrinks, hcounts⟩ := sampleAddition_ok hsize hsampled
    obtain ⟨hbatch, hactor, hlt⟩ := nextSample_some hnext
    obtain ⟨actor, hmem, -, rfl⟩ := mem_externalIds.mp hactor
    refine ⟨hretained.shrinks.trans hshrinks, fun heq hfeasible => ?_⟩
    have hle := hretained.shrinks.population
    have hle' := hshrinks.population
    -- nobody was lost, so that the actor is still active
    have hactive := hretained.kept (by omega) actor hmem
    have hsome : (s₁.active.findIdx? (·.id == actor.id)).isSome = true := by
      rw [findIdx?_isSome]
      exact any_eq_true.mpr ⟨actor, hactive, beq_self_eq_true _⟩
    obtain ⟨actorIdx, hfound⟩ := Option.isSome_iff_exists.mp hsome
    refine ⟨batchSize, actor.id, hbatch, mem_map_of_mem hmem, hlt, ?_⟩
    exact hcounts (by omega) actorIdx hfound
      (hfeasible batchSize actor.id s₁ actorIdx hnext hrestored hfound)

/-- The samples that can be missing: of every batch size and every worker. -/
def sampleKeys (batchSizes : List Nat) (s : RunnerState ε) : Finset (Nat × String) :=
  batchSizes.toFinset ×ˢ ((s.active ++ s.idle).map (·.id)).toFinset

/-- A lost worker weighs more than all samples that can be missing. -/
def densityMeasure (keys : Finset (Nat × String)) (required : Nat) (counts : Nat × String → Nat)
    (s : RunnerState ε) : Nat :=
  population s * (keys.card * required + 1) + deficit keys required counts

theorem densityMeasure_lt_of_population {keys : Finset (Nat × String)} {required : Nat}
    (h : population s' < population s) :
    densityMeasure keys required counts' s' < densityMeasure keys required counts s := by
  have hle : deficit keys required counts' ≤ keys.card * required := deficit_le
  have hmul : (population s' + 1) * (keys.card * required + 1) ≤
      population s * (keys.card * required + 1) := Nat.mul_le_mul_right _ h
  unfold densityMeasure
  rw [Nat.add_mul, Nat.one_mul] at hmul
  omega

theorem densityRound_measure {s₀ : RunnerState ε} (hshrinks : Shrinks s₀ s)
    (hfeasible : BatchFeasible env config plateauSize minProfiledSamplesPerOperation batchSizes
      counts s)
    (h : densityRound env config plateauSize minProfiledSamplesPerOperation batchSizes counts s =
      (.ok (.inl counts'), s')) :
    Shrinks s₀ s' ∧
      densityMeasure (sampleKeys batchSizes s₀) minProfiledSamplesPerOperation counts' s' <
        densityMeasure (sampleKeys batchSizes s₀) minProfiledSamplesPerOperation counts s := by
  obtain ⟨hround, hsample⟩ := densityRound_inl h
  refine ⟨hshrinks.trans hround, ?_⟩
  rcases Nat.lt_or_eq_of_le hround.population with hlost | hsame
  · exact densityMeasure_lt_of_population hlost
  · obtain ⟨batchSize, actorId, hbatch, hactor, hlt, rfl⟩ := hsample hsame hfeasible
    obtain ⟨actor, hmem, rfl⟩ := mem_map.mp hactor
    have hkey : (batchSize, actor.id) ∈ sampleKeys batchSizes s₀ := by
      refine Finset.mem_product.mpr ⟨mem_toFinset.mpr hbatch, mem_toFinset.mpr ?_⟩
      exact mem_map_of_mem (hshrinks.subset actor (mem_append_left _ hmem))
    have hdeficit := deficit_lt (le_bump counts _) hkey hlt lt_bump_self
    unfold densityMeasure
    rw [hsame]
    omega

/-- If no round asks for more members than its actor may remove, the loop ends, and with it the
phase: from some number of rounds on its result is the same. -/
theorem add_density_ends
    (hfeasible : ∀ rounds counts s₁,
      stage (densityRound env config plateauSize minProfiledSamplesPerOperation
        (densityBatchSizes s.active)) (fun _ => 0) s rounds = .running counts s₁ →
      BatchFeasible env config plateauSize minProfiledSamplesPerOperation
        (densityBatchSizes s.active) counts s₁) :
    Ends (densityRound env config plateauSize minProfiledSamplesPerOperation
      (densityBatchSizes s.active)) (fun _ => 0) s ∧
    ∀ externalCoverageLane, ∃ limit result s', ∀ rounds, limit ≤ rounds →
      runExternalAddDensityPhase env config plateauSize minProfiledSamplesPerOperation
        externalCoverageLane rounds s = (result, s') := by
  obtain ⟨result, s', hended⟩ := stage_ended_of_measure
    (densityMeasure (sampleKeys (densityBatchSizes s.active) s) minProfiledSamplesPerOperation)
    (Shrinks.refl s) fun rounds counts s₁ counts' s₂ hrunning hshrinks hround =>
      densityRound_measure hshrinks (hfeasible rounds counts s₁ hrunning) hround
  refine ⟨⟨_, result, s', hended⟩, fun externalCoverageLane => ?_⟩
  unfold runExternalAddDensityPhase
  split
  · exact ⟨0, .ok (), s, fun _ _ => rfl⟩
  · exact ⟨_, result, s', fun _ hle => loop_eq_of_ended hended hle⟩

/-- A device and a member that it may remove. -/
def pair : RunnerState Unit :=
  ⟨(), [phone, packed "w1"], [], [], [], 0, []⟩

theorem add_density_ends_of_pair :
    Ends (densityRound obliging plateau 2 1 (densityBatchSizes pair.active)) (fun _ => 0)
      pair ∧ ∀ lane, ∃ limit result s', ∀ rounds, limit ≤ rounds →
        runExternalAddDensityPhase obliging plateau 2 1 lane rounds pair = (result, s') := by
  refine add_density_ends fun rounds counts s₁ hrunning batchSize actorId s₂ actorIdx hnext
    hrestored hfound => ?_
  match rounds with
  | 0 =>
    cases hrunning
    rw [show nextSample 1 (densityBatchSizes pair.active) (externalIds pair.active) (fun _ => 0) =
      some (1, "phone") by decide] at hnext
    cases hnext
    cases hrestored
    rw [show pair.active.findIdx? (·.id == "phone") = some 0 by decide] at hfound
    cases hfound
    decide
  | 1 =>
    obtain ⟨counts', s', hstage, hnone⟩ := Stage.exists_of_isRunning
      (show (stage (densityRound obliging plateau 2 1 (densityBatchSizes pair.active))
        (fun _ => 0) pair 1).isRunning (fun counts s =>
          (nextSample 1 (densityBatchSizes pair.active) (externalIds s.active) counts).isNone) =
            true by decide +kernel)
    cases hrunning.symm.trans hstage
    rw [hnext] at hnone
    cases hnone
  | rounds + 2 =>
    obtain ⟨result, s', hended⟩ := Stage.exists_of_not_isRunning
      (show (stage (densityRound obliging plateau 2 1 (densityBatchSizes pair.active))
        (fun _ => 0) pair 2).isRunning (fun _ _ => true) = false by decide +kernel)
    have hended := stage_ended_of_le hended (Nat.le_add_left 2 rounds)
    cases hrunning.symm.trans hended

end Rounds

section Stuck

/-- A group with its epoch and its members, and whether the worker w8 has been killed. -/
structure Lab where
  killed : Bool
  epoch : Delivery.Epoch
  members : List String

/-- All commands succeed, but w8 is killed for its memory when it should make a key package. -/
def lab : RunnerEnvironment Lab where
  complete posted e := (.answered posted ⟨"ok", ""⟩, e)
  showGroupState _ e := (.ok ⟨"group", e.epoch, e.members⟩, e)
  send worker request e :=
    match request.command, worker.id == "w8" && !e.killed with
    | .generateKeyPackage, true =>
      (.error ⟨worker.id, "GenerateKeyPackage", worker.url, request.requestId, 4,
        .transportRetryable, "connection refused", none⟩, { e with killed := true })
    | .removeMembers ids, _ => (.ok ⟨"ok", okFragment worker request.command⟩,
        { e with epoch := e.epoch + 1, members := e.members.filter (!ids.contains ·) })
    | .addMembers ids, _ => (.ok ⟨"ok", okFragment worker request.command⟩,
        { e with epoch := e.epoch + 1, members := e.members ++ ids })
    | _, _ => (.ok ⟨"ok", okFragment worker request.command⟩, e)
  oomEvidence worker e := (worker.id == "w8", e)
  expired e := (false, e)
  random bound e := (bound - 1, e)

def probe : WorkerSpec := ⟨"probe", "http://probe:8080", "probe", .singleton, true, ""⟩

def crowd : List WorkerSpec := ["w1", "w2", "w3", "w4", "w5", "w6", "w7"].map packed

/-- Eight members may be removed; the idle worker may not. -/
def labStart : RunnerState Lab :=
  ⟨⟨false, 1, ["phone", "w1", "w2", "w3", "w4", "w5", "w6", "w7", "w8"]⟩,
    phone :: crowd ++ [packed "w8"], [probe], [], [], 0, []⟩

/-- Who is left when w8 has been killed and the probe has taken its place. -/
def survivors : List WorkerSpec := phone :: probe :: crowd

/-- One sample is complete, the other one needs eight members that may be removed. -/
structure Stuck (counts : Nat × String → Nat) (s : RunnerState Lab) : Prop where
  one : counts (1, "phone") = 1
  eight : counts (8, "phone") = 0
  killed : s.env.killed = true
  members : s.env.members = survivors.map (·.id)
  active : s.active = survivors
  idle : s.idle = []
  events : s.events.length = 1

instance (counts : Nat × String → Nat) (s : RunnerState Lab) : Decidable (Stuck counts s) :=
  decidable_of_iff (counts (1, "phone") = 1 ∧ counts (8, "phone") = 0 ∧ s.env.killed = true ∧
      s.env.members = survivors.map (·.id) ∧ s.active = survivors ∧ s.idle = [] ∧
      s.events.length = 1)
    ⟨fun ⟨one, eight, killed, members, active, idle, events⟩ =>
      ⟨one, eight, killed, members, active, idle, events⟩,
      fun h => ⟨h.one, h.eight, h.killed, h.members, h.active, h.idle, h.events⟩⟩

/-- What a round that is stuck never looks at. -/
structure Unread where
  counts : Nat × String → Nat
  epoch : Delivery.Epoch
  event : RunnerEvent
  budgetFailures : List String
  requestCounter : Nat
  observed : List Observation

instance : Nonempty Unread := ⟨⟨fun _ => 0, 0, ⟨"", "", "", "", "", none⟩, [], 0, []⟩⟩

def Unread.stuckCounts (unread : Unread) : Nat × String → Nat :=
  Function.update (Function.update unread.counts (1, "phone") 1) (8, "phone") 0

def Unread.stuckState (unread : Unread) : RunnerState Lab :=
  ⟨⟨true, unread.epoch, survivors.map (·.id)⟩, survivors, [], [unread.event],
    unread.budgetFailures, unread.requestCounter, unread.observed⟩

variable {counts : Nat × String → Nat} {s : RunnerState Lab}

theorem Stuck.exists_unread (h : Stuck counts s) :
    ∃ unread : Unread, counts = unread.stuckCounts ∧ s = unread.stuckState := by
  obtain ⟨⟨killed, epoch, members⟩, active, idle, events, budgetFailures, requestCounter,
    observed⟩ := s
  obtain ⟨one, eight, rfl, rfl, rfl, rfl, hevents⟩ := h
  obtain ⟨event, rfl⟩ := length_eq_one_iff.mp hevents
  have hone : Function.update counts (1, "phone") 1 = counts :=
    Function.update_eq_self_iff.mpr one.symm
  have height : Function.update counts (8, "phone") 0 = counts :=
    Function.update_eq_self_iff.mpr eight.symm
  refine ⟨⟨counts, epoch, event, budgetFailures, requestCounter, observed⟩, ?_, rfl⟩
  rw [Unread.stuckCounts, hone, height]

/-- Seven members are removed and added again, and nothing has been gained. -/
theorem Stuck.round (h : Stuck counts s) :
    (stage (densityRound lab plateau 9 1 [1, 8]) counts s 1).isRunning
      (fun counts' s' => decide (Stuck counts' s')) = true := by
  obtain ⟨unread, rfl, rfl⟩ := h.exists_unread
  -- the round can be evaluated although parts of the state are not known
  exact forall_of_epsilon (P := fun unread : Unread =>
    (stage (densityRound lab plateau 9 1 [1, 8]) unread.stuckCounts unread.stuckState
      1).isRunning (fun counts' s' => decide (Stuck counts' s')) = true) (by decide +kernel)

/-- Round by round the phase is under way. -/
theorem lab_running {rounds : Nat} : ∃ counts s₁,
    stage (densityRound lab plateau 9 1 (densityBatchSizes labStart.active)) (fun _ => 0)
      labStart rounds = .running counts s₁ ∧ s₁.events.length ≤ 1 := by
  have hsizes : densityBatchSizes labStart.active = [1, 8] := by decide
  rw [hsizes]
  rcases Nat.lt_or_ge rounds 3 with hlt | hge
  · -- w8 is lost and the probe takes its place, then the sample of a single member is completed
    have hfew : ∀ rounds < 3, (stage (densityRound lab plateau 9 1 [1, 8]) (fun _ => 0)
        labStart rounds).isRunning (fun _ s => decide (s.events.length ≤ 1)) = true := by
      decide +kernel
    obtain ⟨counts, s, hstage, hevents⟩ := Stage.exists_of_isRunning (hfew rounds hlt)
    exact ⟨counts, s, hstage, of_decide_eq_true hevents⟩
  · obtain ⟨more, rfl⟩ := Nat.exists_eq_add_of_le hge
    obtain ⟨counts, s, hstage, hstuck⟩ := Stage.exists_of_isRunning
      (show (stage (densityRound lab plateau 9 1 [1, 8]) (fun _ => 0) labStart 3).isRunning
        (fun counts s => decide (Stuck counts s)) = true by decide +kernel)
    rw [stage_add hstage]
    obtain ⟨counts', s', hrunning, hstuck'⟩ := stage_running_of_invariant
      (I := Stuck) (of_decide_eq_true hstuck) (fun _ _ h => by
        obtain ⟨counts', s', hstage, hstuck⟩ := Stage.exists_of_isRunning h.round
        exact ⟨counts', s', hstage, of_decide_eq_true hstuck⟩) more
    exact ⟨counts', s', hrunning, Nat.le_of_eq hstuck'.events⟩

/-- The phase does not end, whatever the number of its rounds, although only one worker ever
fails. -/
theorem add_density_never_ends :
    (¬ Ends (densityRound lab plateau 9 1 (densityBatchSizes labStart.active))
      (fun _ => 0) labStart) ∧
    (∀ rounds counts s₁, stage (densityRound lab plateau 9 1
        (densityBatchSizes labStart.active)) (fun _ => 0) labStart rounds = .running counts s₁ →
      s₁.events.length ≤ 1) ∧
    ∀ rounds, ∃ s₁, runExternalAddDensityPhase lab plateau 9 1 true rounds labStart =
      (.error (.message "the add density phase ran out of rounds"), s₁) := by
  refine ⟨?_, ?_, fun rounds => ?_⟩
  · rintro ⟨rounds, result, s', hended⟩
    obtain ⟨counts, s₁, hrunning, -⟩ := lab_running
    cases hended.symm.trans hrunning
  · intro rounds counts s₁ h
    obtain ⟨counts', s', hrunning, hevents⟩ := lab_running
    cases h.symm.trans hrunning
    exact hevents
  · obtain ⟨counts, s₁, hrunning, -⟩ := lab_running
    exact ⟨s₁, loop_eq_of_running hrunning⟩

end Stuck

end MessagingBench.Runner
