import Mathlib.Data.List.Dedup
import MessagingBench.Runner.Population
import MessagingBench.Runner.Rejoin

/-!
# The samples of the remove/rejoin phase

As long as two devices and a worker that is not external are active, the selection of
roles finds two different workers for a sample that is missing, or nothing is missing. A
cycle that succeeds leaves the active workers as they were, in another order, and lowers
what is missing of the three kinds of samples together.
-/

namespace MessagingBench.Runner

open List Routine

variable {active : List WorkerSpec} {ids : List String} {required plateauSize : Nat}
  {counts : RejoinCounts}

section Selection

variable {samples : String → Nat} {id : String}

theorem leastSampled_mem (h : leastSampled samples ids = some id) : id ∈ ids :=
  List.minOn?_mem h

theorem leastSampled_isSome {samples : String → Nat} (h : ids ≠ []) :
    ∃ id, leastSampled samples ids = some id :=
  Option.isSome_iff_exists.mp (List.isSome_minOn?_iff.mpr h)

theorem leastSampled_none (h : leastSampled samples ids = none) : ids = [] := by
  by_contra hne
  obtain ⟨id, hsome⟩ := leastSampled_isSome hne
  cases h.symm.trans hsome

theorem mem_belowRequired :
    id ∈ belowRequired required samples ids ↔ id ∈ ids ∧ samples id < required := by
  rw [belowRequired, mem_filter, decide_eq_true_iff]

theorem le_of_belowRequired_none
    (h : leastSampled samples (belowRequired required samples ids) = none) :
    ∀ id ∈ ids, required ≤ samples id := by
  intro id hid
  by_contra hlt
  have hmem := mem_belowRequired.mpr ⟨hid, Nat.lt_of_not_le hlt⟩
  rw [leastSampled_none h] at hmem
  cases hmem

/-- An id names one worker, two of the workers are devices, and one is not external. -/
structure Staffed (active : List WorkerSpec) : Prop where
  named : ∀ worker ∈ active, ∀ other ∈ active, worker.id = other.id → worker = other
  devices : ∃ device ∈ active, ∃ other ∈ active,
    isDensityDevice device = true ∧ isDensityDevice other = true ∧ device ≠ other
  plain : ∃ worker ∈ active, isExternalDevice worker = false

/-- There is always another device. -/
theorem Staffed.exists_other (h : Staffed active) (id : String) :
    ∃ other ∈ externalIds active, other ≠ id := by
  obtain ⟨device, hdevice, other, hother, hd, ho, hne⟩ := h.devices
  by_cases hid : device.id = id
  · refine ⟨other.id, mem_externalIds.mpr ⟨other, hother, ho, rfl⟩, fun heq => hne ?_⟩
    exact h.named device hdevice other hother (hid.trans heq.symm)
  · exact ⟨device.id, mem_externalIds.mpr ⟨device, hdevice, hd, rfl⟩, hid⟩

theorem Staffed.others_ne_nil (h : Staffed active) (id : String) :
    (externalIds active).filter (· != id) ≠ [] := by
  obtain ⟨other, hmem, hne⟩ := h.exists_other id
  exact ne_nil_of_mem (mem_filter.mpr ⟨hmem, bne_iff_ne.mpr hne⟩)

theorem Staffed.isDensityDevice_of_mem (h : Staffed active) {worker : WorkerSpec}
    (hworker : worker ∈ active) (hid : worker.id ∈ externalIds active) :
    isDensityDevice worker = true := by
  obtain ⟨device, hdevice, hd, heq⟩ := mem_externalIds.mp hid
  rw [h.named worker hworker device hdevice heq.symm]
  exact hd

/-- Nobody needs another sample. -/
structure Complete (active : List WorkerSpec) (required : Nat) (counts : RejoinCounts) : Prop where
  welcome : ∀ id ∈ externalIds active, required ≤ counts.welcome id
  actor : ∀ id ∈ externalIds active, required ≤ counts.actor id
  receiver : ∀ id ∈ externalIds active, required ≤ counts.receiver id

/-- Roles for two different active workers that serve a sample that is missing. -/
structure RolesFit (active : List WorkerSpec) (required : Nat) (counts : RejoinCounts)
    (roles : Roles) : Prop where
  actor : roles.actorId ∈ externalIds active
  victim : ∃ victim ∈ active, victim.id = roles.victimId
  distinct : roles.actorId ≠ roles.victimId
  receiver : ∀ id ∈ roles.supplementalReceiverId, id ∈ externalIds active ∧
    id ≠ roles.actorId ∧ id ≠ roles.victimId
  missing : counts.actor roles.actorId < required ∨
    (roles.victimId ∈ externalIds active ∧ counts.welcome roles.victimId < required) ∨
    ∃ id ∈ roles.supplementalReceiverId, counts.receiver id < required

theorem exists_of_mem_externalIds (h : id ∈ externalIds active) :
    ∃ worker ∈ active, worker.id = id := by
  obtain ⟨worker, hmem, -, hid⟩ := mem_externalIds.mp h
  exact ⟨worker, hmem, hid⟩

theorem selectSupplemental_spec (h : Staffed active) :
    (∃ roles, selectSupplementalRemoveReceiverRoles required plateauSize active
        (externalIds active) counts.actor counts.receiver = .ok (some roles) ∧
      RolesFit active required counts roles) ∨
    (selectSupplementalRemoveReceiverRoles required plateauSize active (externalIds active)
        counts.actor counts.receiver = .ok none ∧
      ∀ id ∈ externalIds active, required ≤ counts.receiver id) := by
  unfold selectSupplementalRemoveReceiverRoles
  cases hreceiver : leastSampled counts.receiver
      (belowRequired required counts.receiver (externalIds active)) with
  | none => exact .inr ⟨rfl, le_of_belowRequired_none hreceiver⟩
  | some receiverId =>
    obtain ⟨hreceiverMem, hmissing⟩ := mem_belowRequired.mp (leastSampled_mem hreceiver)
    obtain ⟨actorId, hactor⟩ := leastSampled_isSome
      (h.others_ne_nil receiverId)
    obtain ⟨hactorMem, hactorNe⟩ := mem_filter.mp (leastSampled_mem hactor)
    -- the worker that is not external has neither of the two ids
    obtain ⟨plain, hplain, hexternal⟩ := h.plain
    have hforeign : ∀ id ∈ externalIds active, plain.id ≠ id := by
      rintro id hid rfl
      have hdevice := h.isDensityDevice_of_mem hplain hid
      rw [isDensityDevice, hexternal, Bool.and_false] at hdevice
      cases hdevice
    have hvictims : ((active.filter (!isExternalDevice ·)).filter fun worker =>
        worker.id != actorId && worker.id != receiverId) ≠ [] := by
      refine ne_nil_of_mem (a := plain) ?_
      simp only [mem_filter, Bool.and_eq_true, bne_iff_ne]
      exact ⟨⟨hplain, by rw [hexternal]; rfl⟩, hforeign actorId hactorMem,
        hforeign receiverId hreceiverMem⟩
    obtain ⟨victim, hvictim⟩ := Option.isSome_iff_exists.mp (List.isSome_minOn?_iff
      (f := fun worker : WorkerSpec => toLex (worker.profileEnabled, worker.id)).mpr hvictims)
    have hmem := List.minOn?_mem hvictim
    simp only [mem_filter, Bool.and_eq_true, bne_iff_ne] at hmem
    refine .inl ⟨⟨actorId, victim.id, some receiverId⟩, ?_, ?_⟩
    · dsimp only
      rw [hactor]
      dsimp only
      rw [hvictim]
    · exact {
        actor := hactorMem
        victim := ⟨victim, hmem.1.1, rfl⟩
        distinct := fun heq => hmem.2.1 heq.symm
        receiver := fun id hid => by
          obtain rfl := Option.mem_some_iff.mp hid
          exact ⟨hreceiverMem, fun heq => bne_iff_ne.mp hactorNe heq.symm,
            fun heq => hmem.2.2 heq.symm⟩
        missing := .inr (.inr ⟨receiverId, rfl, hmissing⟩) }

theorem Staffed.exists_victim (h : Staffed active) (required : Nat) (welcome : String → Nat)
    (actorId : String) : ∃ victimId,
      (leastSampled welcome (belowRequired required welcome
        ((externalIds active).filter fun id => some actorId != some id))).or
          (leastSampled welcome
            ((externalIds active).filter fun id => some actorId != some id)) = some victimId ∧
        victimId ∈ externalIds active ∧ actorId ≠ victimId := by
  have hothers : (externalIds active).filter (fun id => some actorId != some id) =
      (externalIds active).filter (· != actorId) :=
    filter_congr fun id _ => by simp [bne, Bool.beq_comm]
  have hspec : ∀ id ∈ (externalIds active).filter (· != actorId),
      id ∈ externalIds active ∧ actorId ≠ id := by
    intro id hid
    obtain ⟨hmem, hne⟩ := mem_filter.mp hid
    exact ⟨hmem, fun heq => bne_iff_ne.mp hne heq.symm⟩
  rw [hothers]
  cases hbelow : leastSampled welcome (belowRequired required welcome
      ((externalIds active).filter (· != actorId))) with
  | some victimId =>
    exact ⟨victimId, rfl, hspec victimId (mem_belowRequired.mp (leastSampled_mem hbelow)).1⟩
  | none =>
    obtain ⟨victimId, hleast⟩ := leastSampled_isSome (h.others_ne_nil actorId)
    exact ⟨victimId, hleast, hspec victimId (leastSampled_mem hleast)⟩

/-- The selection finds roles as long as a sample is missing. -/
theorem selectRoles_spec (h : Staffed active) :
    (∃ roles, selectRoles required plateauSize active (externalIds active) counts =
        .ok (some roles) ∧ RolesFit active required counts roles) ∨
    (selectRoles required plateauSize active (externalIds active) counts = .ok none ∧
      Complete active required counts) := by
  unfold selectRoles
  dsimp only
  cases hactor : leastSampled counts.actor
      (belowRequired required counts.actor (externalIds active)) with
  | some actorId =>
    obtain ⟨hactorMem, hmissing⟩ := mem_belowRequired.mp (leastSampled_mem hactor)
    obtain ⟨victimId, hvictim, hmem, hdistinct⟩ := h.exists_victim required counts.welcome actorId
    rw [hvictim]
    exact .inl ⟨_, rfl, hactorMem, exists_of_mem_externalIds hmem, hdistinct, nofun, .inl hmissing⟩
  | none =>
    cases hwelcome : leastSampled counts.welcome
        (belowRequired required counts.welcome (externalIds active)) with
    | some victimId =>
      obtain ⟨hvictimMem, hmissing⟩ := mem_belowRequired.mp (leastSampled_mem hwelcome)
      obtain ⟨actorId, hleast⟩ := leastSampled_isSome (h.others_ne_nil victimId)
      obtain ⟨hactorMem, hne⟩ := mem_filter.mp (leastSampled_mem hleast)
      dsimp only
      rw [hleast]
      exact .inl ⟨_, rfl, hactorMem, exists_of_mem_externalIds hvictimMem, bne_iff_ne.mp hne, nofun,
        .inr (.inl ⟨hvictimMem, hmissing⟩)⟩
    | none =>
      rcases selectSupplemental_spec h with hroles | ⟨hnone, hreceiver⟩
      · exact .inl hroles
      · exact .inr ⟨hnone, le_of_belowRequired_none hwelcome, le_of_belowRequired_none hactor,
          hreceiver⟩

/-- A cycle of two different active workers that serves a sample that is missing. -/
structure CycleFits (active : List WorkerSpec) (required : Nat) (counts : RejoinCounts)
    (cycle : Cycle) : Prop where
  actor : cycle.actor ∈ active
  victim : cycle.victim ∈ active
  distinct : cycle.actor.id ≠ cycle.victim.id
  missing : (cycle.actor.id ∈ externalIds active ∧ counts.actor cycle.actor.id < required) ∨
    (cycle.victim.id ∈ externalIds active ∧ isExternalDevice cycle.victim = true ∧
      counts.welcome cycle.victim.id < required) ∨
    ∃ id ∈ cycle.receiverIds, id ∈ externalIds active ∧ counts.receiver id < required

theorem exists_find_id (h : ∃ worker ∈ active, worker.id = id) :
    ∃ worker, active.find? (·.id == id) = some worker ∧ worker ∈ active ∧ worker.id = id := by
  obtain ⟨worker, hmem, hid⟩ := h
  have hsome : (active.find? (·.id == id)).isSome = true :=
    find?_isSome.mpr ⟨worker, hmem, beq_iff_eq.mpr hid⟩
  obtain ⟨found, hfound⟩ := Option.isSome_iff_exists.mp hsome
  exact ⟨found, hfound, mem_of_find?_eq_some hfound,
    beq_iff_eq.mp (find?_some hfound :)⟩

/-- The next cycle serves a missing sample, and without one nothing is missing. In particular
there is no error and no panic. -/
theorem selectCycle_spec (h : Staffed active) {required plateauSize : Nat} {counts : RejoinCounts} :
    (∃ cycle, selectCycle required plateauSize active counts = .ok (some cycle) ∧
      CycleFits active required counts cycle) ∨
    (selectCycle required plateauSize active counts = .ok none ∧
      Complete active required counts) := by
  unfold selectCycle
  rcases selectRoles_spec h with ⟨roles, hroles, hfit⟩ | ⟨hnone, hcomplete⟩
  · obtain ⟨victim, hvictim, hvictimMem, hvictimId⟩ := exists_find_id hfit.victim
    obtain ⟨actor, hactor, hactorMem, hactorId⟩ :=
      exists_find_id (exists_of_mem_externalIds hfit.actor)
    have hreceivers : ∀ id ∈ roles.supplementalReceiverId,
        id ∈ (externalIds active).filter fun id =>
          id != roles.actorId && id != roles.victimId := by
      intro id hid
      obtain ⟨hmem, hneActor, hneVictim⟩ := hfit.receiver id hid
      exact mem_filter.mpr ⟨hmem, Bool.and_eq_true_iff.mpr
        ⟨bne_iff_ne.mpr hneActor, bne_iff_ne.mpr hneVictim⟩⟩
    have hassert : roles.supplementalReceiverId.all (((externalIds active).filter fun id =>
        id != roles.actorId && id != roles.victimId).contains) = true := by
      rw [Option.all_eq_true]
      exact fun id hid => contains_iff_mem.mpr (hreceivers id hid)
    rw [hroles]
    dsimp only
    rw [hvictim, hactor]
    dsimp only
    rw [if_pos hassert]
    refine .inl ⟨_, rfl, hactorMem, hvictimMem, by rw [hactorId, hvictimId]; exact hfit.distinct, ?_⟩
    dsimp only
    rw [hactorId, hvictimId]
    rcases hfit.missing with hlt | ⟨hmem, hlt⟩ | ⟨id, hid, hlt⟩
    · exact .inl ⟨hfit.actor, hlt⟩
    · have hdevice := h.isDensityDevice_of_mem hvictimMem (hvictimId ▸ hmem)
      exact .inr (.inl ⟨hmem, (Bool.and_eq_true_iff.mp hdevice).2, hlt⟩)
    · exact .inr (.inr ⟨id, hreceivers id hid, (hfit.receiver id hid).1, hlt⟩)
  · rw [hnone]
    exact .inr ⟨rfl, hcomplete⟩

end Selection

section Rounds

variable {ε : Type} {env : RunnerEnvironment ε} {config : RunnerConfig} {s s' : RunnerState ε}

theorem within_cycleFanout {operation : String} {recipients : List WorkerSpec}
    {expected : ExpectedGroupState} : Within (reporting fun _ => True)
      (cycleFanout env config operation recipients expected) := by
  refine .bind (within_commitFanout (fun _ _ => trivial)) fun result => ?_
  cases result with
  | error batchError => exact .fail _
  | ok result => exact .pure _

theorem within_actorReceivesAddition {actor : WorkerSpec} {expected : ExpectedGroupState} :
    Within (reporting fun _ => True)
      (actorReceivesAddition env config actor expected) := by
  unfold actorReceivesAddition
  split
  · exact within_processPendingCommitExpect
  · exact within_receiveCommitExpect

variable {victim actor : WorkerSpec}

/-- Once the routine has returned, the active workers are changed like this. -/
def Activates (change : List WorkerSpec → List WorkerSpec) (x : Phase ε Unit) : Prop :=
  ∀ s s', x s = (.ok (), s') → s'.active = change s.active

theorem Activates.after {α : Type} {x : Phase ε α} {f : α → Phase ε Unit}
    {change : List WorkerSpec → List WorkerSpec} (hx : Within (reporting fun _ => True) x)
    (hf : ∀ a, Activates change (f a)) : Activates change (x >>= f) := by
  intro s s' h
  obtain ⟨a, s₁, hfirst, h⟩ := bind_ok h
  rw [hf a s₁ s' h, (hx.of_eq hfirst).active]

variable (victim actor) in
theorem removeVictim_activates :
    Activates (filter (·.id != victim.id)) (removeVictim env config victim actor) := by
  refine .after within_newRequest fun _ => ?_
  refine .after within_sendCommandWithContext fun _ => ?_
  refine .after within_newRequest fun _ => ?_
  refine .after within_showGroupState fun _ => ?_
  refine .after within_sendCmdExpectOkFragmentWithContext fun _ => ?_
  refine .after within_actorCommit fun _ => ?_
  refine .after within_active fun _ => .after within_cycleFanout fun _ s s' h => ?_
  rw [modify_ok h]

variable (victim actor) in
theorem addVictim_activates : Activates (· ++ [victim]) (addVictim env config victim actor) := by
  refine .after within_newRequest fun _ => ?_
  refine .after within_showGroupState fun _ => ?_
  refine .after within_sendCmdExpectOkFragmentWithContext fun _ => ?_
  refine .after within_actorReceivesAddition fun _ => ?_
  refine .after within_active fun _ => .after within_cycleFanout fun _ => ?_
  refine .after within_newRequest fun _ => ?_
  refine .after within_sendCmdExpectOkFragmentWithContext fun _ s s' h => ?_
  rw [modify_ok h]

def SameActive (s s' : RunnerState ε) : Prop := ∀ worker, worker ∈ s'.active ↔ worker ∈ s.active

theorem sameActive_of_cycle
    (hnamed : ∀ worker ∈ s.active, ∀ other ∈ s.active, worker.id = other.id → worker = other)
    (hvictim : victim ∈ s.active)
    (h : runSingleRemoveRejoinCycle env config victim actor s = (.ok (), s')) :
    SameActive s s' := by
  intro worker
  obtain ⟨_, s₁, hremoved, h⟩ := bind_ok h
  rw [addVictim_activates _ _ _ _ h, removeVictim_activates _ _ _ _ hremoved, mem_append, mem_filter,
    mem_singleton]
  constructor
  · rintro (⟨hmem, -⟩ | rfl)
    · exact hmem
    · exact hvictim
  · intro hmem
    by_cases hid : worker.id = victim.id
    · exact .inr (hnamed worker hmem victim hvictim hid)
    · exact .inl ⟨hmem, bne_iff_ne.mpr hid⟩

theorem mem_externalIds_congr {other : List WorkerSpec}
    (h : ∀ worker, worker ∈ other ↔ worker ∈ active) (id : String) :
    id ∈ externalIds other ↔ id ∈ externalIds active := by
  simp only [mem_externalIds, h]

theorem Staffed.congr {other : List WorkerSpec} (h : Staffed active)
    (hmem : ∀ worker, worker ∈ other ↔ worker ∈ active) : Staffed other where
  named worker hworker named hnamed := h.named worker ((hmem worker).mp hworker) named
    ((hmem named).mp hnamed)
  devices := by
    obtain ⟨device, hdevice, another, hanother, hboth⟩ := h.devices
    exact ⟨device, (hmem device).mpr hdevice, another, (hmem another).mpr hanother, hboth⟩
  plain := by
    obtain ⟨worker, hworker, hplain⟩ := h.plain
    exact ⟨worker, (hmem worker).mpr hworker, hplain⟩

theorem Staffed.two_le_length (h : Staffed active) : 2 ≤ (externalIds active).length := by
  obtain ⟨other, hother, -⟩ := h.exists_other ""
  obtain ⟨another, hanother, hne⟩ := h.exists_other other
  by_contra hlt
  obtain ⟨only, honly⟩ : ∃ only, externalIds active = [only] :=
    length_eq_one_iff.mp (by have := length_pos_of_mem hother; omega)
  rw [honly, mem_singleton] at hother hanother
  exact hne (hanother.trans hother.symm)

/-- With cycles that succeed, a round does a cycle for a missing sample, or it is the last one
and nothing is missing. -/
theorem rejoinRound_cases (h : Staffed s.active)
    (hsucceeds : ∀ cycle, selectCycle required plateauSize s.active counts = .ok (some cycle) →
      ∃ s', runSingleRemoveRejoinCycle env config cycle.victim cycle.actor s = (.ok (), s')) :
    (rejoinRound env config plateauSize required counts s = (.ok (.inr counts), s) ∧
      Complete s.active required counts) ∨
    ∃ cycle s', rejoinRound env config plateauSize required counts s =
        (.ok (.inl (counts.record cycle)), s') ∧
      CycleFits s.active required counts cycle ∧ SameActive s s' := by
  unfold rejoinRound
  rw [bind_apply, get_apply, andThen_ok,
    if_neg (Nat.not_lt.mpr h.two_le_length)]
  rcases selectCycle_spec h with
    ⟨cycle, hselect, hfits⟩ | ⟨hselect, hcomplete⟩
  · obtain ⟨s', hran⟩ := hsucceeds cycle hselect
    rw [hselect]
    dsimp only
    rw [bind_apply, attempt_apply, hran, andThen_ok]
    exact .inr ⟨cycle, s', rfl, hfits, sameActive_of_cycle h.named hfits.victim hran⟩
  · rw [hselect]
    exact .inl ⟨rfl, hcomplete⟩

def missingSamples (keys : Finset String) (required : Nat) (counts : RejoinCounts) : Nat :=
  deficit keys required counts.welcome + deficit keys required counts.actor +
    deficit keys required counts.receiver

theorem le_welcome_record (counts : RejoinCounts) (cycle : Cycle) (id : String) :
    counts.welcome id ≤ (counts.record cycle).welcome id := by
  unfold RejoinCounts.record
  dsimp only
  split
  · exact le_bump _ _ _
  · exact Nat.le_refl _

theorem missingSamples_record {keys : Finset String} {cycle : Cycle}
    (hkeys : ∀ id ∈ externalIds active, id ∈ keys) (h : CycleFits active required counts cycle) :
    missingSamples keys required (counts.record cycle) < missingSamples keys required counts := by
  have hwelcome : deficit keys required (counts.record cycle).welcome ≤
      deficit keys required counts.welcome := deficit_mono (le_welcome_record counts cycle)
  have hactor : deficit keys required (counts.record cycle).actor ≤
      deficit keys required counts.actor := deficit_mono (le_bump counts.actor cycle.actor.id)
  have hreceiver : deficit keys required (counts.record cycle).receiver ≤
      deficit keys required counts.receiver :=
    deficit_mono (le_foldl_bump cycle.receiverIds counts.receiver)
  unfold missingSamples
  rcases h.missing with ⟨hmem, hlt⟩ | ⟨hmem, hexternal, hlt⟩ | ⟨id, hid, hmem, hlt⟩
  · have hless : deficit keys required (counts.record cycle).actor <
        deficit keys required counts.actor :=
      deficit_lt (le_bump counts.actor cycle.actor.id) (hkeys _ hmem) hlt lt_bump_self
    omega
  · have hraised : (counts.record cycle).welcome = bump counts.welcome cycle.victim.id :=
      if_pos hexternal
    have hless := deficit_lt (le_bump counts.welcome cycle.victim.id) (hkeys _ hmem) hlt
      lt_bump_self
    rw [← hraised] at hless
    omega
  · have hless : deficit keys required (counts.record cycle).receiver <
        deficit keys required counts.receiver :=
      deficit_lt (le_foldl_bump cycle.receiverIds counts.receiver) (hkeys _ hmem) hlt
        (lt_foldl_bump hid counts.receiver)
    omega

theorem missingSamples_le (keys : Finset String) (required : Nat) (counts : RejoinCounts) :
    missingSamples keys required counts ≤ 3 * (keys.card * required) := by
  have hwelcome : deficit keys required counts.welcome ≤ keys.card * required := deficit_le
  have hactor : deficit keys required counts.actor ≤ keys.card * required := deficit_le
  have hreceiver : deficit keys required counts.receiver ≤ keys.card * required := deficit_le
  unfold missingSamples
  omega

end Rounds

section Phases

variable {ε : Type} {env : RunnerEnvironment ε} {config : RunnerConfig} {s s' : RunnerState ε}
  {minProfiledSamplesPerOperation : Nat}

theorem Staffed.two_le_profiled (h : Staffed active) :
    2 ≤ (activeProfiledIndices active).length := by
  obtain ⟨device, hdevice, other, hother, hd, ho, hne⟩ := h.devices
  obtain ⟨first, hfirst⟩ := mem_iff_getElem?.mp hdevice
  obtain ⟨second, hsecond⟩ := mem_iff_getElem?.mp hother
  have hindex : ∀ {idx : Nat} {worker : WorkerSpec}, active[idx]? = some worker →
      isDensityDevice worker = true → idx ∈ activeProfiledIndices active := by
    intro idx worker hget hdensity
    refine mem_filter.mpr ⟨mem_range.mpr (List.getElem?_eq_some_iff.mp hget).1, ?_⟩
    rw [hget]
    exact (Bool.and_eq_true_iff.mp hdensity).1
  have hdistinct : first ≠ second := by
    rintro rfl
    exact hne (Option.some.inj (hfirst.symm.trans hsecond))
  have hsubset : [first, second] ⊆ activeProfiledIndices active := by
    intro idx hidx
    rcases mem_pair.mp hidx with rfl | rfl
    · exact hindex hfirst hd
    · exact hindex hsecond ho
  exact (subperm_of_subset (pairwise_pair.mpr hdistinct) hsubset).length_le

theorem Staffed.runRemoveRejoinPhase_eq (h : Staffed s.active) (limit : Nat)
    {counts : RejoinCounts}
    (hloop : loop (rejoinRound env config plateauSize
        (max minProfiledSamplesPerOperation 1))
      (.message "the remove/rejoin phase ran out of rounds") limit .zero s = (.ok counts, s')) :
    runRemoveRejoinPhase env config plateauSize true minProfiledSamplesPerOperation limit s =
      (.ok (), s') := by
  have hpairs : externalRemoveRejoinPairs s.active ≠ [] := by
    have hlength := h.two_le_length
    rw [externalRemoveRejoinPairs, if_neg (Nat.not_lt.mpr hlength)]
    refine ne_nil_of_length_pos ?_
    rw [length_zip, length_rotate]
    omega
  unfold runRemoveRejoinPhase
  rw [bind_apply]
  change andThen _ (.ok s.active, s) = _
  rw [andThen_ok, if_neg (Nat.not_lt.mpr h.two_le_profiled), if_pos ⟨rfl, hpairs⟩, bind_apply, hloop]
  rfl

/-- With cycles that succeed, the phase ends after finitely many of them, and every device has
its samples. All along the roles are taken by two different active workers, without an error
or a panic. -/
theorem remove_rejoin_covers (h : Staffed s.active)
    (hsucceeds : ∀ rounds counts s₁ cycle,
      stage (rejoinRound env config plateauSize (max minProfiledSamplesPerOperation 1))
        .zero s rounds = .running counts s₁ →
      selectCycle (max minProfiledSamplesPerOperation 1) plateauSize s₁.active counts =
        .ok (some cycle) →
      ∃ s₂, runSingleRemoveRejoinCycle env config cycle.victim cycle.actor s₁ = (.ok (), s₂)) :
    (∃ rounds ≤ 3 * ((externalIds s.active).length * max minProfiledSamplesPerOperation 1) + 1,
      ∃ counts s',
        stage (rejoinRound env config plateauSize (max minProfiledSamplesPerOperation 1))
          .zero s rounds = .ended (.ok counts) s' ∧
        (∀ device ∈ s'.active, isDensityDevice device = true →
          max minProfiledSamplesPerOperation 1 ≤ counts.welcome device.id ∧
          max minProfiledSamplesPerOperation 1 ≤ counts.actor device.id ∧
          max minProfiledSamplesPerOperation 1 ≤ counts.receiver device.id) ∧
        SameActive s s' ∧
        ∀ limit, rounds ≤ limit →
          runRemoveRejoinPhase env config plateauSize true minProfiledSamplesPerOperation limit s =
            (.ok (), s')) ∧
    ∀ rounds counts s₁,
      stage (rejoinRound env config plateauSize (max minProfiledSamplesPerOperation 1))
        .zero s rounds = .running counts s₁ →
      ∃ selected, selectCycle (max minProfiledSamplesPerOperation 1) plateauSize s₁.active counts =
        .ok selected ∧ ∀ cycle ∈ selected,
          cycle.actor ∈ s₁.active ∧ cycle.victim ∈ s₁.active ∧ cycle.actor ≠ cycle.victim := by
  generalize hrequired : max minProfiledSamplesPerOperation 1 = required at *
  have hround : ∀ rounds counts s₁ counts' s₂,
      stage (rejoinRound env config plateauSize required) .zero s rounds =
        .running counts s₁ → SameActive s s₁ →
      rejoinRound env config plateauSize required counts s₁ = (.ok (.inl counts'), s₂) →
      SameActive s s₂ ∧
        missingSamples (externalIds s.active).toFinset required counts' <
          missingSamples (externalIds s.active).toFinset required counts := by
    intro rounds counts s₁ counts' s₂ hrunning hsame hbody
    rcases rejoinRound_cases (h.congr hsame) (hsucceeds rounds counts s₁ · hrunning) with
      ⟨hlast, -⟩ | ⟨cycle, s', hnext, hfits, hkept⟩
    · cases hlast.symm.trans hbody
    · cases hnext.symm.trans hbody
      refine ⟨fun worker => (hkept worker).trans (hsame worker), ?_⟩
      exact missingSamples_record (fun id hid => mem_toFinset.mpr
        ((mem_externalIds_congr hsame id).mp hid)) hfits
  have hsame : ∀ {rounds counts s₁},
      stage (rejoinRound env config plateauSize required) .zero s rounds =
        .running counts s₁ → SameActive s s₁ :=
    fun hrunning => stage_invariant (I := fun _ => SameActive s) (fun _ => Iff.rfl)
      (fun rounds counts s₁ counts' s₂ hrunning hsame hbody =>
        (hround rounds counts s₁ counts' s₂ hrunning hsame hbody).1) hrunning
  constructor
  · obtain ⟨result, s', hended⟩ := stage_ended_of_measure
      (fun counts _ => missingSamples (externalIds s.active).toFinset required counts)
      (I := fun _ => SameActive s) (fun _ => Iff.rfl) hround
    obtain ⟨first, counts, s₁, hrunning, hlast⟩ := stage_ended_last hended
    rcases rejoinRound_cases (h.congr (hsame hrunning)) (hsucceeds first counts s₁ · hrunning) with
      ⟨hbody, hcomplete⟩ | ⟨cycle, s₂, hbody, -, -⟩
    · cases hlast.symm.trans (stage_of_inr hbody)
      refine ⟨_, ?_, counts, s', hended, fun device hdevice hdensity => ?_, hsame hrunning,
        fun limit hlimit => ?_⟩
      · have hbound := missingSamples_le (externalIds s.active).toFinset required .zero
        have hcard := Nat.mul_le_mul_right required (externalIds s.active).toFinset_card_le
        omega
      · have hid := mem_externalIds.mpr ⟨device, hdevice, hdensity, rfl⟩
        exact ⟨hcomplete.welcome _ hid, hcomplete.actor _ hid, hcomplete.receiver _ hid⟩
      · rw [← hrequired] at hended hlimit
        exact h.runRemoveRejoinPhase_eq limit (loop_eq_of_ended hended hlimit)
    · have hgoes := stage_of_inl hbody 0
      cases hlast.symm.trans hgoes
  · intro rounds counts s₁ hrunning
    rcases selectCycle_spec (h.congr (hsame hrunning)) with
      ⟨cycle, hselect, hfits⟩ | ⟨hselect, -⟩
    · refine ⟨some cycle, hselect, fun selected hselected => ?_⟩
      obtain rfl := Option.mem_some_iff.mp hselected
      exact ⟨hfits.actor, hfits.victim, fun heq => hfits.distinct (congrArg _ heq)⟩
    · exact ⟨none, hselect, nofun⟩

/-- Two devices and a member that is not external. -/
def trio : RunnerState Unit :=
  ⟨(), [phone, ⟨"tablet", "http://tablet:8080", "tablet", .singleton, true, "tablet"⟩,
    packed "w1"], [], [], [], 0, []⟩

/-- The next cycle succeeds, if there is one. -/
def nextSucceeds (counts : RejoinCounts) (s : RunnerState Unit) : Bool :=
  match selectCycle 1 3 s.active counts with
  | .ok (some cycle) =>
    (runSingleRemoveRejoinCycle obliging plateau cycle.victim cycle.actor s).1.isOk
  | _ => true

theorem remove_rejoin_covers_trio : ∃ rounds counts s',
    stage (rejoinRound obliging plateau 3 1) .zero trio rounds = .ended (.ok counts) s' ∧
      1 ≤ counts.receiver "phone" ∧ 1 ≤ counts.receiver "tablet" := by
  have hstaffed : Staffed trio.active := ⟨by decide, by decide, by decide⟩
  have hrounds : ∀ rounds < 5, (stage (rejoinRound obliging plateau 3 1) .zero trio
      rounds).isRunning nextSucceeds = true := by
    decide +kernel
  have hlast : (stage (rejoinRound obliging plateau 3 1) .zero trio 5).isRunning
      (fun _ _ => true) = false := by
    decide +kernel
  have hsucceeds : ∀ rounds counts s₁ cycle,
      stage (rejoinRound obliging plateau 3 (max 0 1)) .zero trio rounds =
        .running counts s₁ → selectCycle (max 0 1) 3 s₁.active counts = .ok (some cycle) →
      ∃ s₂, runSingleRemoveRejoinCycle obliging plateau cycle.victim cycle.actor s₁ =
        (.ok (), s₂) := by
    intro rounds counts s₁ cycle hrunning hselect
    rcases Nat.lt_or_ge rounds 5 with hlt | hge
    · obtain ⟨counts', s', hstage, hnext⟩ :=
        Stage.exists_of_isRunning (hrounds rounds hlt)
      cases hrunning.symm.trans hstage
      rw [nextSucceeds, show selectCycle 1 3 s₁.active counts = .ok (some cycle) from hselect]
        at hnext
      rcases hran : runSingleRemoveRejoinCycle obliging plateau cycle.victim cycle.actor s₁ with
        ⟨result, s₂⟩
      dsimp only at hnext
      rw [hran] at hnext
      cases result with
      | ok result => exact ⟨s₂, rfl⟩
      | error error => cases hnext
    · obtain ⟨result, s', hended⟩ := Stage.exists_of_not_isRunning hlast
      cases hrunning.symm.trans (stage_ended_of_le hended hge)
  obtain ⟨⟨rounds, -, counts, s', hended, hsamples, hsame, -⟩, -⟩ :=
    remove_rejoin_covers hstaffed hsucceeds
  have hphone := hsamples _ ((hsame _).mpr (mem_cons_self ..)) rfl
  have htablet := hsamples _ ((hsame _).mpr (mem_cons_of_mem _ (mem_cons_self ..))) rfl
  exact ⟨rounds, counts, s', hended, hphone.2.2, htablet.2.2⟩

end Phases

end MessagingBench.Runner
