import MessagingBench.Runner.Conservation
import MessagingBench.Runner.Smooth
import MessagingBench.Runner.Transition

/-!
# Transitions reach their target

If no worker command fails, a transition ends with the target size, or with all workers
active if there are too few. Batches never exceed what is missing, and there is always an
actor that can remove a whole batch of unprotected workers. Nobody is lost, and no protected
worker is removed.
-/

namespace MessagingBench.Runner

open List Routine

variable {ε : Type} {env : RunnerEnvironment ε} {config : RunnerConfig}

section Removable

variable {active : List WorkerSpec} {protectExternal protectProfile : Bool} {actorIdx : Nat}

theorem filterMap_getElem?_range {α : Type} (values : List α) :
    (range values.length).filterMap (values[·]?) = values := by
  induction values with
  | nil => rfl
  | cons value values ih =>
    simp only [length_cons, range_succ_eq_map, filterMap_cons,
      getElem?_cons_zero, filterMap_map]
    exact congrArg (value :: ·) ih

/-- The positions of the workers that may be removed by somebody. -/
def unprotectedIndices (active : List WorkerSpec) (protectExternal protectProfile : Bool) :
    List Nat :=
  (range active.length).filter fun idx =>
    active[idx]?.any (!isProtected protectExternal protectProfile ·)

/-- An actor may remove all of them but itself. -/
theorem removableMemberIndices_eq :
    removableMemberIndices active actorIdx protectExternal protectProfile =
      (unprotectedIndices active protectExternal protectProfile).erase actorIdx := by
  have hnodup : (unprotectedIndices active protectExternal protectProfile).Nodup :=
    nodup_range.filter _
  rw [hnodup.erase_eq_filter, unprotectedIndices, filter_filter]
  refine filter_congr fun idx _ => ?_
  congr 2
  funext worker
  cases protectExternal <;> cases protectProfile <;> simp [isProtected]

theorem length_unprotectedIndices :
    (unprotectedIndices active protectExternal protectProfile).length =
      active.countP (!isProtected protectExternal protectProfile ·) := by
  nth_rewrite 2 [← filterMap_getElem?_range active]
  rw [unprotectedIndices, ← countP_eq_length_filter, countP_filterMap]
  refine countP_congr fun idx _ => ?_
  cases active[idx]? <;> simp

theorem mem_removableMemberIndices {idx : Nat}
    (h : idx ∈ removableMemberIndices active actorIdx protectExternal protectProfile) :
    ∃ worker, active[idx]? = some worker ∧
      isProtected protectExternal protectProfile worker = false := by
  rw [removableMemberIndices_eq] at h
  have hany := (mem_filter.mp (mem_of_mem_erase h)).2
  rw [Option.any_eq_true] at hany
  obtain ⟨worker, hworker, hunprotected⟩ := hany
  exact ⟨worker, hworker, by simpa using hunprotected⟩

theorem length_removable_of_protected {actor : WorkerSpec} (hactor : active[actorIdx]? = some actor)
    (hprotected : isProtected protectExternal protectProfile actor = true) :
    (removableMemberIndices active actorIdx protectExternal protectProfile).length =
      active.countP (!isProtected protectExternal protectProfile ·) := by
  rw [removableMemberIndices_eq, erase_of_not_mem, length_unprotectedIndices]
  intro hmem
  have hany := (mem_filter.mp hmem).2
  rw [hactor, Option.any_some, hprotected] at hany
  cases hany

/-- Any actor can remove all unprotected workers but itself. -/
theorem le_length_removable :
    active.countP (!isProtected protectExternal protectProfile ·) - 1 ≤
      (removableMemberIndices active actorIdx protectExternal protectProfile).length := by
  rw [removableMemberIndices_eq, ← length_unprotectedIndices]
  exact le_length_erase

theorem countP_unprotected :
    active.countP (isProtected protectExternal protectProfile) +
      active.countP (!isProtected protectExternal protectProfile ·) = active.length := by
  rw [length_eq_countP_add_countP (isProtected protectExternal protectProfile)]
  congr 1
  refine countP_congr fun worker _ => ?_
  simp

/-- Some actor can remove a batch, if it is small enough for the protected workers. -/
theorem exists_capable {batchSize : Nat} (hbatch : batchSize < active.length)
    (hprotected : active.countP (isProtected protectExternal protectProfile) + batchSize ≤
      active.length) :
    ∃ actorIdx < active.length, batchSize ≤
      (removableMemberIndices active actorIdx protectExternal protectProfile).length := by
  have hcount := @countP_unprotected active protectExternal protectProfile
  rcases Nat.eq_zero_or_pos (active.countP (isProtected protectExternal protectProfile))
    with hnone | hsome
  · have hle := @le_length_removable active protectExternal protectProfile 0
    exact ⟨0, by omega, by omega⟩
  · obtain ⟨actor, hmem, hactor⟩ := countP_pos_iff.mp hsome
    obtain ⟨actorIdx, hlt, rfl⟩ := mem_iff_getElem.mp hmem
    have hlength := length_removable_of_protected (getElem?_eq_getElem hlt) hactor
    exact ⟨actorIdx, hlt, by omega⟩

end Removable

section Removing

variable {active idle : List WorkerSpec} {protectExternal protectProfile : Bool}
  {batchSize : Nat} {forcedActorId : Option String} {values : List α} {α : Type}

theorem within_removeActorFailed {actor : WorkerSpec} {error : RunnerError} :
    Within logging (removeActorFailed env config actor error) := by
  refine .bind (within_logging within_active) fun active =>
    .bind within_logging_record fun goesOn => ?_
  split
  · exact within_evictOomGroupMembers
  · exact .fail _

theorem completes_removeChosen {actor : WorkerSpec} {removed : List WorkerSpec} :
    Completes smooth (Lists active idle) (removeChosen env config actor removed)
      fun _ => Lists (active.filter (!(removed.map (·.id)).contains ·.id))
        (removed.reverse ++ idle) := by
  refine completes_showGroupState.bind fun actorBefore =>
    completes_request rfl (fun _ _ => ?_) fun _ error =>
      within_removeActorFailed
  refine completes_actorCommit.bind fun _ =>
    completes_active.bind fun workers =>
      (completes_commitFanout.weaken fun s hs => hs.1).bind fun result => ?_
  cases result with
  | error batchError => exact .unreached (.fail _) (by simp)
  | ok result =>
    exact .modify (fun _ => ⟨prefix_refl _, prefix_refl _⟩) fun s ⟨hs, _⟩ =>
      ⟨congrArg _ hs.1, congrArg _ hs.2⟩

/-- A batch of unprotected workers has become idle. -/
structure Removes (isProtected : WorkerSpec → Bool) (batchSize : Nat)
    (active idle active' idle' : List WorkerSpec) : Prop where
  perm : (active' ++ idle').Perm (active ++ idle)
  sublist : active'.Sublist active
  length : active'.length + batchSize = active.length
  kept : ∀ worker ∈ active, isProtected worker = true → worker ∈ active'

/-- Workers at different positions that are not protected can be removed. -/
theorem removes_of_drawn {indices drawn rest : List Nat} {isProtected : WorkerSpec → Bool}
    (hids : (active.map (·.id)).Nodup) (hperm : (drawn ++ rest).Perm indices)
    (hindices : indices.Sublist (range active.length))
    (hunprotected : ∀ idx ∈ indices, ∃ worker, active[idx]? = some worker ∧
      isProtected worker = false) :
    Removes isProtected drawn.length active idle
      (active.filter (!((drawn.filterMap (active[·]?)).map (·.id)).contains ·.id))
      ((drawn.filterMap (active[·]?)).reverse ++ idle) := by
  set removed := drawn.filterMap (active[·]?) with hdrawing
  have hnodup : active.Nodup := hids.of_map
  have hsublist : (indices.filterMap (active[·]?)).Sublist active := by
    have h := hindices.filterMap (active[·]?)
    rwa [filterMap_getElem?_range] at h
  have hdrawn : (removed ++ rest.filterMap (active[·]?)).Perm
      (indices.filterMap (active[·]?)) := by
    rw [hdrawing, ← filterMap_append]
    exact hperm.filterMap _
  have hremovedNodup : removed.Nodup :=
    (nodup_append.mp (hdrawn.nodup_iff.mpr (hnodup.sublist hsublist))).1
  have hremoved : ∀ worker ∈ removed, worker ∈ active := fun worker hmem =>
    hsublist.subset (hdrawn.subset (mem_append_left _ hmem))
  have hcontains : ∀ worker ∈ active, (removed.map (·.id)).contains
      worker.id = true ↔ worker ∈ removed := by
    intro worker hmem
    rw [contains_iff_mem]
    refine ⟨fun hid => ?_, mem_map_of_mem⟩
    obtain ⟨other, hother, heq⟩ := mem_map.mp hid
    rwa [← inj_on_of_nodup_map hids (hremoved other hother) hmem heq]
  -- the workers that are filtered out are the ones that were drawn
  have hout : (active.filter ((removed.map (·.id)).contains ·.id)).Perm
      removed := by
    refine (perm_ext_iff_of_nodup (hnodup.filter _) hremovedNodup).mpr fun worker => ?_
    rw [mem_filter]
    exact ⟨fun h => (hcontains worker h.1).mp h.2,
      fun h => ⟨hremoved worker h, (hcontains worker (hremoved worker h)).mpr h⟩⟩
  have hsplit := (filter_append_perm
    ((removed.map (·.id)).contains ·.id) active)
  have hlength : removed.length = drawn.length := by
    rw [hdrawing, length_filterMap_eq_countP, countP_eq_length]
    intro idx hmem
    obtain ⟨worker, hworker, -⟩ := hunprotected idx (hperm.subset (mem_append_left _ hmem))
    rw [hworker]
    rfl
  refine ⟨?_, filter_sublist, ?_, ?_⟩
  · rw [← append_assoc]
    refine Perm.append_right idle (Perm.trans ?_ hsplit)
    exact perm_append_comm.trans
      (((reverse_perm _).trans hout.symm).append_right _)
  · have hcount := hsplit.length_eq
    rw [length_append, hout.length_eq, hlength] at hcount
    omega
  · intro worker hmem hprotected
    refine mem_filter.mpr ⟨hmem, ?_⟩
    rw [Bool.not_eq_true', ← Bool.not_eq_true, hcontains worker hmem]
    intro hdrawnMem
    obtain ⟨idx, hidx, hworker⟩ := mem_filterMap.mp hdrawnMem
    obtain ⟨other, hother, hfalse⟩ := hunprotected idx (hperm.subset (mem_append_left _ hidx))
    rw [hworker, Option.some.injEq] at hother
    rw [hother, hfalse] at hprotected
    cases hprotected

theorem within_choose : Within logging (choose env values) := by
  refine .bind (within_logging within_genRange) fun position => ?_
  split
  · exact .pure _
  · exact .fail _

theorem within_draw {count : Nat} : Within logging (draw env count values) := by
  induction count generalizing values with
  | zero => exact .pure _
  | succ count ih =>
    refine .bind (within_logging within_genRange) fun position => ?_
    split
    · exact .bind ih fun _ => .pure _
    · exact .fail _

theorem within_removeBatch : Within logging
    (removeBatch env config batchSize forcedActorId protectExternal protectProfile active) := by
  refine .bind ?_ fun chosen => ?_
  · unfold chooseRemoveActorAndRemovableIndices
    dsimp only
    split
    · exact .pure _
    · split
      · split
        · exact .fail _
        · exact within_choose
      · exact within_choose
  · obtain ⟨actorIdx, removable⟩ := chosen
    dsimp only
    split
    · exact .fail _
    · split
      · exact .fail _
      · exact .bind within_draw fun _ => (@completes_removeChosen _ _ _ [] [] _ _).within

section Capable

variable (hids : (active.map (·.id)).Nodup)
  (hforced : ∀ id, forcedActorId = some id → ∃ worker ∈ active, worker.id = id ∧
    isProtected protectExternal protectProfile worker = true)
  (hpositive : 0 < batchSize) (hbatch : batchSize < active.length)
  (hprotected : active.countP (isProtected protectExternal protectProfile) + batchSize ≤
    active.length)

include hids hforced hbatch hprotected

theorem completes_chooseRemoveActor :
    Completes smooth (Lists active idle)
      (chooseRemoveActorAndRemovableIndices env active forcedActorId protectExternal protectProfile
        batchSize)
      fun chosen s => Lists active idle s ∧ chosen.1 < active.length ∧
        chosen.2 = removableMemberIndices active chosen.1 protectExternal protectProfile ∧
        batchSize ≤ chosen.2.length := by
  have hcount := @countP_unprotected active protectExternal protectProfile
  unfold chooseRemoveActorAndRemovableIndices
  dsimp only
  split
  · rename_i actorIdx hfound
    obtain ⟨id, hid, hidx⟩ := Option.bind_eq_some_iff.mp hfound
    obtain ⟨hlt, hactor, -⟩ := findIdx?_eq_some_iff_getElem.mp hidx
    obtain ⟨worker, hmem, hworker, hisProtected⟩ := hforced id hid
    -- ids are distinct, so that the worker found under the forced id is the protected one
    have heq : active[actorIdx] = worker := inj_on_of_nodup_map hids
      (getElem_mem hlt) hmem ((beq_iff_eq.mp hactor).trans hworker.symm)
    have hlength := length_removable_of_protected
      (List.getElem?_eq_some_iff.mpr ⟨hlt, heq⟩) hisProtected
    refine .pure fun s hs => ⟨hs, hlt, rfl, ?_⟩
    dsimp only
    omega
  · obtain ⟨actorIdx, hlt, hcapable⟩ := exists_capable hbatch hprotected
    split
    · rename_i hempty
      exact absurd (isEmpty_iff.mp hempty) (ne_nil_of_mem (mem_filter.mpr
        ⟨mem_map_of_mem (mem_range.mpr hlt), by simpa using hcapable⟩))
    · rename_i hcapable
      refine (completes_choose (mt isEmpty_iff.mpr hcapable)).imp (fun _ hs => hs)
        fun chosen s hs => ⟨hs.1, ?_⟩
      obtain ⟨hmem, hlength⟩ := mem_filter.mp hs.2
      obtain ⟨idx, hidx, rfl⟩ := mem_map.mp hmem
      exact ⟨mem_range.mp hidx, rfl, by simpa using hlength⟩

include hpositive

/-- A batch removes unprotected members and puts them back into the idle list. -/
theorem completes_removeBatch :
    Completes smooth (Lists active idle)
      (removeBatch env config batchSize forcedActorId protectExternal protectProfile active)
      fun _ s => ∃ active' idle', Lists active' idle' s ∧
        Removes (isProtected protectExternal protectProfile) batchSize active idle active' idle' := by
  refine (completes_chooseRemoveActor hids hforced hbatch hprotected).bind
    fun chosen => ?_
  obtain ⟨actorIdx, removable⟩ := chosen
  dsimp only
  split
  · rename_i hnone
    refine .unreached (.fail _) fun s hs => ?_
    rw [getElem?_eq_getElem hs.2.1] at hnone
    cases hnone
  rename_i actor _
  split
  · rename_i hempty
    refine .unreached (.fail _) fun s hs => ?_
    rw [isEmpty_iff.mp hempty] at hs
    have hzero := hs.2.2.2
    rw [length_nil] at hzero
    omega
  refine (((completes_draw (Nat.min_le_right _ _)).keep
    (removable = removableMemberIndices active actorIdx protectExternal protectProfile ∧
      batchSize ≤ removable.length)).weaken fun s hs => ⟨hs.1, hs.2.2⟩).bind fun drawn => ?_
  refine (completes_removeChosen.keep
    ((drawn.length = min batchSize removable.length ∧ ∃ rest, (drawn ++ rest).Perm removable) ∧
      removable = removableMemberIndices active actorIdx protectExternal protectProfile ∧
      batchSize ≤ removable.length)).imp
    (fun s hs => ⟨hs.1.1, hs.1.2, hs.2⟩) fun _ s hs => ⟨_, _, hs.1, ?_⟩
  obtain ⟨-, ⟨hlength, rest, hperm⟩, hremovable, hle⟩ := hs
  have hdrawn : drawn.length = batchSize := by rw [hlength, Nat.min_eq_left hle]
  rw [← hdrawn]
  refine removes_of_drawn hids hperm ?_ fun idx hidx => ?_
  · rw [hremovable]
    exact filter_sublist
  · rw [hremovable] at hidx
    exact mem_removableMemberIndices hidx

/-- In a smooth run a batch of unprotected workers is removed, if it is small enough for the
protected ones. -/
theorem completes_removeNMembers :
    Completes smooth (Lists active idle)
      (removeNMembers env config batchSize forcedActorId protectExternal protectProfile)
      fun _ s => ∃ active' idle', Lists active' idle' s ∧
        Removes (isProtected protectExternal protectProfile) batchSize active idle active' idle' := by
  refine completes_active.bind fun workers => .given ?_ fun hworkers => ?_
  · split_ifs
    · exact .fail _
    · exact .fail _
    · exact .fail _
    · exact within_removeBatch
  · subst hworkers
    rw [if_neg (by omega), if_neg (by omega), if_neg (by omega)]
    exact completes_removeBatch hids hforced hpositive hbatch hprotected

end Capable

end Removing

section Planning

variable {active idle : List WorkerSpec} {maxAllowed currentGroupSize cap : Nat}
  {planner : MembershipBatchPlanner} {settings : TransitionSettings}

/-- The sizes that are left in the cycle lie between one and the cap. -/
def MembershipBatchPlanner.Valid (planner : MembershipBatchPlanner) : Prop :=
  ∀ size ∈ planner.cycle, 0 < size ∧ size ≤ planner.cycleCap

/-- All planners deal out sizes within their caps. -/
def MembershipBatchPlans.Valid (plans : MembershipBatchPlans) : Prop :=
  plans.regular.Valid ∧ ∀ id planner, plans.external id = some planner → planner.Valid

variable (extremesOnly : Bool)

theorem MembershipBatchPlanner.valid_new : (MembershipBatchPlanner.new extremesOnly).Valid := by
  simp [MembershipBatchPlanner.new, MembershipBatchPlanner.Valid]

theorem MembershipBatchPlans.valid_new : (MembershipBatchPlans.new extremesOnly).Valid :=
  ⟨MembershipBatchPlanner.valid_new extremesOnly, fun _ _ h => nomatch h⟩

theorem mem_sizes {size : Nat} (h : size ∈ range' 1 cap) : 0 < size ∧ size ≤ cap := by
  have hsize := mem_range'_1.mp h
  omega

theorem completes_newCycle {extremesOnly : Bool} :
    Completes smooth (Lists active idle) (MembershipBatchPlanner.newCycle env extremesOnly cap)
      fun cycle s => Lists active idle s ∧ ∀ size ∈ cycle, 0 < size ∧ size ≤ cap := by
  unfold MembershipBatchPlanner.newCycle
  split
  · refine .pure fun s hs => ⟨hs, fun size hmem => ?_⟩
    split at hmem
    · simp only [mem_cons, not_mem_nil, or_false] at hmem
      omega
    · exact mem_sizes hmem
  · refine completes_shuffle.bind fun values => .pure fun s hs =>
      ⟨hs.1, fun size hmem => mem_sizes (hs.2.subset ?_)⟩
    split at hmem
    · exact (swap_perm _ _ _).subset hmem
    · exact hmem

theorem completes_refill (hvalid : planner.Valid) :
    Completes smooth (Lists active idle) (planner.refill env cap)
      fun planner s => Lists active idle s ∧ planner.Valid ∧ planner.cycleCap = cap := by
  unfold MembershipBatchPlanner.refill
  split
  · exact completes_newCycle.bind fun cycle => .pure fun s hs =>
      ⟨hs.1, hs.2, rfl⟩
  · rename_i hkept
    exact .pure fun s hs => ⟨hs, hvalid, by tauto⟩

theorem completes_nextBatch (hvalid : planner.Valid)
    (hpositive : 0 < maxAllowed) {source : String} :
    Completes smooth (Lists active idle) (planner.nextBatch env currentGroupSize maxAllowed source)
      fun result s => Lists active idle s ∧
        (0 < result.1.effective ∧ result.1.effective ≤ maxAllowed) ∧ result.2.Valid := by
  unfold MembershipBatchPlanner.nextBatch
  rw [if_neg (Nat.ne_of_gt hpositive)]
  refine (completes_refill hvalid).bind fun planner => .pure fun s hs => ⟨hs.1, ?_, ?_⟩
  · obtain ⟨-, hplanner, hcap⟩ := hs
    cases hcycle : planner.cycle with
    | nil =>
      simp only [headD_nil]
      omega
    | cons size sizes =>
      have hsize := hplanner size (by simp [hcycle])
      simp only [headD_cons]
      omega
  · exact fun size hmem => hs.2.1 size (mem_of_mem_tail hmem)

theorem completes_plans_nextBatch {plans : MembershipBatchPlans} (hvalid : plans.Valid)
    (hpositive : 0 < maxAllowed) {externalActorId : Option String} :
    Completes smooth (Lists active idle)
      (plans.nextBatch env currentGroupSize maxAllowed externalActorId)
      fun result s => Lists active idle s ∧
        (0 < result.1.effective ∧ result.1.effective ≤ maxAllowed) ∧ result.2.Valid := by
  cases externalActorId with
  | none =>
    exact (completes_nextBatch hvalid.1 hpositive).bind
      fun result => .pure fun s hs => ⟨hs.1, hs.2.1, hs.2.2, hvalid.2⟩
  | some actorId =>
    have hplanner : ((plans.external actorId).getD (.new plans.extremesOnly)).Valid := by
      cases hfound : plans.external actorId with
      | none => exact MembershipBatchPlanner.valid_new _
      | some planner => exact hvalid.2 actorId planner hfound
    refine (completes_nextBatch hplanner hpositive).bind
      fun result => .pure fun s hs => ⟨hs.1, hs.2.1, hvalid.1, fun id planner hfound => ?_⟩
    dsimp only at hfound
    rw [Function.update_apply] at hfound
    split at hfound
    · cases hfound
      exact hs.2.2
    · exact hvalid.2 id planner hfound

theorem decisionCap_pos {maxAllowed reserved : Nat} : 0 < decisionCap maxAllowed reserved := by
  unfold decisionCap
  omega

theorem decisionCap_le (hpositive : 0 < maxAllowed) (reserved : Nat) :
    decisionCap maxAllowed reserved ≤ maxAllowed := by
  unfold decisionCap
  omega

theorem completes_externalActor {actorUse : String → Nat} :
    Completes smooth (Lists active idle) (externalActor env settings active actorUse)
      fun actorId s => Lists active idle s ∧ ∀ id, actorId = some id →
        settings.externalCoverageLane = true ∧
          ∃ worker ∈ active, worker.id = id ∧ isExternalDevice worker = true := by
  unfold externalActor
  split
  · rename_i hlane
    unfold leastUsedExternalActorId
    split
    · exact .pure fun s hs => ⟨hs, fun _ h => nomatch h⟩
    · refine completes_shuffle.bind fun candidates => .pure fun s hs =>
        ⟨hs.1, fun id hid => ⟨hlane, ?_⟩⟩
      have hmem := hs.2.subset (mem_of_getLast? hid)
      obtain ⟨worker, hworker, rfl⟩ := mem_map.mp hmem
      obtain ⟨hactive, hexternal⟩ := mem_filter.mp hworker
      exact ⟨worker, hactive, rfl, (Bool.and_eq_true_iff.mp hexternal).1⟩
  · exact .pure fun s hs => ⟨hs, fun _ h => nomatch h⟩

theorem completes_profiledActor {workers : List WorkerSpec} {seen : List String} :
    Completes smooth (Lists active idle) (profiledActor env settings workers seen)
      fun _ => Lists active idle := by
  unfold profiledActor
  split
  · exact completes_shuffle.bind fun _ => .pure fun s hs => hs.1
  · exact .pure fun s hs => hs

end Planning

section Rounds

open Transition

variable {active idle : List WorkerSpec} {α : Type} {locals : TransitionLocals}
  {f : TransitionLocals → TransitionLocals} {forcedActorId : Option String}
  {P : RunnerState ε → Prop} {x : Phase ε α} {batchSize : Nat}

/-- The log of the runner only grows. -/
def transitionLogging : Frame (TransitionState ε) where
  rel t t' := Extends t.runner t'.runner
  refl t := .refl t.runner
  trans := .trans

/-- No command of the runner fails. -/
def transitionSmooth : Condition (transitionLogging : Frame (TransitionState ε)) where
  holds t t' := Smooth t.runner t'.runner
  split := smooth.split

theorem within_onRunner (hx : Within logging x) : Within transitionLogging (onRunner x) :=
  fun t => hx t.runner

theorem within_onLocals : Within transitionLogging (onLocals f : Transition ε Unit) :=
  .modify fun t => .refl t.runner

theorem within_noteSize : Within transitionLogging (noteSize : Transition ε Unit) :=
  .modify fun t => .refl t.runner

theorem completes_onRunner {Q : α → RunnerState ε → Prop} (hx : Completes smooth P x Q) :
    Completes transitionSmooth (fun t => P t.runner ∧ t.locals = locals) (onRunner x)
      fun a t => Q a t.runner ∧ t.locals = locals := by
  refine ⟨within_onRunner hx.within, fun t ht hsmooth => ?_⟩
  obtain ⟨a, ha, hQ⟩ := hx.ok t.runner ht.1 hsmooth
  exact ⟨a, ha, hQ, ht.2⟩

theorem completes_onLocals :
    Completes transitionSmooth (fun t => P t.runner ∧ t.locals = locals) (onLocals f)
      fun _ t => P t.runner ∧ t.locals = f locals :=
  ⟨within_onLocals, fun _ ht _ => ⟨(), rfl, ht.1, congrArg f ht.2⟩⟩

theorem completes_noteSize :
    Completes transitionSmooth (fun t : TransitionState ε => Lists active idle t.runner ∧
        t.locals = locals) noteSize
      fun _ t => Lists active idle t.runner ∧
        t.locals = { locals with sizes := locals.sizes ++ [active.length] } :=
  ⟨within_noteSize, fun _ ht _ => ⟨(), rfl, ht.1, by rw [← ht.1.1, ← ht.2]; rfl⟩⟩

theorem within_addNMembers : Within logging (addNMembers env config batchSize forcedActorId) :=
  .bind within_addUntilFanout fun _ => within_addAfterFanout

theorem within_removeNMembers {protectExternal protectProfile : Bool} : Within logging
      (removeNMembers env config batchSize forcedActorId protectExternal protectProfile) := by
  refine .bind (within_logging within_active) fun active => ?_
  split_ifs
  · exact .fail _
  · exact .fail _
  · exact .fail _
  · exact within_removeBatch

variable {settings : TransitionSettings} {locals : TransitionLocals} {maxAllowed : Nat}
  {planner : MembershipBatchPlanner}

/-- A batch makes the group larger by at most what is allowed. -/
theorem completes_growBatch (hsweep : config.resourceSweep = false) (hactive : active ≠ [])
    (hplans : locals.addPlans.Valid) (hpositive : 0 < maxAllowed) (hidle : maxAllowed ≤ idle.length) :
    Completes transitionSmooth (fun t => Lists active idle t.runner ∧ t.locals = locals)
      (growBatch env config settings active maxAllowed locals)
      fun goesOn t => goesOn = true ∧ ∃ n, 0 < n ∧ n ≤ maxAllowed ∧
        Lists (active ++ idle.take n) (idle.drop n) t.runner ∧ t.locals.addPlans.Valid ∧
        t.locals.removePlans = locals.removePlans ∧
        t.locals.sizes = locals.sizes ++ [active.length + n] := by
  refine (completes_onRunner completes_externalActor).bind fun externalActorId =>
    ((completes_onRunner completes_profiledActor).weaken fun t ht => ⟨ht.1.1, ht.2⟩).bind
      fun profiledActorId => ?_
  refine (completes_onRunner (completes_plans_nextBatch hplans decisionCap_pos)).bind
    fun result => ?_
  obtain ⟨decision, plans⟩ := result
  refine Completes.imp (P := fun t => (Lists active idle t.runner ∧ t.locals = locals) ∧
    (0 < decision.effective ∧ decision.effective ≤ maxAllowed) ∧ plans.Valid)
    (.given ?_ fun hdecision => ?_) (fun t ht => ⟨⟨ht.1.1, ht.2⟩, ⟨ht.1.2.1.1,
      ht.1.2.1.2.trans (decisionCap_le hpositive _)⟩, ht.1.2.2⟩) fun _ _ ht => ht
  · exact .bind within_onLocals fun _ => .bind (within_onRunner within_addNMembers) fun _ =>
      .bind within_noteSize fun _ => .bind .get fun _ => .pure _
  obtain ⟨⟨hpos, hle⟩, hvalid⟩ := hdecision
  refine completes_onLocals.bind fun _ => (completes_onRunner (completes_addNMembers hactive hpos
    (hle.trans hidle))).bind fun _ => completes_noteSize.bind fun _ =>
      Completes.bind (Q := fun _ t => Lists _ _ t.runner ∧ t.locals = _) (.get fun t ht => ht)
        fun _ => .pure fun t ht =>
          ⟨by simp [hsweep], decision.effective, hpos, hle, ht.1, ?_, ?_, ?_⟩
  · rw [ht.2]
    exact hvalid
  · rw [ht.2]
  · rw [ht.2, length_append, length_take, Nat.min_eq_left (hle.trans hidle)]

theorem within_refill {cap : Nat} : Within logging (planner.refill env cap) := by
  unfold MembershipBatchPlanner.refill
  split
  · exact .bind (@completes_newCycle _ _ [] [] _ _).within fun _ => .pure _
  · exact .pure _

theorem within_nextBatch {currentGroupSize maxAllowed : Nat} {source : String} :
    Within logging (planner.nextBatch env currentGroupSize maxAllowed source) := by
  unfold MembershipBatchPlanner.nextBatch
  split
  · exact .pure _
  · exact .bind within_refill fun _ => .pure _

theorem within_plans_nextBatch {plans : MembershipBatchPlans} {currentGroupSize maxAllowed : Nat}
    {externalActorId : Option String} :
    Within logging (plans.nextBatch env currentGroupSize maxAllowed externalActorId) := by
  cases externalActorId with
  | none | some actorId => exact .bind within_nextBatch fun _ => .pure _

theorem within_growRound :
    Within transitionLogging (growRound env config settings : Transition ε Bool) := by
  refine .bind .get fun t => ?_
  dsimp only
  split
  · exact .pure _
  · exact .bind (within_onRunner (@completes_externalActor _ _ _ [] _ _).within) fun _ =>
      .bind (within_onRunner (@completes_profiledActor _ _ [] [] _ _ _).within) fun _ =>
        .bind (within_onRunner within_plans_nextBatch) fun _ =>
          .bind within_onLocals fun _ => .bind (within_onRunner within_addNMembers) fun _ =>
            .bind within_noteSize fun _ => .bind .get fun _ => .pure _

/-- The plans are valid, and the sizes that were noted have a property. -/
structure LocalsOk (φ : Nat → Prop) (locals : TransitionLocals) : Prop where
  add : locals.addPlans.Valid
  remove : locals.removePlans.Valid
  sizes : ∀ size ∈ locals.sizes, φ size

variable {φ : Nat → Prop} {rounds : Nat}

/-- A round adds members, but not beyond the target, or finds nobody idle. -/
theorem completes_growRound (hsweep : config.resourceSweep = false) (hactive : active ≠ [])
    (hlt : active.length < settings.targetSize)
    (hφ : ∀ size, active.length ≤ size → size ≤ settings.targetSize → φ size) :
    Completes transitionSmooth (fun t => Lists active idle t.runner ∧ LocalsOk φ t.locals)
      (growRound env config settings)
      fun goesOn t => ∃ n, n ≤ idle.length ∧ active.length + n ≤ settings.targetSize ∧
        Lists (active ++ idle.take n) (idle.drop n) t.runner ∧ LocalsOk φ t.locals ∧
        (goesOn = true → 0 < n) ∧ (goesOn = false → n = 0 ∧ idle = []) := by
  refine ⟨within_growRound, fun t ⟨ht, hok⟩ hsmooth => ?_⟩
  obtain ⟨rfl, rfl⟩ := ht
  rw [growRound, bind_apply, get_apply, andThen_ok] at hsmooth ⊢
  by_cases hzero : min (settings.targetSize - t.runner.active.length) t.runner.idle.length = 0
  · rw [if_pos hzero] at hsmooth ⊢
    have hidle : t.runner.idle = [] := length_eq_zero_iff.mp (by omega)
    exact ⟨false, rfl, 0, by omega, by omega, ⟨by simp, by simp⟩, hok, by simp, by simp [hidle]⟩
  · rw [if_neg hzero] at hsmooth ⊢
    obtain ⟨goesOn, hresult, rfl, n, hpos, hle, hlists, hadd, hremove, hsizes⟩ :=
      (completes_growBatch hsweep hactive hok.add (Nat.pos_of_ne_zero hzero)
        (Nat.min_le_right _ _)).ok t ⟨⟨rfl, rfl⟩, rfl⟩ hsmooth
    refine ⟨true, hresult, n, by omega, by omega, hlists, ⟨hadd, hremove ▸ hok.remove, ?_⟩,
      fun _ => hpos, by simp⟩
    intro size hmem
    rw [hsizes, mem_append, mem_singleton] at hmem
    rcases hmem with hmem | rfl
    · exact hok.sizes size hmem
    · exact hφ _ (by omega) (by omega)

/-- The first idle workers have become active, as many as are needed. -/
def Grown (settings : TransitionSettings) (φ : Nat → Prop) (active idle : List WorkerSpec)
    (t : TransitionState ε) : Prop :=
  ∃ n, n ≤ idle.length ∧ active.length + n =
      max active.length (min settings.targetSize (active.length + idle.length)) ∧
    Lists (active ++ idle.take n) (idle.drop n) t.runner ∧ LocalsOk φ t.locals

theorem within_grow :
    Within transitionLogging (grow env config settings rounds : Transition ε Unit) := by
  induction rounds with
  | zero => exact .fail _
  | succ rounds ih =>
    refine .bind .get fun t => ?_
    split
    · refine .bind within_growRound fun goesOn => ?_
      split
      · exact ih
      · exact .pure _
    · exact .pure _

/-- The loop adds members until the target is reached or nobody is idle. -/
theorem completes_grow (hsweep : config.resourceSweep = false) (hactive : active ≠ [])
    (hrounds : settings.targetSize - active.length < rounds)
    (hφ : ∀ size, active.length ≤ size → size ≤ settings.targetSize → φ size) :
    Completes transitionSmooth (fun t => Lists active idle t.runner ∧ LocalsOk φ t.locals)
      (grow env config settings rounds) fun _ => Grown settings φ active idle := by
  induction rounds generalizing active idle with
  | zero => omega
  | succ rounds ih =>
    refine ⟨within_grow, fun t ht hsmooth => ?_⟩
    obtain ⟨hlists, hok⟩ := ht
    rw [grow, bind_apply, get_apply, andThen_ok, hlists.1] at hsmooth ⊢
    by_cases hlt : active.length < settings.targetSize
    · rw [if_pos hlt] at hsmooth ⊢
      refine (Completes.bind (R := fun _ => Grown settings φ active idle)
        (completes_growRound hsweep hactive hlt hφ) fun goesOn => ?_).ok t
          ⟨hlists, hok⟩ hsmooth
      cases goesOn with
      | false =>
        refine .pure fun t ⟨n, _, _, hlists, hok, _, hstop⟩ => ⟨n, ?_⟩
        obtain ⟨rfl, rfl⟩ := hstop rfl
        exact ⟨by omega, by simp only [length_nil]; omega, hlists, hok⟩
      | true =>
        refine ⟨within_grow, fun t ⟨n, hn, hle, hlists, hok, hpos, _⟩ hsmooth => ?_⟩
        have hpos := hpos rfl
        have hlength : (active ++ idle.take n).length = active.length + n := by
          rw [length_append, length_take, Nat.min_eq_left hn]
        obtain ⟨_, hresult, m, hm, hsize, hlists, hok⟩ := (ih (by simp [hactive])
          (by omega) fun size h => hφ size (by omega)).ok t ⟨hlists, hok⟩ hsmooth
        rw [length_drop] at hm
        rw [hlength, length_drop] at hsize
        refine ⟨(), hresult, n + m, by omega, by omega, ?_, hok⟩
        rw [take_add, ← append_assoc, ← drop_drop]
        exact hlists
    · rw [if_neg hlt]
      exact ⟨(), rfl, 0, by omega, by omega, by simpa using hlists, hok⟩

/-- The workers that a transition may not remove. -/
def TransitionSettings.isProtected (settings : TransitionSettings) (worker : WorkerSpec) : Bool :=
  Runner.isProtected settings.externalCoverageLane settings.protectProfileEnabledMembers worker

theorem Removes.refl (isProtected : WorkerSpec → Bool) (active idle : List WorkerSpec) :
    Removes isProtected 0 active idle active idle :=
  ⟨.refl _, .refl _, rfl, fun _ hmem _ => hmem⟩

theorem Removes.trans {isProtected : WorkerSpec → Bool} {m n : Nat}
    {active₁ idle₁ active₂ idle₂ active₃ idle₃ : List WorkerSpec}
    (h : Removes isProtected m active₁ idle₁ active₂ idle₂)
    (h' : Removes isProtected n active₂ idle₂ active₃ idle₃) :
    Removes isProtected (m + n) active₁ idle₁ active₃ idle₃ := by
  refine ⟨h'.perm.trans h.perm, h'.sublist.trans h.sublist, ?_, ?_⟩
  · have := h.length
    have := h'.length
    omega
  · exact fun worker hmem hprotected => h'.kept worker (h.kept worker hmem hprotected) hprotected

/-- A batch makes the group smaller by at most what is allowed. -/
theorem completes_shrinkBatch (hids : (active.map (·.id)).Nodup) (hplans : locals.removePlans.Valid)
    (hpositive : 0 < maxAllowed) (hallowed : maxAllowed < active.length)
    (hprotected : active.countP settings.isProtected + maxAllowed ≤ active.length) :
    Completes transitionSmooth (fun t => Lists active idle t.runner ∧ t.locals = locals)
      (shrinkBatch env config settings active maxAllowed locals)
      fun _ t => ∃ n active' idle', (0 < n ∧ n ≤ maxAllowed) ∧ Lists active' idle' t.runner ∧
        Removes settings.isProtected n active idle active' idle' ∧
        t.locals.removePlans.Valid ∧ t.locals.addPlans = locals.addPlans ∧
        t.locals.sizes = locals.sizes ++ [active'.length] := by
  refine (completes_onRunner completes_externalActor).bind
    fun forcedActorId => ?_
  refine Completes.bind (Q := fun (result : MembershipBatchDecision × MembershipBatchPlans) t =>
    (Lists active idle t.runner ∧ t.locals = locals) ∧
      (0 < result.1.effective ∧ result.1.effective ≤ maxAllowed) ∧ result.2.Valid ∧
      ∀ id, forcedActorId = some id → ∃ worker ∈ active, worker.id = id ∧
        settings.isProtected worker = true) ?_ fun result => ?_
  · refine ((completes_onRunner (completes_plans_nextBatch hplans
      decisionCap_pos)).keep (∀ id, forcedActorId = some id →
        settings.externalCoverageLane = true ∧
          ∃ worker ∈ active, worker.id = id ∧ isExternalDevice worker = true)).imp
      (fun t ht => ⟨⟨ht.1.1, ht.2⟩, ht.1.2⟩) fun result t ht => ⟨⟨ht.1.1.1, ht.1.2⟩,
        ⟨ht.1.1.2.1.1, ht.1.1.2.1.2.trans (decisionCap_le hpositive _)⟩, ht.1.1.2.2, ?_⟩
    intro id hid
    obtain ⟨hlane, worker, hmem, hworker, hexternal⟩ := ht.2 id hid
    exact ⟨worker, hmem, hworker,
      by simp [TransitionSettings.isProtected, isProtected, hlane, hexternal]⟩
  obtain ⟨decision, plans⟩ := result
  refine .given ?_ fun hdecision => ?_
  · exact .bind within_onLocals fun _ => .bind (within_onRunner within_removeNMembers)
      fun _ => within_noteSize
  obtain ⟨⟨hpos, hle⟩, hvalid, hforced⟩ := hdecision
  dsimp only at hpos hle hvalid
  refine completes_onLocals.bind fun _ => (completes_onRunner (completes_removeNMembers hids hforced
    hpos (by omega) ?_)).bind fun _ => ⟨within_noteSize, fun t ht _ => ?_⟩
  · change active.countP settings.isProtected + decision.effective ≤ active.length
    omega
  · obtain ⟨⟨active', idle', hlists, hremoves⟩, hlocals⟩ := ht
    refine ⟨(), rfl, decision.effective, active', idle', ⟨hpos, hle⟩, hlists, hremoves, ?_⟩
    simp only [noteSize, modify_apply, hlocals, hlists.1]
    exact ⟨hvalid, trivial, trivial⟩

theorem within_shrinkRound :
    Within transitionLogging (shrinkRound env config settings : Transition ε Unit) := by
  refine .bind .get fun t => ?_
  dsimp only
  split
  · exact .fail _
  · exact .bind (within_onRunner (@completes_externalActor _ _ _ [] _ _).within) fun _ =>
      .bind (within_onRunner within_plans_nextBatch) fun _ =>
        .bind within_onLocals fun _ =>
          .bind (within_onRunner within_removeNMembers) fun _ => within_noteSize

/-- A round removes unprotected members, but not below the target. -/
theorem completes_shrinkRound (hids : (active.map (·.id)).Nodup)
    (htarget : 0 < settings.targetSize) (hlt : settings.targetSize < active.length)
    (hprotected : active.countP settings.isProtected ≤ settings.targetSize)
    (hφ : ∀ size, settings.targetSize ≤ size → size ≤ active.length → φ size) :
    Completes transitionSmooth (fun t => Lists active idle t.runner ∧ LocalsOk φ t.locals)
      (shrinkRound env config settings)
      fun _ t => ∃ n active' idle', 0 < n ∧ settings.targetSize ≤ active'.length ∧
        Lists active' idle' t.runner ∧ Removes settings.isProtected n active idle active' idle' ∧
        LocalsOk φ t.locals := by
  refine ⟨within_shrinkRound, fun t ⟨ht, hok⟩ hsmooth => ?_⟩
  rw [shrinkRound, bind_apply, get_apply, andThen_ok, ht.1] at hsmooth ⊢
  rw [if_neg (by omega)] at hsmooth ⊢
  obtain ⟨_, hresult, n, active', idle', ⟨hpos, hle⟩, hlists, hremoves, hremove, hadd, hsizes⟩ :=
    (completes_shrinkBatch hids hok.remove (by omega) (by omega) (by omega)).ok t
      ⟨ht, rfl⟩ hsmooth
  have hlength := hremoves.length
  refine ⟨(), hresult, n, active', idle', hpos, by omega, hlists, hremoves,
    ⟨hadd ▸ hok.add, hremove, fun size hmem => ?_⟩⟩
  rw [hsizes, mem_append, mem_singleton] at hmem
  rcases hmem with hmem | rfl
  · exact hok.sizes size hmem
  · exact hφ _ (by omega) (by omega)

/-- As many workers as are too many have become idle. -/
def Shrunk (settings : TransitionSettings) (φ : Nat → Prop) (active idle : List WorkerSpec)
    (t : TransitionState ε) : Prop :=
  ∃ active' idle', Lists active' idle' t.runner ∧
    Removes settings.isProtected (active.length - settings.targetSize) active idle active' idle' ∧
    LocalsOk φ t.locals

theorem within_shrink :
    Within transitionLogging (shrink env config settings rounds : Transition ε Unit) := by
  induction rounds with
  | zero => exact .fail _
  | succ rounds ih =>
    refine .bind .get fun t => ?_
    split
    · exact .bind within_shrinkRound fun _ => ih
    · exact .pure _

/-- The loop removes members until the target is reached. -/
theorem completes_shrink (hids : (active.map (·.id)).Nodup) (htarget : 0 < settings.targetSize)
    (hprotected : active.countP settings.isProtected ≤ settings.targetSize)
    (hrounds : active.length - settings.targetSize < rounds)
    (hφ : ∀ size, settings.targetSize ≤ size → size ≤ active.length → φ size) :
    Completes transitionSmooth (fun t => Lists active idle t.runner ∧ LocalsOk φ t.locals)
      (shrink env config settings rounds) fun _ => Shrunk settings φ active idle := by
  induction rounds generalizing active idle with
  | zero => omega
  | succ rounds ih =>
    refine ⟨within_shrink, fun t ht hsmooth => ?_⟩
    obtain ⟨hlists, hok⟩ := ht
    rw [shrink, bind_apply, get_apply, andThen_ok, hlists.1] at hsmooth ⊢
    by_cases hlt : settings.targetSize < active.length
    · rw [if_pos hlt] at hsmooth ⊢
      refine (Completes.bind (R := fun _ => Shrunk settings φ active idle)
        (completes_shrinkRound hids htarget hlt hprotected hφ) fun _ => ?_).ok t
          ⟨hlists, hok⟩ hsmooth
      refine ⟨within_shrink, fun t ht hsmooth => ?_⟩
      obtain ⟨n, active', idle', hpos, hle, hlists, hremoves, hok⟩ := ht
      have hlength := hremoves.length
      obtain ⟨_, hresult, active'', idle'', hlists, hremoves', hok⟩ := (ih
        (hids.sublist (hremoves.sublist.map _)) ((hremoves.sublist.countP_le).trans hprotected)
        (by omega) fun size h h' => hφ size h (by omega)).ok t ⟨hlists, hok⟩ hsmooth
      have hsum : active.length - settings.targetSize = n + (active'.length - settings.targetSize) := by
        omega
      exact ⟨(), hresult, active'', idle'', hlists, hsum ▸ hremoves.trans hremoves', hok⟩
    · rw [if_neg hlt]
      have hzero : active.length - settings.targetSize = 0 := by omega
      exact ⟨(), rfl, active, idle, hlists, hzero ▸ .refl _ _ _, hok⟩

end Rounds

section Transitions

/-- Where a transition may start: there is an active worker, workers have distinct ids, the
target leaves room for the protected workers, and the planners are as they left off. -/
structure TransitionReady (settings : TransitionSettings) (t : TransitionState ε) : Prop where
  distinct : ((t.runner.active ++ t.runner.idle).map (·.id)).Nodup
  active : t.runner.active ≠ []
  target : 0 < settings.targetSize
  isProtected : t.runner.active.countP settings.isProtected ≤ settings.targetSize
  addPlans : t.locals.addPlans.Valid
  removePlans : t.locals.removePlans.Valid
  sizes : t.locals.sizes = []

/-- What a transition achieves. -/
structure TransitionDone (settings : TransitionSettings) (t t' : TransitionState ε) : Prop where
  grown : t.runner.active.length ≤ settings.targetSize → t'.runner.active.length =
    min settings.targetSize (t.runner.active.length + t.runner.idle.length)
  shrunk : settings.targetSize ≤ t.runner.active.length →
    t'.runner.active.length = settings.targetSize
  perm : (t'.runner.active ++ t'.runner.idle).Perm (t.runner.active ++ t.runner.idle)
  kept : ∀ worker ∈ t.runner.active, settings.isProtected worker = true →
    worker ∈ t'.runner.active
  below : t.runner.active.length ≤ settings.targetSize →
    ∀ size ∈ t'.locals.sizes, size ≤ settings.targetSize
  above : settings.targetSize ≤ t.runner.active.length →
    ∀ size ∈ t'.locals.sizes, settings.targetSize ≤ size

variable {settings : TransitionSettings} {t : TransitionState ε} {rounds : Nat}

/-- The size of the group lies between where it was and the target. -/
def Between (settings : TransitionSettings) (active : List WorkerSpec) (size : Nat) : Prop :=
  (active.length ≤ settings.targetSize → size ≤ settings.targetSize) ∧
    (settings.targetSize ≤ active.length → settings.targetSize ≤ size)

theorem completes_shrink_of_grown (hready : TransitionReady settings t)
    (hrounds : settings.targetSize + t.runner.active.length < rounds) :
    Completes transitionSmooth
      (Grown settings (Between settings t.runner.active) t.runner.active t.runner.idle)
      (shrink env config settings rounds) fun _ => TransitionDone settings t := by
  refine ⟨within_shrink, fun t₁ ⟨n, hn, hsize, hlists, hok⟩ hsmooth => ?_⟩
  have hlength : (t.runner.active ++ t.runner.idle.take n).length =
      t.runner.active.length + n := by
    rw [length_append, length_take, Nat.min_eq_left hn]
  have hall : t.runner.active ++ t.runner.idle.take n ++ t.runner.idle.drop n =
      t.runner.active ++ t.runner.idle := by
    rw [append_assoc, take_append_drop]
  have hids : ((t.runner.active ++ t.runner.idle.take n).map (·.id)).Nodup := by
    refine hready.distinct.sublist (Sublist.map _ ?_)
    exact (take_sublist n _).append_left _
  have hprotected : (t.runner.active ++ t.runner.idle.take n).countP settings.isProtected ≤
      settings.targetSize := by
    rcases Nat.le_total t.runner.active.length settings.targetSize with hle | hge
    · exact countP_le_length.trans (by omega)
    · obtain rfl : n = 0 := by omega
      simpa using hready.isProtected
  obtain ⟨_, hresult, active', idle', hlists', hremoves, hok'⟩ := (completes_shrink hids
    hready.target hprotected (by omega) fun size h h' => ⟨by omega, by omega⟩).ok t₁
      ⟨hlists, hok⟩ hsmooth
  have hremoved := hremoves.length
  refine ⟨(), hresult, ?_⟩
  obtain ⟨rfl, rfl⟩ := hlists'
  refine ⟨by omega, by omega, hall ▸ hremoves.perm, ?_, ?_, ?_⟩
  · exact fun worker hmem => hremoves.kept worker (mem_append_left _ hmem)
  · exact fun hle size hmem => (hok'.sizes size hmem).1 hle
  · exact fun hge size hmem => (hok'.sizes size hmem).2 hge

/-- The transition ends at the target, or as close to it as possible. -/
theorem completes_transition (hready : TransitionReady settings t)
    (hsweep : config.resourceSweep = false)
    (hrounds : settings.targetSize + t.runner.active.length < rounds) :
    Completes transitionSmooth (fun t₁ => Lists t.runner.active t.runner.idle t₁.runner ∧
        LocalsOk (Between settings t.runner.active) t₁.locals)
      (transitionToSize env config settings rounds) fun _ => TransitionDone settings t := by
  refine Completes.bind (Q := fun _ t₁ => Lists t.runner.active t.runner.idle t₁.runner ∧
      LocalsOk (Between settings t.runner.active) t₁.locals)
    ⟨within_onLocals, fun t₁ ⟨hlists, hok⟩ _ => ⟨(), rfl, hlists, hok.add, hok.remove, hok.sizes⟩⟩
    fun _ => (completes_grow hsweep hready.active (by omega) fun size h h' =>
      ⟨by omega, by omega⟩).bind fun _ => ?_
  refine Completes.bind (Q := fun _ => Grown settings (Between settings t.runner.active)
      t.runner.active t.runner.idle)
    ⟨within_onLocals, fun t₁ ⟨n, hn, hsize, hlists, hok⟩ _ => ⟨(), rfl, n, hn, hsize, hlists,
      hok.add, hok.remove, hok.sizes⟩⟩ fun _ => completes_shrink_of_grown hready hrounds

/-- In a run in which no worker command fails, a transition returns and reaches its target. -/
theorem transitionToSize_reaches (hready : TransitionReady settings t)
    (hsweep : config.resourceSweep = false)
    (hrounds : settings.targetSize + t.runner.active.length < rounds)
    (hsmooth : Smooth t.runner (transitionToSize env config settings rounds t).2.runner) :
    (transitionToSize env config settings rounds t).1 = .ok () ∧
      TransitionDone settings t (transitionToSize env config settings rounds t).2 := by
  obtain ⟨_, hresult, hdone⟩ := (completes_transition hready hsweep hrounds).ok t
    ⟨⟨rfl, rfl⟩, hready.addPlans, hready.removePlans, by simp [hready.sizes]⟩ hsmooth
  exact ⟨hresult, hdone⟩

theorem smooth_of_all {s s' : RunnerState ε} (hnil : s.observed = [])
    (hall : s'.observed.all Observation.succeeded = true) : Smooth s s' :=
  ⟨s'.observed, by rw [hnil, nil_append], all_eq_true.mp hall⟩

/-- Every command succeeds. -/
def obliging : RunnerEnvironment Unit where
  complete posted e := (.answered posted ⟨"ok", ""⟩, e)
  showGroupState _ e := (.ok ⟨"group", 1, ["alice", "carol"]⟩, e)
  send worker request e := (.ok ⟨"ok", okFragment worker request.command⟩, e)
  oomEvidence _ e := (false, e)
  expired e := (false, e)
  random _ e := (0, e)

/-- A run without a resource sweep. -/
def plateau : RunnerConfig := ⟨"1", true, 0, false⟩

/-- Nothing has been planned yet. -/
def freshPlans : TransitionLocals :=
  ⟨.new false, .new false, [], fun _ => 0, fun _ => 0, []⟩

/-- The external device. -/
def phone : WorkerSpec := ⟨"phone", "http://phone:8080", "phone", .singleton, true, "phone"⟩

/-- A worker that may be removed. -/
def packed (id : String) : WorkerSpec :=
  ⟨id, "http://worker-0:8080/client/" ++ id, "worker-0", .packed, false, ""⟩

/-- A device that may not be removed, in front of three workers that may. -/
def phoneAndThree : TransitionState Unit :=
  ⟨⟨(), phone :: ["w1", "w2", "w3"].map packed, [], [], [], 0, []⟩, freshPlans⟩

/-- Everybody but the phone is removed. -/
theorem transitionToSize_phone :
    (transitionToSize obliging plateau ⟨1, true, true⟩ 6 phoneAndThree).2.runner.active = [phone] ∧
    (transitionToSize obliging plateau ⟨1, true, true⟩ 6 phoneAndThree).1 = .ok () ∧
      TransitionDone ⟨1, true, true⟩ phoneAndThree
        (transitionToSize obliging plateau ⟨1, true, true⟩ 6 phoneAndThree).2 :=
  ⟨by decide +kernel, transitionToSize_reaches
    ⟨by decide, by simp [phoneAndThree], by decide, by decide,
      MembershipBatchPlans.valid_new false, MembershipBatchPlans.valid_new false, rfl⟩
    (by decide) (by decide) (smooth_of_all rfl (by decide +kernel))⟩

end Transitions

end MessagingBench.Runner
