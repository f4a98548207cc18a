import Mathlib.Data.List.Perm.Subperm
import MessagingBench.Runner.Plateau
import MessagingBench.Runner.Resizing

/-!
# The number of workers

Additions, removals and restorations move workers between the active list and the idle
queue. Whenever they succeed, nobody has come from elsewhere, and there are fewer workers
than before unless everything went as intended: all workers of the batch were moved, and
nobody else.
-/

namespace MessagingBench.Runner

open List Routine

variable {ε : Type} {env : RunnerEnvironment ε} {config : RunnerConfig}

/-- The number of workers that are active or idle. -/
def population (s : RunnerState ε) : Nat := s.active.length + s.idle.length

/-- Nobody comes from elsewhere, and there are no more workers than before. -/
structure Shrinks (s s' : RunnerState ε) : Prop where
  subset : ∀ worker ∈ s'.active ++ s'.idle, worker ∈ s.active ++ s.idle
  population : population s' ≤ population s

theorem Shrinks.refl (s : RunnerState ε) : Shrinks s s := ⟨fun _ h => h, Nat.le_refl _⟩

theorem Shrinks.trans {s s₁ s₂ : RunnerState ε} (h : Shrinks s s₁) (h' : Shrinks s₁ s₂) :
    Shrinks s s₂ :=
  ⟨fun worker hmem => h.subset worker (h'.subset worker hmem), h'.population.trans h.population⟩

section Evicting

variable {s s' : RunnerState ε}

/-- An eviction takes workers out of the active list only, all dead ones among them. -/
structure EvictsOnly (deadWorkers : List WorkerSpec) (s s' : RunnerState ε) : Prop where
  idle : s'.idle = s.idle
  active : s'.active.Sublist s.active
  fewer : (∃ worker ∈ s.active, worker.id ∈ deadWorkers.map (·.id)) →
    s'.active.length < s.active.length

theorem evictOomGroupMembers_only {deadWorkers : List WorkerSpec}
    (h : evictOomGroupMembers env config deadWorkers s = (.ok (), s')) :
    EvictsOnly deadWorkers s s' := by
  have hevicted := evictOomGroupMembers_evicted env config deadWorkers s
  rw [h] at hevicted
  obtain ⟨gone, hretains⟩ := hevicted
  refine ⟨hretains.idle, hretains.active ▸ filter_sublist, ?_⟩
  rintro ⟨worker, hmem, hdead⟩
  rw [hretains.active]
  refine lt_of_le_of_ne (length_filter_le _ _) fun hlength => ?_
  have hlive := length_filter_eq_length_iff.mp hlength worker hmem
  simp [isLive, hretains.dead _ hdead] at hlive

theorem evictOomGroupMembers_nil : evictOomGroupMembers env config [] s = (.ok (), s) := rfl

end Evicting

section Adding

variable {s s₁ s' : RunnerState ε} {kept lost joined failed : List WorkerSpec} {batchSize : Nat}
  {forcedActorId : Option String}

theorem Takes.population_eq (h : Takes kept lost s s₁) :
    population s = s.active.length + s₁.idle.length + (kept ++ lost).length := by
  obtain ⟨taken, hidle, hperm⟩ := h.idle
  unfold population
  rw [hidle, length_append, ← hperm.length_eq]
  omega

theorem Takes.subset (h : Takes kept lost s s₁) {worker : WorkerSpec}
    (hmem : worker ∈ s₁.active ++ kept ++ s₁.idle) : worker ∈ s.active ++ s.idle :=
  h.perm.subset (mem_append_left _ hmem)

/-- The outcome of an addition: all workers of the batch have become active and nobody else
has left, or there are fewer workers than before. -/
structure Adds (batchSize : Nat) (s s' : RunnerState ε) : Prop where
  shrinks : Shrinks s s'
  complete : population s' = population s →
    s'.active.length = s.active.length + batchSize ∧ ∀ worker ∈ s.active, worker ∈ s'.active

theorem adds_of_lt (hsubset : ∀ worker ∈ s'.active ++ s'.idle, worker ∈ s.active ++ s.idle)
    (hlt : population s' < population s) : Adds batchSize s s' :=
  ⟨⟨hsubset, Nat.le_of_lt hlt⟩, fun heq => absurd heq (Nat.ne_of_lt hlt)⟩

theorem addActorFailed_adds {actor : WorkerSpec} {joiners : List WorkerSpec} {error : RunnerError}
    {action : String} (htakes : Takes joiners lost s s₁) (hactor : actor ∈ s.active)
    (h : addActorFailed env config actor joiners error action s₁ = (.ok (), s')) :
    Adds batchSize s s' := by
  obtain ⟨_, _, ⟨⟩, h⟩ := bind_ok h
  obtain ⟨goesOn, s₃, hrecord, h⟩ := bind_ok h
  have hreports : Reports (fun _ => True) s₁ s₃ :=
    (within_recordProfiledWorkerFailure trivial).of_eq hrecord
  split at h
  · obtain ⟨_, _, ⟨⟩, h⟩ := bind_ok h
    have honly := evictOomGroupMembers_only h
    have hactive : s₃.active = s.active := hreports.active.trans htakes.active
    have hidle : s'.idle = joiners ++ s₁.idle :=
      honly.idle.trans (congrArg (joiners ++ ·) hreports.idle)
    have hfewer : s'.active.length < s.active.length := by
      rw [← hactive]
      exact honly.fewer ⟨actor, hactive ▸ hactor, mem_cons_self⟩
    refine adds_of_lt (fun worker hmem => htakes.subset ?_) ?_
    · rw [hidle, ← append_assoc] at hmem
      have hsublist : s'.active.Sublist s₁.active := by
        rw [← hreports.active]
        exact honly.active
      exact ((hsublist.append_right _).append_right _).subset hmem
    · rw [htakes.population_eq]
      unfold population
      rw [hidle, length_append, length_append]
      omega
  · cases h

theorem addJoined_adds (htakes : Takes joined lost s s₁) (hlength : (joined ++ lost).length = batchSize)
    (hfailed : failed = [] ∨ lost ≠ [] ∨ ∃ worker ∈ s.active, worker.id ∈ failed.map (·.id))
    (h : addJoined env config joined failed s₁ = (.ok (), s')) : Adds batchSize s s' := by
  obtain ⟨_, _, ⟨⟩, h⟩ := bind_ok h
  have honly := evictOomGroupMembers_only h
  have hpopulation := htakes.population_eq
  have hsubset : ∀ worker ∈ s'.active ++ s'.idle, worker ∈ s.active ++ s.idle := by
    intro worker hmem
    rw [honly.idle] at hmem
    exact htakes.subset ((honly.active.append_right _).subset hmem)
  have hle := honly.active.length_le
  have hidle : s'.idle = s₁.idle := honly.idle
  simp only [length_append, htakes.active] at hle hpopulation hlength
  have hshrinks : population s' ≤ population s := by
    unfold population at hpopulation ⊢
    rw [hidle]
    omega
  refine ⟨⟨hsubset, hshrinks⟩, fun heq => ?_⟩
  unfold population at heq hpopulation
  rw [hidle] at heq
  rcases hfailed with rfl | hlost | hdead
  · rw [evictOomGroupMembers_nil] at h
    cases h
    refine ⟨?_, fun worker hmem => ?_⟩
    · simp only [length_append, htakes.active] at heq ⊢
      omega
    · exact mem_append_left _ (htakes.active ▸ hmem)
  · have hpositive := length_pos_iff.mpr hlost
    omega
  · obtain ⟨worker, hmem, hid⟩ := hdead
    have hfewer := honly.fewer ⟨worker, mem_append_left _ (htakes.active ▸ hmem), hid⟩
    simp only [length_append, htakes.active] at hfewer
    omega

theorem addNMembers_adds (h : addNMembers env config batchSize forcedActorId s = (.ok (), s')) :
    Adds batchSize s s' := by
  obtain ⟨progress, s₂, huntil, h⟩ := bind_ok h
  obtain ⟨hpositive, hrun⟩ := addUntilFanout_run huntil
  cases hrun with
  | nobodyLeft htakes hlength =>
    obtain ⟨-, rfl⟩ := pure_ok h
    refine adds_of_lt (fun worker hmem => htakes.subset (by simpa using hmem)) ?_
    rw [htakes.population_eq, nil_append, hlength, ← htakes.active]
    unfold population
    omega
  | actorFailed htakes _ hactor hfailed =>
    obtain ⟨-, rfl⟩ := pure_ok h
    exact addActorFailed_adds htakes hactor hfailed
  | @fannedOut s₁ actor joined failed lost recipients phase operation expected result htakes
      hlength hrecipients hfanout =>
    have htakes := htakes.report ((within_commitFanout (fun worker hmem =>
      mem_map_of_mem (hrecipients worker hmem))).of_eq hfanout)
    cases result with
    | ok result =>
      refine addJoined_adds htakes hlength ?_ h
      by_cases hfailed : failed = []
      · exact .inl hfailed
      · exact .inr (.inl (append_ne_nil_of_left_ne_nil hfailed _))
    | error batchError =>
      obtain ⟨hatRecipients, hne, -⟩ := commitFanout_error hfanout
      -- a recipient has failed, and recipients are active
      obtain ⟨failure, hfailure⟩ := exists_mem_of_ne_nil _ hne
      have hactive : ∀ failure ∈ batchError.failures, failure.worker.id ∈ s.active.map (·.id) := by
        intro failure hmem
        obtain ⟨worker, hworker, hid⟩ := hatRecipients failure hmem
        exact hid ▸ mem_map_of_mem (hrecipients worker hworker)
      obtain ⟨dead, s₃, hrecord, h⟩ := bind_ok h
      have htakes := htakes.report ((within_recordBatchOomFailures hactive).of_eq hrecord)
      cases dead with
      | some deadWorkers =>
        refine addJoined_adds htakes hlength (.inr (.inr ?_)) h
        obtain ⟨worker, hworker, hid⟩ := mem_map.mp (hactive failure hfailure)
        refine ⟨worker, hworker, ?_⟩
        rw [(recordBatchOomFailures_recorded hrecord).1, hid, map_append]
        exact mem_append_right _ (mem_map_of_mem (mem_map_of_mem hfailure))
      | none =>
        obtain ⟨-, notInGroup, -, h⟩ := ok_of_onlyNotInGroup h
        obtain rfl := modify_ok h
        refine adds_of_lt (fun worker hmem => htakes.subset ?_) ?_
        · rcases mem_append.mp hmem with hmem | hmem
          · exact mem_append_left _ (mem_append_left _ (mem_filter.mp hmem).1)
          · exact mem_append_right _ hmem
        · have hle := length_filter_le (!notInGroup.contains ·.id) s₃.active
          rw [htakes.population_eq, hlength, ← htakes.active]
          unfold population
          dsimp only
          omega

end Adding

section Removing

variable {s s' : RunnerState ε} {α : Type}

theorem genRange_ok {bound position : Nat} (h : Phase.genRange env bound s = (.ok position, s')) :
    Lists s.active s.idle s' := by
  cases h
  exact ⟨rfl, rfl⟩

/-- Drawing takes some of the values. -/
theorem draw_ok {count : Nat} {values drawn : List α}
    (h : draw env count values s = (.ok drawn, s')) :
    drawn.length = count ∧ (∃ rest, (drawn ++ rest).Perm values) ∧ Lists s.active s.idle s' := by
  induction count generalizing s values drawn with
  | zero =>
    obtain ⟨rfl, rfl⟩ := pure_ok h
    exact ⟨rfl, ⟨values, .refl _⟩, rfl, rfl⟩
  | succ count ih =>
    obtain ⟨position, s₁, hposition, h⟩ := bind_ok h
    obtain ⟨hactive, hidle⟩ := genRange_ok hposition
    by_cases hlt : position < values.length
    · rw [getElem?_eq_getElem hlt] at h
      obtain ⟨rest, s₂, hrest, h⟩ := bind_ok h
      obtain ⟨rfl, rfl⟩ := pure_ok h
      obtain ⟨hlength, ⟨others, hothers⟩, hlists⟩ := ih hrest
      rw [hactive, hidle] at hlists
      exact ⟨by rw [length_cons, hlength], ⟨others, (hothers.cons _).trans (perm_swapRemove hlt)⟩,
        hlists⟩
    · rw [getElem?_eq_none (Nat.le_of_not_lt hlt)] at h
      cases h

/-- Values at different positions that pass a test are missing in the rest. -/
theorem length_filter_not_add_le {values : List α} {p : α → Bool} {indices : List Nat}
    (hnodup : indices.Nodup) (h : ∀ idx ∈ indices, ∃ value, values[idx]? = some value ∧ p value) :
    (values.filter (!p ·)).length + indices.length ≤ values.length := by
  let passes (idx : Nat) : Bool := (Option.map p values[idx]?).getD false
  have hcount : values.countP p = ((range values.length).filter passes).length := by
    nth_rewrite 1 [← filterMap_getElem?_range values]
    rw [countP_filterMap, countP_eq_length_filter]
  have hsubset : indices ⊆ (range values.length).filter passes := by
    intro idx hidx
    obtain ⟨value, hvalue, hpasses⟩ := h idx hidx
    obtain ⟨hlt, -⟩ := List.getElem?_eq_some_iff.mp hvalue
    refine mem_filter.mpr ⟨mem_range.mpr hlt, ?_⟩
    simp [passes, hvalue, hpasses]
  have hle := (hnodup.subperm hsubset).length_le
  have hsplit := length_eq_countP_add_countP p (l := values)
  have hnot : values.countP (fun value => decide ¬p value = true) = values.countP (!p ·) :=
    countP_congr fun value _ => by simp
  rw [← countP_eq_length_filter]
  omega

/-- The outcome of a removal by a forced actor: as many workers as the actor may remove, but no
more than requested, have become idle and nobody else has left, or there are fewer workers
than before. -/
structure RemovesBatch (batchSize : Nat) (actorId : String) (s s' : RunnerState ε) : Prop where
  shrinks : Shrinks s s'
  complete : population s' = population s →
    ∀ actorIdx, s.active.findIdx? (·.id == actorId) = some actorIdx →
      s'.active.length +
          min batchSize (removableMemberIndices s.active actorIdx true true).length =
        s.active.length ∧
      s'.active.any (·.id == actorId) = true

variable {batchSize : Nat} {actorId : String}

theorem removeActorFailed_fewer {actor : WorkerSpec} {error : RunnerError}
    (hactor : actor ∈ s.active) (h : removeActorFailed env config actor error s = (.ok (), s')) :
    Shrinks s s' ∧ population s' < population s := by
  obtain ⟨_, _, ⟨⟩, h⟩ := bind_ok h
  obtain ⟨goesOn, s₃, hrecord, h⟩ := bind_ok h
  have hreports : Reports (fun _ => True) s s₃ :=
    (within_recordProfiledWorkerFailure trivial).of_eq hrecord
  split at h
  · have honly := evictOomGroupMembers_only h
    have hfewer := honly.fewer ⟨actor, hreports.active ▸ hactor, mem_singleton_self _⟩
    have hactive := hreports.active ▸ honly.active
    have hidle := honly.idle.trans hreports.idle
    rw [hreports.active] at hfewer
    have hpopulation : population s' < population s := by
      unfold population
      rw [hidle]
      omega
    refine ⟨⟨fun worker hmem => ?_, Nat.le_of_lt hpopulation⟩, hpopulation⟩
    rw [hidle] at hmem
    exact (hactive.append_right _).subset hmem
  · cases h

theorem removeChosen_ok {actor : WorkerSpec} {removed : List WorkerSpec} (hactor : actor ∈ s.active)
    (h : removeChosen env config actor removed s = (.ok (), s')) :
    (Shrinks s s' ∧ population s' < population s) ∨
      (s'.active = s.active.filter (!(removed.map (·.id)).contains ·.id) ∧
        s'.idle = removed.reverse ++ s.idle) := by
  obtain ⟨actorBefore, s₁, hshown, h⟩ := bind_ok h
  have hreports : Reports (fun _ => True) s s₁ := within_showGroupState.of_eq hshown
  obtain ⟨request, s₂, hrequest, h⟩ := bind_ok h
  have hreports := hreports.trans (within_newRequest.of_eq hrequest)
  obtain ⟨sent, s₃, hsent, h⟩ := bind_ok h
  have hreports := hreports.trans (within_sendCmdExpectOkFragmentWithContext.of_eq
    (attempt_ok hsent))
  cases sent with
  | error error =>
    obtain ⟨hshrinks, hfewer⟩ := removeActorFailed_fewer (hreports.active ▸ hactor) h
    unfold population at hfewer
    rw [hreports.active, hreports.idle] at hfewer
    refine .inl ⟨⟨fun worker hmem => ?_, Nat.le_of_lt hfewer⟩, hfewer⟩
    rw [← hreports.active, ← hreports.idle]
    exact hshrinks.subset worker hmem
  | ok message =>
    obtain ⟨_, s₄, hcommitted, h⟩ := bind_ok h
    have hreports := hreports.trans (within_actorCommit.of_eq hcommitted)
    obtain ⟨_, _, ⟨⟩, h⟩ := bind_ok h
    obtain ⟨result, s₆, hfanout, h⟩ := bind_ok h
    have hreports := hreports.trans ((within_commitFanout (fun _ _ => trivial)).of_eq hfanout)
    cases result with
    | error batchError => cases h
    | ok result =>
      obtain rfl := modify_ok h
      exact .inr ⟨by rw [hreports.active], by rw [hreports.idle]⟩

theorem choose_ok {values : List α} {value : α}
    (h : choose env values s = (.ok value, s')) : value ∈ values ∧ Lists s.active s.idle s' := by
  obtain ⟨position, s₁, hposition, h⟩ := bind_ok h
  cases hget : values[position]? with
  | none =>
    rw [hget] at h
    cases h
  | some found =>
    rw [hget] at h
    obtain ⟨rfl, rfl⟩ := pure_ok h
    exact ⟨mem_of_getElem? hget, genRange_ok hposition⟩

theorem chooseRemoveActor_ok {active : List WorkerSpec} {actorIdx : Nat} {removable : List Nat}
    (h : chooseRemoveActorAndRemovableIndices env active (some actorId) true true batchSize s =
      (.ok (actorIdx, removable), s')) :
    removable = removableMemberIndices active actorIdx true true ∧
      (∀ idx, active.findIdx? (·.id == actorId) = some idx → actorIdx = idx) ∧
      Lists s.active s.idle s' := by
  unfold chooseRemoveActorAndRemovableIndices at h
  rw [Option.bind_some] at h
  cases hfound : active.findIdx? (·.id == actorId) with
  | some idx =>
    rw [hfound] at h
    cases h
    refine ⟨rfl, fun other hother => ?_, rfl, rfl⟩
    exact Option.some.inj hother
  | none =>
    rw [hfound] at h
    have hcandidate : (actorIdx, removable) ∈ (range active.length).map
        (fun idx => (idx, removableMemberIndices active idx true true)) ∧
        Lists s.active s.idle s' := by
      dsimp only at h
      split at h
      · split at h
        · cases h
        · obtain ⟨hmem, hlists⟩ := choose_ok h
          exact ⟨mem_of_mem_filter hmem, hlists⟩
      · obtain ⟨hmem, hlists⟩ := choose_ok h
        exact ⟨mem_of_mem_filter hmem, hlists⟩
    obtain ⟨idx, -, heq⟩ := mem_map.mp hcandidate.1
    cases heq
    exact ⟨rfl, by simp, hcandidate.2⟩

theorem removesBatch_of_drawn {actorIdx count : Nat} {drawn : List Nat} {actor : WorkerSpec}
    (hnodup : drawn.Nodup) (hlength : drawn.length = min batchSize count)
    (hcount : count = (removableMemberIndices s.active actorIdx true true).length)
    (hmem : ∀ idx ∈ drawn, idx ∈ removableMemberIndices s.active actorIdx true true)
    (hforced : ∀ idx, s.active.findIdx? (·.id == actorId) = some idx → actorIdx = idx)
    (hactor : s.active[actorIdx]? = some actor)
    (hactive : s'.active = s.active.filter
      (!((drawn.filterMap (s.active[·]?)).map (·.id)).contains ·.id))
    (hidle : s'.idle = (drawn.filterMap (s.active[·]?)).reverse ++ s.idle) :
    RemovesBatch batchSize actorId s s' := by
  let removedIds := (drawn.filterMap (s.active[·]?)).map (·.id)
  have hvalid : ∀ idx ∈ drawn, ∃ worker, s.active[idx]? = some worker ∧
      removedIds.contains worker.id = true := by
    intro idx hidx
    obtain ⟨worker, hworker, -⟩ := mem_removableMemberIndices (hmem idx hidx)
    refine ⟨worker, hworker, contains_iff_mem.mpr ?_⟩
    exact mem_map_of_mem (mem_filterMap.mpr ⟨idx, hidx, hworker⟩)
  have hremoved : (drawn.filterMap (s.active[·]?)).length = drawn.length := by
    rw [length_filterMap_eq_countP, countP_eq_length]
    intro idx hidx
    obtain ⟨worker, hworker, -⟩ := hvalid idx hidx
    rw [hworker]
    rfl
  have hle : s'.active.length + drawn.length ≤ s.active.length := by
    rw [hactive]
    exact length_filter_not_add_le hnodup hvalid
  have hpopulation : population s' = s'.active.length + drawn.length + s.idle.length := by
    unfold population
    rw [hidle, length_append, length_reverse, hremoved]
    omega
  refine ⟨⟨fun worker hworker => ?_, ?_⟩, fun heq idx hfound => ?_⟩
  · rw [hactive, hidle, mem_append, mem_append, mem_reverse] at hworker
    rcases hworker with hworker | hworker | hworker
    · exact mem_append_left _ (mem_of_mem_filter hworker)
    · obtain ⟨idx, -, hget⟩ := mem_filterMap.mp hworker
      exact mem_append_left _ (mem_of_getElem? hget)
    · exact mem_append_right _ hworker
  · rw [hpopulation]
    unfold population
    omega
  · obtain rfl := hforced idx hfound
    rw [hpopulation, population] at heq
    refine ⟨by rw [← hcount, ← hlength]; omega, ?_⟩
    -- if the actor had been removed along with the others, more would be missing
    have hid : actor.id = actorId := by
      obtain ⟨hlt, hid, -⟩ := findIdx?_eq_some_iff_getElem.mp hfound
      rw [getElem?_eq_getElem hlt] at hactor
      cases hactor
      exact beq_iff_eq.mp hid
    have hkept : removedIds.contains actor.id = false := by
      by_contra hcontains
      rw [Bool.not_eq_false] at hcontains
      have hnotDrawn : actorIdx ∉ drawn := by
        intro hidx
        have hne := (mem_filter.mp (hmem actorIdx hidx)).2
        simp at hne
      have hmore : s'.active.length + (actorIdx :: drawn).length ≤ s.active.length := by
        rw [hactive]
        refine length_filter_not_add_le (nodup_cons.mpr ⟨hnotDrawn, hnodup⟩) ?_
        intro idx hidx
        rcases mem_cons.mp hidx with rfl | hidx
        · exact ⟨actor, hactor, hcontains⟩
        · exact hvalid idx hidx
      rw [length_cons] at hmore
      omega
    rw [any_eq_true]
    refine ⟨actor, ?_, beq_iff_eq.mpr hid⟩
    rw [hactive]
    exact mem_filter.mpr ⟨mem_of_getElem? hactor, by rw [hkept]; rfl⟩

theorem removeNMembers_removes
    (h : removeNMembers env config batchSize (some actorId) true true s = (.ok (), s')) :
    RemovesBatch batchSize actorId s s' := by
  obtain ⟨_, _, ⟨⟩, h⟩ := bind_ok h
  split at h
  · cases h
  split at h
  · cases h
  split at h
  · cases h
  obtain ⟨⟨actorIdx, removable⟩, s₂, hchosen, h⟩ := bind_ok h
  obtain ⟨hremovable, hforced, hactive₂, hidle₂⟩ := chooseRemoveActor_ok hchosen
  dsimp only at h
  cases hactor : s.active[actorIdx]? with
  | none =>
    rw [hactor] at h
    cases h
  | some actor =>
    rw [hactor] at h
    dsimp only at h
    split at h
    · cases h
    obtain ⟨drawn, s₃, hdrawn, h⟩ := bind_ok h
    obtain ⟨hlength, ⟨rest, hperm⟩, hactive₃, hidle₃⟩ := draw_ok hdrawn
    rw [hactive₂] at hactive₃
    rw [hidle₂] at hidle₃
    have hnodup : removable.Nodup := by
      rw [hremovable]
      exact nodup_range.filter _
    have hdrawnNodup := (nodup_append.mp (hperm.nodup_iff.mpr hnodup)).1
    have hmem : ∀ idx ∈ drawn, idx ∈ removableMemberIndices s.active actorIdx true true :=
      fun idx hidx => hremovable ▸ hperm.subset (mem_append_left _ hidx)
    have hmemActor : actor ∈ s₃.active := hactive₃ ▸ mem_of_getElem? hactor
    rcases removeChosen_ok hmemActor h with ⟨hshrinks, hfewer⟩ | ⟨hactive', hidle'⟩
    · unfold population at hfewer
      rw [hactive₃, hidle₃] at hfewer
      refine ⟨⟨fun worker hworker => ?_, Nat.le_of_lt hfewer⟩,
        fun heq => absurd heq (Nat.ne_of_lt hfewer)⟩
      rw [← hactive₃, ← hidle₃]
      exact hshrinks.subset worker hworker
    · rw [hactive₃] at hactive'
      rw [hidle₃] at hidle'
      exact removesBatch_of_drawn hdrawnNodup hlength (by rw [hremovable]) hmem hforced hactor
        hactive' hidle'

end Removing

section Restoring

variable {s s₁ s' : RunnerState ε} {plateauSize : Nat}

theorem requeueFront_perm {idle : List WorkerSpec} {id : String} :
    (requeueFront idle id).Perm idle := by
  unfold requeueFront
  split
  · rename_i worker hfound
    obtain ⟨hid, before, after, rfl, hbefore⟩ := find?_eq_some_iff_append.mp hfound
    have herase : (before ++ worker :: after).eraseP (·.id == id) = before ++ after := by
      rw [eraseP_append_right _ fun other hmem => by simpa using hbefore other hmem]
      simp only [eraseP_cons, hid, cond_true]
    rw [herase]
    exact perm_middle.symm
  · exact .refl _

theorem mem_externalIds {workers : List WorkerSpec} {id : String} :
    id ∈ externalIds workers ↔
      ∃ worker ∈ workers, isDensityDevice worker = true ∧ worker.id = id := by
  rw [externalIds, mem_insertionSort, mem_map]
  constructor
  · rintro ⟨worker, hmem, hid⟩
    obtain ⟨hmem, hdevice⟩ := mem_filter.mp hmem
    exact ⟨worker, hmem, hdevice, hid⟩
  · rintro ⟨worker, hmem, hdevice, hid⟩
    exact ⟨worker, mem_filter.mpr ⟨hmem, hdevice⟩, hid⟩

theorem requeueExternal_perm (idle : List WorkerSpec) : (requeueExternal idle).Perm idle := by
  unfold requeueExternal
  generalize (externalIds idle).reverse = ids
  induction ids generalizing idle with
  | nil => exact .refl _
  | cons id ids ih => exact (ih _).trans requeueFront_perm

/-- Nobody comes from elsewhere, and the active workers stay unless somebody is lost. -/
structure Retained (s s' : RunnerState ε) : Prop where
  shrinks : Shrinks s s'
  kept : population s' = population s → ∀ worker ∈ s.active, worker ∈ s'.active

theorem Retained.trans (h : Retained s s₁) (h' : Retained s₁ s') : Retained s s' := by
  refine ⟨h.shrinks.trans h'.shrinks, fun heq worker hmem => ?_⟩
  have hle := h.shrinks.population
  have hle' := h'.shrinks.population
  exact h'.kept (by omega) worker (h.kept (by omega) worker hmem)

theorem Adds.retained {batchSize : Nat} (h : Adds batchSize s s') : Retained s s' :=
  ⟨h.shrinks, fun heq => (h.complete heq).2⟩

/-- A round that goes on has added somebody. -/
theorem restoreRound_inl (h : restoreRound env config plateauSize () s = (.ok (.inl ()), s')) :
    Retained s s' ∧ s.active.length < plateauSize ∧ s.active.length < s'.active.length := by
  obtain ⟨_, _, ⟨⟩, h⟩ := bind_ok h
  dsimp only at h
  split at h
  · cases h
  rename_i hgoesOn
  obtain ⟨_, s₁, hadds, h⟩ := bind_ok h
  obtain ⟨_, _, ⟨⟩, h⟩ := bind_ok h
  split at h
  · cases h
  rename_i hprogress
  obtain ⟨-, rfl⟩ := pure_ok h
  exact ⟨(addNMembers_adds hadds).retained, by omega, by omega⟩

/-- The loop never runs out of rounds. -/
theorem restoreRounds_suffice (s : RunnerState ε) : ∃ result s', ∀ exhausted,
    loop (restoreRound env config plateauSize) exhausted (plateauSize + 1) () s = (result, s') := by
  have hends : ∃ result s', stage (restoreRound env config plateauSize) () s
      (plateauSize - s.active.length + 1) = .ended result s' :=
    stage_ended_of_measure (I := fun _ _ => True)
      (fun _ (s : RunnerState ε) => plateauSize - s.active.length) trivial
      fun _ _ _ _ _ _ _ hround => by
        obtain ⟨-, hlt, hgrown⟩ := restoreRound_inl hround
        exact ⟨trivial, by omega⟩
  obtain ⟨result, s', hended⟩ := hends
  exact ⟨result, s', fun _ => loop_eq_of_ended hended (by omega)⟩

theorem restoreRound_inr
    (h : restoreRound env config plateauSize () s = (.ok (.inr ()), s')) : s' = s := by
  obtain ⟨_, _, ⟨⟩, h⟩ := bind_ok h
  dsimp only at h
  split at h
  · obtain ⟨-, rfl⟩ := pure_ok h
    rfl
  obtain ⟨_, s₁, -, h⟩ := bind_ok h
  obtain ⟨state, s₂, -, h⟩ := bind_ok h
  split at h
  · cases h
  · cases h

theorem restoreDensityPlateau_ok
    (h : restoreDensityPlateau env config plateauSize s = (.ok (), s')) :
    Retained s s' ∧ s'.active.length = plateauSize := by
  obtain ⟨_, _, ⟨⟩, h⟩ := bind_ok h
  obtain ⟨_, s₂, hloop, h⟩ := bind_ok h
  obtain ⟨_, _, ⟨⟩, h⟩ := bind_ok h
  split at h
  · cases h
  rename_i hsize
  obtain ⟨-, rfl⟩ := pure_ok h
  have hperm := requeueExternal_perm s.idle
  have hrequeued : Retained s { s with idle := requeueExternal s.idle } := by
    refine ⟨⟨fun worker hmem => ?_, ?_⟩, fun _ _ hmem => hmem⟩
    · exact (hperm.append_left s.active).subset hmem
    · unfold population
      rw [hperm.length_eq]
  obtain ⟨_, s₂, hretained, hround⟩ := loop_ok
    (I := fun _ s₂ => Retained { s with idle := requeueExternal s.idle } s₂)
    (fun _ _ _ _ hretained hround => hretained.trans (restoreRound_inl hround).1)
    ⟨.refl _, fun _ _ hmem => hmem⟩ hloop
  obtain rfl := restoreRound_inr hround
  exact ⟨hrequeued.trans hretained, Decidable.not_not.mp hsize⟩

end Restoring

end MessagingBench.Runner
