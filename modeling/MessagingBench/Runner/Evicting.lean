import MessagingBench.Runner.Observing

/-!
# Who is evicted

A round of an eviction ends, fails, or starts again with one more live worker known to be
dead, so that there are no more rounds than active workers, and one. In the end the dead
workers are gone, and nobody else but those that failed on the way or said that they are in
no group.
-/

namespace MessagingBench.Runner

open List Routine

variable {ε : Type} {env : RunnerEnvironment ε} {config : RunnerConfig}

/-- A failure of the worker was recorded between two states. -/
def RecordedSince (s s' : RunnerState ε) (id : String) : Prop :=
  ∃ new, s'.events = s.events ++ new ∧ ∃ event ∈ new, event.failedWorkerId = id

/-- The worker answered a fan-out between two states that it is in no group. -/
def ReportedSince (s s' : RunnerState ε) (id : String) : Prop :=
  ∃ new, s'.observed = s.observed ++ new ∧ ∃ phase workers error,
    Observation.fannedOut phase workers (.error error) ∈ new ∧
      ∃ failure ∈ error.failures, isNotInGroupError failure.error = true ∧ failure.worker.id = id

def Excused (s s' : RunnerState ε) (id : String) : Prop :=
  RecordedSince s s' id ∨ ReportedSince s s' id

section Growing

variable {s s₁ s₂ : RunnerState ε} {id : String}

theorem RecordedSince.later (h : RecordedSince s s₁ id) (h' : Extends s₁ s₂) :
    RecordedSince s s₂ id := by
  obtain ⟨new, hnew, event, hmem, hid⟩ := h
  obtain ⟨more, hmore⟩ := h'.events
  exact ⟨new ++ more, by rw [← hmore, hnew, append_assoc], event,
    mem_append_left _ hmem, hid⟩

theorem RecordedSince.earlier (h : RecordedSince s₁ s₂ id) (h' : Extends s s₁) :
    RecordedSince s s₂ id := by
  obtain ⟨new, hnew, event, hmem, hid⟩ := h
  obtain ⟨more, hmore⟩ := h'.events
  exact ⟨more ++ new, by rw [hnew, ← hmore, append_assoc], event,
    mem_append_right _ hmem, hid⟩

theorem ReportedSince.later (h : ReportedSince s s₁ id) (h' : Extends s₁ s₂) :
    ReportedSince s s₂ id := by
  obtain ⟨new, hnew, phase, workers, error, hmem, hfailure⟩ := h
  obtain ⟨more, hmore⟩ := h'.observed
  exact ⟨new ++ more, by rw [← hmore, hnew, append_assoc], phase, workers, error,
    mem_append_left _ hmem, hfailure⟩

theorem ReportedSince.earlier (h : ReportedSince s₁ s₂ id) (h' : Extends s s₁) :
    ReportedSince s s₂ id := by
  obtain ⟨new, hnew, phase, workers, error, hmem, hfailure⟩ := h
  obtain ⟨more, hmore⟩ := h'.observed
  exact ⟨more ++ new, by rw [hnew, ← hmore, append_assoc], phase, workers, error,
    mem_append_right _ hmem, hfailure⟩

theorem Excused.earlier (h : Excused s₁ s₂ id) (h' : Extends s s₁) : Excused s s₂ id :=
  h.imp (·.earlier h') (·.earlier h')

/-- Nobody is excused by reports about others. -/
theorem Reports.of_excused {P : String → Prop} (h : Reports P s s₁) (hexcused : Excused s s₁ id) :
    P id := by
  rcases hexcused with ⟨new, hnew, event, hmem, rfl⟩ |
    ⟨new, hnew, phase, workers, error, hmem, failure, hfailure, -, rfl⟩
  · obtain ⟨events, hevents, hP⟩ := h.events
    rw [append_cancel_left (hevents.symm.trans hnew)] at hP
    exact hP event hmem
  · obtain ⟨observed, hobserved, hP⟩ := h.observed
    rw [append_cancel_left (hobserved.symm.trans hnew)] at hP
    exact hP phase workers error hmem failure hfailure

end Growing

section Recording

variable {worker : WorkerSpec} {s s' : RunnerState ε}

variable {reassignedTo : Option WorkerSpec} {failures : List FanoutFailure} {action : String}

/-- The phase goes on without a worker only if its failure was recorded. -/
theorem recordFailure_recorded {error failureClass : String}
    (h : recordFailure config worker error failureClass action reassignedTo s = (.ok (), s')) :
    RecordedSince s s' worker.id := by
  obtain ⟨_, _, ⟨⟩, hcount⟩ := bind_ok h
  have hreports : Reports (fun _ => True) _ s' :=
    within_countProfiledBudgetFailure.of_eq hcount
  have hrecorded : RecordedSince s { s with events := s.events ++ [⟨worker.id,
      worker.physicalWorkerId, failureClass, error, action, reassignedTo.map (·.id)⟩] } worker.id :=
    ⟨_, rfl, _, mem_singleton_self _, rfl⟩
  exact hrecorded.later hreports.extends

theorem recordProfiledWorkerFailure_recorded {error : String}
    (h : recordProfiledWorkerFailure env config worker error action reassignedTo s =
      (.ok true, s')) : RecordedSince s s' worker.id := by
  obtain ⟨evidence, s₁, hevidence, h⟩ := bind_ok h
  have hextends : Extends s s₁ := by
    simp only [apply_apply, Prod.mk.injEq] at hevidence
    obtain ⟨-, rfl⟩ := hevidence
    exact ⟨prefix_refl _, prefix_refl _⟩
  split at h
  · obtain ⟨_, s₂, hrecord, h⟩ := bind_ok h
    obtain ⟨-, rfl⟩ := pure_ok h
    exact (recordFailure_recorded hrecord).earlier hextends
  · split at h
    · obtain ⟨_, s₂, hrecord, h⟩ := bind_ok h
      obtain ⟨-, rfl⟩ := pure_ok h
      exact (recordFailure_recorded hrecord).earlier hextends
    · simp at h

theorem recordBatchOomFailures_recorded {dead : List WorkerSpec}
    (h : recordBatchOomFailures env config action reassignedTo failures s = (.ok (some dead), s')) :
    dead = failures.map (·.worker) ∧ ∀ worker ∈ dead, RecordedSince s s' worker.id := by
  induction failures generalizing s dead with
  | nil =>
    obtain ⟨hdead, rfl⟩ := pure_ok h
    cases hdead
    simp
  | cons failure failures ih =>
    obtain ⟨goesOn, s₁, hrecord, h⟩ := bind_ok h
    split at h
    · rename_i hgoesOn
      subst hgoesOn
      obtain ⟨rest, s₂, hrest, h⟩ := bind_ok h
      obtain ⟨hdead, rfl⟩ := pure_ok h
      obtain ⟨others, rfl, rfl⟩ := Option.map_eq_some_iff.mp hdead.symm
      obtain ⟨rfl, hothers⟩ := ih hrest
      have hfirst : Extends s s₁ := ((within_recordProfiledWorkerFailure
        (P := fun _ => True) trivial).of_eq hrecord).extends
      have hlast : Extends s₁ s' := ((within_recordBatchOomFailures
        (P := fun _ => True) fun _ _ => trivial).of_eq hrest).extends
      refine ⟨rfl, ?_⟩
      intro worker hmem
      rcases mem_cons.mp hmem with rfl | hmem
      · exact (recordProfiledWorkerFailure_recorded hrecord).later hlast
      · exact (hothers worker hmem).earlier hfirst
    · simp at h

theorem mem_onlyNotInGroup {notInGroup : List String}
    (h : onlyNotInGroup failures = some notInGroup) {id : String} (hid : id ∈ notInGroup) :
    ∃ failure ∈ failures, isNotInGroupError failure.error = true ∧ failure.worker.id = id := by
  unfold onlyNotInGroup at h
  simp only at h
  split at h
  · cases h
  cases h
  simp only [mem_eraseDups, mem_map, mem_filter] at hid
  obtain ⟨failure, ⟨hmem, herror⟩, rfl⟩ := hid
  exact ⟨failure, hmem, herror, rfl⟩

/-- A phase whose fan-out failed without being recorded goes on only in a resource sweep, and
only if all failed recipients are in no group. -/
theorem ok_of_onlyNotInGroup {error : RunnerError} {drop : List String → Phase ε Unit}
    (h : (match config.resourceSweep, onlyNotInGroup failures with
      | true, some notInGroup => drop notInGroup
      | _, _ => fail error) s = (.ok (), s')) :
    config.resourceSweep = true ∧
      ∃ notInGroup, onlyNotInGroup failures = some notInGroup ∧ drop notInGroup s = (.ok (), s') := by
  cases hsweep : config.resourceSweep with
  | false =>
    rw [hsweep] at h
    cases h
  | true =>
    cases honly : onlyNotInGroup failures with
    | none =>
      rw [hsweep, honly] at h
      cases h
    | some notInGroup =>
      rw [hsweep, honly] at h
      exact ⟨rfl, notInGroup, rfl, h⟩

end Recording

section Rounds

/-- What a round does: it keeps the active workers but those that are gone, fails, or starts
again with another live worker known to be dead. -/
inductive RoundOf (deadIds : List String) (s : RunnerState ε) :
    ((List String → Phase ε Unit) → Except RunnerError Unit × RunnerState ε) → Prop
  | keeps (s₁ : RunnerState ε) (gone : List String) (hreports : Reports (fun _ => True) s s₁)
      (hdead : ∀ id ∈ deadIds, id ∈ gone)
      (hgone : ∀ id ∈ gone, id ∈ deadIds ∨ Excused s s₁ id) :
      RoundOf deadIds s fun _ => (.ok (), { s₁ with active := s.active.filter (isLive gone) })
  | fails (s₁ : RunnerState ε) (error : RunnerError) (hreports : Reports (fun _ => True) s s₁) :
      RoundOf deadIds s fun _ => (.error error, s₁)
  | restarts (s₁ : RunnerState ε) (newDeadIds : List String)
      (hreports : Reports (fun _ => True) s s₁) (hnew : ∀ id ∈ newDeadIds, RecordedSince s s₁ id)
      (hlive : ∃ worker ∈ s.active, isLive deadIds worker = true ∧ worker.id ∈ newDeadIds) :
      RoundOf deadIds s fun again => again (newDeadIds ++ deadIds) s₁

variable {s s₁ : RunnerState ε} {deadIds newDeadIds : List String} {actor : WorkerSpec}

theorem isLive_append (newDeadIds : List String) :
    isLive (newDeadIds ++ deadIds) =
      fun worker => isLive deadIds worker && isLive newDeadIds worker := by
  funext worker
  simp [isLive, Bool.and_comm]

theorem roundOf_live (hreports : Reports (fun _ => True) s s₁) :
    RoundOf deadIds s fun _ => Phase.setActive (s.active.filter (isLive deadIds)) s₁ :=
  .keeps s₁ deadIds hreports (fun _ hid => hid) fun _ hid => .inl hid

theorem retryWithoutActor_round {active : List WorkerSpec} {error : RunnerError}
    (hreports : Reports (fun _ => True) s s₁) (hmem : actor ∈ s.active)
    (hlive : isLive deadIds actor = true) :
    RoundOf deadIds s fun again =>
      retryWithoutActor env config actor deadIds active error again s₁ := by
  unfold retryWithoutActor
  simp only [bind_apply]
  rcases hrecord : recordProfiledWorkerFailure env config actor error.text
      "evict_oom_eviction_actor_and_retry"
      (active.find? fun worker => worker.id != actor.id && isLive deadIds worker) s₁ with ⟨result, s₂⟩
  have hall := hreports.trans ((within_recordProfiledWorkerFailure trivial).of_eq hrecord)
  cases result with
  | error stop => exact .fails s₂ stop hall
  | ok goesOn =>
    cases goesOn with
    | false => exact .fails s₂ error hall
    | true =>
      refine .restarts s₂ [actor.id] hall ?_ ⟨actor, hmem, hlive, mem_singleton_self _⟩
      intro id hid
      obtain rfl := mem_singleton.mp hid
      exact (recordProfiledWorkerFailure_recorded hrecord).earlier hreports.extends

theorem reportedSince_of_commitFanout {phase operation : String} {workers : List WorkerSpec}
    {expected : WorkerSpec → ExpectedReceiveCommitState} {error : BatchFanoutError}
    (h : commitFanout env config phase operation workers expected s = (.ok (.error error), s₁))
    {notInGroup : List String} (hnotInGroup : onlyNotInGroup error.failures = some notInGroup)
    {id : String} (hid : id ∈ notInGroup) : ReportedSince s s₁ id := by
  obtain ⟨-, -, earlier, hobserved⟩ := commitFanout_error h
  exact ⟨_, by rw [hobserved, append_assoc], phase, workers, error, by simp,
    mem_onlyNotInGroup hnotInGroup hid⟩

theorem evictionFanout_round {expected : ExpectedGroupState}
    (hreports : Reports (fun _ => True) s s₁) :
    RoundOf deadIds s fun again =>
      evictionFanout env config actor deadIds s.active expected again s₁ := by
  unfold evictionFanout
  simp only [bind_apply]
  rcases hfanout : commitFanout env config "oom_eviction"
      (if config.processPendingFanout = true then "process_pending" else "receive_commit")
      (s.active.filter fun worker => worker.id != actor.id && isLive deadIds worker)
      (fun _ => .group expected) s₁ with ⟨fanout, s₂⟩
  have hall := hreports.trans ((within_commitFanout (fun _ _ => trivial)).of_eq hfanout)
  match fanout, hfanout with
  | .error stop, _ => exact .fails s₂ stop hall
  | .ok (.ok ()), _ => exact roundOf_live hall
  | .ok (.error batchError), hfanout =>
    simp only [andThen_ok, bind_apply]
    rcases hrecord : recordBatchOomFailures env config "evict_oom_eviction_recipient_and_retry"
        (some actor) batchError.failures s₂ with ⟨recorded, s₃⟩
    have hlater : Reports (fun _ => True) s₂ s₃ :=
      (within_recordBatchOomFailures (fun _ _ => trivial)).of_eq hrecord
    have hend := hall.trans hlater
    match recorded, hrecord with
    | .error stop, _ => exact .fails s₃ stop hend
    | .ok (some newDeadWorkers), hrecord =>
      obtain ⟨hrecipients, hne, -⟩ := commitFanout_error hfanout
      obtain ⟨hdead, hrecorded⟩ := recordBatchOomFailures_recorded hrecord
      refine .restarts s₃ (newDeadWorkers.map (·.id)) hend ?_ ?_
      · intro id hid
        obtain ⟨worker, hworker, rfl⟩ := mem_map.mp hid
        exact (hrecorded worker hworker).earlier hall.extends
      · -- one of the recipients has failed
        obtain ⟨failure, hfailure⟩ := exists_mem_of_ne_nil _ hne
        obtain ⟨worker, hworker, hid⟩ := hrecipients failure hfailure
        obtain ⟨hmem, hlive⟩ := mem_filter.mp hworker
        refine ⟨worker, hmem, (Bool.and_eq_true_iff.mp hlive).2, ?_⟩
        rw [hdead, hid]
        exact mem_map_of_mem (mem_map_of_mem hfailure)
    | .ok none, _ =>
      cases hsweep : config.resourceSweep with
      | false => exact .fails s₃ (.batch batchError) hend
      | true =>
        cases honly : onlyNotInGroup batchError.failures with
        | none => exact .fails s₃ (.batch batchError) hend
        | some notInGroup =>
          have hgone : ∀ id ∈ notInGroup ++ deadIds, id ∈ deadIds ∨ Excused s s₃ id := by
            intro id hid
            rcases mem_append.mp hid with hid | hid
            · have hsince := reportedSince_of_commitFanout hfanout honly hid
              exact .inr (.inr ((hsince.earlier hreports.extends).later hlater.extends))
            · exact .inl hid
          have hkeeps := RoundOf.keeps s₃ _ hend
            (fun id hid => mem_append_right notInGroup hid) hgone
          rw [isLive_append] at hkeeps
          exact hkeeps

variable (env config) in
theorem evictionRound_round {deadIds : List String} {s : RunnerState ε} :
    RoundOf deadIds s fun again => evictionRound env config again deadIds s := by
  unfold evictionRound
  have hactive : Phase.active s = (Except.ok s.active, s) := rfl
  simp only [bind_apply, hactive, andThen_ok]
  cases hactor : s.active.find? (isLive deadIds) with
  | none => exact .fails s _ ((reporting _).refl s)
  | some actor =>
    have hmem := mem_of_find?_eq_some hactor
    have hlive : isLive deadIds actor = true := find?_some hactor
    simp only [bind_apply, attempt_apply, andThen_ok]
    have hshown : Reports (fun _ => True) s (showGroupState env actor s).2 :=
      within_showGroupState s
    generalize showGroupState env actor s = shown at hshown ⊢
    cases shown.1 with
    | error error => exact retryWithoutActor_round hshown hmem hlive
    | ok actorBefore =>
      dsimp only
      split
      · exact roundOf_live hshown
      simp only [bind_apply, attempt_apply, andThen_ok]
      unfold publishRemoveMembersWithEpochRaceRecovery
      have hpublished : Reports (fun _ => True) s
          (publishRemoveMembers env config actor deadIds [1, 2, 3] shown.2).2 :=
        hshown.trans (within_publishRemoveMembers shown.2)
      generalize publishRemoveMembers env config actor deadIds [1, 2, 3] shown.2 = published
        at hpublished ⊢
      cases published.1 with
      | error error => exact retryWithoutActor_round hpublished hmem hlive
      | ok expected =>
        simp only [bind_apply, attempt_apply, andThen_ok]
        have hcommitted : Reports (fun _ => True) s
            (actorCommit env config actor expected "oom_eviction" published.2).2 :=
          hpublished.trans (within_actorCommit published.2)
        generalize actorCommit env config actor expected "oom_eviction" published.2 = committed
          at hcommitted ⊢
        cases committed.1 with
        | error error => exact retryWithoutActor_round hcommitted hmem hlive
        | ok done => exact evictionFanout_round hcommitted

/-- The active workers that are not known to be dead. -/
def liveCount (deadIds : List String) (s : RunnerState ε) : Nat :=
  (s.active.filter (isLive deadIds)).length

theorem liveCount_append_lt (hactive : s₁.active = s.active)
    (hlive : ∃ worker ∈ s.active, isLive deadIds worker = true ∧ worker.id ∈ newDeadIds) :
    liveCount (newDeadIds ++ deadIds) s₁ < liveCount deadIds s := by
  obtain ⟨worker, hmem, hlive, hdead⟩ := hlive
  have hsplit : s₁.active.filter (isLive (newDeadIds ++ deadIds)) =
      (s.active.filter (isLive deadIds)).filter (isLive newDeadIds) := by
    rw [hactive, filter_filter, isLive_append]
    exact filter_congr fun other _ => Bool.and_comm _ _
  unfold liveCount
  rw [hsplit]
  refine lt_of_le_of_ne (length_filter_le _ _) fun hlength => ?_
  have hnew := length_filter_eq_length_iff.mp hlength worker
    (mem_filter.mpr ⟨hmem, hlive⟩)
  simp [isLive, hdead] at hnew

variable {run : (List String → Phase ε Unit) → Except RunnerError Unit × RunnerState ε}
  {again again' : List String → Phase ε Unit}

theorem RoundOf.congr (h : RoundOf deadIds s run)
    (hagain : ∀ newDeadIds s₁, liveCount newDeadIds s₁ < liveCount deadIds s →
      again newDeadIds s₁ = again' newDeadIds s₁) : run again = run again' := by
  cases h with
  | keeps => rfl
  | fails => rfl
  | restarts s₁ newDeadIds hreports _ hlive =>
    exact hagain _ s₁ (liveCount_append_lt hreports.active hlive)

/-- What follows does not matter once there were more rounds than live workers. -/
theorem iterate_evictionRound (last : List String → Phase ε Unit) {rounds : Nat}
    (h : liveCount deadIds s < rounds) :
    (evictionRound env config)^[rounds] last deadIds s =
      evictionRounds env config rounds deadIds s := by
  induction rounds generalizing deadIds s with
  | zero => omega
  | succ rounds ih =>
    rw [Function.iterate_succ_apply', evictionRounds]
    refine (evictionRound_round env config).congr fun newDeadIds s₁ hlt => ih ?_
    omega

/-- An eviction has ended: exactly the workers that are gone have left the active list. -/
structure Retains (deadIds gone : List String) (s s' : RunnerState ε) : Prop where
  log : Extends s s'
  idle : s'.idle = s.idle
  active : s'.active = s.active.filter (isLive gone)
  dead : ∀ id ∈ deadIds, id ∈ gone
  excused : ∀ id ∈ gone, id ∈ deadIds ∨ Excused s s' id

variable {s' : RunnerState ε} {gone : List String}

/-- An eviction that goes on after reports, with more workers known to be dead. -/
theorem Retains.after (h : Retains (newDeadIds ++ deadIds) gone s₁ s')
    (hreports : Reports (fun _ => True) s s₁) (hnew : ∀ id ∈ newDeadIds, RecordedSince s s₁ id) :
    Retains deadIds gone s s' := by
  refine ⟨hreports.extends.trans h.log, h.idle.trans hreports.idle, hreports.active ▸ h.active,
    fun id hid => h.dead id (mem_append_right _ hid), ?_⟩
  intro id hid
  rcases h.excused id hid with hdead | hexcused
  · rcases mem_append.mp hdead with hrecorded | hdead
    · exact .inr (.inl ((hnew id hrecorded).later h.log))
    · exact .inl hdead
  · exact .inr (hexcused.earlier hreports.extends)

/-- How an eviction ends. -/
def Evicted (deadIds : List String) (s : RunnerState ε) :
    Except RunnerError Unit × RunnerState ε → Prop
  | (.ok (), s') => ∃ gone, Retains deadIds gone s s'
  | (.error _, s') => s'.active = s.active

theorem RoundOf.evicted (h : RoundOf deadIds s run)
    (hagain : ∀ deadIds s, Evicted deadIds s (again deadIds s)) : Evicted deadIds s (run again) := by
  cases h with
  | keeps s₁ gone hreports hdead hgone =>
    have hextends := hreports.extends
    exact ⟨gone, ⟨hextends.events, hextends.observed⟩, hreports.idle, rfl, hdead, hgone⟩
  | fails s₁ error hreports => exact hreports.active
  | restarts s₁ newDeadIds hreports hnew _ =>
    have hevicted := hagain (newDeadIds ++ deadIds) s₁
    dsimp only
    generalize again (newDeadIds ++ deadIds) s₁ = outcome at hevicted ⊢
    match outcome, hevicted with
    | (.ok (), s'), ⟨gone, hretains⟩ => exact ⟨gone, hretains.after hreports hnew⟩
    | (.error _, s'), hactive => exact Eq.trans hactive hreports.active

theorem evictionRounds_evicted (rounds : Nat) (deadIds : List String) (s : RunnerState ε) :
    Evicted deadIds s (evictionRounds env config rounds deadIds s) := by
  induction rounds generalizing deadIds s with
  | zero => exact rfl
  | succ rounds ih => exact (evictionRound_round env config).evicted ih

variable (env config) in
theorem evictOomGroupMembers_evicted (deadWorkers : List WorkerSpec) (s : RunnerState ε) :
    Evicted (deadWorkers.map (·.id)) s (evictOomGroupMembers env config deadWorkers s) := by
  unfold evictOomGroupMembers
  split
  · rename_i hempty
    obtain rfl := isEmpty_iff.mp hempty
    refine ⟨[], .refl s, rfl, ?_, by simp, by simp⟩
    exact (filter_eq_self.mpr fun worker _ => by simp [isLive]).symm
  · exact evictionRounds_evicted _ _ s

/-- An eviction ends within a round more than there are active workers, whatever another
round would do. If it succeeds, the active workers are those of before, in their order,
without the dead ones and without some that failed meanwhile or said that they are in no
group. If it fails, the active workers are those of before. -/
theorem evictOomGroupMembers_ends (env : RunnerEnvironment ε) (config : RunnerConfig)
    (deadWorkers : List WorkerSpec) (s : RunnerState ε) :
    (deadWorkers ≠ [] → ∀ last, evictOomGroupMembers env config deadWorkers s =
      (evictionRound env config)^[s.active.length + 1] last (deadWorkers.map (·.id)) s) ∧
    (∀ s', evictOomGroupMembers env config deadWorkers s = (.ok (), s') →
      ∃ gone : List String, s'.active = s.active.filter (fun worker => !gone.contains worker.id) ∧
        (∀ worker ∈ deadWorkers, worker.id ∈ gone) ∧
        ∀ id ∈ gone, id ∈ deadWorkers.map (·.id) ∨ RecordedSince s s' id ∨ ReportedSince s s' id) ∧
    ∀ error s', evictOomGroupMembers env config deadWorkers s = (.error error, s') →
      s'.active = s.active := by
  have hevicted := evictOomGroupMembers_evicted env config deadWorkers s
  refine ⟨fun hdead last => ?_, fun s' h => ?_, fun error s' h => ?_⟩
  · rw [iterate_evictionRound last (Nat.lt_succ_of_le (length_filter_le _ _))]
    unfold evictOomGroupMembers
    rw [if_neg (by simpa using hdead)]
    rfl
  · rw [h] at hevicted
    obtain ⟨gone, hretains⟩ := hevicted
    exact ⟨gone, hretains.active, fun worker hmem => hretains.dead _ (mem_map_of_mem hmem),
      hretains.excused⟩
  · rw [h] at hevicted
    exact hevicted

/-- Workers leave the active list only if they were known to be dead or are excused. -/
structure Evicts (deadIds : List String) (s s' : RunnerState ε) : Prop where
  log : Extends s s'
  idle : s'.idle = s.idle
  active : s'.active.Sublist s.active
  kept : ∀ worker ∈ s.active,
    worker ∈ s'.active ∨ worker.id ∈ deadIds ∨ Excused s s' worker.id

theorem Retains.evicts (h : Retains deadIds gone s s') : Evicts deadIds s s' := by
  refine ⟨h.log, h.idle, h.active ▸ filter_sublist, fun worker hmem => ?_⟩
  cases hlive : isLive gone worker with
  | true =>
    rw [h.active]
    exact .inl (mem_filter.mpr ⟨hmem, hlive⟩)
  | false =>
    have hgone : worker.id ∈ gone := by simpa [isLive] using hlive
    exact .inr (h.excused _ hgone)

theorem evictOomGroupMembers_evicts {deadWorkers : List WorkerSpec}
    (h : evictOomGroupMembers env config deadWorkers s = (.ok (), s')) :
    Evicts (deadWorkers.map (·.id)) s s' := by
  have hevicted := evictOomGroupMembers_evicted env config deadWorkers s
  rw [h] at hevicted
  obtain ⟨gone, hretains⟩ := hevicted
  exact hretains.evicts

end Rounds

end MessagingBench.Runner
