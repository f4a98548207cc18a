import MessagingBench.Runner.Evicting

/-!
# No worker is lost

While members are added, nobody drops out of both the idle queue and the active list without
a reason: a failure of its own in the log, or its own report that it is in no group. One exit
breaks this: when the fan-out fails because recipients are in no group, the workers that have
just joined are not made active.
-/

namespace MessagingBench.Runner

open List Routine

variable {ε : Type} {env : RunnerEnvironment ε} {config : RunnerConfig}

/-- Workers with different ids, each active or idle. -/
def Distinct (s : RunnerState ε) : Prop := ((s.active ++ s.idle).map (·.id)).Nodup

/-- Active and idle workers are still distinct, and everybody is still active or idle
unless excused. -/
structure Conserves (s s' : RunnerState ε) : Prop where
  distinct : Distinct s'
  kept : ∀ worker ∈ s.active ++ s.idle, worker ∈ s'.active ++ s'.idle ∨ Excused s s' worker.id

section Joining

variable {s s' : RunnerState ε} {actor : WorkerSpec}

/-- Some of the joiners are kept, the failures of the others are recorded, and of nobody
else. -/
structure Selects (joiners kept lost : List WorkerSpec) (s s' : RunnerState ε) : Prop where
  perm : (kept ++ lost).Perm joiners
  reports : Reports (· ∈ lost.map (·.id)) s s'
  recorded : ∀ worker ∈ lost, RecordedSince s s' worker.id

variable {joiner : WorkerSpec} {joiners kept lost : List WorkerSpec} {s₁ s₂ : RunnerState ε}

theorem selects_nil (s : RunnerState ε) : Selects [] [] [] s s :=
  ⟨.nil, (reporting _).refl s, by simp⟩

/-- A joiner that succeeded before the others were tried. -/
theorem Selects.keep (hfirst : Reports (fun _ => False) s s₁) (h : Selects joiners kept lost s₁ s') :
    Selects (joiner :: joiners) (joiner :: kept) lost s s' :=
  ⟨h.perm.cons joiner, (hfirst.mono fun _ => False.elim).trans h.reports,
    fun worker hmem => (h.recorded worker hmem).earlier hfirst.extends⟩

theorem Selects.lose (hfirst : Reports (fun _ => False) s s₁) {error action : String}
    (hrecord : recordProfiledWorkerFailure env config joiner error action (some actor) s₁ =
      (.ok true, s₂)) (h : Selects joiners kept lost s₂ s') :
    Selects (joiner :: joiners) kept (joiner :: lost) s s' := by
  have hsecond : Reports (· ∈ (joiner :: lost).map (·.id)) s₁ s₂ :=
    (within_recordProfiledWorkerFailure (by simp)).of_eq hrecord
  have hfirst' : Reports (· ∈ (joiner :: lost).map (·.id)) s s₁ := hfirst.mono fun _ => False.elim
  refine ⟨(perm_middle.trans (h.perm.cons joiner)),
    (hfirst'.trans hsecond).trans (h.reports.mono fun id hid => ?_), ?_⟩
  · exact mem_cons_of_mem _ hid
  · intro worker hmem
    rcases mem_cons.mp hmem with rfl | hmem
    · exact ((recordProfiledWorkerFailure_recorded hrecord).earlier hfirst.extends).later
        h.reports.extends
    · exact (h.recorded worker hmem).earlier (hfirst'.trans hsecond).extends

theorem prepareJoiners_selects (h : prepareJoiners env config actor joiners s = (.ok kept, s')) :
    ∃ lost, Selects joiners kept lost s s' := by
  induction joiners generalizing s kept with
  | nil =>
    obtain ⟨rfl, rfl⟩ := pure_ok h
    exact ⟨[], selects_nil _⟩
  | cons joiner joiners ih =>
    obtain ⟨result, s₁, hsent, h⟩ := bind_ok h
    have hfirst : Reports (fun _ => False) s s₁ :=
      within_sendCmdExpectOkFragment.of_eq (attempt_ok hsent)
    cases result with
    | ok message =>
      obtain ⟨rest, s₂, hrest, h⟩ := bind_ok h
      obtain ⟨rfl, rfl⟩ := pure_ok h
      obtain ⟨lost, hselects⟩ := ih hrest
      exact ⟨lost, hselects.keep hfirst⟩
    | error error =>
      obtain ⟨goesOn, s₂, hrecord, h⟩ := bind_ok h
      cases goesOn with
      | false => cases h
      | true =>
        obtain ⟨lost, hselects⟩ := ih h
        exact ⟨joiner :: lost, hselects.lose hfirst hrecord⟩

theorem joinJoiners_selects (h : joinJoiners env config actor joiners s = (.ok (kept, lost), s')) :
    Selects joiners kept lost s s' := by
  induction joiners generalizing s kept lost with
  | nil =>
    obtain ⟨hnil, rfl⟩ := pure_ok h
    cases hnil
    exact selects_nil _
  | cons joiner joiners ih =>
    obtain ⟨result, s₁, hsent, h⟩ := bind_ok h
    have hfirst : Reports (fun _ => False) s s₁ :=
      within_sendCmdUntilOk.of_eq (attempt_ok hsent)
    cases result with
    | ok message =>
      obtain ⟨⟨joined, failed⟩, s₂, hrest, h⟩ := bind_ok h
      obtain ⟨hresult, rfl⟩ := pure_ok h
      cases hresult
      exact (ih hrest).keep hfirst
    | error error =>
      obtain ⟨goesOn, s₂, hrecord, h⟩ := bind_ok h
      cases goesOn with
      | false => cases h
      | true =>
        obtain ⟨⟨joined, failed⟩, s₃, hrest, h⟩ := bind_ok h
        obtain ⟨hresult, rfl⟩ := pure_ok h
        cases hresult
        exact (ih hrest).lose hfirst hrecord

end Joining

section Taking

/-- Workers have left the idle queue: some are kept for an addition, and the failures of the
others are recorded. Otherwise only active workers were reported. -/
structure Takes (kept lost : List WorkerSpec) (s s' : RunnerState ε) : Prop where
  idle : ∃ taken, s.idle = taken ++ s'.idle ∧ (kept ++ lost).Perm taken
  reports : Reports (· ∈ (s.active ++ lost).map (·.id)) { s with idle := s'.idle } s'
  recorded : ∀ worker ∈ lost, RecordedSince s s' worker.id

variable {kept lost : List WorkerSpec} {s s₁ s' : RunnerState ε}

theorem Takes.active (h : Takes kept lost s s') : s'.active = s.active := h.reports.active

theorem Takes.extends (h : Takes kept lost s s') : Extends s s' :=
  ⟨h.reports.extends.events, h.reports.extends.observed⟩

/-- A change that reports active workers only. -/
theorem Takes.report (h : Takes kept lost s s₁) (hreports : Reports (· ∈ s.active.map (·.id)) s₁ s') :
    Takes kept lost s s' := by
  refine ⟨hreports.idle ▸ h.idle, ?_, fun worker hmem =>
    (h.recorded worker hmem).later hreports.extends⟩
  have hlater : Reports (· ∈ (s.active ++ lost).map (·.id)) s₁ s' := hreports.mono fun id hid => by
    rw [map_append]
    exact mem_append_left _ hid
  exact hreports.idle ▸ h.reports.trans hlater

theorem Takes.select {failed joined : List WorkerSpec} (h : Takes kept lost s s₁)
    (hselects : Selects kept joined failed s₁ s') : Takes joined (failed ++ lost) s s' := by
  have hreports := hselects.reports
  obtain ⟨taken, hidle, hperm⟩ := h.idle
  refine ⟨⟨taken, hreports.idle ▸ hidle, ?_⟩, ?_, ?_⟩
  · rw [← append_assoc]
    exact (hselects.perm.append_right lost).trans hperm
  · have hearlier : Reports (· ∈ (s.active ++ (failed ++ lost)).map (·.id)) _ s₁ :=
      h.reports.mono fun id hid => by simp only [map_append, mem_append] at hid ⊢; tauto
    have hlater : Reports (· ∈ (s.active ++ (failed ++ lost)).map (·.id)) s₁ s' :=
      hreports.mono fun id hid => by simp only [map_append, mem_append]; tauto
    exact hreports.idle ▸ hearlier.trans hlater
  · intro worker hmem
    rcases mem_append.mp hmem with hmem | hmem
    · exact (hselects.recorded worker hmem).earlier h.extends
    · exact (h.recorded worker hmem).later hreports.extends

theorem Takes.perm (h : Takes kept lost s s') :
    (s'.active ++ kept ++ s'.idle ++ lost).Perm (s.active ++ s.idle) := by
  obtain ⟨taken, hidle, hperm⟩ := h.idle
  rw [h.active, hidle, append_assoc, append_assoc]
  refine Perm.append_left _ (Perm.trans ?_ (hperm.append_right _))
  rw [append_assoc]
  exact Perm.append_left _ perm_append_comm

theorem Takes.nodup (h : Takes kept lost s s') (hdistinct : Distinct s) :
    ((s'.active ++ kept ++ s'.idle ++ lost).map (·.id)).Nodup :=
  (h.perm.map _).nodup_iff.mpr hdistinct

/-- Nobody is lost if what is active and idle in the end comes from the active, the kept and
the idle workers, and those that are missing are excused. -/
theorem Takes.conserves (h : Takes kept lost s s₁) (hdistinct : Distinct s) (hlater : Extends s₁ s')
    (hnow : (s'.active ++ s'.idle).Sublist (s₁.active ++ kept ++ s₁.idle))
    (hkept : ∀ worker ∈ s₁.active ++ kept ++ s₁.idle,
      worker ∈ s'.active ++ s'.idle ∨ Excused s s' worker.id) : Conserves s s' := by
  refine ⟨?_, ?_⟩
  · have hnodup := h.nodup hdistinct
    rw [map_append] at hnodup
    exact (nodup_append.mp hnodup).1.sublist (hnow.map _)
  · intro worker hmem
    rcases mem_append.mp (h.perm.mem_iff.mpr hmem) with hmem | hmem
    · exact hkept worker hmem
    · exact .inr (.inl ((h.recorded worker hmem).later hlater))

/-- Nothing was reported about the workers that are kept. -/
theorem Takes.not_excused (h : Takes kept lost s s') (hdistinct : Distinct s) {worker : WorkerSpec}
    (hkept : worker ∈ kept) : ¬ Excused s s' worker.id := by
  intro hexcused
  have hid : worker.id ∈ (s.active ++ lost).map (·.id) := h.reports.of_excused hexcused
  have hnodup := h.nodup hdistinct
  simp only [map_append, nodup_append, mem_append, h.active] at hid hnodup
  have hmem : worker.id ∈ kept.map (·.id) := mem_map_of_mem hkept
  rcases hid with hid | hid
  · exact hnodup.1.1.2.2 _ hid _ hmem rfl
  · exact hnodup.2.2 _ (.inl (.inr hmem)) _ hid rfl

end Taking

section Adding

variable {s s₁ s' : RunnerState ε} {actor : WorkerSpec} {joiners lost : List WorkerSpec}
  {progress : AddProgress} {forcedActorId : Option String} {batchSize actorIndex : Nat}

theorem addActorFailed_conserves (hdistinct : Distinct s) (htakes : Takes joiners lost s s₁)
    {error : RunnerError} {action : String}
    (h : addActorFailed env config actor joiners error action s₁ = (.ok (), s')) :
    Conserves s s' := by
  obtain ⟨_, _, ⟨⟩, h⟩ := bind_ok h
  obtain ⟨goesOn, s₃, hrecord, h⟩ := bind_ok h
  have hreports : Reports (fun _ => True) s₁ s₃ :=
    (within_recordProfiledWorkerFailure trivial).of_eq hrecord
  split at h
  · rename_i hgoesOn
    subst hgoesOn
    obtain ⟨_, _, ⟨⟩, h⟩ := bind_ok h
    have hevicts := evictOomGroupMembers_evicts h
    have hlater : Extends s₁ s' :=
      hreports.extends.trans ⟨hevicts.log.events, hevicts.log.observed⟩
    have hidle : s'.idle = joiners ++ s₁.idle :=
      hevicts.idle.trans (congrArg (joiners ++ ·) hreports.idle)
    have hactive : s'.active.Sublist s₁.active := hreports.active ▸ hevicts.active
    refine htakes.conserves hdistinct hlater ?_ ?_
    · rw [hidle, ← append_assoc]
      exact (hactive.append_right _).append_right _
    intro worker hmem
    rw [append_assoc, mem_append] at hmem
    rcases hmem with hmem | hmem
    · rcases hevicts.kept worker (by rw [hreports.active]; exact hmem) with hkept | hid | hexcused
      · exact .inl (mem_append_left _ hkept)
      · rcases mem_cons.mp hid with hid | hid
        · have hrecorded := recordProfiledWorkerFailure_recorded hrecord
          rw [hid]
          exact .inr (.inl ((hrecorded.earlier htakes.extends).later
            ⟨hevicts.log.events, hevicts.log.observed⟩))
        · -- a joiner is not active
          have hnodup := htakes.nodup hdistinct
          simp only [map_append, nodup_append] at hnodup
          exact absurd rfl (hnodup.1.1.2.2 _ (mem_map_of_mem hmem) _ hid)
      · have hextends : Extends s s₃ := htakes.extends.trans hreports.extends
        exact .inr (hexcused.earlier ⟨hextends.events, hextends.observed⟩)
    · rw [hidle]
      exact .inl (mem_append_right _ hmem)
  · cases h

/-- The joiners become active, and workers whose failures are recorded are evicted. -/
theorem addJoined_conserves {joined failed : List WorkerSpec} (hdistinct : Distinct s)
    (htakes : Takes joined lost s s₁) (hfailed : ∀ worker ∈ failed, RecordedSince s s₁ worker.id)
    (h : addJoined env config joined failed s₁ = (.ok (), s')) : Conserves s s' := by
  obtain ⟨_, _, ⟨⟩, h⟩ := bind_ok h
  have hevicts := evictOomGroupMembers_evicts h
  have hlater : Extends s₁ s' := ⟨hevicts.log.events, hevicts.log.observed⟩
  refine htakes.conserves hdistinct hlater ?_ ?_
  · rw [hevicts.idle]
    exact hevicts.active.append_right _
  intro worker hmem
  rcases mem_append.mp hmem with hmem | hmem
  · rcases hevicts.kept worker hmem with hkept | hid | hexcused
    · exact .inl (mem_append_left _ hkept)
    · obtain ⟨other, hother, hid⟩ := mem_map.mp hid
      exact .inr (.inl (hid ▸ (hfailed other hother).later hlater))
    · exact .inr (hexcused.earlier ⟨htakes.extends.events, htakes.extends.observed⟩)
  · exact .inl (mem_append_right _ (by rw [hevicts.idle]; exact hmem))

/-- An addition after its fan-out. -/
structure FannedOut (joined failed : List WorkerSpec) (result : Except BatchFanoutError Unit)
    (s s' : RunnerState ε) : Prop where
  takes : ∃ lost, Takes joined lost s s'
  failed : ∀ worker ∈ failed, RecordedSince s s' worker.id
  failures : ∀ error, result = .error error → FailsAtRecipients s.active error.failures
  reported : ∀ error notInGroup, result = .error error →
    onlyNotInGroup error.failures = some notInGroup → ∀ id ∈ notInGroup, ReportedSince s s' id

/-- Where an addition stands that has come to its fan-out or ended before. -/
def Stands (s s' : RunnerState ε) : AddProgress → Prop
  | .finished => Conserves s s'
  | .fannedOut _ joined failed result => FannedOut joined failed result s s'

theorem fannedOut_of_commitFanout {joined failed recipients : List WorkerSpec}
    {phase operation : String} {expected : WorkerSpec → ExpectedReceiveCommitState}
    {result : Except BatchFanoutError Unit} (htakes : Takes joined (failed ++ lost) s s₁)
    (hrecipients : ∀ worker ∈ recipients, worker ∈ s.active)
    (h : commitFanout env config phase operation recipients expected s₁ = (.ok result, s')) :
    FannedOut joined failed result s s' := by
  have hreports : Reports (· ∈ s.active.map (·.id)) s₁ s' :=
    (within_commitFanout (fun worker hmem => mem_map_of_mem (hrecipients worker hmem))).of_eq h
  refine ⟨⟨_, htakes.report hreports⟩, ?_, ?_, ?_⟩
  · intro worker hmem
    exact (htakes.recorded worker (mem_append_left _ hmem)).later hreports.extends
  · rintro error rfl failure hmem
    obtain ⟨worker, hworker, hid⟩ := (commitFanout_error h).1 failure hmem
    exact ⟨worker, hrecipients worker hworker, hid⟩
  · rintro error notInGroup rfl honly id hid
    exact (reportedSince_of_commitFanout h honly hid).earlier htakes.extends

theorem chooseAddActor_mem
    (h : chooseAddActor env forcedActorId s = (.ok (actorIndex, actor), s')) :
    actor ∈ s.active := by
  obtain ⟨_, _, ⟨⟩, h⟩ := bind_ok h
  obtain ⟨index, s₂, -, h⟩ := bind_ok h
  cases hget : s.active[index]? with
  | none =>
    rw [hget] at h
    cases h
  | some chosen =>
    rw [hget] at h
    cases h
    exact mem_of_getElem? hget

variable (env config) in
/-- How an addition gets to its fan-out, or ends before it. -/
inductive AddRun (batchSize : Nat) (s s' : RunnerState ε) : AddProgress → Prop
  | nobodyLeft {lost : List WorkerSpec} (htakes : Takes [] lost s s')
      (hlength : lost.length = batchSize) : AddRun batchSize s s' .finished
  | actorFailed {s₁ : RunnerState ε} {actor : WorkerSpec} {joiners lost : List WorkerSpec}
      {error : RunnerError} {action : String} (htakes : Takes joiners lost s s₁)
      (hlength : (joiners ++ lost).length = batchSize) (hactor : actor ∈ s.active)
      (hfailed : addActorFailed env config actor joiners error action s₁ = (.ok (), s')) :
      AddRun batchSize s s' .finished
  | fannedOut {s₁ : RunnerState ε} {actor : WorkerSpec}
      {joined failed lost recipients : List WorkerSpec} {phase operation : String} {expected : WorkerSpec → ExpectedReceiveCommitState}
      {result : Except BatchFanoutError Unit} (htakes : Takes joined (failed ++ lost) s s₁)
      (hlength : (joined ++ (failed ++ lost)).length = batchSize)
      (hrecipients : ∀ worker ∈ recipients, worker ∈ s.active)
      (hfanout : commitFanout env config phase operation recipients expected s₁ =
        (.ok result, s')) :
      AddRun batchSize s s' (.fannedOut actor joined failed result)

theorem addPrepared_run (htakes : Takes joiners lost s s₁)
    (hlength : (joiners ++ lost).length = batchSize) (hactor : actor ∈ s.active)
    (h : addPrepared env config actorIndex actor joiners s₁ = (.ok progress, s')) :
    AddRun env config batchSize s s' progress := by
  obtain ⟨actorBefore, s₂, hshown, h⟩ := bind_ok h
  have htakes := htakes.report (within_showGroupState.of_eq hshown)
  obtain ⟨request, s₃, hrequest, h⟩ := bind_ok h
  have htakes := htakes.report (within_newRequest.of_eq hrequest)
  obtain ⟨sent, s₄, hsent, h⟩ := bind_ok h
  have htakes := htakes.report (within_sendCmdExpectOkFragmentWithContext.of_eq
    (attempt_ok hsent))
  cases sent with
  | error error =>
    obtain ⟨_, s₅, hfailed, h⟩ := bind_ok h
    obtain ⟨rfl, rfl⟩ := pure_ok h
    exact .actorFailed htakes hlength hactor hfailed
  | ok message =>
    obtain ⟨committed, s₅, hcommitted, h⟩ := bind_ok h
    have htakes := htakes.report (within_actorCommit.of_eq
      (attempt_ok hcommitted))
    cases committed with
    | error error =>
      obtain ⟨_, s₆, hfailed, h⟩ := bind_ok h
      obtain ⟨rfl, rfl⟩ := pure_ok h
      exact .actorFailed htakes hlength hactor hfailed
    | ok committed =>
      obtain ⟨⟨joined, failed⟩, s₆, hjoined, h⟩ := bind_ok h
      have hselects := joinJoiners_selects hjoined
      have htakes := htakes.select hselects
      obtain ⟨_, _, ⟨⟩, h⟩ := bind_ok h
      obtain ⟨result, s₈, hfanout, h⟩ := bind_ok h
      obtain ⟨rfl, rfl⟩ := pure_ok h
      refine .fannedOut htakes ?_ (fun worker hmem => ?_) hfanout
      · rw [← hlength, ← append_assoc, length_append, hselects.perm.length_eq,
          length_append]
      · rw [← htakes.active]
        exact (eraseIdx_sublist _ _).subset hmem

theorem addUntilFanout_run
    (h : addUntilFanout env config batchSize forcedActorId s = (.ok progress, s')) :
    0 < batchSize ∧ AddRun env config batchSize s s' progress := by
  obtain ⟨_, _, ⟨⟩, h⟩ := bind_ok h
  split at h
  · cases h
  split at h
  · cases h
  rename_i hpositive
  split at h
  · cases h
  rename_i hidle
  refine ⟨Nat.pos_of_ne_zero hpositive, ?_⟩
  obtain ⟨⟨actorIndex, actor⟩, s₁, hchosen, h⟩ := bind_ok h
  have hreports : Reports (· ∈ s.active.map (·.id)) s s₁ := within_chooseAddActor.of_eq hchosen
  have hactor := chooseAddActor_mem hchosen
  obtain ⟨_, _, ⟨⟩, h⟩ := bind_ok h
  obtain ⟨joiners, s₃, hprepared, h⟩ := bind_ok h
  have htakes : Takes (s.idle.take batchSize) [] s { s₁ with idle := s.idle.drop batchSize } := by
    refine ⟨⟨_, (take_append_drop batchSize _).symm, by simp⟩, ?_, by simp⟩
    exact ⟨hreports.active, rfl, by simpa using hreports.events, by simpa using hreports.observed⟩
  obtain ⟨lost, hselects⟩ := prepareJoiners_selects hprepared
  have htakes := htakes.select hselects
  have hlength : (joiners ++ (lost ++ [])).length = batchSize := by
    rw [append_nil, hselects.perm.length_eq, length_take,
      Nat.min_eq_left (Nat.le_of_not_lt hidle)]
  split at h
  · rename_i hempty
    obtain ⟨rfl, rfl⟩ := pure_ok h
    obtain rfl := isEmpty_iff.mp hempty
    exact .nobodyLeft htakes hlength
  · exact addPrepared_run htakes hlength hactor h

theorem AddRun.stands (hdistinct : Distinct s)
    (h : AddRun env config batchSize s s' progress) : Stands s s' progress := by
  cases h with
  | nobodyLeft htakes _ =>
    refine htakes.conserves hdistinct (.refl _) (by simp) fun worker hmem => .inl ?_
    simpa using hmem
  | actorFailed htakes _ _ hfailed => exact addActorFailed_conserves hdistinct htakes hfailed
  | fannedOut htakes _ hrecipients hfanout =>
    exact fannedOut_of_commitFanout htakes hrecipients hfanout

theorem addUntilFanout_stands (hdistinct : Distinct s)
    (h : addUntilFanout env config batchSize forcedActorId s = (.ok progress, s')) :
    Stands s s' progress :=
  (addUntilFanout_run h).2.stands hdistinct

end Adding

section Forgetting

variable (env config)

/-- The addition ends by dropping recipients that are in no group, after others have joined:
a resource sweep whose fan-out failed at nobody else and without all failures being
recorded. -/
def forgetsJoined (batchSize : Nat) (forcedActorId : Option String) (s : RunnerState ε) : Bool :=
  match addUntilFanout env config batchSize forcedActorId s with
  | (.ok (.fannedOut actor joined _ (.error batchError)), s₁) =>
    match recordBatchOomFailures env config "evict_add_recipient_and_retry" (some actor)
        batchError.failures s₁ with
    | (.ok none, _) => !joined.isEmpty && config.resourceSweep &&
        (onlyNotInGroup batchError.failures).isSome
    | _ => false
  | _ => false

variable {env config}
variable {batchSize : Nat} {forcedActorId : Option String} {s s₁ s' : RunnerState ε}
  {actor : WorkerSpec} {joined failed : List WorkerSpec} {batchError : BatchFanoutError}

/-- The failures of the fan-out are recorded, or an attempt is made to. -/
theorem FannedOut.record {result : Except BatchFanoutError Unit}
    (h : FannedOut joined failed result s s₁) (hresult : result = .error batchError)
    {action : String} {reassignedTo : Option WorkerSpec}
    {dead : Except RunnerError (Option (List WorkerSpec))}
    (hrecord : recordBatchOomFailures env config action reassignedTo batchError.failures s₁ =
      (dead, s')) : Reports (· ∈ s.active.map (·.id)) s₁ s' := by
  refine (within_recordBatchOomFailures (fun failure hmem => ?_)).of_eq hrecord
  obtain ⟨worker, hworker, hid⟩ := h.failures batchError hresult failure hmem
  exact hid ▸ mem_map_of_mem hworker

theorem conserves_of_fannedOut (hdistinct : Distinct s)
    (hfanned : FannedOut joined failed (.error batchError) s s₁)
    (hkept : forgetsJoined env config batchSize forcedActorId s = false)
    (huntil : addUntilFanout env config batchSize forcedActorId s =
      (.ok (.fannedOut actor joined failed (.error batchError)), s₁))
    (h : addAfterFanout env config (.fannedOut actor joined failed (.error batchError)) s₁ =
      (.ok (), s')) : Conserves s s' := by
  obtain ⟨dead, s₂, hrecord, h⟩ := bind_ok h
  have hreports := hfanned.record rfl hrecord
  obtain ⟨lost, htakes⟩ := hfanned.takes
  have htakes := htakes.report hreports
  cases dead with
  | some deadWorkers =>
    refine addJoined_conserves hdistinct htakes (fun worker hmem => ?_) h
    rcases mem_append.mp hmem with hmem | hmem
    · exact (hfanned.failed worker hmem).later hreports.extends
    · have hrecorded := (recordBatchOomFailures_recorded hrecord).2 worker hmem
      obtain ⟨_, htakes⟩ := hfanned.takes
      exact hrecorded.earlier htakes.extends
  | none =>
    obtain ⟨hsweep, notInGroup, honly, h⟩ := ok_of_onlyNotInGroup h
    obtain rfl := modify_ok h
    have hjoined : joined = [] := by
      simpa [forgetsJoined, huntil, hrecord, hsweep, honly] using hkept
    subst hjoined
    refine htakes.conserves hdistinct ⟨prefix_refl _, prefix_refl _⟩ ?_ ?_
    · simp
    intro worker hmem
    rw [append_nil, mem_append] at hmem
    rcases hmem with hmem | hmem
    · cases hdropped : notInGroup.contains worker.id with
      | false =>
        exact .inl (mem_append_left _ (mem_filter.mpr ⟨hmem, by rw [hdropped]; rfl⟩))
      | true =>
        have hreported := hfanned.reported batchError notInGroup rfl honly worker.id
          (contains_iff_mem.mp hdropped)
        exact .inr (.inr (hreported.later ⟨hreports.extends.events, hreports.extends.observed⟩))
    · exact .inl (mem_append_right _ hmem)

theorem conserves_of_not_forgetsJoined (hdistinct : Distinct s)
    (hkept : forgetsJoined env config batchSize forcedActorId s = false)
    (h : addNMembers env config batchSize forcedActorId s = (.ok (), s')) : Conserves s s' := by
  obtain ⟨progress, s₁, huntil, h⟩ := bind_ok h
  have hstands := addUntilFanout_stands hdistinct huntil
  cases progress with
  | finished =>
    obtain ⟨-, rfl⟩ := pure_ok h
    exact hstands
  | fannedOut actor joined failed result =>
    cases result with
    | ok result =>
      obtain ⟨lost, htakes⟩ := hstands.takes
      exact addJoined_conserves hdistinct htakes hstands.failed h
    | error batchError => exact conserves_of_fannedOut hdistinct hstands hkept huntil h

/-- A worker that has joined is neither active nor idle in the end. -/
theorem lost_of_forgetsJoined (hdistinct : Distinct s)
    (hforgets : forgetsJoined env config batchSize forcedActorId s = true) :
    ∃ s', addNMembers env config batchSize forcedActorId s = (.ok (), s') ∧
      ∃ worker ∈ s.idle, worker ∉ s'.active ++ s'.idle ∧ ¬Excused s s' worker.id := by
  unfold forgetsJoined at hforgets
  split at hforgets
  · rename_i actor joined failed batchError s₁ huntil
    split at hforgets
    · rename_i s₂ hrecord
      simp only [Bool.and_eq_true, Bool.not_eq_true', isEmpty_eq_false_iff,
        Option.isSome_iff_exists] at hforgets
      obtain ⟨⟨hne, hsweep⟩, notInGroup, honly⟩ := hforgets
      have hfanned : FannedOut joined failed (.error batchError) s s₁ :=
        addUntilFanout_stands hdistinct huntil
      obtain ⟨lost, htakes⟩ := hfanned.takes
      have htakes := htakes.report (hfanned.record rfl hrecord)
      obtain ⟨worker, hworker⟩ := exists_mem_of_ne_nil joined hne
      have hnodup := htakes.nodup hdistinct
      simp only [map_append, nodup_append] at hnodup
      have hid : worker.id ∈ joined.map (·.id) := mem_map_of_mem hworker
      refine ⟨{ s₂ with active := s₂.active.filter (!notInGroup.contains ·.id) }, ?_, worker, ?_, ?_,
        fun hexcused => htakes.not_excused hdistinct hworker hexcused⟩
      · simp [addNMembers, huntil, addAfterFanout, hrecord, hsweep, honly]
      · obtain ⟨taken, hidle, hperm⟩ := htakes.idle
        rw [hidle]
        exact mem_append_left _ (hperm.mem_iff.mp (mem_append_left _ hworker))
      · intro hmem
        rcases mem_append.mp hmem with hmem | hmem
        · exact hnodup.1.1.2.2 _ (mem_map_of_mem (mem_filter.mp hmem).1) _ hid rfl
        · exact hnodup.1.2.2 _ (mem_append_right _ hid) _ (mem_map_of_mem hmem) rfl
    · cases hforgets
  · cases hforgets

/-- Every addition that ends well conserves the workers, unless it forgets those that have
joined. -/
theorem addNMembers_conserves_iff (hdistinct : Distinct s) :
    (∀ s', addNMembers env config batchSize forcedActorId s = (.ok (), s') → Conserves s s') ↔
      forgetsJoined env config batchSize forcedActorId s = false := by
  constructor
  · intro h
    cases hforgets : forgetsJoined env config batchSize forcedActorId s with
    | false => rfl
    | true =>
      obtain ⟨s', hok, worker, hidle, hlost, hexcused⟩ := lost_of_forgetsJoined hdistinct hforgets
      exact ((h s' hok).kept worker (mem_append_right _ hidle)).elim
        (absurd · hlost) (absurd · hexcused)
  · intro hkept s' h
    exact conserves_of_not_forgetsJoined hdistinct hkept h

end Forgetting

section Sweep

def alice : WorkerSpec :=
  ⟨"alice", "http://worker-0:8080/client/alice", "worker-0", .packed, false, ""⟩

def carol : WorkerSpec :=
  ⟨"carol", "http://worker-2:8080/client/carol", "worker-2", .packed, false, ""⟩

/-- Commands succeed, but nobody but alice shows a group and receives commits. -/
def leftAlone : RunnerEnvironment Unit where
  complete posted e := (.answered posted ⟨"error", "Client is not in a group"⟩, e)
  showGroupState worker e :=
    (if worker = alice then .ok ⟨"group", 1, ["alice", "carol"]⟩
      else .error "Client is not in a group", e)
  send worker request e :=
    (.ok ⟨"ok", match request.command with
      | .generateKeyPackage => "key package uploaded for " ++ worker.id
      | .addMembers _ => "members added locally in one commit"
      | .receiveCommit => "own commit accepted from DS"
      | _ => worker.id ++ " joined from welcome"⟩, e)
  oomEvidence _ e := (false, e)
  expired e := (false, e)
  random _ e := (0, e)

/-- A resource sweep that stops after its first failure. -/
def sweep : RunnerConfig := ⟨"1", true, 1, false⟩

def aliceAndCarol : RunnerState Unit := ⟨(), [alice, carol], [bob], [], [], 0, []⟩

/-- Bob joins and is forgotten. -/
theorem addNMembers_forgets_bob :
    ∃ s', addNMembers leftAlone sweep 1 none aliceAndCarol = (.ok (), s') ∧
      bob ∉ s'.active ++ s'.idle ∧ ¬Conserves aliceAndCarol s' := by
  obtain ⟨s', hok, worker, hidle, hlost, hexcused⟩ := lost_of_forgetsJoined
    (s := aliceAndCarol) (by simp [Distinct, aliceAndCarol, alice, bob, carol])
    (show forgetsJoined leftAlone sweep 1 none aliceAndCarol = true from by decide +kernel)
  obtain rfl : worker = bob := mem_singleton.mp hidle
  refine ⟨s', hok, hlost, fun h => ?_⟩
  exact (h.kept _ (mem_append_right _ hidle)).elim (absurd · hlost) (absurd · hexcused)

/-- Without a resource sweep nobody is forgotten. -/
theorem addNMembers_conserves_plateau :
    Distinct aliceAndCarol ∧ ∀ s', addNMembers leftAlone ⟨"1", true, 0, false⟩ 1 none aliceAndCarol =
      (.ok (), s') → Conserves aliceAndCarol s' :=
  have hdistinct : Distinct aliceAndCarol := by simp [Distinct, aliceAndCarol, alice, bob, carol]
  ⟨hdistinct, (addNMembers_conserves_iff hdistinct).mpr (by decide +kernel)⟩

end Sweep

end MessagingBench.Runner
