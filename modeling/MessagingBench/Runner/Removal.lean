import MessagingBench.Runner.Conservation

/-!
# Removing dead members of a quiet group

An actor that is up to date and answers every command, in a group where nobody else
commits, can remove the dead members at once. It does so if it sees all of them as
members. A dead id that is no member makes it catch up first, and since catching up
succeeds without changing anything, all attempts are spent that way.
-/

namespace MessagingBench.Runner

open List Worker

variable {ε : Type} {env : RunnerEnvironment ε} {config : RunnerConfig}

/-- The actor is up to date and commands succeed: as long as the group is quiet it shows the
same state, has nothing to process, and its removals are published. -/
structure UpToDate (env : RunnerEnvironment ε) (actor : WorkerSpec) (snapshot : GroupStateSnapshot)
    (quiet : ε → Prop) : Prop where
  shows : ∀ e, quiet e → (env.showGroupState actor e).1 = .ok snapshot ∧
    quiet (env.showGroupState actor e).2
  processes : ∀ e request, quiet e →
    request.command = .processPending (some [.commits]) (some 8) none →
    ∃ message, (env.send actor request e).1 = .ok ⟨"ok", message⟩ ∧
      containsText "process_pending processed;" message = true ∧ quiet (env.send actor request e).2
  removes : ∀ e request ids, quiet e → request.command = .removeMembers ids →
    ids ≠ [] → (∀ id ∈ ids, id ∈ snapshot.members) →
    ∃ message, (env.send actor request e).1 = .ok ⟨"ok", message⟩ ∧
      containsText "removed locally; group commit published" message = true

/-- The members that were removed by a command, if it was answered as published. -/
def removal : Observation → Option (WorkerSpec × List String)
  | .answered worker request (.ok response) =>
    match request.command with
    | .removeMembers ids =>
      if response.status = "ok" ∧
          containsText "removed locally; group commit published" response.message = true then
        some (worker, ids)
      else none
    | _ => none
  | _ => none

/-- The removals that were published between two states. -/
def PublishedSince (s s' : RunnerState ε) (removals : List (WorkerSpec × List String)) : Prop :=
  ∃ new, s'.observed = s.observed ++ new ∧ new.filterMap removal = removals

section Attempts

variable {actor : WorkerSpec} {snapshot : GroupStateSnapshot} {quiet : ε → Prop}
  {deadIds : List String} {s : RunnerState ε}

theorem showGroupState_upToDate (h : UpToDate env actor snapshot quiet) (hquiet : quiet s.env) :
    ∃ s', showGroupState env actor s = (.ok snapshot, s') ∧ quiet s'.env ∧
      s'.observed = s.observed ++ [.showed actor (.ok snapshot)] := by
  obtain ⟨hshown, hlater⟩ := h.shows s.env hquiet
  refine ⟨{ s with
    env := (env.showGroupState actor s.env).2
    observed := s.observed ++ [.showed actor (.ok snapshot)] }, ?_, hlater, rfl⟩
  simp [showGroupState, hshown]

theorem newRequest_ok (config : RunnerConfig) (worker : WorkerSpec) (command : Command)
    (epoch : Option Delivery.Epoch) (s : RunnerState ε) :
    ∃ request, newRequest config worker command epoch s =
      (.ok request, { s with requestCounter := s.requestCounter + 1 }) ∧
      request.command = command :=
  ⟨_, rfl, rfl⟩

theorem bestEffort_upToDate (h : UpToDate env actor snapshot quiet) (hquiet : quiet s.env) :
    ∃ message s', bestEffortProcessPendingCommitsAfterEpochRace env config actor s =
      (.ok (some message), s') ∧ quiet s'.env := by
  obtain ⟨request, hrequest, hcommand⟩ := newRequest_ok config actor
    (.processPending (some [.commits]) (some 8) none) none s
  obtain ⟨message, hsent, htext, hlater⟩ := h.processes s.env request hquiet hcommand
  refine ⟨message, { s with
    requestCounter := s.requestCounter + 1
    env := (env.send actor request s.env).2
    observed := s.observed ++ [.answered actor request (.ok ⟨"ok", message⟩)] }, ?_, hlater⟩
  simp [bestEffortProcessPendingCommitsAfterEpochRace, hrequest,
    sendCmdExpectOkFragmentWithContext, sendCommandWithContext, hsent, htext]

theorem publishRemoveMembers_visible (h : UpToDate env actor snapshot quiet) (hquiet : quiet s.env)
    (hmember : ∃ id ∈ deadIds, id ∈ snapshot.members)
    (hvisible : ∀ id ∈ deadIds, id ∈ snapshot.members) (attempt : Nat) (attempts : List Nat) :
    ∃ s', publishRemoveMembers env config actor deadIds (attempt :: attempts) s =
        (.ok (expectedGroupState snapshot (snapshot.epoch + 1)
          (snapshot.members.filter (!deadIds.contains ·))), s') ∧
      PublishedSince s s' [(actor, snapshot.members.filter (deadIds.contains ·))] := by
  obtain ⟨s₁, hshown, hquiet₁, hobserved⟩ := showGroupState_upToDate h hquiet
  have hmissing : deadIds.filter (!snapshot.members.contains ·) = [] := by
    simpa [filter_eq_nil_iff] using hvisible
  have hremoved : snapshot.members.filter (deadIds.contains ·) ≠ [] := by
    obtain ⟨id, hdead, hid⟩ := hmember
    exact ne_nil_of_mem (mem_filter.mpr ⟨hid, by simpa using hdead⟩)
  obtain ⟨request, hrequest, hcommand⟩ := newRequest_ok config actor
    (.removeMembers (snapshot.members.filter (deadIds.contains ·))) none s₁
  obtain ⟨message, hsent, htext⟩ := h.removes s₁.env request _ hquiet₁ hcommand hremoved
    fun id hid => (mem_filter.mp hid).1
  refine ⟨{ s₁ with
    requestCounter := s₁.requestCounter + 1
    env := (env.send actor request s₁.env).2
    observed := s₁.observed ++ [.answered actor request (.ok ⟨"ok", message⟩)] }, ?_,
      [.showed actor (.ok snapshot), .answered actor request (.ok ⟨"ok", message⟩)], ?_, ?_⟩
  · rw [publishRemoveMembers]
    simp only [Routine.bind_apply, hshown, Routine.andThen_ok, catchUp, hmissing,
      if_true, Routine.pure_apply, Option.isSome_none, Bool.false_eq_true, if_false,
      List.isEmpty_iff, hremoved, hrequest, sendCommandWithContext, Routine.apply_apply, hsent, htext,
      and_self]
  · rw [hobserved, append_assoc]
    rfl
  · have hpublished : removal (.answered actor request (.ok ⟨"ok", message⟩)) =
        some (actor, snapshot.members.filter (deadIds.contains ·)) := by
      simp only [removal, hcommand, htext, and_self, if_true]
    rw [filterMap_cons_none rfl, filterMap_cons_some hpublished, filterMap_nil]

/-- A dead id is no member: every attempt catches up and changes nothing. -/
theorem publishRemoveMembers_missing (h : UpToDate env actor snapshot quiet) (hquiet : quiet s.env)
    {id : String} (hdead : id ∈ deadIds) (hmissing : id ∉ snapshot.members) {attempts : List Nat} :
    ∃ s', publishRemoveMembers env config actor deadIds attempts s = (.error (.message
      "remove_members for OOM eviction kept losing the epoch race after 3 attempts"), s') := by
  induction attempts generalizing s with
  | nil => exact ⟨s, rfl⟩
  | cons attempt attempts ih =>
    obtain ⟨s₁, hshown, hquiet₁, -⟩ := showGroupState_upToDate h hquiet
    obtain ⟨message, s₂, hcaughtUp, hquiet₂⟩ :
        ∃ message s₂, bestEffortProcessPendingCommitsAfterEpochRace env config actor s₁ =
          (.ok (some message), s₂) ∧ quiet s₂.env := bestEffort_upToDate h hquiet₁
    obtain ⟨s', hattempts⟩ := ih hquiet₂
    have hne : (deadIds.filter (!snapshot.members.contains ·)).isEmpty = false := by
      rw [isEmpty_eq_false_iff]
      exact ne_nil_of_mem (mem_filter.mpr ⟨hdead, by simpa using hmissing⟩)
    refine ⟨s', ?_⟩
    rw [publishRemoveMembers]
    simp only [Routine.bind_apply, hshown, Routine.andThen_ok, catchUp, hne, Bool.false_eq_true,
      if_false, hcaughtUp, Option.isSome_some, if_true, hattempts]

/-- Dead members are removed exactly if all dead ids are members. -/
theorem publishRemoveMembers_iff (h : UpToDate env actor snapshot quiet) (hquiet : quiet s.env)
    (hmember : ∃ id ∈ deadIds, id ∈ snapshot.members) :
    (∃ s', publishRemoveMembersWithEpochRaceRecovery env config actor deadIds s =
        (.ok (expectedGroupState snapshot (snapshot.epoch + 1)
          (snapshot.members.filter (!deadIds.contains ·))), s') ∧
      PublishedSince s s' [(actor, snapshot.members.filter (deadIds.contains ·))]) ↔
      ∀ id ∈ deadIds, id ∈ snapshot.members := by
  constructor
  · rintro ⟨s', hok, -⟩ id hdead
    by_contra hmissing
    obtain ⟨s'', herror⟩ := publishRemoveMembers_missing h hquiet hdead hmissing
    cases hok.symm.trans herror
  · intro hvisible
    exact publishRemoveMembers_visible h hquiet hmember hvisible 1 [2, 3]

end Attempts

section Quiet

/-- The group of alice and carol, in which nothing happens but what alice does. -/
def aliceAndCarolShown : GroupStateSnapshot := ⟨"group", 1, ["alice", "carol"]⟩

def quietGroup : RunnerEnvironment Unit where
  toEnvironment := leftAlone.toEnvironment
  send _ request e :=
    (.ok ⟨"ok", match request.command with
      | .processPending _ _ _ => "process_pending processed; commits=0"
      | .removeMembers _ => "members removed locally; group commit published"
      | _ => ""⟩, e)
  oomEvidence _ e := (false, e)
  expired e := (false, e)
  random _ e := (0, e)

theorem quietGroup_upToDate : UpToDate quietGroup alice aliceAndCarolShown fun _ => True := by
  refine ⟨fun _ _ => ⟨rfl, trivial⟩, fun e request _ hcommand => ?_,
    fun e request ids _ hcommand _ _ => ?_⟩
  · refine ⟨"process_pending processed; commits=0", ?_, by decide +kernel, trivial⟩
    simp only [quietGroup, hcommand]
  · refine ⟨"members removed locally; group commit published", ?_, by decide +kernel⟩
    simp only [quietGroup, hcommand]

/-- Carol is removed if she is the only dead worker. -/
theorem publishRemoveMembers_carol :
    ∃ s', publishRemoveMembersWithEpochRaceRecovery quietGroup sweep alice ["carol"] aliceAndCarol =
        (.ok (expectedGroupState aliceAndCarolShown 2
          (aliceAndCarolShown.members.filter fun id => !contains ["carol"] id)), s') ∧
      PublishedSince aliceAndCarol s'
        [(alice, aliceAndCarolShown.members.filter (contains ["carol"] ·))] :=
  (publishRemoveMembers_iff quietGroup_upToDate trivial ⟨"carol", by decide, by decide⟩).mpr
    (by decide)

/-- Carol is not removed if bob, who never joined, is dead as well. -/
theorem publishRemoveMembers_carolAndBob :
    UpToDate quietGroup alice aliceAndCarolShown (fun _ => True) ∧
      "carol" ∈ aliceAndCarolShown.members ∧
      (publishRemoveMembersWithEpochRaceRecovery quietGroup sweep alice ["carol", "bob"]
        aliceAndCarol).1 = .error (.message
          "remove_members for OOM eviction kept losing the epoch race after 3 attempts") :=
  ⟨quietGroup_upToDate, by decide, by decide +kernel⟩

end Quiet

end MessagingBench.Runner
