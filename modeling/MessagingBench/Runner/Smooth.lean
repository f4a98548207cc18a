import MessagingBench.Runner.Observing
import MessagingBench.Runner.Shrinking

/-!
# Runs in which no worker command fails

A run is smooth if every command was answered in time with the text of success, every group
state was shown and is the expected one, and every fan-out reached all its recipients. In a
smooth run the phases return, and move exactly the workers they are meant to move.
-/

namespace MessagingBench.Runner

open List Routine Worker

variable {ε α : Type} {env : RunnerEnvironment ε} {config : RunnerConfig}

/-- The text in the answer to a command that has succeeded. -/
def okFragment (worker : WorkerSpec) : Command → String
  | .generateKeyPackage => "key package uploaded for " ++ worker.id
  | .addMembers _ => "added locally in one commit"
  | .joinFromWelcome => worker.id ++ " joined from welcome"
  | .removeMembers _ => "removed locally; group commit published"
  | .receiveCommit => "own commit accepted from DS"
  | .processPending _ _ _ => "process_pending processed;"
  | _ => ""

def Observation.succeeded : Observation → Bool
  | .answered worker request (.ok response) => response.status == "ok" &&
      containsText (okFragment worker request.command) response.message
  | .answered _ _ (.error _) => false
  | .timedOut _ => false
  | .showed _ result => result.isOk
  | .compared _ _ reached => reached
  | .fannedOut _ _ result => result.isOk

/-- Everything that was observed between two states is a success. -/
def Smooth (s s' : RunnerState ε) : Prop :=
  ∃ new, s'.observed = s.observed ++ new ∧ ∀ observation ∈ new, observation.succeeded = true

/-- Log and observations only grow. -/
def logging : Frame (RunnerState ε) := ⟨Extends, .refl, .trans⟩

def smooth : Condition (logging : Frame (RunnerState ε)) where
  holds := Smooth
  split := by
    intro s₁ s₂ s₃ hfirst hsecond ⟨new, hnew, hsucceeded⟩
    obtain ⟨before, hbefore⟩ := hfirst.observed
    obtain ⟨after, hafter⟩ := hsecond.observed
    rw [← hafter, ← hbefore, append_assoc] at hnew
    obtain rfl := append_cancel_left hnew
    exact ⟨⟨before, hbefore.symm, fun o ho => hsucceeded o (mem_append_left _ ho)⟩,
      ⟨after, hafter.symm, fun o ho => hsucceeded o (mem_append_right _ ho)⟩⟩

def Lists (active idle : List WorkerSpec) (s : RunnerState ε) : Prop :=
  s.active = active ∧ s.idle = idle

theorem within_logging {x : Phase ε α} (h : Within (reporting fun _ => True) x) :
    Within logging x :=
  fun s => (h s).extends

theorem Smooth.succeeded {s : RunnerState ε} {e : ε} {observation : Observation}
    (h : Smooth s { s with env := e, observed := s.observed ++ [observation] }) :
    observation.succeeded = true := by
  obtain ⟨new, hnew, hsucceeded⟩ := h
  exact hsucceeded observation (append_cancel_left hnew ▸ mem_singleton_self _)

section Commands

variable {active idle : List WorkerSpec} {worker : WorkerSpec} {state : ExpectedGroupState}
  {expected : ExpectedReceiveCommitState} {phase fragment : String} {epoch : Option Delivery.Epoch}

/-- Code that only reports leaves the workers where they are. -/
theorem completes_of_reports {x : Phase ε α} {φ : α → Prop}
    (hx : Within (reporting fun _ => True) x)
    (hok : ∀ s, Smooth s (x s).2 → ∃ a, (x s).1 = .ok a ∧ φ a) :
    Completes smooth (Lists active idle) x fun a s => Lists active idle s ∧ φ a := by
  refine ⟨within_logging hx, fun s hs hsmooth => ?_⟩
  obtain ⟨a, ha, hφ⟩ := hok s hsmooth
  exact ⟨a, ha, ⟨(hx s).active.trans hs.1, (hx s).idle.trans hs.2⟩, hφ⟩

theorem completes_newRequest {command : Command} :
    Completes smooth (Lists active idle) (newRequest config worker command epoch : Phase ε _)
      fun request s => Lists active idle s ∧ request.command = command :=
  completes_of_reports within_newRequest
    fun _ _ => ⟨_, rfl, rfl⟩

theorem completes_sendCommandWithContext {request : CommandRequest} :
    Completes smooth (Lists active idle) (sendCommandWithContext env worker request)
      fun response s => Lists active idle s ∧ response.status = "ok" ∧
        containsText (okFragment worker request.command) response.message = true := by
  refine completes_of_reports
    within_sendCommandWithContext fun s hsmooth => ?_
  unfold sendCommandWithContext at hsmooth ⊢
  rw [bind_apply, apply_apply, andThen_ok] at hsmooth ⊢
  cases hsent : (env.send worker request s.env).1 with
  | error error =>
    rw [hsent] at hsmooth
    exact absurd hsmooth.succeeded (by simp [Observation.succeeded])
  | ok response =>
    rw [hsent] at hsmooth
    have hsucceeded := hsmooth.succeeded
    simp only [Observation.succeeded, Bool.and_eq_true, beq_iff_eq] at hsucceeded
    exact ⟨response, rfl, hsucceeded⟩

theorem completes_sendCmdExpectOkFragmentWithContext {request : CommandRequest} :
    Completes smooth (fun s => Lists active idle s ∧ okFragment worker request.command = fragment)
      (sendCmdExpectOkFragmentWithContext env worker request fragment)
      fun _ => Lists active idle := by
  refine ⟨within_logging within_sendCmdExpectOkFragmentWithContext, fun s ⟨hs, hfragment⟩ hsmooth => ?_⟩
  subst hfragment
  refine (completes_sendCommandWithContext.bind
    fun response => ?_).ok s hs hsmooth
  refine ⟨?_, fun s hs _ => ?_⟩
  · split
    · exact .pure _
    · exact .fail _
  · rw [if_pos hs.2]
    exact ⟨_, rfl, hs.1⟩

theorem completes_showGroupState :
    Completes smooth (Lists active idle) (showGroupState env worker)
      fun _ => Lists active idle := by
  refine (completes_of_reports within_showGroupState
    fun s hsmooth => ?_).imp (fun _ hs => hs) (fun _ _ (hs : _ ∧ True) => hs.1)
  unfold showGroupState at hsmooth ⊢
  rw [bind_apply, apply_apply, andThen_ok] at hsmooth ⊢
  cases hshown : (env.showGroupState worker s.env).1 with
  | error text =>
    rw [hshown] at hsmooth
    exact absurd hsmooth.succeeded (by simp [Observation.succeeded, Except.isOk, Except.toBool])
  | ok snapshot => exact ⟨snapshot, rfl, trivial⟩

/-- A comparison that was successful. -/
theorem completes_compared {reached : Bool} :
    Completes smooth (Lists active idle) (modify fun s : RunnerState ε =>
        { s with observed := s.observed ++ [.compared worker expected reached] } : Phase ε Unit)
      fun _ s => Lists active idle s ∧ reached = true :=
  completes_of_reports
    (.modify fun s => reports_observed (by simp)) fun _ hsmooth =>
      ⟨(), rfl, hsmooth.succeeded⟩

theorem completes_expectReached {label : String} :
    Completes smooth (Lists active idle) (expectReached env worker (.group state) label)
      fun _ => Lists active idle := by
  refine Completes.bind (completes_showGroupState.attempt_bind
    (fun _ => .pure fun _ hs => hs) fun _ => within_logging within_fail)
    fun reached => completes_compared.bind fun _ => ?_
  cases reached with
  | true => exact .pure fun s hs => hs.1
  | false => exact .unreached (within_logging within_fail) (by simp)

/-- The run goes on after a new request, whose failure is not reached. -/
theorem completes_request {command : Command}
    {next : CommandRequest → Except RunnerError String → Phase ε α} {R : α → RunnerState ε → Prop}
    (hfragment : okFragment worker command = fragment)
    (hok : ∀ request message, Completes smooth (Lists active idle) (next request (.ok message)) R)
    (herror : ∀ request error, Within logging (next request (.error error))) :
    Completes smooth (Lists active idle) (newRequest config worker command epoch >>= fun request =>
      attempt (sendCmdExpectOkFragmentWithContext env worker request fragment) >>=
        next request) R :=
  completes_newRequest.bind fun request =>
    (completes_sendCmdExpectOkFragmentWithContext.weaken
      fun s hs => ⟨hs.1, by rw [hs.2, hfragment]⟩).attempt_bind (hok request) (herror request)

theorem completes_receiveCommitExpect :
    Completes smooth (Lists active idle)
      (receiveCommitExpect env config worker "own commit accepted from DS" expected phase)
      fun _ => Lists active idle :=
  completes_request rfl (fun _ _ => .pure fun _ hs => hs) fun _ _ =>
    within_logging within_receiveCommitAfterError

theorem completes_processPendingCommitExpect :
    Completes smooth (Lists active idle)
      (processPendingCommitExpect env config worker (.group state) phase)
      fun _ => Lists active idle :=
  completes_request rfl
    (fun _ _ => completes_expectReached) fun _ _ =>
      within_logging within_processPendingAfterError

theorem completes_actorCommit :
    Completes smooth (Lists active idle) (actorCommit env config worker state phase)
      fun _ => Lists active idle := by
  unfold actorCommit
  split
  · exact completes_processPendingCommitExpect
  · exact completes_receiveCommitExpect

/-- A repeated command succeeds at once. -/
theorem completes_sendCmdUntilOk {command : Command} {retryable : String} {rounds : Nat} :
    Completes smooth (Lists active idle) (sendCmdUntilOk env config worker command
        (okFragment worker command) retryable (rounds + 1)) fun _ => Lists active idle := by
  have hexpired : Completes smooth (Lists active idle) (expired env worker)
      fun isExpired s => Lists active idle s ∧ isExpired = false := by
    refine completes_of_reports within_expired
      fun s hsmooth => ⟨_, rfl, ?_⟩
    cases hexpired : (env.expired s.env).1 with
    | false => rfl
    | true =>
      simp only [expired, apply_apply, hexpired, if_true] at hsmooth
      exact absurd hsmooth.succeeded (by simp [Observation.succeeded])
  refine ⟨within_logging within_sendCmdUntilOk,
    fun s hs hsmooth => ?_⟩
  refine (hexpired.bind fun isExpired => ?_).ok s hs hsmooth
  cases isExpired with
  | true => exact .unreached (within_logging within_fail) (by simp)
  | false =>
    refine Completes.bind (completes_newRequest.weaken
      fun s hs => hs.1) fun request => ?_
    refine Completes.bind (Q := fun response s => Lists active idle s ∧ response.status = "ok" ∧
      containsText (okFragment worker command) response.message = true) ?_ fun response => ?_
    · refine ⟨within_logging within_sendCommandWithContext,
        fun s ⟨hs, hcommand⟩ hsmooth => ?_⟩
      rw [← hcommand]
      exact completes_sendCommandWithContext.ok s hs hsmooth
    · refine ⟨?_, fun s hs _ => ?_⟩
      · split
        · exact .pure _
        · split
          · exact within_logging within_sendCmdUntilOk
          · exact .fail _
      · rw [if_pos hs.2]
        exact ⟨_, rfl, hs.1⟩

end Commands

section Fanouts

variable {active idle : List WorkerSpec} {epoch : WorkerSpec → Option Delivery.Epoch}

theorem completes_batchCommands {command : WorkerSpec → Command} {group : List WorkerSpec} :
    Completes smooth (Lists active idle) (batchCommands config command epoch group : Phase ε _)
      fun _ => Lists active idle := by
  induction group with
  | nil => exact .pure fun _ hs => hs
  | cons worker group ih =>
    exact (completes_newRequest.imp (fun _ hs => hs)
      fun _ _ hs => hs.1).bind fun _ => ih.bind fun _ => .pure fun _ hs => hs

theorem completes_buildBatchCommands {command : WorkerSpec → Command}
    {groups : List (String × List WorkerSpec)} :
    Completes smooth (Lists active idle)
      (buildBatchCommands config command epoch groups : Phase ε _) fun _ => Lists active idle := by
  induction groups with
  | nil => exact .pure fun _ hs => hs
  | cons group groups ih =>
    exact completes_batchCommands.bind fun _ => ih.bind fun _ =>
      .pure fun _ hs => hs

theorem completes_commitFanout {phase operation : String} {recipients : List WorkerSpec}
    {expected : WorkerSpec → ExpectedReceiveCommitState} :
    Completes smooth (Lists active idle)
      (commitFanout env config phase operation recipients expected)
      fun result s => Lists active idle s ∧ result = .ok () := by
  refine completes_buildBatchCommands.bind fun batches => ?_
  refine completes_of_reports
    (within_runBatchFanout fun _ _ => trivial) fun s hsmooth =>
      ⟨_, rfl, ?_⟩
  have hsucceeded := hsmooth.succeeded
  simp only [Observation.succeeded] at hsucceeded
  cases hresult : fanoutResult phase operation (fanout env.toEnvironment recipients
      (some fun id => (workersById recipients id).map expected) batches s.env).1 with
  | ok result => exact hresult
  | error error =>
    rw [hresult] at hsucceeded
    cases hsucceeded

end Fanouts

section Evicting

theorem within_setActive {active : List WorkerSpec} :
    Within logging (Phase.setActive active : Phase ε Unit) :=
  .modify fun _ => ⟨prefix_refl _, prefix_refl _⟩

variable {actor : WorkerSpec} {deadIds : List String} {active : List WorkerSpec}
  {again : List String → Phase ε Unit}

theorem within_logging_record {worker : WorkerSpec} {error decision : String}
    {actor : Option WorkerSpec} :
    Within logging (recordProfiledWorkerFailure env config worker error decision actor) :=
  within_logging (within_recordProfiledWorkerFailure trivial)

theorem within_retryWithoutActor {error : RunnerError}
    (hagain : ∀ deadIds, Within logging (again deadIds)) :
    Within logging (retryWithoutActor env config actor deadIds active error again) := by
  refine .bind within_logging_record fun goesOn => ?_
  split
  · exact hagain _
  · exact .fail _

theorem within_evictionFanout {expected : ExpectedGroupState}
    (hagain : ∀ deadIds, Within logging (again deadIds)) :
    Within logging (evictionFanout env config actor deadIds active expected again) := by
  refine .bind (within_logging (within_commitFanout fun _ _ => trivial)) fun result => ?_
  cases result with
  | ok result => exact within_setActive
  | error batchError =>
    refine .bind (within_logging (within_recordBatchOomFailures fun _ _ => trivial)) fun dead => ?_
    cases dead with
    | some newDeadWorkers => exact hagain _
    | none =>
      dsimp only
      split
      · exact within_setActive
      · exact .fail _

theorem within_evictionRounds {rounds : Nat} {deadIds : List String} :
    Within logging (evictionRounds env config rounds deadIds) := by
  induction rounds generalizing deadIds with
  | zero => exact .fail _
  | succ rounds ih =>
    refine .bind (within_logging within_active) fun active => ?_
    cases active.find? (isLive deadIds) with
    | none => exact .fail _
    | some actor =>
      refine .bind (.attempt (within_logging within_showGroupState))
        fun shown => ?_
      cases shown with
      | error error => exact within_retryWithoutActor fun _ => ih
      | ok actorBefore =>
        dsimp only
        split
        · exact within_setActive
        refine .bind (.attempt (within_logging within_publishRemoveMembers)) fun published => ?_
        cases published with
        | error error => exact within_retryWithoutActor fun _ => ih
        | ok expected =>
          refine .bind (.attempt (within_logging within_actorCommit)) fun committed => ?_
          cases committed with
          | error error => exact within_retryWithoutActor fun _ => ih
          | ok committed => exact within_evictionFanout fun _ => ih

theorem within_evictOomGroupMembers {deadWorkers : List WorkerSpec} :
    Within logging (evictOomGroupMembers env config deadWorkers) := by
  unfold evictOomGroupMembers
  split
  · exact .pure ()
  · exact .bind (within_logging within_active) fun _ => within_evictionRounds

end Evicting

section Adding

variable {active idle joiners : List WorkerSpec} {actor : WorkerSpec} {forcedActorId : Option String}
  {batchSize : Nat}

theorem completes_active : Completes smooth (Lists active idle) (Phase.active : Phase ε _)
    fun workers s => Lists active idle s ∧ workers = active :=
  ⟨within_logging within_active, fun s hs _ => ⟨s.active, rfl, hs, hs.1⟩⟩

theorem completes_genRange {bound : Nat} :
    Completes smooth (Lists active idle) (Phase.genRange env bound)
      fun n s => Lists active idle s ∧ (0 < bound → n < bound) :=
  ⟨within_logging within_genRange, fun _ hs _ =>
    ⟨_, rfl, hs, Nat.mod_lt _⟩⟩

theorem completes_chooseAddActor (hactive : active ≠ []) :
    Completes smooth (Lists active idle) (chooseAddActor env forcedActorId)
      fun _ => Lists active idle := by
  have hpositive : 0 < active.length := length_pos_iff.mpr hactive
  refine completes_active.bind fun workers => ?_
  refine Completes.bind (Q := fun index s => Lists active idle s ∧ index < active.length ∧
    workers = active) ?_ fun index => ?_
  · unfold addActorIndex
    split
    · rename_i index hindex
      refine .pure fun s ⟨hs, hworkers⟩ => ⟨hs, ?_, hworkers⟩
      obtain ⟨id, -, hfound⟩ := Option.bind_eq_some_iff.mp hindex
      rw [← hworkers]
      exact (findIdx?_eq_some_iff_getElem.mp hfound).1
    · exact (completes_genRange.keep _).imp (fun _ hs => hs)
        fun index s hs => ⟨hs.1.1, hs.2 ▸ hs.1.2 (hs.2 ▸ hpositive), hs.2⟩
  · refine ⟨?_, fun s hs _ => ?_⟩
    · split
      · exact .pure _
      · exact .fail _
    · obtain ⟨hs, hindex, rfl⟩ := hs
      rw [getElem?_eq_getElem hindex]
      exact ⟨_, rfl, hs⟩

/-- No joiner fails. -/
theorem completes_prepareJoiners :
    Completes smooth (Lists active idle) (prepareJoiners env config actor joiners)
      fun prepared s => Lists active idle s ∧ prepared = joiners := by
  induction joiners with
  | nil => exact .pure fun s hs => ⟨hs, rfl⟩
  | cons joiner joiners ih =>
    refine Completes.attempt_bind (Q := fun _ => Lists active idle) ?_ (fun _ => ih.bind fun rest =>
      .pure fun s hs => ⟨hs.1, by rw [hs.2]⟩) fun error =>
        .bind within_logging_record fun goesOn => ?_
    · exact completes_newRequest.bind fun request =>
        completes_sendCmdExpectOkFragmentWithContext.weaken
          fun s hs => ⟨hs.1, by rw [hs.2]; rfl⟩
    · split
      · exact ih.within
      · exact .fail _

theorem completes_joinJoiners :
    Completes smooth (Lists active idle) (joinJoiners env config actor joiners)
      fun result s => Lists active idle s ∧ result = (joiners, []) := by
  induction joiners with
  | nil => exact .pure fun s hs => ⟨hs, rfl⟩
  | cons joiner joiners ih =>
    refine completes_sendCmdUntilOk.attempt_bind
      (fun _ => ih.bind fun rest => .pure fun s hs => ⟨hs.1, by rw [hs.2]⟩) fun error =>
        .bind within_logging_record fun goesOn => ?_
    split
    · exact .bind ih.within fun _ => .pure _
    · exact .fail _

theorem within_addActorFailed {error : RunnerError} {action : String} :
    Within logging (addActorFailed env config actor joiners error action) := by
  refine .bind (within_logging within_active) fun active =>
    .bind within_logging_record fun goesOn => ?_
  split
  · exact .bind (.modify fun _ => ⟨prefix_refl _, prefix_refl _⟩) fun _ =>
      within_evictOomGroupMembers
  · exact .fail _

theorem completes_addPrepared {actorIndex : Nat} :
    Completes smooth (Lists active idle) (addPrepared env config actorIndex actor joiners)
      fun progress s => Lists active idle s ∧
        progress = .fannedOut actor joiners [] (.ok ()) := by
  refine completes_showGroupState.bind fun actorBefore =>
    completes_request rfl (fun _ _ => ?_) fun _ error =>
      .bind within_addActorFailed fun _ => .pure _
  refine completes_actorCommit.attempt_bind (fun _ => ?_) fun error =>
    .bind within_addActorFailed fun _ => .pure _
  refine completes_joinJoiners.bind fun result =>
    (completes_active.keep _).bind fun workers =>
      ((completes_commitFanout.keep _).weaken fun s hs =>
        ⟨hs.1.1, hs.2⟩).bind fun fannedOut => .pure fun s hs => ⟨hs.1.1, ?_⟩
  rw [hs.1.2, hs.2]

theorem completes_addBatch
    (hactive : active ≠ []) (hpositive : 0 < batchSize) (hidle : batchSize ≤ idle.length) :
    Completes smooth (Lists active idle) (addBatch env config batchSize forcedActorId idle)
      fun progress s => Lists active (idle.drop batchSize) s ∧
        ∃ actor, progress = .fannedOut actor (idle.take batchSize) [] (.ok ()) := by
  refine (completes_chooseAddActor hactive).bind fun chosen =>
    Completes.bind (Q := fun _ => Lists active (idle.drop batchSize))
      (.modify (fun _ => ⟨prefix_refl _, prefix_refl _⟩) fun s hs => ⟨hs.1, rfl⟩)
      fun _ => completes_prepareJoiners.bind fun joiners => ?_
  cases joiners with
  | nil =>
    refine .unreached (.pure _) fun s hs => ?_
    have hlength := congrArg length hs.2
    rw [length_nil, length_take] at hlength
    omega
  | cons joiner joiners =>
    exact (completes_addPrepared.keep _).imp (fun s hs => hs)
      fun progress s hs => ⟨hs.1.1, chosen.2, by rw [hs.1.2, hs.2]⟩

theorem within_addBatch {idle : List WorkerSpec} :
    Within logging (addBatch env config batchSize forcedActorId idle) := by
  refine .bind (within_logging within_chooseAddActor) fun chosen =>
    .bind (.modify fun _ => ⟨prefix_refl _, prefix_refl _⟩) fun _ =>
      .bind (@completes_prepareJoiners _ _ _ [] [] _ _).within fun joiners => ?_
  split
  · exact .pure _
  · exact (@completes_addPrepared _ _ _ [] [] _ _ _).within

theorem within_addUntilFanout :
    Within logging (addUntilFanout env config batchSize forcedActorId) := by
  refine .bind .get fun s => ?_
  split
  · exact .fail _
  split
  · exact .fail _
  split
  · exact .fail _
  · exact within_addBatch

theorem completes_addUntilFanout
    (hactive : active ≠ []) (hpositive : 0 < batchSize) (hidle : batchSize ≤ idle.length) :
    Completes smooth (Lists active idle) (addUntilFanout env config batchSize forcedActorId)
      fun progress s => Lists active (idle.drop batchSize) s ∧
        ∃ actor, progress = .fannedOut actor (idle.take batchSize) [] (.ok ()) := by
  refine ⟨within_addUntilFanout, fun s hs hsmooth => ?_⟩
  have heq : addUntilFanout env config batchSize forcedActorId s =
      addBatch env config batchSize forcedActorId idle s := by
    simp only [addUntilFanout, bind_apply, get_apply, andThen_ok, hs.1,
      hs.2, List.isEmpty_iff, hactive, if_false, Nat.ne_of_gt hpositive, Nat.not_lt.mpr hidle]
  rw [heq] at hsmooth ⊢
  exact (completes_addBatch hactive hpositive hidle).ok s hs hsmooth

theorem within_addJoined {joined failed : List WorkerSpec} :
    Within logging (addJoined env config joined failed : Phase ε Unit) :=
  .bind (.modify fun _ => ⟨prefix_refl _, prefix_refl _⟩) fun _ =>
    within_evictOomGroupMembers

theorem within_addAfterFanout {progress : AddProgress} :
    Within logging (addAfterFanout env config progress) := by
  cases progress with
  | finished => exact .pure ()
  | fannedOut actor joined failed result =>
    cases result with
    | ok result => exact within_addJoined
    | error batchError =>
      refine .bind (within_logging (within_recordBatchOomFailures fun _ _ => trivial)) fun dead => ?_
      cases dead with
      | some deadWorkers => exact within_addJoined
      | none =>
        dsimp only
        split
        · exact .modify fun _ => ⟨prefix_refl _, prefix_refl _⟩
        · exact .fail _

/-- In a smooth run the first idle workers become active. -/
theorem completes_addNMembers
    (hactive : active ≠ []) (hpositive : 0 < batchSize) (hidle : batchSize ≤ idle.length) :
    Completes smooth (Lists active idle) (addNMembers env config batchSize forcedActorId)
      fun _ => Lists (active ++ idle.take batchSize) (idle.drop batchSize) := by
  refine (completes_addUntilFanout hactive hpositive hidle).bind
    fun progress => ⟨within_addAfterFanout, fun s hs _ => ?_⟩
  obtain ⟨hs, actor, rfl⟩ := hs
  exact ⟨(), rfl, congrArg (· ++ _) hs.1, hs.2⟩

end Adding

section Choosing

variable {active idle : List WorkerSpec} {values : List α}

theorem completes_shuffleFrom {position : Nat} :
    Completes smooth (Lists active idle)
      ((Phase.generator env).shuffleFrom position values : Phase ε _)
      fun shuffled s => Lists active idle s ∧ shuffled.Perm values := by
  induction position generalizing values with
  | zero => exact .pure fun s hs => ⟨hs, .refl _⟩
  | succ position ih =>
    exact completes_genRange.bind fun other =>
      ih.imp (fun _ hs => hs.1)
        fun _ _ hs => ⟨hs.1, hs.2.trans (swap_perm _ _ _)⟩

theorem completes_shuffle :
    Completes smooth (Lists active idle) (shuffle env values)
      fun shuffled s => Lists active idle s ∧ shuffled.Perm values :=
  completes_shuffleFrom

theorem completes_choose (hne : values ≠ []) :
    Completes smooth (Lists active idle) (choose env values)
      fun value s => Lists active idle s ∧ value ∈ values := by
  refine completes_genRange.bind fun position => ⟨?_, fun s hs _ => ?_⟩
  · split
    · exact .pure _
    · exact .fail _
  · have hposition := hs.2 (length_pos_iff.mpr hne)
    rw [getElem?_eq_getElem hposition]
    exact ⟨_, rfl, hs.1, getElem_mem hposition⟩

theorem perm_swapRemove {position : Nat} (h : position < values.length) :
    (values[position] :: swapRemove values position).Perm values := by
  have hlast : values.length - 1 < values.length := by omega
  have hne : values.swap position (values.length - 1) ≠ [] := by
    rw [← length_pos_iff, length_swap]
    omega
  have hgetLast : (values.swap position (values.length - 1)).getLast hne = values[position] := by
    rw [getLast_eq_getElem]
    simp only [length_swap]
    exact getElem_swap_right_of_lt h _
  have hsplit : swapRemove values position ++ [values[position]] =
      values.swap position (values.length - 1) := by
    rw [← hgetLast]
    exact dropLast_append_getLast hne
  refine (perm_append_singleton _ _).symm.trans ?_
  rw [hsplit]
  exact swap_perm _ _ _

theorem completes_draw {count : Nat} (h : count ≤ values.length) :
    Completes smooth (Lists active idle) (draw env count values)
      fun drawn s => Lists active idle s ∧ drawn.length = count ∧
        ∃ rest, (drawn ++ rest).Perm values := by
  induction count generalizing values with
  | zero => exact .pure fun s hs => ⟨hs, rfl, values, .refl _⟩
  | succ count ih =>
    refine completes_genRange.bind fun position => ?_
    by_cases hposition : position < values.length
    · rw [getElem?_eq_getElem hposition]
      have hperm := perm_swapRemove hposition
      have hlength := hperm.length_eq
      rw [length_cons] at hlength
      refine ((ih (by omega)).weaken fun _ hs => hs.1).bind fun rest =>
        .pure fun s ⟨hs, hrest, others, hothers⟩ => ⟨hs, by simp [hrest], others, ?_⟩
      exact (hothers.cons _).trans hperm
    · refine .unreached ?_ fun s hs => hposition (hs.2 (by omega))
      split
      · rename_i value hvalue
        obtain ⟨hlt, -⟩ := List.getElem?_eq_some_iff.mp hvalue
        exact absurd hlt hposition
      · exact .fail _

end Choosing

end MessagingBench.Runner
