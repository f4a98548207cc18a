import MessagingBench.Runner.Accounting
import MessagingBench.Runner.Growth

/-!
# What the runner's code changes

Commands, questions and fan-outs change neither the active nor the idle workers. They
add to the log of failures and to the observations, and each of them only about
certain workers: a failure is recorded of the worker it is attributed to, and a fan-out
fails at its recipients.
-/

namespace MessagingBench.Runner

open List Worker

variable {ε : Type} {env : RunnerEnvironment ε} {config : RunnerConfig} {P : String → Prop}

/-- The lists of workers stay, and what is added is about workers with certain ids. -/
structure Reports (P : String → Prop) (s s' : RunnerState ε) : Prop where
  active : s'.active = s.active
  idle : s'.idle = s.idle
  events : ∃ new, s'.events = s.events ++ new ∧ ∀ event ∈ new, P event.failedWorkerId
  observed : ∃ new, s'.observed = s.observed ++ new ∧ ∀ phase workers error,
    Observation.fannedOut phase workers (.error error) ∈ new →
      ∀ failure ∈ error.failures, P failure.worker.id

theorem Reports.of_eq {s s' : RunnerState ε} (hactive : s'.active = s.active)
    (hidle : s'.idle = s.idle) (hevents : s'.events = s.events)
    (hobserved : s'.observed = s.observed) : Reports P s s' :=
  ⟨hactive, hidle, ⟨[], by simp [hevents]⟩, ⟨[], by simp [hobserved]⟩⟩

theorem Reports.trans {s₁ s₂ s₃ : RunnerState ε} (h : Reports P s₁ s₂)
    (h' : Reports P s₂ s₃) : Reports P s₁ s₃ := by
  obtain ⟨events, hevents, hP⟩ := h.events
  obtain ⟨events', hevents', hP'⟩ := h'.events
  obtain ⟨observed, hobserved, hQ⟩ := h.observed
  obtain ⟨observed', hobserved', hQ'⟩ := h'.observed
  refine ⟨h'.active.trans h.active, h'.idle.trans h.idle, ⟨events ++ events', ?_, ?_⟩,
    ⟨observed ++ observed', ?_, ?_⟩⟩
  · rw [hevents', hevents, append_assoc]
  · intro event hmem
    exact (mem_append.mp hmem).elim (hP event) (hP' event)
  · rw [hobserved', hobserved, append_assoc]
  · intro phase workers error hmem
    exact (mem_append.mp hmem).elim (hQ phase workers error) (hQ' phase workers error)

theorem Reports.mono {Q : String → Prop} {s s' : RunnerState ε} (h : Reports P s s')
    (hPQ : ∀ id, P id → Q id) : Reports Q s s' := by
  obtain ⟨events, hevents, hP⟩ := h.events
  obtain ⟨observed, hobserved, hfailures⟩ := h.observed
  refine ⟨h.active, h.idle, ⟨events, hevents, fun event hmem => hPQ _ (hP event hmem)⟩,
    ⟨observed, hobserved, ?_⟩⟩
  exact fun phase workers error hmem failure hfailure =>
    hPQ _ (hfailures phase workers error hmem failure hfailure)

/-- Log and observations grow. -/
structure Extends (s s' : RunnerState ε) : Prop where
  events : s.events <+: s'.events
  observed : s.observed <+: s'.observed

theorem Extends.refl (s : RunnerState ε) : Extends s s := ⟨prefix_refl _, prefix_refl _⟩

theorem Extends.trans {s s₁ s₂ : RunnerState ε} (h : Extends s s₁) (h' : Extends s₁ s₂) :
    Extends s s₂ :=
  ⟨h.events.trans h'.events, h.observed.trans h'.observed⟩

theorem Reports.extends {s s₁ : RunnerState ε} (h : Reports P s s₁) : Extends s s₁ := by
  obtain ⟨events, hevents, -⟩ := h.events
  obtain ⟨observed, hobserved, -⟩ := h.observed
  exact ⟨⟨events, hevents.symm⟩, ⟨observed, hobserved.symm⟩⟩

/-- Changes that are reports about certain workers. -/
def reporting (P : String → Prop) : Routine.Frame (RunnerState ε) where
  rel := Reports P
  refl _ := .of_eq rfl rfl rfl rfl
  trans := .trans

section Commands

open Routine

variable {P : String → Prop} {worker : WorkerSpec} {expected : ExpectedReceiveCommitState}
  {phase : String}

theorem within_newRequest {command : Command} {expectedEpoch : Option Delivery.Epoch} :
    Within (reporting P) (newRequest config worker command expectedEpoch : Phase ε _) :=
  fun _ => .of_eq rfl rfl rfl rfl

theorem within_genRange {bound : Nat} : Within (reporting P) (Phase.genRange env bound) :=
  fun _ => .of_eq rfl rfl rfl rfl

theorem within_active : Within (reporting P) (Phase.active : Phase ε _) :=
  fun _ => .of_eq rfl rfl rfl rfl

theorem within_fail {α : Type} {text : String} :
    Within (reporting P) (Phase.fail text : Phase ε α) := .fail _

/-- An observation that is no failed fan-out. -/
theorem reports_observed {s : RunnerState ε} {e : ε} {observation : Observation}
    (h : ∀ phase workers error, observation ≠ .fannedOut phase workers (.error error)) :
    Reports P s { s with env := e, observed := s.observed ++ [observation] } := by
  refine ⟨rfl, rfl, ⟨[], by simp⟩, ⟨[observation], rfl, ?_⟩⟩
  intro phase workers error hmem
  exact absurd (mem_singleton.mp hmem).symm (h phase workers error)

theorem within_sendCommandWithContext {request : CommandRequest} :
    Within (reporting P) (sendCommandWithContext env worker request) := by
  refine .bind (.apply fun s => reports_observed (by simp)) fun result => ?_
  cases result with
  | ok response => exact .pure response
  | error error => exact .fail _

theorem within_sendCmdExpectOkFragmentWithContext {request : CommandRequest} {okFragment : String} :
    Within (reporting P) (sendCmdExpectOkFragmentWithContext env worker request okFragment) := by
  refine .bind within_sendCommandWithContext fun response => ?_
  split
  · exact .pure _
  · exact .fail _

theorem within_sendCmdExpectOkFragment {command : Command} {okFragment : String} :
    Within (reporting P) (sendCmdExpectOkFragment env config worker command okFragment) :=
  .bind within_newRequest fun _ =>
    within_sendCmdExpectOkFragmentWithContext

theorem within_expired : Within (reporting P) (expired env worker) := by
  refine .apply fun s => ?_
  dsimp only
  split
  · exact reports_observed (by simp)
  · exact .of_eq rfl rfl rfl rfl

theorem within_sendCmdUntilOk {command : Command} {okFragment retryable : String} {rounds : Nat} :
    Within (reporting P) (sendCmdUntilOk env config worker command okFragment retryable rounds) := by
  induction rounds with
  | zero => exact within_fail
  | succ rounds ih =>
    unfold sendCmdUntilOk
    refine .bind within_expired fun isExpired => ?_
    split
    · exact within_fail
    · refine .bind within_newRequest fun request =>
        .bind within_sendCommandWithContext fun response => ?_
      split
      · exact .pure _
      · split
        · exact ih
        · exact .fail _

theorem within_showGroupState : Within (reporting P) (showGroupState env worker) := by
  refine .bind (.apply fun s => reports_observed (by simp)) fun result => ?_
  cases result with
  | ok snapshot => exact .pure snapshot
  | error text => exact within_fail

theorem within_reconciledByState {error : String} :
    Within (reporting P) (reconciledByState env worker expected error) :=
  .bind (.attempt within_showGroupState) fun _ => .lift _

theorem within_reconcileReceiveCommit {request : CommandRequest} {okFragment : String}
    {error : RunnerError} :
    Within (reporting P)
      (reconcileReceiveCommit env worker request okFragment expected phase error) := by
  refine .bind within_reconciledByState fun reconciled => ?_
  split
  · exact .pure ()
  refine .bind (.attempt within_sendCmdExpectOkFragmentWithContext) fun retried => ?_
  cases retried with
  | ok message => exact .pure ()
  | error retryError =>
    dsimp only
    split
    · exact .fail _
    · refine .bind within_reconciledByState fun reconciled => ?_
      split
      · exact .pure ()
      · exact within_fail

theorem within_receiveCommitAfterError {request : CommandRequest} {okFragment : String}
    {error : RunnerError} :
    Within (reporting P)
      (receiveCommitAfterError env worker request okFragment expected phase error) := by
  unfold receiveCommitAfterError
  split
  · exact .fail _
  · cases error with
    | message | batch | expectedProfiledFailureStop => exact .fail _
    | worker commandError =>
      dsimp only
      split
      · exact within_reconcileReceiveCommit
      · exact .fail _

theorem within_receiveCommitExpect {okFragment : String} :
    Within (reporting P) (receiveCommitExpect env config worker okFragment expected phase) := by
  refine .bind within_newRequest fun request => .bind (.attempt
    within_sendCmdExpectOkFragmentWithContext) fun result => ?_
  cases result with
  | ok message => exact .pure ()
  | error error =>
    exact within_receiveCommitAfterError

theorem within_expectReached {label : String} :
    Within (reporting P) (expectReached env worker expected label) := by
  refine .bind (.bind (.attempt within_showGroupState) fun shown => ?_) fun reached =>
    .bind (.modify fun s => reports_observed (by simp)) fun _ => ?_
  · cases shown with
    | ok snapshot =>
      cases expected with
      | group state => exact .pure _
      | removed epoch => exact within_fail
    | error error =>
      dsimp only
      split
      · exact .pure true
      · exact within_fail
  · split
    · exact .pure ()
    · exact within_fail

theorem within_processPendingAfterError {request : CommandRequest} {error : RunnerError} :
    Within (reporting P) (processPendingAfterError env worker request expected phase error) := by
  unfold processPendingAfterError
  split
  · exact .fail _
  refine .bind within_reconciledByState fun reconciled => ?_
  split
  · exact .pure ()
  refine .bind (.attempt within_sendCmdExpectOkFragmentWithContext)
    fun retried => ?_
  cases retried with
  | ok message => exact within_expectReached
  | error retryError =>
    dsimp only
    split
    · exact .fail _
    · refine .bind within_reconciledByState fun reconciled => ?_
      split
      · exact .pure ()
      · exact within_fail

theorem within_processPendingCommitExpect :
    Within (reporting P) (processPendingCommitExpect env config worker expected phase) := by
  refine .bind within_newRequest fun request => .bind (.attempt
    within_sendCmdExpectOkFragmentWithContext) fun result => ?_
  cases result with
  | ok message => exact within_expectReached
  | error error => exact within_processPendingAfterError

theorem within_actorCommit {expected : ExpectedGroupState} :
    Within (reporting P) (actorCommit env config worker expected phase) := by
  unfold actorCommit
  split
  · exact within_processPendingCommitExpect
  · exact within_receiveCommitExpect

theorem within_bestEffort :
    Within (reporting P) (bestEffortProcessPendingCommitsAfterEpochRace env config worker) := by
  refine .bind within_newRequest fun request => .bind (.attempt
    within_sendCmdExpectOkFragmentWithContext) fun result => ?_
  cases result with
  | ok message => exact .pure _
  | error error => exact .pure none

theorem within_catchUp {missingDeadIds : List String} :
    Within (reporting P) (catchUp env config worker missingDeadIds) := by
  unfold catchUp
  split
  · exact .pure none
  · exact within_bestEffort

theorem within_publishRemoveMembers {deadIds : List String} {attempts : List Nat} :
    Within (reporting P) (publishRemoveMembers env config worker deadIds attempts) := by
  induction attempts with
  | nil => exact within_fail
  | cons attempt attempts ih =>
    unfold publishRemoveMembers
    refine .bind within_showGroupState fun actorBefore =>
      .bind within_catchUp fun caughtUp => ?_
    split
    · exact ih
    dsimp only
    split
    · exact .pure _
    refine .bind within_newRequest fun request =>
      .bind within_sendCommandWithContext fun response => ?_
    split
    · exact .pure _
    split
    · refine .bind within_bestEffort fun message => ?_
      cases message with
      | none => exact ih
      | some message =>
        dsimp only
        split
        · exact .bind within_showGroupState fun _ => .pure _
        · exact ih
    split
    · exact .bind within_bestEffort fun _ => ih
    · exact .fail _

theorem within_chooseAddActor {forcedActorId : Option String} :
    Within (reporting P) (chooseAddActor env forcedActorId) := by
  refine .bind within_active fun active => .bind ?_ fun index => ?_
  · unfold addActorIndex
    split
    · exact .pure _
    · exact within_genRange
  · split
    · exact .pure _
    · exact within_fail

end Commands

section Recording

open Routine (Within)

variable {P : String → Prop} {worker : WorkerSpec} {reassignedTo : Option WorkerSpec}
  {action failureClass : String}

theorem within_countProfiledBudgetFailure :
    Within (reporting P) (countProfiledBudgetFailure config worker failureClass : Phase ε Unit) := by
  unfold countProfiledBudgetFailure
  split
  · exact .pure ()
  · refine .bind (.modify fun _ => .of_eq rfl rfl rfl rfl) fun _ => .bind .get fun s => ?_
    split
    · exact .fail _
    · exact .pure ()

theorem within_recordFailure (hworker : P worker.id) {error : String} :
    Within (reporting P)
      (recordFailure config worker error failureClass action reassignedTo : Phase ε Unit) := by
  refine .bind (.modify fun s => ⟨rfl, rfl, ⟨_, rfl, ?_⟩, [], by simp⟩) fun _ =>
    within_countProfiledBudgetFailure
  intro event hmem
  rw [mem_singleton.mp hmem]
  exact hworker

theorem within_recordProfiledWorkerFailure (hworker : P worker.id) {error : String} :
    Within (reporting P)
      (recordProfiledWorkerFailure env config worker error action reassignedTo) := by
  refine .bind (.apply fun _ => .of_eq rfl rfl rfl rfl) fun evidence => ?_
  split
  · exact .bind (within_recordFailure hworker) fun _ => .pure _
  · split
    · exact .bind (within_recordFailure hworker) fun _ => .pure _
    · exact .pure false

theorem within_recordBatchOomFailures {failures : List FanoutFailure}
    (hworkers : ∀ failure ∈ failures, P failure.worker.id) :
    Within (reporting P) (recordBatchOomFailures env config action reassignedTo failures) := by
  induction failures with
  | nil => exact .pure _
  | cons failure failures ih =>
    refine .bind (within_recordProfiledWorkerFailure (hworkers failure mem_cons_self))
      fun goesOn => ?_
    split
    · exact .bind (ih fun failure hmem => hworkers failure (mem_cons_of_mem _ hmem))
        fun _ => .pure _
    · exact .pure none

end Recording

section Fanouts

open Routine (Within)

def FailsAtRecipients (workers : List WorkerSpec) (failures : List FanoutFailure) : Prop :=
  ∀ failure ∈ failures, ∃ worker ∈ workers, worker.id = failure.worker.id

variable {workers : List WorkerSpec} {environment : Environment ε}
  {expected : Option (String → Option ExpectedReceiveCommitState)} {s : FanoutState}

theorem exists_of_workersById {id : String} (h : (workersById workers id).isSome) :
    ∃ worker ∈ workers, worker.id = id := by
  obtain ⟨worker, hworker⟩ := Option.isSome_iff_exists.mp h
  exact ⟨worker, mem_reverse.mp (mem_of_find?_eq_some hworker), workersById_id hworker⟩

theorem failsAtRecipients_fanoutPass {retryPass : Nat} {s : FanoutState} {e : ε} :
    FailsAtRecipients workers
      (fanoutPass environment workers expected retryPass s e).1.failures := by
  intro failure hmem
  obtain ⟨hfailed, -⟩ := (mem_reconcileBatchReceiveFailures environment expected _ _ _).mp
    ⟨failure, hmem, rfl⟩
  obtain ⟨-, hknown⟩ := mem_failures_collectPass.mp hfailed
  exact exists_of_workersById hknown

theorem failsAtRecipients_fanoutPasses (retryPasses : List Nat) {e : ε}
    (h : FailsAtRecipients workers s.failures) : FailsAtRecipients workers
      (fanoutPasses environment workers expected retryPasses s e).1.failures := by
  induction retryPasses generalizing s e with
  | nil => exact h
  | cons retryPass rest ih =>
    unfold fanoutPasses
    split
    · exact h
    · exact ih failsAtRecipients_fanoutPass

theorem failsAtRecipients_fanout {commandsByPhysical : List Batch} {e : ε} :
    FailsAtRecipients workers
      (fanout environment workers expected commandsByPhysical e).1.failures :=
  failsAtRecipients_fanoutPasses _ (by simp [FanoutState.start, FailsAtRecipients])

theorem fanoutResult_error {phase operation : String} {error : BatchFanoutError}
    (h : fanoutResult phase operation s = .error error) :
    error.failures = s.failures ∧ s.failures ≠ [] := by
  unfold fanoutResult at h
  split at h
  · cases h
  · rename_i hne
    cases h
    exact ⟨rfl, fun hnil => hne (by simp [hnil])⟩

variable {P : String → Prop} {epoch : WorkerSpec → Option Delivery.Epoch}

theorem within_runBatchFanout (hworkers : ∀ worker ∈ workers, P worker.id)
    {phase operation : String} {commandsByPhysical : List Batch} :
    Within (reporting P)
      (runBatchFanout env phase operation workers commandsByPhysical expected) := by
  refine .apply fun s => ⟨rfl, rfl, ⟨[], by simp⟩, ⟨_, rfl, ?_⟩⟩
  intro phase' workers' error hmem failure hfailure
  obtain ⟨-, -, hresult⟩ := Observation.fannedOut.inj (mem_singleton.mp hmem).symm
  rw [(fanoutResult_error hresult).1] at hfailure
  obtain ⟨worker, hworker, hid⟩ := failsAtRecipients_fanout failure hfailure
  rw [← hid]
  exact hworkers worker hworker

theorem within_batchCommands {command : WorkerSpec → Command} {group : List WorkerSpec} :
    Within (reporting P) (batchCommands config command epoch group : Phase ε _) := by
  induction group with
  | nil => exact .pure []
  | cons worker group ih =>
    exact .bind within_newRequest fun _ => .bind ih fun _ => .pure _

theorem within_buildBatchCommands {command : WorkerSpec → Command}
    {groups : List (String × List WorkerSpec)} :
    Within (reporting P) (buildBatchCommands config command epoch groups : Phase ε _) := by
  induction groups with
  | nil => exact .pure []
  | cons group groups ih =>
    exact .bind within_batchCommands fun _ => .bind ih fun _ => .pure _

theorem within_commitFanout (hworkers : ∀ worker ∈ workers, P worker.id) {phase operation : String}
    {expected : WorkerSpec → ExpectedReceiveCommitState} :
    Within (reporting P) (commitFanout env config phase operation workers expected) :=
  .bind within_buildBatchCommands fun _ => within_runBatchFanout hworkers

theorem commitFanout_error {phase operation : String}
    {expected : WorkerSpec → ExpectedReceiveCommitState} {s s' : RunnerState ε}
    {error : BatchFanoutError}
    (h : commitFanout env config phase operation workers expected s = (.ok (.error error), s')) :
    FailsAtRecipients workers error.failures ∧ error.failures ≠ [] ∧
      ∃ earlier, s'.observed = s.observed ++ earlier ++ [.fannedOut phase workers (.error error)] := by
  obtain ⟨commands, s₁, hbuild, hrun⟩ := Routine.bind_ok h
  obtain ⟨earlier, hearlier, -⟩ :=
    ((within_buildBatchCommands (P := fun _ => True)).of_eq hbuild).observed
  simp only [runBatchFanout, Routine.apply_apply, Prod.mk.injEq, Except.ok.injEq] at hrun
  obtain ⟨hresult, rfl⟩ := hrun
  obtain ⟨hfailures, hne⟩ := fanoutResult_error hresult
  rw [hfailures]
  exact ⟨failsAtRecipients_fanout, hne, earlier, by rw [hresult, hearlier]⟩

end Fanouts

end MessagingBench.Runner
