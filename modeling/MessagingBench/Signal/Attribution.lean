import MessagingBench.Signal.Application

/-!
# Who is blamed for a failed broadcast

A worker may only be recorded as failed or lose its place among the active ones after a
command of its own failed with a resource error. The text of a failed fan-out quotes the
errors of its recipients, so that the sender is blamed as well when it is classified; the
results hold for runs in which no fan-out has such a text.
-/

namespace MessagingBench.Signal

open List Routine Runner

variable {ε : Type} {env : RunnerEnvironment ε} {config : RunnerConfig}

variable {s s' : RunnerState ε} {worker : WorkerSpec} {commands : List (WorkerSpec × Command)}
  {failures : List FanoutFailure} {error : RunnerError} {command : Command}

section Causes

def Command.encrypts : Command → Bool
  | .encryptMessage .. | .senderKeyEncrypt .. => true
  | _ => false

/-- A command of the worker failed with a resource error that may lead to an action: one of its
encrypt commands, its item of a fan-out, or a command of a Sender Keys phase. -/
inductive OwnFailure (observed : List Observation) (id : String) : String → Prop
  | sender {worker : WorkerSpec} {command : Command} {error : RunnerError}
      (hmem : Observation.answered worker command (.error error) ∈ observed) (hid : worker.id = id)
      (hencrypts : command.encrypts = true) (hclass : isResourceBudgetFailure error.text = true) :
      OwnFailure observed id "remove_active_actor_and_retry"
  | recipient {commands : List (WorkerSpec × Command)} {failures : List FanoutFailure}
      {failure : FanoutFailure} (hmem : Observation.fannedOut commands failures ∈ observed)
      (hfailure : failure ∈ failures) (hid : failure.worker.id = id)
      (hclass : isResourceBudgetFailure failure.error = true) :
      OwnFailure observed id "remove_active_recipient_and_retry"
  | endpoint {worker : WorkerSpec} {command : Command} {error : RunnerError}
      (hmem : Observation.answered worker command (.error error) ∈ observed) (hid : worker.id = id)
      (hclass : isResourceBudgetFailure error.text = true) :
      OwnFailure observed id "remove_failed_sender_keys_endpoint"

/-- The text of a failed fan-out is of no class that is recorded. -/
def Observation.unmarked : Observation → Bool
  | .answered .. => true
  | .fannedOut _ failures => failures.isEmpty || !isRecordedClass (classifyWorkerError
      (BatchFanoutError.text ⟨"application", "receive_message", failures⟩))

def Unmarked (observed : List Observation) : Prop :=
  ∀ observation ∈ observed, observation.unmarked = true

instance (observed : List Observation) : Decidable (Unmarked observed) :=
  inferInstanceAs (Decidable (∀ observation ∈ observed, observation.unmarked = true))

variable {observed : List Observation}

theorem Unmarked.class_eq_false (h : Unmarked observed)
    (hmem : Observation.fannedOut commands failures ∈ observed) (hfailures : failures ≠ []) :
    isRecordedClass (classifyWorkerError
      (BatchFanoutError.text ⟨"application", "receive_message", failures⟩)) = false := by
  have hunmarked := h _ hmem
  simpa [Observation.unmarked, hfailures] using hunmarked

theorem OwnFailure.mono {observed' : List Observation} {id action : String}
    (h : OwnFailure observed id action) (hsub : observed <+: observed') :
    OwnFailure observed' id action := by
  cases h with
  | sender hmem hid hencrypts hclass => exact .sender (hsub.subset hmem) hid hencrypts hclass
  | recipient hmem hfailure hid hclass => exact .recipient (hsub.subset hmem) hfailure hid hclass
  | endpoint hmem hid hclass => exact .endpoint (hsub.subset hmem) hid hclass

theorem Unmarked.before {observed' : List Observation} (h : Unmarked observed')
    (hsub : observed <+: observed') : Unmarked observed :=
  fun observation hmem => h observation (hsub.subset hmem)

theorem isResourceBudgetFailure_eq (error : String) :
    isResourceBudgetFailure error = isBudgetOrStarvation (classifyWorkerError error) := by
  unfold isResourceBudgetFailure isBudgetOrStarvation
  cases classifyWorkerError error <;> rfl

theorem isResourceBudgetFailure_of_recorded {error : String}
    (h : isRecordedClass (classifyWorkerError error) = true) :
    isResourceBudgetFailure error = true := by
  rw [isResourceBudgetFailure_eq]
  cases hclass : classifyWorkerError error <;> rw [hclass] at h <;> first | rfl | cases h

/-- Everybody who was removed or recorded has failed on its own. -/
structure Attributed (s s' : RunnerState ε) : Prop where
  active : ∀ worker ∈ s.active, worker ∈ s'.active ∨
    ∃ action, OwnFailure s'.observed worker.id action
  events : ∀ event ∈ s'.events, event ∈ s.events ∨
    OwnFailure s'.observed event.failedWorkerId event.failureAction

theorem Attributed.refl (s : RunnerState ε) : Attributed s s :=
  ⟨fun _ h => .inl h, fun _ h => .inl h⟩

theorem Attributed.trans {s₁ s₂ s₃ : RunnerState ε} (h : Attributed s₁ s₂)
    (h' : Attributed s₂ s₃) (hsub : s₂.observed <+: s₃.observed) : Attributed s₁ s₃ := by
  refine ⟨fun worker hmem => ?_, fun event hmem => ?_⟩
  · rcases h.active worker hmem with hmem | ⟨action, hown⟩
    · exact h'.active worker hmem
    · exact .inr ⟨action, hown.mono hsub⟩
  · rcases h'.events event hmem with hmem | hown
    · exact (h.events event hmem).imp id fun hown => hown.mono hsub
    · exact .inr hown

/-- Changes that are attributed rightly as long as no fan-out has a marked text. -/
def attributing : Frame (RunnerState ε) where
  rel s s' := s.observed <+: s'.observed ∧ (Unmarked s'.observed → Attributed s s')
  refl s := ⟨prefix_refl _, fun _ => .refl s⟩
  trans h h' := ⟨h.1.trans h'.1, fun hunmarked =>
    (h.2 (hunmarked.before h'.1)).trans (h'.2 hunmarked) h'.1⟩

/-- Changes that remove nobody and record only workers that failed on their own. -/
structure Blaming (s s' : RunnerState ε) : Prop where
  active : s'.active = s.active
  observed : s.observed <+: s'.observed
  events : ∀ event ∈ s'.events, event ∈ s.events ∨
    OwnFailure s'.observed event.failedWorkerId event.failureAction

def blaming : Frame (RunnerState ε) where
  rel := Blaming
  refl s := ⟨rfl, prefix_refl _, fun _ hmem => .inl hmem⟩
  trans h h' := by
    refine ⟨h'.active.trans h.active, h.observed.trans h'.observed, fun event hmem => ?_⟩
    rcases h'.events event hmem with hmem | hown
    · exact (h.events event hmem).imp id fun hown => hown.mono h'.observed
    · exact .inr hown

theorem Blaming.attributing (h : Blaming s s') : attributing.rel s s' :=
  ⟨h.observed, fun _ => ⟨fun _ hmem => .inl (h.active ▸ hmem), h.events⟩⟩

theorem attributing_env {s : RunnerState ε} {e : ε} : attributing.rel s { s with env := e } :=
  ⟨prefix_refl _, fun _ => ⟨fun _ hmem => .inl hmem, fun _ hmem => .inl hmem⟩⟩

theorem Blaming.of_events_eq (hactive : s'.active = s.active)
    (hobserved : s.observed <+: s'.observed) (hevents : s'.events = s.events) : Blaming s s' :=
  ⟨hactive, hobserved, fun _ hmem => .inl (hevents ▸ hmem)⟩

theorem Logged.blaming {action : String} (h : Logged worker action s s')
    (hown : OwnFailure s.observed worker.id action) : Blaming s s' := by
  obtain ⟨event, hevents, hfailed, haction⟩ := h.events
  refine ⟨h.active, h.observed ▸ prefix_refl _, fun event' hmem => ?_⟩
  rw [hevents] at hmem
  rcases mem_append.mp hmem with hmem | hmem
  · exact .inl hmem
  · rw [mem_singleton.mp hmem, hfailed, haction, h.observed]
    exact .inr hown

end Causes

section SenderKeys

/-- A routine that blames rightly and reports an endpoint as failed only if it has failed on its
own. -/
def Attributes {α : Type} (x : Phase ε α) : Prop :=
  ∀ s, Blaming s (x s).2 ∧ ∀ id cause, (x s).1 = .error (.endpoint id cause) →
    OwnFailure (x s).2.observed id "remove_failed_sender_keys_endpoint"

namespace Attributes

variable {α β : Type}

theorem pure (a : α) : Attributes (Pure.pure a : Phase ε α) :=
  fun s => ⟨blaming.refl s, fun _ _ h => by cases h⟩

theorem bind {x : Phase ε α} {f : α → Phase ε β} (hx : Attributes x)
    (hf : ∀ a, Attributes (f a)) : Attributes (x >>= f) := by
  intro s
  have hfirst := hx s
  rw [bind_apply]
  rcases hxs : x s with ⟨result, s₁⟩
  rw [hxs] at hfirst
  cases result with
  | ok a => exact ⟨blaming.trans hfirst.1 (hf a s₁).1, (hf a s₁).2⟩
  | error error =>
    refine ⟨hfirst.1, fun id cause h => ?_⟩
    cases h
    exact hfirst.2 id cause rfl

theorem nextWorkflowId : Attributes (Phase.nextWorkflowId : Phase ε UInt64) :=
  fun s => ⟨.of_events_eq rfl (prefix_refl _) rfl, fun _ _ h => by cases h⟩

theorem forWorkers {f : WorkerSpec → Phase ε Unit} (hf : ∀ worker, Attributes (f worker))
    (workers : List WorkerSpec) : Attributes (Signal.forWorkers f workers) := by
  induction workers with
  | nil => exact .pure ()
  | cons worker workers ih => exact .bind (hf worker) fun _ => ih

end Attributes

theorem attributes_drawGenerations (senders : List WorkerSpec) :
    Attributes (drawGenerations senders : Phase ε _) := by
  induction senders with
  | nil => exact .pure []
  | cons sender senders ih =>
    exact .bind .nextWorkflowId fun generation => .bind ih fun rest => .pure _

/-- The errors that a single command may end with. -/
theorem expectOkFragment_error {okFragment : String}
    {sent : Except WorkerCommandError Worker.CommandResponse}
    (h : expectOkFragment worker okFragment sent = .error error) :
    (∃ text, error = .message text) ∨ ∃ commandError, error = .worker commandError := by
  unfold expectOkFragment at h
  split at h
  · cases h
    exact .inr ⟨_, rfl⟩
  · split at h
    · cases h
    · cases h
      exact .inl ⟨_, rfl⟩

theorem sendCmd_spec {phase : Option String} {expected : String}
    {result : Except RunnerError String}
    (h : sendCmdExpectOkFragmentWithContext env worker command phase expected s = (result, s')) :
    Blaming s s' ∧ Observation.answered worker command result ∈ s'.observed ∧
      ∀ error, result = .error error → ∀ id cause, error ≠ .endpoint id cause := by
  have hresult : expectOkFragment worker expected (env.send worker command phase s.env).1 =
      result := congrArg Prod.fst h
  refine ⟨?_, ?_, fun error herror id cause => ?_⟩
  · cases h
    exact .of_events_eq rfl (prefix_append _ _) rfl
  · cases h
    exact mem_append_right _ (mem_singleton_self _)
  · rw [herror] at hresult
    rcases expectOkFragment_error hresult with ⟨_, rfl⟩ | ⟨_, rfl⟩ <;> simp

theorem recorded_class (hevidence : ∀ worker e, (env.oomEvidence worker e).1 = false)
    {error : String} {e : ε} (h : (env.oomEvidence worker e).1 = true ∨
      isRecordedClass (classifyWorkerError error) = true) :
    isRecordedClass (classifyWorkerError error) = true := by
  rcases h with h | h
  · rw [hevidence worker e] at h
    cases h
  · exact h

theorem attributing_drop {keeps : WorkerSpec → Bool} (hactive : s'.active = s.active.filter keeps)
    (hevents : s'.events = s.events) (hobserved : s'.observed = s.observed)
    (hown : ∀ worker ∈ s.active, keeps worker = false →
      ∃ action, OwnFailure s.observed worker.id action) : attributing.rel s s' := by
  refine ⟨hobserved ▸ prefix_refl _, fun _ => ⟨fun worker hmem => ?_, fun event hmem => ?_⟩⟩
  · cases hkeeps : keeps worker with
    | true => exact .inl (hactive ▸ mem_filter.mpr ⟨hmem, hkeeps⟩)
    | false => exact .inr (hobserved ▸ hown worker hmem hkeeps)
  · exact .inl (hevents ▸ hmem)

theorem eq_of_bne_false {a b : String} (h : (a != b) = false) : a = b := by
  simpa using h

variable (hevidence : ∀ worker e, (env.oomEvidence worker e).1 = false)

include hevidence

theorem endpointFailed_spec {result : Except RunnerError Unit}
    (hmem : Observation.answered worker command (.error error) ∈ s.observed)
    (hordinary : ∀ id cause, error ≠ .endpoint id cause)
    (h : endpointFailed env config worker error s = (result, s')) :
    Blaming s s' ∧ ∀ id cause, result = .error (.endpoint id cause) →
      OwnFailure s'.observed id "remove_failed_sender_keys_endpoint" := by
  unfold endpointFailed at h
  rw [bind_apply] at h
  rcases hrecord : recordWorkerOomIfEvidenced env config worker error.text
      "remove_failed_sender_keys_endpoint" none s with ⟨recorded, s₁⟩
  rw [hrecord] at h
  rcases recordWorkerOomIfEvidenced_spec hrecord with
    ⟨rfl, rfl, -⟩ | ⟨hlogged, hrecorded, hcause⟩
  · cases h
    refine ⟨.of_events_eq rfl (prefix_refl _) rfl, fun id cause herror => ?_⟩
    cases herror
    exact absurd rfl (hordinary id cause)
  · have hown : OwnFailure s.observed worker.id "remove_failed_sender_keys_endpoint" :=
      .endpoint hmem rfl (isResourceBudgetFailure_of_recorded (recorded_class hevidence hcause))
    rcases hrecorded with rfl | ⟨failure, rfl, hendpoint⟩ <;> cases h <;>
      refine ⟨hlogged.blaming hown, fun id cause herror => ?_⟩ <;> cases herror
    · exact hlogged.observed ▸ hown
    · exact absurd rfl (hendpoint id cause)

theorem attributes_senderKeyCommand {worker : WorkerSpec} {command : Command}
    {phase expected : String} :
    Attributes (senderKeyCommand env config worker command phase expected) := by
  refine .bind .nextWorkflowId fun _ s => ?_
  rw [bind_apply, attempt_apply, andThen_ok]
  rcases hsend : sendCmdExpectOkFragmentWithContext env worker command (some phase) expected s with
    ⟨result, s₁⟩
  obtain ⟨hsent, hmem, hordinary⟩ := sendCmd_spec hsend
  cases result with
  | ok message => exact ⟨hsent, fun _ _ h => by cases h⟩
  | error error =>
    obtain ⟨hblaming, hendpoint⟩ := endpointFailed_spec hevidence hmem (hordinary error rfl) rfl
    exact ⟨blaming.trans hsent hblaming, hendpoint⟩

theorem attributes_distributeAll {active : List WorkerSpec} {senders : List (WorkerSpec × UInt64)} :
    Attributes (distributeAll env config active senders) := by
  induction senders with
  | nil => exact .pure ()
  | cons sender senders ih =>
    exact .bind (attributes_senderKeyCommand hevidence) fun _ => ih

theorem attributes_receiveFrom {recipient : WorkerSpec} {senders : List (WorkerSpec × UInt64)} :
    Attributes (receiveFrom env config recipient senders) := by
  induction senders with
  | nil => exact .pure ()
  | cons sender senders ih =>
    obtain ⟨sender, generation⟩ := sender
    unfold receiveFrom
    split
    · exact ih
    · exact .bind (attributes_senderKeyCommand hevidence) fun _ => ih

theorem attributes_refreshAttempt {active : List WorkerSpec} :
    Attributes (refreshAttempt env config active) :=
  .bind (attributes_drawGenerations active) fun senders =>
    .bind (attributes_distributeAll hevidence) fun _ =>
      .forWorkers (fun recipient => attributes_receiveFrom hevidence) active

theorem within_refreshRounds (rounds : Nat) :
    Within attributing (refreshRounds env config rounds) := by
  induction rounds with
  | zero => exact .fail _
  | succ rounds ih =>
    intro s
    have hattempt : Attributes (refreshAttempt env config s.active) :=
      attributes_refreshAttempt hevidence
    have hattempt := hattempt s
    unfold refreshRounds Phase.active
    simp only [bind_apply, get_apply, andThen_ok, pure_apply, attempt_apply]
    rcases hrun : refreshAttempt env config s.active s with ⟨result, s₁⟩
    rw [hrun] at hattempt
    obtain ⟨hblaming, hendpoint⟩ := hattempt
    have hfirst := hblaming.attributing
    cases result with
    | ok done => exact hfirst
    | error error =>
      cases error with
      | endpoint workerId cause =>
        have hown := hendpoint workerId cause rfl
        refine attributing.trans (attributing.trans hfirst ?_) (ih _)
        refine attributing_drop (congrArg _ hblaming.active.symm) rfl rfl fun worker _ hdrop => ?_
        exact ⟨_, (eq_of_bne_false hdrop) ▸ hown⟩
      | _ => exact hfirst

theorem within_refreshAfterRemoval : Within attributing (refreshAfterRemoval env config) := by
  unfold refreshAfterRemoval refreshSenderKeys
  split
  · exact .bind (.bind .get fun s => .pure _) fun active => within_refreshRounds hevidence _
  · exact .pure ()

end SenderKeys

section Broadcasts

/-- How a broadcast ends: it changes neither the active workers nor the log, and a failure is
that of an encrypt command of the sender or that of the fan-out. -/
structure BroadcastOutcome {α : Type} (sender : WorkerSpec) (s s' : RunnerState ε)
    (result : Except RunnerError α) : Prop where
  blaming : Blaming s s'
  cause : ∀ error, result = .error error →
    (∃ command, command.encrypts = true ∧
      Observation.answered sender command (.error error) ∈ s'.observed ∧
      ∀ batchError, error ≠ .batch batchError) ∨
    ∃ commands failures, failures ≠ [] ∧ Observation.fannedOut commands failures ∈ s'.observed ∧
      error = .batch ⟨"application", "receive_message", failures⟩

def PartOfBroadcast {α : Type} (sender : WorkerSpec) (x : Phase ε α) : Prop :=
  ∀ s, BroadcastOutcome sender s (x s).2 (x s).1

namespace PartOfBroadcast

variable {α β : Type} {sender : WorkerSpec} {x : Phase ε α}

theorem of_ok (h : ∀ s, Blaming s (x s).2 ∧ ∃ a, (x s).1 = .ok a) : PartOfBroadcast sender x := by
  intro s
  obtain ⟨hblaming, a, hok⟩ := h s
  refine ⟨hblaming, fun error herror => ?_⟩
  rw [hok] at herror
  cases herror

theorem of_eq (hx : PartOfBroadcast sender x) {result : Except RunnerError α}
    (h : x s = (result, s')) : BroadcastOutcome sender s s' result := by
  have houtcome := hx s
  rw [h] at houtcome
  exact houtcome

theorem pure (a : α) : PartOfBroadcast sender (Pure.pure a : Phase ε α) :=
  of_ok fun s => ⟨blaming.refl s, a, rfl⟩

theorem bind {f : α → Phase ε β} (hx : PartOfBroadcast sender x)
    (hf : ∀ a, PartOfBroadcast sender (f a)) : PartOfBroadcast sender (x >>= f) := by
  intro s
  have hfirst := hx s
  rw [bind_apply]
  rcases hxs : x s with ⟨result, s₁⟩
  rw [hxs] at hfirst
  cases result with
  | ok a => exact ⟨Signal.blaming.trans hfirst.blaming (hf a s₁).blaming, (hf a s₁).cause⟩
  | error error =>
    refine ⟨hfirst.blaming, fun error' herror => ?_⟩
    cases herror
    exact hfirst.cause error rfl

theorem nextWorkflowId : PartOfBroadcast sender (Phase.nextWorkflowId : Phase ε UInt64) :=
  of_ok fun _ => ⟨.of_events_eq rfl (prefix_refl _) rfl, _, rfl⟩

theorem send (hencrypts : command.encrypts = true) (phase : Option String) (okFragment : String) :
    PartOfBroadcast sender (sendCmdExpectOkFragmentWithContext env sender command phase
      okFragment) := by
  intro s
  refine ⟨.of_events_eq rfl (prefix_append _ _) rfl, fun error herror => ?_⟩
  have hresult : expectOkFragment sender okFragment (env.send sender command phase s.env).1 =
      .error error := herror
  refine Or.inl ⟨command, hencrypts, ?_, fun batchError hbatch => ?_⟩
  · rw [← hresult]
    exact mem_append_right _ (mem_singleton_self _)
  · rcases expectOkFragment_error hresult with ⟨_, rfl⟩ | ⟨_, rfl⟩ <;> cases hbatch

/-- The fan-out to the recipients. -/
theorem batchFanoutWorkers (commands : List (WorkerSpec × Command)) :
    PartOfBroadcast sender (Signal.batchFanoutWorkers env "application" "receive_message"
      commands) := by
  intro s
  refine ⟨.of_events_eq rfl (prefix_append _ _) rfl, fun error herror => ?_⟩
  have hresult : (if (env.fanout commands s.env).1.isEmpty then .ok ()
      else .error (.batch ⟨"application", "receive_message", (env.fanout commands s.env).1⟩) :
        Except RunnerError Unit) = .error error := herror
  by_cases hempty : (env.fanout commands s.env).1.isEmpty = true
  · rw [if_pos hempty] at hresult
    cases hresult
  · rw [if_neg hempty] at hresult
    cases hresult
    refine Or.inr ⟨commands, (env.fanout commands s.env).1, fun hnil => ?_, ?_, rfl⟩
    · rw [hnil] at hempty
      exact hempty rfl
    · exact mem_append_right _ (mem_singleton_self _)

theorem encryptPairwise (payload : String) (recipients : List WorkerSpec) :
    PartOfBroadcast sender (Signal.encryptPairwise env sender payload recipients) := by
  induction recipients with
  | nil => exact .pure ()
  | cons recipient recipients ih => exact .bind (.send rfl none _) fun _ => ih

variable (recipients : List WorkerSpec)

theorem encryptBroadcast (payload : String) :
    PartOfBroadcast sender (Signal.encryptBroadcast env config sender recipients payload) := by
  unfold Signal.encryptBroadcast
  split
  · exact .bind (.send rfl none _) fun _ => .pure ()
  · exact .encryptPairwise payload recipients

theorem profileRecipients (profilingRecipientId : Option String) (recipients : List WorkerSpec) :
    PartOfBroadcast sender (Signal.profileRecipients profilingRecipientId recipients :
      Phase ε Unit) := by
  induction recipients with
  | nil => exact .pure ()
  | cons recipient recipients ih =>
    unfold Signal.profileRecipients
    split
    · exact .bind .nextWorkflowId fun _ => ih
    · exact ih

theorem broadcastMessage (payload : String) (payloadSize : Nat)
    (profilingRecipientId : Option String) :
    PartOfBroadcast sender (Signal.broadcastMessage env config sender recipients payload
      payloadSize profilingRecipientId) :=
  .bind .nextWorkflowId fun _ => .bind (.encryptBroadcast recipients payload) fun _ =>
    .bind (.profileRecipients profilingRecipientId recipients) fun _ => .batchFanoutWorkers _

end PartOfBroadcast

end Broadcasts

section Failures

variable (hevidence : ∀ worker e, (env.oomEvidence worker e).1 = false)

include hevidence

/-- Recording recipients: each id that is to be removed belongs to a recipient whose item of
the fan-out failed with a resource error. -/
theorem recordRecipients_spec (actor : WorkerSpec) {all : List FanoutFailure}
    (hsub : failures ⊆ all) {oomIds : List String} {result : Except RunnerError (List String)}
    (hmem : Observation.fannedOut commands all ∈ s.observed)
    (hids : ∀ id ∈ oomIds, OwnFailure s.observed id "remove_active_recipient_and_retry")
    (h : recordRecipients env config actor failures oomIds s = (result, s')) :
    Blaming s s' ∧ ∀ ids, result = .ok ids → ∀ id ∈ ids,
      OwnFailure s'.observed id "remove_active_recipient_and_retry" := by
  induction failures generalizing oomIds s with
  | nil =>
    cases h
    refine ⟨blaming.refl _, fun ids hok => ?_⟩
    cases hok
    exact hids
  | cons failure failures ih =>
    have hown (hclass : isResourceBudgetFailure failure.error = true) :
        OwnFailure s.observed failure.worker.id "remove_active_recipient_and_retry" :=
      .recipient hmem (hsub (mem_cons_self ..)) rfl hclass
    have hrest : failures ⊆ all := fun _ hin => hsub (mem_cons_of_mem _ hin)
    have hinsert (hclass : isResourceBudgetFailure failure.error = true) (id : String)
        (hid : id ∈ oomIds.insert failure.worker.id) :
        OwnFailure s.observed id "remove_active_recipient_and_retry" := by
      rcases mem_insert_iff.mp hid with rfl | hid
      · exact hown hclass
      · exact hids id hid
    unfold recordRecipients at h
    rw [bind_apply] at h
    rcases hrecord : recordWorkerOomIfEvidenced env config failure.worker failure.error
        "remove_active_recipient_and_retry" (some actor) s with ⟨recorded, s₁⟩
    rw [hrecord] at h
    rcases recordWorkerOomIfEvidenced_spec hrecord with
      ⟨rfl, hs₁, -⟩ | ⟨hlogged, hrecorded, hcause⟩
    · have hobserved : s₁.observed = s.observed := by rw [hs₁]
      have hfirst : Blaming s s₁ := by
        rw [hs₁]
        exact .of_events_eq rfl (prefix_refl _) rfl
      rw [andThen_ok, if_neg Bool.false_ne_true] at h
      rw [← hobserved] at hmem hids hinsert
      split at h
      · rename_i hsingleton
        exact (ih hrest hmem (hinsert (isResourceBudgetFailure_eq _ ▸ hsingleton.2)) h).imp_left
          (blaming.trans hfirst)
      · exact (ih hrest hmem hids h).imp_left (blaming.trans hfirst)
    · have hclass := isResourceBudgetFailure_of_recorded (recorded_class hevidence hcause)
      have hfirst := hlogged.blaming (hown hclass)
      rcases hrecorded with rfl | ⟨error, rfl, -⟩
      · rw [andThen_ok, if_pos rfl] at h
        exact (ih hrest (hlogged.observed ▸ hmem) (hlogged.observed ▸ hinsert hclass) h).imp_left
          (blaming.trans hfirst)
      · cases h
        exact ⟨hfirst, fun ids hok => by cases hok⟩

theorem within_removeRecipients {actor : WorkerSpec} {error : RunnerError} {s : RunnerState ε}
    (hmem : Observation.fannedOut commands failures ∈ s.observed) :
    attributing.rel s (removeRecipients env config actor error failures s).2 := by
  unfold removeRecipients
  rw [bind_apply]
  rcases hrecord : recordRecipients env config actor failures [] s with ⟨result, s₁⟩
  obtain ⟨hblaming, hok⟩ := recordRecipients_spec hevidence actor (Subset.refl _) hmem
    (fun _ hid => absurd hid not_mem_nil) hrecord
  cases result with
  | error failure => exact hblaming.attributing
  | ok oomIds =>
    rw [andThen_ok]
    split
    · have hdrop : attributing.rel s₁
          { s₁ with active := s₁.active.filter (!oomIds.contains ·.id) } := by
        refine attributing_drop rfl rfl rfl fun worker _ hkeeps => ⟨_, hok oomIds rfl _ ?_⟩
        simpa using hkeeps
      exact attributing.trans hblaming.attributing
        (attributing.trans hdrop (within_refreshAfterRemoval hevidence _))
    · exact hblaming.attributing

/-- What is done about a failed broadcast is attributed rightly: the sender is recorded only
after a failure of its own, as the text of a failed fan-out is not marked. -/
theorem attributing_afterFailedBroadcast {actor : WorkerSpec} {s₀ s : RunnerState ε}
    (houtcome : BroadcastOutcome actor s₀ s (.error error : Except RunnerError Unit)) :
    attributing.rel s (afterFailedBroadcast env config actor error s).2 := by
  unfold afterFailedBroadcast Phase.active
  simp only [bind_apply, get_apply, andThen_ok, pure_apply]
  rcases hrecord : recordWorkerOomIfEvidenced env config actor error.text
      "remove_active_actor_and_retry" (s.active.find? (·.id != actor.id)) s with ⟨recorded, s₁⟩
  rcases recordWorkerOomIfEvidenced_spec hrecord with
    ⟨rfl, hs₁, -⟩ | ⟨hlogged, hrecorded, hcause⟩
  · have hfirst : attributing.rel s s₁ := by
      rw [hs₁]
      exact attributing_env
    rw [andThen_ok, if_neg Bool.false_ne_true]
    rcases houtcome.cause error rfl with
      ⟨command, -, -, hordinary⟩ | ⟨commands, failures, -, hmem, rfl⟩
    · cases error with
      | batch batchError => exact absurd rfl (hordinary batchError)
      | _ => exact hfirst
    · have hmem₁ : Observation.fannedOut commands failures ∈ s₁.observed := by
        rw [hs₁]
        exact hmem
      exact attributing.trans hfirst (within_removeRecipients hevidence hmem₁)
  · have hclass := recorded_class hevidence hcause
    rcases houtcome.cause error rfl with
      ⟨command, hencrypts, hmem, -⟩ | ⟨commands, failures, hfailures, hmem, rfl⟩
    · have hown : OwnFailure s.observed actor.id "remove_active_actor_and_retry" :=
        .sender hmem rfl hencrypts (isResourceBudgetFailure_of_recorded hclass)
      have hfirst := (hlogged.blaming hown).attributing
      rcases hrecorded with rfl | ⟨failure, rfl, -⟩
      · have hdrop : attributing.rel s₁
            { s₁ with active := s₁.active.filter (·.id != actor.id) } := by
          refine attributing_drop rfl rfl rfl fun worker _ hkeeps => ?_
          exact ⟨_, eq_of_bne_false hkeeps ▸ hlogged.observed ▸ hown⟩
        exact attributing.trans hfirst
          (attributing.trans hdrop (within_refreshAfterRemoval hevidence _))
      · exact hfirst
    · -- The sender is blamed for a failure of the fan-out: its text is marked.
      have hmarked (s' : RunnerState ε) (hsub : s.observed <+: s'.observed) :
          attributing.rel s s' := by
        refine ⟨hsub, fun hunmarked => ?_⟩
        have hclass' := hunmarked.class_eq_false (hsub.subset hmem) hfailures
        exact absurd (hclass'.symm.trans hclass) Bool.false_ne_true
      have hobserved : s.observed <+: s₁.observed := hlogged.observed ▸ prefix_refl _
      rcases hrecorded with rfl | ⟨failure, rfl, -⟩
      · refine hmarked _ (hobserved.trans ?_)
        exact (within_refreshAfterRemoval hevidence
          { s₁ with active := s₁.active.filter (·.id != actor.id) }).1
      · exact hmarked _ hobserved

end Failures

section Phases

/-- A sequence from one state, whose first part is known to be attributed rightly. -/
theorem attributing_bind {α β : Type} {x : Phase ε α} {f : α → Phase ε β} {s : RunnerState ε}
    (hx : attributing.rel s (x s).2) (hf : ∀ a, Within attributing (f a)) :
    attributing.rel s ((x >>= f) s).2 := by
  rw [bind_apply]
  rcases hxs : x s with ⟨result, s₁⟩
  rw [hxs] at hx
  cases result with
  | ok a => exact attributing.trans hx (hf a s₁)
  | error error => exact hx

theorem within_samplePayloadSize {source : PayloadSizeSource} :
    Within attributing (samplePayloadSize env source) := by
  cases source with
  | fixed size => exact .pure size
  | uniformRange min max =>
    exact .bind (.apply fun s => attributing_env) fun offset => .pure _

variable (hevidence : ∀ worker e, (env.oomEvidence worker e).1 = false)
  (settings : ApplicationSettings)

include hevidence

variable (plan : PayloadPlan)

theorem within_broadcastOnce (vars : BroadcastLocals)
    (active : List WorkerSpec) (actorIdx : Nat) (profiled : Option Nat) :
    Within attributing (broadcastOnce env config settings plan vars active actorIdx profiled) := by
  unfold broadcastOnce
  split
  · exact .fail _
  rename_i actor _
  refine .bind within_samplePayloadSize fun payloadSize s => ?_
  rw [bind_apply, attempt_apply, andThen_ok]
  rcases hbroadcast : broadcastMessage env config actor (active.eraseIdx actorIdx)
      (Worker.lossyText ((deterministicPayload payloadSize settings.plateauSize payloadSize
        vars.seqNo actor.id).getD []))
      payloadSize (profiled.bind fun idx => (active[idx]?).map (·.id)) s with ⟨result, s₁⟩
  have houtcome : BroadcastOutcome actor s s₁ result :=
    (PartOfBroadcast.broadcastMessage _ _ _ _).of_eq hbroadcast
  rw [hbroadcast]
  cases result with
  | ok done => exact houtcome.blaming.attributing
  | error error =>
    refine attributing.trans houtcome.blaming.attributing ?_
    exact attributing_bind (attributing_afterFailedBroadcast hevidence houtcome)
      fun _ => .pure vars

theorem within_broadcastRounds (rounds : Nat) (vars : BroadcastLocals) :
    Within attributing (broadcastRounds env config settings plan rounds vars) := by
  induction rounds generalizing vars with
  | zero => exact .fail _
  | succ rounds ih =>
    unfold broadcastRounds
    refine .bind (.bind .get fun s => .pure _) fun active => ?_
    split
    · exact .pure false
    · exact .pure true
    · exact .bind (within_broadcastOnce hevidence settings plan vars active _ _) fun vars' => ih vars'

theorem within_payloadSources {rounds basePerPayloadCount : Nat}
    {sources : List PayloadSizeSource} :
    Within attributing (payloadSources env config settings rounds basePerPayloadCount
      sources) := by
  induction sources with
  | nil => exact .pure ()
  | cons source sources ih =>
    unfold payloadSources
    refine .bind (.bind .get fun s => .pure _) fun active => ?_
    refine .bind (within_broadcastRounds hevidence settings _ rounds _) fun goesOn => ?_
    split
    · exact ih
    · exact .pure ()

theorem within_runApplicationPhase {rounds : Nat} :
    Within attributing (runApplicationPhase env config settings rounds) := by
  unfold runApplicationPhase
  refine .bind (.bind .get fun s => .pure _) fun active => ?_
  simp only
  split_ifs
  · exact .pure ()
  · exact .pure ()
  · exact within_payloadSources hevidence settings

/-- In every application phase in which no failed fan-out has a marked text, whoever was
removed or recorded had a command of its own fail with a resource error during the phase. -/
theorem runApplicationPhase_attributes (s : RunnerState ε) (rounds : Nat)
    (hunmarked : Unmarked
      (runApplicationPhase env config settings rounds { s with observed := [] }).2.observed) :
    Attributed s (runApplicationPhase env config settings rounds { s with observed := [] }).2 := by
  obtain ⟨-, hattributed⟩ := within_runApplicationPhase hevidence settings
    { s with observed := [] }
  exact ⟨(hattributed hunmarked).active, (hattributed hunmarked).events⟩

end Phases

section Cases

/-- A worker in a container of its own. -/
abbrev singleton (id : String) : WorkerSpec := ⟨id, id, .singleton, true⟩

/-- An environment in which every command and every fan-out ends in the same way. -/
abbrev uniformEnvironment (answer : Worker.CommandResponse) (failures : List FanoutFailure) :
    RunnerEnvironment Unit where
  send _ _ _ _ := (.ok answer, ())
  fanout _ _ := (failures, ())
  oomEvidence _ _ := (false, ())
  random _ _ := (0, ())

abbrev pairwiseRun : RunnerConfig := ⟨.pairwise, 0, false⟩

abbrev oneBroadcast : ApplicationSettings := ⟨2, 1, 1, 0, [], .fixed [1]⟩

/-- Of two active workers the second one broadcasts first. -/
abbrev bobAndAlice : RunnerState Unit :=
  ⟨(), [singleton "bob", singleton "alice"], [], [], [], 1, []⟩

/-- Alice's encrypt command fails with a resource error and Alice is removed. -/
theorem runApplicationPhase_removes_sender :
    (runApplicationPhase (uniformEnvironment ⟨"error", "app_heap_budget_exceeded"⟩ []) pairwiseRun
      oneBroadcast 2 bobAndAlice).2.active = [singleton "bob"] ∧
    Attributed bobAndAlice (runApplicationPhase
      (uniformEnvironment ⟨"error", "app_heap_budget_exceeded"⟩ []) pairwiseRun oneBroadcast 2
      bobAndAlice).2 :=
  ⟨by decide +kernel, runApplicationPhase_attributes (fun _ _ => rfl) oneBroadcast bobAndAlice 2
    (by decide +kernel)⟩

/-- The observation says that a command or an item of this worker failed with a resource
error. -/
def Observation.blames (id : String) : Observation → Bool
  | .answered worker _ (.error error) => worker.id == id && isResourceBudgetFailure error.text
  | .answered _ _ (.ok _) => false
  | .fannedOut _ failures =>
    failures.any fun failure => failure.worker.id == id && isResourceBudgetFailure failure.error

theorem OwnFailure.blames {observed : List Observation} {id action : String}
    (h : OwnFailure observed id action) : observed.any (·.blames id) = true := by
  cases h with
  | sender hmem hid hencrypts hclass | endpoint hmem hid hclass =>
    exact any_eq_true.mpr ⟨_, hmem, by simp [Observation.blames, hid, hclass]⟩
  | recipient hmem hfailure hid hclass =>
    refine any_eq_true.mpr ⟨_, hmem, any_eq_true.mpr ⟨_, hfailure, ?_⟩⟩
    simp [hid, hclass]

/-- Bob's decrypt item fails with a resource error, and Alice is recorded and removed although
every command of Alice succeeded; Bob stays. -/
theorem runApplicationPhase_blames_sender :
    let env := uniformEnvironment ⟨"ok", "encrypted and sent"⟩
      [⟨singleton "bob", "app_heap_budget_exceeded"⟩]
    let s' := (runApplicationPhase env pairwiseRun oneBroadcast 2 bobAndAlice).2
    s'.active = [singleton "bob"] ∧ s'.events.map (·.failedWorkerId) = ["alice"] ∧
      ∀ action, ¬OwnFailure s'.observed "alice" action := by
  intro env s'
  have hrun : s'.active = [singleton "bob"] ∧ s'.events.map (·.failedWorkerId) = ["alice"] ∧
      s'.observed.any (·.blames "alice") = false := by
    decide +kernel
  refine ⟨hrun.1, hrun.2.1, fun action hown => ?_⟩
  exact absurd hown.blames (Bool.eq_false_iff.mp hrun.2.2)

end Cases

end MessagingBench.Signal
