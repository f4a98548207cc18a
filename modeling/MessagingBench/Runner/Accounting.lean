import MessagingBench.Runner.Fanout

/-!
# Accounting for every client of a fan-out

A client that a batch response leaves out is neither a success nor a failure: its command is
not sent again, and the fan-out may report success without it. If every parsed response has
an item for each command that was posted, no client is lost.
-/

namespace MessagingBench.Runner

open List Worker

variable {workers : List WorkerSpec}

/-- The end of a post reports a failure of a client. -/
def FailedIn (attempt : Posted × Exchange) (client : String) : Prop :=
  match attempt.2 with
  | .parsed items => ∃ item ∈ items, item.clientId = client ∧ item.response.status ≠ "ok"
  | _ => ∃ command ∈ attempt.1.batch.commands, command.clientId = client

/-- The end of a post reports a success of a client. -/
def SucceededIn (attempt : Posted × Exchange) (client : String) : Prop :=
  match attempt.2 with
  | .parsed items => ∃ item ∈ items, item.clientId = client ∧ item.response.status = "ok"
  | _ => False

/-- A client shows the state that it should have. -/
def reaches : ExpectedReceiveCommitState → Except String GroupStateSnapshot → Bool
  | .group state, .ok snapshot => state.matches snapshot
  | .removed _, .error text => containsText "Client is not in a group" text
  | _, _ => false

variable (expectedByClient : Option (String → Option ExpectedReceiveCommitState))

def Query.Reconciles
    (query : Query) : Prop :=
  ∃ expected ∈ expectedByClient.bind (· query.worker.id), reaches expected query.shown = true

namespace PassRecord

variable (record : PassRecord) (client : String)

def Fails : Prop := ∃ attempt ∈ record.attempts, FailedIn attempt client

def Succeeds : Prop := ∃ attempt ∈ record.attempts, SucceededIn attempt client

def Reconciled (expectedByClient : Option (String → Option ExpectedReceiveCommitState)) : Prop :=
  ∃ query ∈ record.queries, query.worker.id = client ∧ query.Reconciles expectedByClient

end PassRecord

/-- A client had an ok item in some pass or was found in its expected state. -/
def Settled
    (passes : List PassRecord) (client : String) : Prop :=
  ∃ record ∈ passes, record.Succeeds client ∨ record.Reconciled client expectedByClient

/-- A response that was parsed has an item for every command of its post. -/
def answersAll (attempt : Posted × Exchange) : Bool :=
  match attempt.2 with
  | .parsed items => attempt.1.batch.commands.all fun command =>
      items.any fun item => item.clientId == command.clientId
  | _ => true

/-- Some command is meant for a client. -/
def Named (commandsByPhysical : List Batch) (client : String) : Prop :=
  ∃ batch ∈ commandsByPhysical, ∃ command ∈ batch.commands, command.clientId = client

/-- If a fan-out returns success then every client is settled, and every client that is
not settled is among the failures of the returned error. -/
structure NoSilentLoss (workers : List WorkerSpec) (commandsByPhysical : List Batch)
    (expectedByClient : Option (String → Option ExpectedReceiveCommitState))
    (result : Except BatchFanoutError Unit) (passes : List PassRecord) : Prop where
  settled : result = .ok () → ∀ client, Named commandsByPhysical client →
    (workersById workers client).isSome → Settled expectedByClient passes client
  listed : ∀ client, Named commandsByPhysical client → (workersById workers client).isSome →
    ¬Settled expectedByClient passes client → ∃ error, result = .error error ∧
      ∃ failure ∈ error.failures, failure.worker.id = client

section Collecting

variable {client : String}

theorem workersById_id {id : String} {worker : WorkerSpec}
    (h : workersById workers id = some worker) : worker.id = id := by
  simpa using find?_some h

theorem mem_failAll {commands : List BatchFanoutCommand} {error : String} :
    (∃ failure ∈ failAll workers commands error, failure.worker.id = client) ↔
      (∃ command ∈ commands, command.clientId = client) ∧ (workersById workers client).isSome := by
  unfold failAll
  constructor
  · rintro ⟨failure, hmem, rfl⟩
    obtain ⟨command, hcommand, hfailure⟩ := mem_filterMap.mp hmem
    obtain ⟨worker, hworker, rfl⟩ := Option.map_eq_some_iff.mp hfailure
    have hid := workersById_id hworker
    rw [← hid] at hworker
    exact ⟨⟨command, hcommand, hid.symm⟩, Option.isSome_iff_exists.mpr ⟨worker, hworker⟩⟩
  · rintro ⟨⟨command, hcommand, rfl⟩, hsome⟩
    obtain ⟨worker, hworker⟩ := Option.isSome_iff_exists.mp hsome
    refine ⟨⟨worker, error⟩, mem_filterMap.mpr ⟨command, hcommand, ?_⟩, workersById_id hworker⟩
    rw [hworker]
    rfl

theorem mem_itemFailures {items : List BatchCommandResult} :
    (∃ failure ∈ items.filterMap (itemFailure workers), failure.worker.id = client) ↔
      (∃ item ∈ items, item.clientId = client ∧ item.response.status ≠ "ok") ∧
        (workersById workers client).isSome := by
  unfold itemFailure
  constructor
  · rintro ⟨failure, hmem, rfl⟩
    obtain ⟨item, hitem, hfailure⟩ := mem_filterMap.mp hmem
    split at hfailure
    · cases hfailure
    rename_i hstatus
    obtain ⟨worker, hworker, rfl⟩ := Option.map_eq_some_iff.mp hfailure
    have hid := workersById_id hworker
    rw [← hid] at hworker
    exact ⟨⟨item, hitem, hid.symm, hstatus⟩, Option.isSome_iff_exists.mpr ⟨worker, hworker⟩⟩
  · rintro ⟨⟨item, hitem, rfl, hstatus⟩, hsome⟩
    obtain ⟨worker, hworker⟩ := Option.isSome_iff_exists.mp hsome
    refine ⟨⟨worker, "client " ++ item.clientId ++ " batch error: " ++ item.response.message⟩,
      mem_filterMap.mpr ⟨item, hitem, ?_⟩, workersById_id hworker⟩
    rw [if_neg hstatus, hworker]
    rfl

/-- The failures of a post are the known clients that its end reports as failed. -/
theorem mem_failures_collectPhysical {attempt : Posted × Exchange} :
    (∃ failure ∈ (batchFanoutCollectPhysical workers attempt.1.batch.commands attempt.2).failures,
      failure.worker.id = client) ↔
        FailedIn attempt client ∧ (workersById workers client).isSome := by
  obtain ⟨posted, exchange⟩ := attempt
  cases exchange with
  | parsed items => exact mem_itemFailures
  | unparsable | rejected | failed => exact mem_failAll

theorem mem_failures_collectPass {attempts : List (Posted × Exchange)} :
    (∃ failure ∈ (batchFanoutCollectPass workers attempts).failures,
      failure.worker.id = client) ↔
        (∃ attempt ∈ attempts, FailedIn attempt client) ∧ (workersById workers client).isSome := by
  simp only [batchFanoutCollectPass, mem_flatMap, mem_map]
  constructor
  · rintro ⟨failure, ⟨_, ⟨attempt, hattempt, rfl⟩, hmem⟩, rfl⟩
    obtain ⟨hfailed, hsome⟩ := mem_failures_collectPhysical.mp ⟨failure, hmem, rfl⟩
    exact ⟨⟨attempt, hattempt, hfailed⟩, hsome⟩
  · rintro ⟨⟨attempt, hattempt, hfailed⟩, hsome⟩
    obtain ⟨failure, hmem, hid⟩ := mem_failures_collectPhysical.mpr ⟨hfailed, hsome⟩
    exact ⟨failure, ⟨_, ⟨attempt, hattempt, rfl⟩, hmem⟩, hid⟩

end Collecting

section Reconciling

variable {ε : Type} (env : Environment ε)

theorem receiveCommitReconciledByState_iff {worker : WorkerSpec}
    {expected : ExpectedReceiveCommitState} {originalError : String}
    {shown : Except String GroupStateSnapshot} :
    receiveCommitReconciledByState worker expected originalError shown = .ok true ↔
      reaches expected shown = true := by
  cases shown with
  | ok snapshot =>
    cases expected with
    | group state =>
      simp only [receiveCommitReconciledByState, reaches]
      cases hmatches : state.matches snapshot with
      | true => simp
      | false =>
        simp only [Bool.false_eq_true, ite_false, iff_false]
        split
        · simp
        · simp
    | removed => simp [receiveCommitReconciledByState, reaches]
  | error text =>
    cases expected with
    | group state => simp [receiveCommitReconciledByState, reaches]
    | removed =>
      simp only [receiveCommitReconciledByState, reaches]
      cases containsText "Client is not in a group" text with
      | true => simp
      | false => simp

variable (expected : String → Option ExpectedReceiveCommitState)

/-- Reconciliation keeps the client of a failure, and marks it exactly if it asked the
client and found it in its expected state. -/
theorem reconcileFailure_spec (failure : FanoutFailure) (e : ε) :
    (reconcileFailure env expected failure e).1.remaining.map (·.worker) = [failure.worker] ∧
      ∀ client, client ∈ (reconcileFailure env expected failure e).1.reconciledIds ↔
        ∃ query ∈ (reconcileFailure env expected failure e).1.queries,
          query.worker.id = client ∧ query.Reconciles (some expected) := by
  have hnone : ∀ client, client ∈ ([] : List String) ↔ ∃ query ∈ ([] : List Query),
      query.worker.id = client ∧ query.Reconciles (some expected) := by simp
  unfold reconcileFailure
  split
  · exact ⟨rfl, hnone⟩
  rename_i state hstate
  split
  · exact ⟨rfl, hnone⟩
  have hreconciles : Query.Reconciles (some expected)
      ⟨failure.worker, (env.showGroupState failure.worker e).1⟩ ↔
        receiveCommitReconciledByState failure.worker state failure.error
          (env.showGroupState failure.worker e).1 = .ok true := by
    rw [receiveCommitReconciledByState_iff]
    simp [Query.Reconciles, hstate]
  simp only
  split
  · rename_i hresult
    exact ⟨rfl, by simp [hreconciles, hresult, eq_comm]⟩
  · rename_i hresult
    exact ⟨rfl, by simp [hreconciles, hresult]⟩
  · rename_i hresult
    exact ⟨rfl, by simp [hreconciles, hresult]⟩

theorem reconcileFailures_spec (failures : List FanoutFailure) (e : ε) :
    (reconcileFailures env expected failures e).1.remaining.map (·.worker) =
        failures.map (·.worker) ∧
      ∀ client, client ∈ (reconcileFailures env expected failures e).1.reconciledIds ↔
        ∃ query ∈ (reconcileFailures env expected failures e).1.queries,
          query.worker.id = client ∧ query.Reconciles (some expected) := by
  induction failures generalizing e with
  | nil => simp [reconcileFailures]
  | cons failure failures ih =>
    obtain ⟨hfirst, hmarked⟩ := reconcileFailure_spec env expected failure e
    obtain ⟨hrest, hmarked'⟩ := ih (reconcileFailure env expected failure e).2
    refine ⟨?_, fun client => ?_⟩
    · simp only [reconcileFailures, map_append, hfirst, hrest]
      rfl
    · simp only [reconcileFailures, mem_append, hmarked, hmarked', or_and_right, exists_or]

theorem mem_reconcileBatchReceiveFailures
    (expectedByClient : Option (String → Option ExpectedReceiveCommitState))
    (failures : List FanoutFailure) (e : ε) (client : String) :
    (∃ failure ∈ (reconcileBatchReceiveFailures env expectedByClient failures e).1.2.1,
      failure.worker.id = client) ↔
        (∃ failure ∈ failures, failure.worker.id = client) ∧
          ¬∃ query ∈ (reconcileBatchReceiveFailures env expectedByClient failures e).1.2.2,
            query.worker.id = client ∧ query.Reconciles expectedByClient := by
  cases expectedByClient with
  | none => simp [reconcileBatchReceiveFailures]
  | some expected =>
    obtain ⟨hkept, hmarked⟩ := reconcileFailures_spec env expected failures e
    have hids : (∃ failure ∈ (reconcileFailures env expected failures e).1.remaining,
        failure.worker.id = client) ↔ ∃ failure ∈ failures, failure.worker.id = client := by
      have hmem := congrArg (fun workers => ∃ worker ∈ workers, worker.id = client) hkept
      simpa using hmem
    simp only [reconcileBatchReceiveFailures, partitionBatchFailuresByReconciledState,
      mem_filter, Bool.not_eq_eq_eq_not, Bool.not_true, contains_eq_mem,
      decide_eq_false_iff_not]
    rw [← hids, ← hmarked]
    constructor
    · rintro ⟨failure, ⟨hmem, hnot⟩, rfl⟩
      exact ⟨⟨failure, hmem, rfl⟩, hnot⟩
    · rintro ⟨⟨failure, hmem, rfl⟩, hnot⟩
      exact ⟨failure, ⟨hmem, hnot⟩, rfl⟩

end Reconciling

section Passes

variable {ε : Type} (env : Environment ε) (workers : List WorkerSpec) {client : String}
  (expectedByClient : Option (String → Option ExpectedReceiveCommitState)) {s : FanoutState}
  {retryPass : Nat} {rest : List Nat}

/-- A complete response mentions every client that a command was posted for. -/
theorem reported_of_answersAll {attempt : Posted × Exchange} (h : answersAll attempt = true)
    {command : BatchFanoutCommand} (hcommand : command ∈ attempt.1.batch.commands) :
    FailedIn attempt command.clientId ∨ SucceededIn attempt command.clientId := by
  obtain ⟨posted, exchange⟩ := attempt
  cases exchange with
  | parsed items =>
    obtain ⟨item, hitem, hid⟩ := any_eq_true.mp (all_eq_true.mp h command hcommand)
    by_cases hstatus : item.response.status = "ok"
    · exact .inr ⟨item, hitem, beq_iff_eq.mp hid, hstatus⟩
    · exact .inl ⟨item, hitem, beq_iff_eq.mp hid, hstatus⟩
  | failed | rejected | unparsable => exact .inl ⟨command, hcommand, rfl⟩

/-- The failures after a pass are the known clients that failed and were not reconciled. -/
theorem mem_failures_fanoutPass (retryPass : Nat) (s : FanoutState) (e : ε) (client : String) :
    ∃ record, (fanoutPass env workers expectedByClient retryPass s e).1.passes =
        s.passes ++ [record] ∧
      record.attempts = (env.complete (s.retryCommands.map (post workers)) e).1.attempts ∧
      ((∃ failure ∈ (fanoutPass env workers expectedByClient retryPass s e).1.failures,
          failure.worker.id = client) ↔
        record.Fails client ∧ (workersById workers client).isSome ∧
          ¬record.Reconciled client expectedByClient) := by
  have hreconciled := mem_reconcileBatchReceiveFailures env expectedByClient
    (batchFanoutCollectPass workers
      (env.complete (s.retryCommands.map (post workers)) e).1.attempts).failures
    (env.complete (s.retryCommands.map (post workers)) e).2 client
  rw [mem_failures_collectPass, and_assoc] at hreconciled
  exact ⟨_, rfl, rfl, hreconciled⟩

/-- Passes are only ever added. -/
theorem mem_passes {record : PassRecord} (h : record ∈ s.passes) (retryPasses : List Nat) (e : ε) :
    record ∈ (fanoutPasses env workers expectedByClient retryPasses s e).1.passes := by
  induction retryPasses generalizing s e with
  | nil => exact h
  | cons retryPass rest ih =>
    unfold fanoutPasses
    split
    · exact h
    · exact ih (mem_append_left _ h) _

/-- The commands of failed clients are sent again unchanged. -/
theorem mem_retryBatchCommandsForFailures {commandsByPhysical : List Batch}
    {failures : List FanoutFailure} {batch : Batch} {command : BatchFanoutCommand}
    (hbatch : batch ∈ commandsByPhysical) (hcommand : command ∈ batch.commands)
    (hfailed : ∃ failure ∈ failures, failure.worker.id = command.clientId) :
    ∃ batch' ∈ retryBatchCommandsForFailures commandsByPhysical failures,
      batch'.physicalId = batch.physicalId ∧ command ∈ batch'.commands := by
  have hmem : command ∈ batch.commands.filter fun command =>
      (failures.map (·.worker.id)).contains command.clientId := by
    simpa [mem_filter, hcommand] using hfailed
  refine ⟨_, mem_filterMap.mpr ⟨batch, hbatch, if_neg ?_⟩, rfl, hmem⟩
  simpa using ne_nil_of_mem hmem

section

variable {e : ε}
  (hcomplete : ∀ record ∈ (fanoutPasses env workers expectedByClient (retryPass :: rest) s e).1.passes,
    ∀ attempt ∈ record.attempts, answersAll attempt = true)
  (hsettled : ¬Settled expectedByClient
    (fanoutPasses env workers expectedByClient (retryPass :: rest) s e).1.passes client)
  (hknown : (workersById workers client).isSome) (hnamed : Named s.retryCommands client)
include hcomplete hsettled hknown hnamed

/-- A client that is asked, and not settled by complete responses, is among the failures of the
next pass and is asked again. -/
theorem fanoutPasses_cons :
    ∃ s' e', fanoutPasses env workers expectedByClient (retryPass :: rest) s e =
        fanoutPasses env workers expectedByClient rest s' e' ∧
      (∃ failure ∈ s'.failures, failure.worker.id = client) ∧ Named s'.retryCommands client := by
  obtain ⟨batch, hbatch, command, hcommand, rfl⟩ := hnamed
  have hcommands : ¬s.retryCommands.isEmpty = true := by simpa using ne_nil_of_mem hbatch
  obtain ⟨record, hpasses, hattempts, hfailures⟩ :=
    mem_failures_fanoutPass env workers expectedByClient retryPass s e command.clientId
  rw [fanoutPasses, if_neg hcommands] at hcomplete hsettled ⊢
  have hrecord := mem_passes env workers expectedByClient (hpasses ▸ mem_concat_self) rest
    (fanoutPass env workers expectedByClient retryPass s e).2
  have hposted := (env.complete (s.retryCommands.map (post workers)) e).1.perm
  rw [← hattempts] at hposted
  obtain ⟨attempt, hattempt, hpost⟩ :=
    mem_map.mp (hposted.mem_iff.mpr (mem_map_of_mem hbatch))
  have hmem : command ∈ attempt.1.batch.commands := by
    rw [hpost]
    exact hcommand
  have hfailed : record.Fails command.clientId := by
    rcases reported_of_answersAll (hcomplete record hrecord attempt hattempt) hmem with
      hfailed | hsucceeded
    · exact ⟨attempt, hattempt, hfailed⟩
    · exact absurd ⟨record, hrecord, .inl ⟨attempt, hattempt, hsucceeded⟩⟩ hsettled
  have hlisted := hfailures.mpr ⟨hfailed, hknown, fun hreconciled =>
    hsettled ⟨record, hrecord, .inr hreconciled⟩⟩
  obtain ⟨batch', hbatch', -, hagain⟩ := mem_retryBatchCommandsForFailures hbatch hcommand hlisted
  exact ⟨_, _, rfl, hlisted, batch', hbatch', command, hagain, rfl⟩

theorem fanoutPasses_failed :
    ∃ failure ∈ (fanoutPasses env workers expectedByClient (retryPass :: rest) s e).1.failures,
      failure.worker.id = client := by
  induction rest generalizing retryPass s e with
  | nil =>
    obtain ⟨s', e', hpass, hlisted, -⟩ :=
      fanoutPasses_cons env workers expectedByClient hcomplete hsettled hknown hnamed
    rw [hpass]
    exact hlisted
  | cons next rest ih =>
    obtain ⟨s', e', hpass, -, hagain⟩ :=
      fanoutPasses_cons env workers expectedByClient hcomplete hsettled hknown hnamed
    rw [hpass] at hcomplete hsettled ⊢
    exact ih hcomplete hsettled hagain

end

end Passes

section Losses

variable {ε : Type} (env : Environment ε) (workers : List WorkerSpec)
  (expectedByClient : Option (String → Option ExpectedReceiveCommitState))
  (phase operation : String) (commandsByPhysical : List Batch) (e : ε)

/-- If every parsed response has an item for each command that was posted with it, a fan-out
loses no client silently. -/
theorem noSilentLoss_of_complete
    (hcomplete : ∀ record ∈ (fanout env workers expectedByClient commandsByPhysical e).1.passes,
      ∀ attempt ∈ record.attempts, answersAll attempt = true) :
    NoSilentLoss workers commandsByPhysical expectedByClient
      (batchFanoutWorkers env workers expectedByClient phase operation commandsByPhysical e).1
      (fanout env workers expectedByClient commandsByPhysical e).1.passes := by
  have hresult : (batchFanoutWorkers env workers expectedByClient phase operation
      commandsByPhysical e).1 =
        if (fanout env workers expectedByClient commandsByPhysical e).1.failures = [] then .ok ()
        else .error ⟨phase, operation,
          (fanout env workers expectedByClient commandsByPhysical e).1.failures⟩ := by
    simp [batchFanoutWorkers]
  have hfailed : ∀ client, Named commandsByPhysical client →
      (workersById workers client).isSome → ¬Settled expectedByClient
        (fanout env workers expectedByClient commandsByPhysical e).1.passes client →
      ∃ failure ∈ (fanout env workers expectedByClient commandsByPhysical e).1.failures,
        failure.worker.id = client :=
    fun client hnamed hknown hsettled =>
      fanoutPasses_failed env workers expectedByClient hcomplete hsettled hknown hnamed
  rw [hresult]
  constructor
  · intro hresult client hnamed hknown
    by_contra hsettled
    obtain ⟨failure, hmem, -⟩ := hfailed client hnamed hknown hsettled
    rw [if_neg (ne_nil_of_mem hmem)] at hresult
    cases hresult
  · intro client hnamed hknown hsettled
    obtain ⟨failure, hmem, hid⟩ := hfailed client hnamed hknown hsettled
    rw [if_neg (ne_nil_of_mem hmem)]
    exact ⟨_, rfl, failure, hmem, hid⟩

end Losses

/-- Every post is answered, with the same response to each of its commands. -/
def PassCompletion.answered (posted : List Posted) (response : CommandResponse) :
    PassCompletion posted where
  attempts := posted.map fun post => (post, .parsed (post.items.map fun item =>
    ⟨item.clientId, item.requestId, response⟩))
  perm := by simp [Function.comp_def]

/-- An environment that ends the posts of each pass as listed and knows no group state. -/
def scripted : Environment (List (List Exchange)) where
  complete posted script :=
    (⟨posted.zipIdx.map fun entry =>
        (entry.1, ((script.head?.getD [])[entry.2]?).getD (.failed "connection refused")),
      by simp [Function.comp_def]⟩, script.tail)
  showGroupState _ script := (.error "connection refused", script)

def bob : WorkerSpec :=
  ⟨"bob", "http://worker-1:8080/client/bob", "worker-1", .packed, false, ""⟩

/-- The command for bob in a batch of its own. -/
def bobReceives : List Batch :=
  [⟨"worker-1", [⟨"bob", some "runner-1-bob-receive_commit-0", .receiveCommit, some 1⟩]⟩]

/-- Bob's command fails in the first pass and succeeds in the second. -/
theorem noSilentLoss_secondPass :
    (batchFanoutWorkers scripted [bob] none "update" "receive_commit" bobReceives
        [[.parsed [⟨"bob", none, ⟨"error", "busy"⟩⟩]], [.parsed [⟨"bob", none, ⟨"ok", "done"⟩⟩]]]).1 =
          .ok () ∧
      NoSilentLoss [bob] bobReceives none
        (batchFanoutWorkers scripted [bob] none "update" "receive_commit" bobReceives
          [[.parsed [⟨"bob", none, ⟨"error", "busy"⟩⟩]],
            [.parsed [⟨"bob", none, ⟨"ok", "done"⟩⟩]]]).1
        (fanout scripted [bob] none bobReceives [[.parsed [⟨"bob", none, ⟨"error", "busy"⟩⟩]],
          [.parsed [⟨"bob", none, ⟨"ok", "done"⟩⟩]]]).1.passes :=
  ⟨rfl, noSilentLoss_of_complete scripted [bob] none "update" "receive_commit" bobReceives _
    (by decide)⟩

/-- The physical worker answers without an item for bob: the fan-out reports success
although bob has done nothing. -/
theorem silentLoss_droppedItem :
    (batchFanoutWorkers scripted [bob] none "update" "receive_commit" bobReceives
        [[.parsed []]]).1 = .ok () ∧
      ¬NoSilentLoss [bob] bobReceives none
        (batchFanoutWorkers scripted [bob] none "update" "receive_commit" bobReceives
          [[.parsed []]]).1
        (fanout scripted [bob] none bobReceives [[.parsed []]]).1.passes := by
  refine ⟨rfl, fun h => ?_⟩
  have hpasses : (fanout scripted [bob] none bobReceives [[.parsed []]]).1.passes =
      [⟨bobReceives.map fun batch => (post [bob] batch, .parsed []), []⟩] := rfl
  obtain ⟨record, hrecord, hsettled⟩ := h.settled rfl "bob" (by simp [Named, bobReceives]) rfl
  rw [hpasses] at hrecord
  obtain rfl := mem_singleton.mp hrecord
  rcases hsettled with ⟨attempt, hattempt, hsucceeded⟩ | ⟨query, hquery, -⟩
  · obtain ⟨batch, -, rfl⟩ := mem_map.mp hattempt
    obtain ⟨item, hitem, -⟩ := hsucceeded
    cases hitem
  · cases hquery

end MessagingBench.Runner
