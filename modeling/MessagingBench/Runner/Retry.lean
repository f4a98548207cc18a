import MessagingBench.Runner.Accounting

/-!
# Retrying a command that has failed

The retry pass of a fan-out sends a failed command again under the same request id, and
the actor of the client caches every response under its request id, errors included. So
the command is executed again only if the response of its first execution has already
left the cache; otherwise the retry pass is answered with the old error.
-/

namespace MessagingBench.Runner

open List Worker

variable {σ ε : Type}

/-- A command as it reaches the actor of its client. -/
def BatchFanoutCommand.arrival (command : BatchFanoutCommand) (task : ItemTask σ) : Arrival σ :=
  (batchCommandItem command).arrival task

/-- A response to a command reached the runner with one of the posts of a pass. -/
def Reached (attempts : List (Posted × Exchange)) (command : BatchFanoutCommand)
    (handled : Handled) : Prop :=
  ∃ attempt ∈ attempts, ∃ items, attempt.2 = .parsed items ∧
    ⟨command.clientId, command.requestId, handled.response⟩ ∈ items

/-- The outcome of a pass counts a client as a success. -/
def ReportsSuccess (workers : List WorkerSpec) (attempts : List (Posted × Exchange))
    (client : String) : Prop :=
  ∃ worker ∈ (batchFanoutCollectPass workers attempts).successes, worker.id = client

/-- A command that is handled by an actor again is executed again; if the execution
succeeds and the response reaches the runner, the pass reports success. -/
structure Retries (workers : List WorkerSpec) (command : BatchFanoutCommand) (slot : ClientSlot σ)
    (task : ItemTask σ) : Prop where
  executed : (slot.clientCommandActor (command.arrival task)).1.executed = true
  succeeds : ∀ message, (task.run slot.state).1 = .ok message → ∀ attempts,
    Reached attempts command (slot.clientCommandActor (command.arrival task)).1 →
    ReportsSuccess workers attempts command.clientId

section Retries

variable {workers : List WorkerSpec} {command : BatchFanoutCommand} {slot : ClientSlot σ}
  {task : ItemTask σ} {attempts : List (Posted × Exchange)} {handled : Handled}

theorem Reached.reportsSuccess (h : Reached attempts command handled)
    (hstatus : handled.response.status = "ok")
    (hknown : (workersById workers command.clientId).isSome) :
    ReportsSuccess workers attempts command.clientId := by
  obtain ⟨attempt, hattempt, items, hitems, hmem⟩ := h
  obtain ⟨worker, hworker⟩ := Option.isSome_iff_exists.mp hknown
  refine ⟨worker, ?_, workersById_id hworker⟩
  simp only [batchFanoutCollectPass, mem_flatMap, mem_map]
  refine ⟨_, ⟨attempt, hattempt, rfl⟩, ?_⟩
  rw [hitems]
  exact mem_filterMap.mpr ⟨_, hmem, by simp [itemSuccess, hstatus, hworker]⟩

theorem Reached.fails {queries : List Query} (h : Reached attempts command handled)
    (hstatus : handled.response.status ≠ "ok") :
    PassRecord.Fails ⟨attempts, queries⟩ command.clientId := by
  obtain ⟨⟨posted, exchange⟩, hattempt, items, hitems, hmem⟩ := h
  cases hitems
  exact ⟨_, hattempt, _, hmem, rfl, hstatus⟩

theorem retries_iff_executed (hknown : (workersById workers command.clientId).isSome) :
    Retries workers command slot task ↔
      (slot.clientCommandActor (command.arrival task)).1.executed = true := by
  refine ⟨Retries.executed, fun hexecuted => ⟨hexecuted, ?_⟩⟩
  intro message hrun attempts hreached
  have hcached := ClientSlot.clientCommandActor_executed_iff.mp hexecuted
  have hhandled := (ClientSlot.clientCommandActor_execute hcached).1
  refine hreached.reportsSuccess ?_ hknown
  rw [hhandled]
  have hresult : ((command.arrival task).run slot.state).1 = .ok message := hrun
  rw [hresult]
  rfl

end Retries

/-- A command that was answered with an error which reached the runner is sent again
unchanged unless its client has been reconciled. The actor, having handled other
commands in between, executes it again iff it has no request id or no response under its request id
is among the completions that the cache still remembers. -/
theorem retries_iff (env : Environment ε) (workers : List WorkerSpec)
    (expectedByClient : Option (String → Option ExpectedReceiveCommitState)) (retryPass : Nat)
    (s : FanoutState) (e : ε) {batch : Batch} {command : BatchFanoutCommand}
    (hbatch : batch ∈ s.retryCommands) (hcommand : command ∈ batch.commands)
    (hknown : (workersById workers command.clientId).isSome)
    (state : σ) (maxEntries ttl clock : Nat) (earlier between : List (Arrival σ))
    (first retry : ItemTask σ)
    (herror : ((execute ClientSlot.step (.new state maxEntries ttl clock)
      earlier).clientCommandActor (command.arrival first)).1.response.status ≠ "ok")
    (hreached : Reached (env.complete (s.retryCommands.map (post workers)) e).1.attempts command
      ((execute ClientSlot.step (.new state maxEntries ttl clock)
        earlier).clientCommandActor (command.arrival first)).1)
    (hleft : ∀ record ∈ (fanoutPass env workers expectedByClient retryPass s e).1.passes.getLast?,
      ¬record.Reconciled command.clientId expectedByClient) :
    (∃ batch' ∈ (fanoutPass env workers expectedByClient retryPass s e).1.retryCommands,
      batch'.physicalId = batch.physicalId ∧ command ∈ batch'.commands) ∧
    (Retries workers command (execute ClientSlot.step (.new state maxEntries ttl clock)
        (earlier ++ command.arrival first :: between)) retry ↔
      ∀ requestId, command.requestId = some requestId → requestId ∉
        ((execute ClientSlot.step (.new state maxEntries ttl clock)
          (earlier ++ command.arrival first :: between)).replayable
            ((ClientSlot.new state maxEntries ttl clock).history
              (earlier ++ command.arrival first :: between)) (command.arrival retry)).keys) := by
  constructor
  · refine mem_retryBatchCommandsForFailures hbatch hcommand ?_
    obtain ⟨record, hpasses, hattempts, hfailures⟩ :=
      mem_failures_fanoutPass env workers expectedByClient retryPass s e command.clientId
    refine hfailures.mpr ⟨?_, hknown, hleft record (by rw [hpasses]; exact getLast?_concat)⟩
    rw [← hattempts] at hreached
    exact hreached.fails herror
  · rw [retries_iff_executed hknown]
    exact ClientSlot.executed_iff

/-- Bob finds no commit when he is asked to receive one. -/
def noCommit : ItemTask Unit :=
  ⟨0, 1, fun state => (.error "DS GET failed with status 404 Not Found", state), true⟩

/-- The commit has arrived when bob is asked again after some time. -/
def commitArrived (waited : Nat) : ItemTask Unit :=
  ⟨waited, 1, fun state => (.ok "commit received", state), true⟩

def bobCommand : BatchFanoutCommand :=
  ⟨"bob", some "runner-1-bob-receive_commit-0", .receiveCommit, some 1⟩

/-- Bob's actor, with a cache of the default size and a given time to live. -/
def bobSlot (ttl : Nat) : ClientSlot Unit := .new () 16384 ttl 0

/-- The result that the physical worker returns for bob's command. -/
def bobResult (handled : Handled) : Exchange :=
  .parsed [⟨"bob", bobCommand.requestId, handled.response⟩]

/-- Bob's command is executed again when it comes back after the time to live. -/
theorem retries_iff_afterExpiry :
    Retries [bob] bobCommand (execute ClientSlot.step (bobSlot 10)
      ([] ++ bobCommand.arrival noCommit :: [])) (commitArrived 11) := by
  have hbatch : (⟨"worker-1", [bobCommand]⟩ : Batch) ∈
      (FanoutState.start bobReceives).retryCommands := mem_singleton_self _
  refine (retries_iff scripted [bob] none 0 (.start bobReceives)
    [[bobResult ((bobSlot 10).clientCommandActor (bobCommand.arrival noCommit)).1]] hbatch
    (mem_singleton_self bobCommand) rfl () 16384 10 0 [] [] noCommit (commitArrived 11)
    (by decide) ?_ ?_).2.mpr (by decide)
  · exact ⟨_, mem_cons_self, _, rfl, mem_cons_self⟩
  · rintro record ⟨⟩ ⟨query, hquery, -⟩
    cases hquery

/-- What the two passes of a fan-out hear from bob's actor. -/
def bobAnswers (ttl waited : Nat) : List (List Exchange) :=
  [[bobResult ((bobSlot ttl).clientCommandActor (bobCommand.arrival noCommit)).1],
    [bobResult (((bobSlot ttl).step (bobCommand.arrival noCommit)).clientCommandActor
      (bobCommand.arrival (commitArrived waited))).1]]

/-- With the default time to live of six hours a retry after one second is answered from
the cache: bob's command is not executed although it would succeed by now, and the
fan-out reports bob's first error. -/
theorem retry_replays_cachedError :
    ((commitArrived 1).run ((bobSlot 21600).step (bobCommand.arrival noCommit)).state).1 =
        .ok "commit received" ∧
      ¬Retries [bob] bobCommand ((bobSlot 21600).step (bobCommand.arrival noCommit))
        (commitArrived 1) ∧
      (batchFanoutWorkers scripted [bob] none "update" "receive_commit" bobReceives
        (bobAnswers 21600 1)).1 = .error ⟨"update", "receive_commit",
          [⟨bob, "client bob batch error: DS GET failed with status 404 Not Found"⟩]⟩ := by
  refine ⟨rfl, fun h => ?_, by rfl⟩
  exact absurd h.executed (by decide)

end MessagingBench.Runner
