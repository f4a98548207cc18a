import MessagingBench.Signal.Session

/-!
# The refresh of Sender Keys

Whenever somebody has left or has failed, every remaining member distributes a key of a new
generation. A worker that fails with a resource error on the way is dropped, and the refresh
starts again.
-/

namespace MessagingBench.Signal

variable {ε : Type} (env : RunnerEnvironment ε) (config : RunnerConfig)

section Commands

/-- What is done about a command that failed. -/
def endpointFailed (worker : WorkerSpec) (error : RunnerError) : Phase ε Unit := do
  let recorded ← recordWorkerOomIfEvidenced env config worker error.text
    "remove_failed_sender_keys_endpoint" none
  if recorded = true then Routine.fail (.endpoint worker.id error.text) else Routine.fail error

def senderKeyCommand (worker : WorkerSpec) (command : Command) (phase expected : String) :
    Phase ε Unit := do
  let _ ← Phase.nextWorkflowId
  match ← Routine.attempt (sendCmdExpectOkFragmentWithContext env worker command (some phase)
      expected) with
  | .ok _ => pure ()
  | .error error => endpointFailed env config worker error

/-- Run a routine for every worker of a list. -/
def forWorkers (f : WorkerSpec → Phase ε Unit) : List WorkerSpec → Phase ε Unit
  | [] => pure ()
  | worker :: workers => do
    f worker
    forWorkers f workers

end Commands

section Refresh

/-- A generation for every sender. -/
def drawGenerations : List WorkerSpec → Phase ε (List (WorkerSpec × UInt64))
  | [] => pure []
  | sender :: senders => do
    let generation ← Phase.nextWorkflowId
    let rest ← drawGenerations senders
    pure ((sender, generation) :: rest)

def distributeAll (active : List WorkerSpec) : List (WorkerSpec × UInt64) → Phase ε Unit
  | [] => pure ()
  | (sender, generation) :: senders => do
    senderKeyCommand env config sender
      (.senderKeyDistribute ((active.filter (·.id != sender.id)).map (·.id)) (some generation))
      "removal.eager_refresh" "sender key distributed"
    distributeAll active senders

/-- One recipient receives the distributions of all other senders. -/
def receiveFrom (recipient : WorkerSpec) : List (WorkerSpec × UInt64) → Phase ε Unit
  | [] => pure ()
  | (sender, generation) :: senders =>
    if sender.id = recipient.id then receiveFrom recipient senders
    else do
      senderKeyCommand env config recipient
        (.senderKeyReceiveDistribution sender.id (some generation)) "removal.eager_refresh"
        "sender key distribution processed"
      receiveFrom recipient senders

/-- One attempt to give every active worker a new generation. -/
def refreshAttempt (active : List WorkerSpec) : Phase ε Unit := do
  let senders ← drawGenerations active
  distributeAll env config active senders
  forWorkers (fun recipient => receiveFrom env config recipient senders) active

/-- The loop of `refresh_sender_keys`. Every failed attempt drops an active worker, so that as
many rounds as there are active workers, and one, are enough. -/
def refreshRounds : Nat → Phase ε Unit
  | 0 => Phase.fail "refresh ran out of rounds"
  | rounds + 1 => do
    let active ← Phase.active
    match ← Routine.attempt (refreshAttempt env config active) with
    | .ok () => pure ()
    | .error (.endpoint workerId _) =>
      Phase.setActive (active.filter (·.id != workerId))
      refreshRounds rounds
    | .error error => Routine.fail error

def refreshSenderKeys : Phase ε Unit := do
  let active ← Phase.active
  refreshRounds env config (active.length + 1)

end Refresh

end MessagingBench.Signal
