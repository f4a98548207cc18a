import MessagingBench.Worker.Commands

/-!
# Workers and services together

All workers, the two services and the network in one state. The schedule decides
which worker advances, whether the response of an attempt is lost, and whether a
lost request is processed at once, later or never. Each worker executes one command
at a time.
-/

namespace MessagingBench.Worker

open Delivery (Bytes Epoch DeliveryService CommitDeliveryMode AcceptedCommit)
open Relay

/-- Progress of one call of a join. -/
inductive CallState
  | active (id attempt : Nat) (call : Call)
  | finished (reply : Reply)
  deriving DecidableEq

abbrev CommandProgram (M : Mls) : Type := Program (signature M) (Except String Outcome × Slot M)

inductive Activity (M : Mls)
  | idle (slot : Slot M)
  | busy (job : Job) (envelope : Envelope) (program : CommandProgram M) (calls : List CallState)

/-- A request that was sent but not yet processed, and whose sender has given up waiting. -/
structure InFlight where
  call : Nat
  job : Job
  request : Request

structure World (M : Mls) where
  servers : Servers
  workers : String → Option (Activity M)
  inFlight : List InFlight
  log : Log Event
  nextCall : Nat
  nextJob : Nat

/-- What happens to a request whose response is lost. -/
inductive Reach
  | never
  | now
  | later
  deriving DecidableEq, Repr

/-- The fate of one attempt; a lost response is seen as an error that may be retried. -/
inductive Fate
  | answered
  | lost (reach : Reach) (transient : Bool) (cause : String)
  deriving DecidableEq, Repr

inductive Action
  | start (worker : String) (envelope : Envelope)
  | attempt (worker : String) (index : Nat) (fate : Fate) (order : List String) (elapsedMs : Nat)
  | deliver (index : Nat) (order : List String)
  | proceed (worker : String)

/-- What a service does beyond its response. -/
def effects (servers : Servers) : Request → List Event
  | .publishGroupCommit groupId sender epoch body =>
    match servers.ds.acceptCommit groupId epoch with
    | .ok (members, _) => [.accepted ⟨groupId, sender, epoch, members, body⟩]
    | .error _ => []
  | _ => []

namespace World

variable {M : Mls}

/-- Empty services and workers without a group. -/
def init (mode : CommitDeliveryMode) (crypto : String → Option M.Crypto) : World M where
  servers := ⟨.withDeliveryMode mode, .new⟩
  workers name := (crypto name).map fun crypto => .idle ⟨⟨name, crypto, none, none, none, []⟩, none⟩
  inFlight := []
  log := .empty
  nextCall := 0
  nextJob := 0

variable (world : World M)

def setWorker (worker : String) (activity : Activity M) : World M :=
  { world with workers := Function.update world.workers worker (some activity) }

def serve (call : Nat) (job : Job) (request : Request) (order : List String) (heard : Bool) :
    World M :=
  { world with
    servers := (handle order world.servers request).2
    log := { world.log with
      events := world.log.events ++ (effects world.servers request ++
        [.served call job request (handle order world.servers request).1 heard]) } }

/-- Record the end of a call. -/
def conclude (call : Nat) (job : Job) (request : Request) (result : Except String Reply) :
    World M :=
  { world with log := world.log.record (.concluded call job request result) }

/-- The calls of a waiting program, all at their first attempt. -/
def newCalls (firstId : Nat) (calls : List Call) : List CallState :=
  calls.zipIdx.map fun x => .active (firstId + x.2) 1 x.1

/-- Run a program of a worker to its next waiting point and issue the calls there. -/
def launch (worker : String) (job : Job) (envelope : Envelope) (program : CommandProgram M) :
    World M :=
  match program.settle world.log with
  | (.await state calls next, log) =>
    { world with log := log, nextCall := world.nextCall + calls.length }.setWorker worker
      (.busy job envelope (.await state calls next) (newCalls world.nextCall calls))
  | (settled, log) => { world with log := log }.setWorker worker (.busy job envelope settled [])

/-- The replies of a join once all its calls have succeeded. -/
def replies (calls : List CallState) : Option (List Reply) :=
  calls.mapM fun
    | .finished reply => some reply
    | .active _ _ _ => none

/-- The services' part of an attempt, and how the helper classifies its outcome. -/
def transmit (call : Nat) (job : Job) (request : Request) (fate : Fate) (order : List String) :
    RetryDecision × World M :=
  match fate with
  | .answered =>
    (request.retryDecision (handle order world.servers request).1,
      world.serve call job request order true)
  | .lost reach transient cause =>
    (if transient then .transient cause else .fatal cause,
      match reach with
      | .never => world
      | .now => world.serve call job request order false
      | .later => { world with inFlight := world.inFlight ++ [⟨call, job, request⟩] })

/-- A call of a join has ended or needs another attempt. -/
def settleCall (worker : String) (job : Job) (envelope : Envelope) (state : Slot M)
    (pending : List Call)
    (next : Except CallFailure (List Reply) → CommandProgram M) (calls : List CallState)
    (index id attempt : Nat) (call : Call) (elapsedMs : Nat) : RetryDecision → World M
  | .success reply =>
    let concluded := world.conclude id job call.request (.ok reply)
    match replies (calls.set index (.finished reply)) with
    | some all => concluded.launch worker job envelope (next (.ok all))
    | none => concluded.setWorker worker (.busy job envelope (.await state pending next)
        (calls.set index (.finished reply)))
  | .transient cause =>
    if attempt < maxAttempts then
      world.setWorker worker (.busy job envelope (.await state pending next)
        (calls.set index (.active id (attempt + 1) call)))
    else
      let text := call.errorText attempt elapsedMs cause
      (world.conclude id job call.request (.error text)).launch worker job envelope
        (next (.error ⟨call.request, text⟩))
  | .fatal cause =>
    let text := call.errorText attempt elapsedMs cause
    (world.conclude id job call.request (.error text)).launch worker job envelope
      (next (.error ⟨call.request, text⟩))

/-- One step of the whole system. -/
def step (urls : Urls) (world : World M) : Action → World M
  | .start worker envelope =>
    match world.workers worker with
    | some (.idle slot) =>
      { world with nextJob := world.nextJob + 1 }.launch worker ⟨worker, world.nextJob⟩ envelope
        (handleCommand urls envelope slot)
    | _ => world
  | .attempt worker index fate order elapsedMs =>
    match world.workers worker with
    | some (.busy job envelope (.await state pending next) calls) =>
      match calls[index]? with
      | some (.active id attempt call) =>
        let (decision, sent) := world.transmit id job call.request fate order
        sent.settleCall worker job envelope state pending next calls index id attempt call elapsedMs
          decision
      | _ => world
    | _ => world
  | .deliver index order =>
    match world.inFlight[index]? with
    | some request =>
      { world with inFlight := world.inFlight.eraseIdx index }.serve request.call request.job
        request.request order false
    | none => world
  | .proceed worker =>
    match world.workers worker with
    | some (.busy job envelope (.done (result, slot)) _) =>
      match result with
      | .ok (.again staleAcked processed) =>
        world.launch worker job envelope
          (receiveCommitDelivery urls envelope.expectedEpoch staleAcked processed slot)
      | .ok (.finished message) =>
        { world with log := world.log.record (.answered job envelope (.ok message)) }.setWorker
          worker (.idle slot)
      | .error message =>
        { world with log := world.log.record (.answered job envelope (.error message)) }.setWorker
          worker (.idle slot)
    | _ => world

end World

end MessagingBench.Worker
