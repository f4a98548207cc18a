import MessagingBench.Runner.Payload
import MessagingBench.Signal.SenderKeyPhases

/-!
# The application phase of the Signal runner

`run_application_phase` lets one active worker after the other broadcast a message to all
others. A broadcast that failed is attributed to somebody: to its sender, or to the
recipients at which it failed; the phase then goes on without them.
-/

namespace MessagingBench.Signal

open Runner Worker

variable {ε : Type} (env : RunnerEnvironment ε) (config : RunnerConfig)

section Payloads

/-- Where the size of a payload comes from. -/
inductive PayloadSizeSource
  | fixed (size : Nat)
  | uniformRange (min max : Nat)
  deriving DecidableEq, Repr

/-- The configured sizes: a list, or a range to draw from. -/
inductive PayloadSizes
  | fixed (sizes : List Nat)
  | uniformRange (min max : Nat)
  deriving DecidableEq, Repr

/-- A list is worked off size by size, a range is one source. -/
def PayloadSizes.sources : PayloadSizes → List PayloadSizeSource
  | .fixed sizes => sizes.map .fixed
  | .uniformRange min max => [.uniformRange min max]

/-- A size of a source; both ends of a range may be drawn. -/
def samplePayloadSize : PayloadSizeSource → Phase ε Nat
  | .fixed size => pure size
  | .uniformRange min max => do
    let offset ← Phase.randomRange env (max + 1 - min)
    pure (min + offset)

end Payloads

section Selection

/-- Saturating arithmetic stops here. -/
def usizeMax : Nat := 2 ^ 64 - 1

/-- A cap of zero leaves nothing. -/
def capCount (raw cap : Nat) : Nat := if cap = 0 then 0 else min raw cap

/-- The broadcasts of one payload size; a single member sends none. -/
def appSendsPerPlateau (size appRounds maxAppSamples : Nat) : Nat :=
  if size < 2 then 0 else capCount (min (appRounds * size) usizeMax) maxAppSamples

/-- Members take turns, or so many of them, evenly spread. -/
def sampledParticipantIndex (memberCount sampleCount seqNo : Nat) : Nat :=
  if memberCount ≤ sampleCount then seqNo % memberCount
  else (seqNo % sampleCount + 1) * memberCount / sampleCount - 1

/-- The next one after the actor, in a circle. -/
def profiledRecipientIndex (profiledIndices : List Nat) (actorSelectionIdx : Nat) : Option Nat :=
  if profiledIndices.length < 2 then none
  else profiledIndices[(actorSelectionIdx + 1) % profiledIndices.length]?

/-- How often workers have succeeded. -/
abbrev Successes : Type := List (String × Nat)

/-- Zero for a worker without an entry. -/
def Successes.count (successes : Successes) (id : String) : Nat := (successes.lookup id).getD 0

/-- One more success; the new entry hides the old one. -/
def Successes.add (successes : Successes) (id : String) : Successes :=
  (id, successes.count id + 1) :: successes

/-- A pair of positions with what decides between pairs. -/
structure Candidate where
  missing : Nat
  done : Nat
  actorId : String
  recipientId : String
  actorIdx : Nat
  recipientIdx : Nat

/-- The order of candidates is that of their fields. -/
def Candidate.before (a b : Candidate) : Bool :=
  a.missing < b.missing || a.missing == b.missing && (a.done < b.done || a.done == b.done &&
    (decide (a.actorId < b.actorId) || a.actorId == b.actorId &&
      (decide (a.recipientId < b.recipientId) || a.recipientId == b.recipientId &&
        (a.actorIdx < b.actorIdx || a.actorIdx == b.actorIdx && a.recipientIdx < b.recipientIdx))))

/-- A pair counts if one of the two lacks samples; first come pairs in which both do. -/
def densityCandidate (active : List WorkerSpec) (actorSuccesses receiverSuccesses : Successes)
    (required actorIdx recipientIdx : Nat) : Option Candidate := do
  let actor ← active[actorIdx]?
  let recipient ← active[recipientIdx]?
  let actorCount := actorSuccesses.count actor.id
  let receiverCount := receiverSuccesses.count recipient.id
  let progress := (if actorCount < required then 1 else 0) +
    (if receiverCount < required then 1 else 0)
  if actorIdx = recipientIdx ∨ progress = 0 then none
  else some ⟨2 - progress, min (actorCount + receiverCount) usizeMax, actor.id, recipient.id,
    actorIdx, recipientIdx⟩

/-- The least of all pairs of profiled workers. -/
def profiledDensityPair (active : List WorkerSpec) (profiledIndices : List Nat)
    (actorSuccesses receiverSuccesses : Successes) (required : Nat) : Option (Nat × Nat) :=
  let candidates := profiledIndices.flatMap fun actorIdx =>
    profiledIndices.filterMap fun recipientIdx =>
      densityCandidate active actorSuccesses receiverSuccesses required actorIdx recipientIdx
  (candidates.foldl (fun best candidate =>
    match best with
    | none => some candidate
    | some other => if candidate.before other then some candidate else some other)
    (none : Option Candidate)).map fun candidate => (candidate.actorIdx, candidate.recipientIdx)

end Selection

section Broadcast

/-- The sender encrypts the message once for each recipient. -/
def encryptPairwise (sender : WorkerSpec) (payload : String) : List WorkerSpec → Phase ε Unit
  | [] => pure ()
  | recipient :: recipients => do
    let _ ← sendCmdExpectOkFragmentWithContext env sender (.encryptMessage recipient.id payload)
      none "encrypted and sent"
    encryptPairwise sender payload recipients

/-- With Sender Keys a message is encrypted once for all. -/
def encryptBroadcast (sender : WorkerSpec) (recipients : List WorkerSpec) (payload : String) :
    Phase ε Unit :=
  match config.groupModel with
  | .senderKeys => do
    let _ ← sendCmdExpectOkFragmentWithContext env sender
      (.senderKeyEncrypt (recipients.map (·.id)) payload) none "encrypted and sent"
    pure ()
  | .pairwise => encryptPairwise env sender payload recipients

/-- What every recipient is told to do. -/
def receiveCommand (sender : WorkerSpec) (payload : String) (payloadSize : Nat)
    (senderSpecificDelivery : Bool) : Command :=
  match config.groupModel with
  | .senderKeys => .senderKeyDecrypt sender.id payload.utf8ByteSize
  | .pairwise => .decryptMessage sender.id (if senderSpecificDelivery then some payloadSize else none)

/-- The profiled recipient gets a workflow of its own. -/
def profileRecipients (profilingRecipientId : Option String) : List WorkerSpec → Phase ε Unit
  | [] => pure ()
  | recipient :: recipients =>
    if profilingRecipientId = some recipient.id then do
      let _ ← Phase.nextWorkflowId
      profileRecipients profilingRecipientId recipients
    else profileRecipients profilingRecipientId recipients

/-- The commands are posted, and all failures make one error. -/
def batchFanoutWorkers (phase operation : String) (commands : List (WorkerSpec × Command)) :
    Phase ε Unit :=
  fun s =>
    let (failures, e) := env.fanout commands s.env
    let s' := { s with env := e, observed := s.observed ++ [.fannedOut commands failures] }
    (if failures.isEmpty then .ok () else .error (.batch ⟨phase, operation, failures⟩), s')

/-- The sender encrypts, then the recipients decrypt. -/
def broadcastMessage (sender : WorkerSpec) (recipients : List WorkerSpec) (payload : String)
    (payloadSize : Nat) (profilingRecipientId : Option String) : Phase ε Unit := do
  let _ ← Phase.nextWorkflowId
  encryptBroadcast env config sender recipients payload
  profileRecipients profilingRecipientId recipients
  let command := receiveCommand config sender payload payloadSize
    (config.resourceSweep || config.externalDevices)
  batchFanoutWorkers env "application" "receive_message" (recipients.map fun worker =>
    (worker, command))

end Broadcast

section Failures

/-- The workers of a group with Sender Keys need new keys after somebody was removed. -/
def refreshAfterRemoval : Phase ε Unit :=
  match config.groupModel with
  | .senderKeys => refreshSenderKeys env config
  | .pairwise => pure ()

/-- The failures for which a profiled recipient is given up. -/
def isBudgetOrStarvation : WorkerErrorClass → Bool
  | .appHeapBudgetExceeded | .appHeapBudgetAllocatorAbort | .embeddedBudgetTimeout |
    .cpuStarvationTimeout => true
  | _ => false

/-- The recipients that are to be removed after they failed. -/
def recordRecipients (actor : WorkerSpec) :
    List FanoutFailure → List String → Phase ε (List String)
  | [], oomIds => pure oomIds
  | failure :: failures, oomIds => do
    let recorded ← recordWorkerOomIfEvidenced env config failure.worker failure.error
      "remove_active_recipient_and_retry" (some actor)
    if recorded = true then recordRecipients actor failures (oomIds.insert failure.worker.id)
    else if isProfiledSingleton failure.worker = true ∧
        isBudgetOrStarvation (classifyWorkerError failure.error) = true then
      recordRecipients actor failures (oomIds.insert failure.worker.id)
    else recordRecipients actor failures oomIds

/-- What is done about recipients that failed. -/
def removeRecipients (actor : WorkerSpec) (error : RunnerError) (failures : List FanoutFailure) :
    Phase ε Unit := do
  let oomIds ← recordRecipients env config actor failures []
  if oomIds.length = failures.length then
    Routine.modify fun s => { s with active := s.active.filter (!oomIds.contains ·.id) }
    refreshAfterRemoval env config
  else Routine.fail error

/-- What is done about a broadcast that failed. -/
def afterFailedBroadcast (actor : WorkerSpec) (error : RunnerError) : Phase ε Unit := do
  let active ← Phase.active
  let recorded ← recordWorkerOomIfEvidenced env config actor error.text
    "remove_active_actor_and_retry" (active.find? (·.id != actor.id))
  if recorded = true then
    Routine.modify fun s => { s with active := s.active.filter (·.id != actor.id) }
    refreshAfterRemoval env config
  else
    match error with
    | .batch batchError => removeRecipients env config actor error batchError.failures
    | _ => Routine.fail error

end Failures

section Phases

/-- The parameters of the phase. -/
structure ApplicationSettings where
  plateauSize : Nat
  appRounds : Nat
  maxAppSamplesPerPayload : Nat
  minProfiledSamplesPerOperation : Nat
  externalDensityIds : List String
  payloadSizes : PayloadSizes

/-- What one payload source works with. -/
structure PayloadPlan where
  source : PayloadSizeSource
  basePerPayloadCount : Nat
  /-- The samples that every external worker needs, if there are several. -/
  samplesPerExternal : Option Nat

/-- The variables of the loop over the broadcasts of one payload source. -/
structure BroadcastLocals where
  actorSuccesses : Successes
  receiverSuccesses : Successes
  seqNo : Nat

/-- What the loop over the broadcasts does next. -/
inductive Broadcast
  /-- There are too few active workers. -/
  | stop
  /-- The payload source is done. -/
  | done
  | send (actorIdx : Nat) (profilingRecipient : Option Nat)

variable (settings : ApplicationSettings)

/-- The workers that take turns: the external or the profiled ones, or all if there are none. -/
def profiledIndices (plan : PayloadPlan) (active : List WorkerSpec) : List Nat :=
  let indices := (List.range active.length).filter fun idx =>
    match active[idx]? with
    | none => false
    | some worker =>
      if plan.samplesPerExternal.isSome then settings.externalDensityIds.contains worker.id
      else worker.profileEnabled
  if indices.isEmpty then List.range active.length else indices

/-- The recipient whose receive is profiled. -/
def profilingRecipient (plan : PayloadPlan) (seqNo : Nat) (indices : List Nat)
    (actorSelectionIdx actorIdx : Nat) : Option Nat :=
  if config.externalDevices = true ∧ 1 < indices.length then
    profiledRecipientIndex indices actorSelectionIdx
  else if 1 < indices.length then
    let others := indices.filter (· != actorIdx)
    others[sampledParticipantIndex others.length plan.basePerPayloadCount seqNo]?
  else none

/-- Who sends next, and whose receive is profiled. -/
def nextBroadcast (plan : PayloadPlan) (vars : BroadcastLocals) (active : List WorkerSpec) :
    Broadcast :=
  let indices := profiledIndices settings plan active
  if active.length < 2 then .stop
  else
    match plan.samplesPerExternal with
    | some required =>
      match profiledDensityPair active indices vars.actorSuccesses vars.receiverSuccesses
          required with
      | none => .done
      | some (actorIdx, recipientIdx) => .send actorIdx (some recipientIdx)
    | none =>
      if plan.basePerPayloadCount ≤ vars.seqNo then .done
      else
        let selection := sampledParticipantIndex indices.length plan.basePerPayloadCount vars.seqNo
        let actorIdx := indices.getD selection 0
        .send actorIdx (profilingRecipient config plan vars.seqNo indices selection actorIdx)

/-- Successes are only counted for density. -/
def BroadcastLocals.succeeded (vars : BroadcastLocals) (plan : PayloadPlan) (actorId : String)
    (recipientId : Option String) : BroadcastLocals :=
  { actorSuccesses := if plan.samplesPerExternal.isSome then vars.actorSuccesses.add actorId
      else vars.actorSuccesses
    receiverSuccesses :=
      match plan.samplesPerExternal, recipientId with
      | some _, some id => vars.receiverSuccesses.add id
      | _, _ => vars.receiverSuccesses
    seqNo := vars.seqNo + 1 }

/-- One broadcast and what follows if it fails. -/
def broadcastOnce (plan : PayloadPlan) (vars : BroadcastLocals) (active : List WorkerSpec)
    (actorIdx : Nat) (profiled : Option Nat) : Phase ε BroadcastLocals :=
  match active[actorIdx]? with
  | none => Phase.fail "index out of bounds"
  | some actor => do
    let payloadSize ← samplePayloadSize env plan.source
    -- a cut inside a character panics: there is no payload then
    let payload := lossyText ((deterministicPayload payloadSize settings.plateauSize payloadSize
      vars.seqNo actor.id).getD [])
    let recipientId := profiled.bind fun idx => (active[idx]?).map (·.id)
    match ← Routine.attempt (broadcastMessage env config actor (active.eraseIdx actorIdx) payload
        payloadSize recipientId) with
    | .ok () => pure (vars.succeeded plan actor.id recipientId)
    | .error error =>
      afterFailedBroadcast env config actor error
      pure vars

/-- The loop over the broadcasts of one payload source, for so many rounds; the result says
whether the phase goes on with the next source. -/
def broadcastRounds (plan : PayloadPlan) : Nat → BroadcastLocals → Phase ε Bool
  | 0, _ => Phase.fail "application phase ran out of rounds"
  | rounds + 1, vars => do
    let active ← Phase.active
    match nextBroadcast config settings plan vars active with
    | .stop => pure false
    | .done => pure true
    | .send actorIdx profiled =>
      let vars' ← broadcastOnce env config settings plan vars active actorIdx profiled
      broadcastRounds plan rounds vars'

/-- Density is asked for if there are two external workers. -/
def payloadPlan (basePerPayloadCount : Nat) (source : PayloadSizeSource)
    (active : List WorkerSpec) : PayloadPlan :=
  let external := (active.filter fun worker => settings.externalDensityIds.contains worker.id).length
  { source := source
    basePerPayloadCount := basePerPayloadCount
    samplesPerExternal :=
      if 0 < settings.minProfiledSamplesPerOperation ∧ 2 ≤ external then
        some (max settings.minProfiledSamplesPerOperation
          (min (basePerPayloadCount + (external - 1)) usizeMax / external))
      else none }

/-- The sources one after the other, until one ends the phase. -/
def payloadSources (rounds basePerPayloadCount : Nat) : List PayloadSizeSource → Phase ε Unit
  | [] => pure ()
  | source :: sources => do
    let active ← Phase.active
    let goesOn ← broadcastRounds env config settings
      (payloadPlan settings basePerPayloadCount source active) rounds ⟨[], [], 0⟩
    if goesOn = true then payloadSources rounds basePerPayloadCount sources else pure ()

/-- `run_application_phase` with so many rounds for each payload source. -/
def runApplicationPhase (rounds : Nat) : Phase ε Unit := do
  let active ← Phase.active
  let basePerPayloadCount := appSendsPerPlateau settings.plateauSize settings.appRounds
    settings.maxAppSamplesPerPayload
  if active.length < 2 then pure ()
  else if basePerPayloadCount = 0 ∧ settings.minProfiledSamplesPerOperation = 0 then pure ()
  else payloadSources env config settings rounds basePerPayloadCount settings.payloadSizes.sources

end Phases

end MessagingBench.Signal
