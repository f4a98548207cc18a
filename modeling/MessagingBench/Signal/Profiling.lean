import MessagingBench.Core.Strand

/-!
# Spans and worker ids of the Signal worker

A worker process runs the commands of several participants on the threads of one runtime. The
worker id of profile events and the stack of open spans are kept per thread. An actor sets
the id and opens a span before it handles a command, and reads and closes them when it is
through, on whatever thread it is then. Outcomes of requests are left open.
-/

namespace MessagingBench.Signal.Profiling

open Handler

section Threads

/-- A span, with the participant and the number of the command that opened it. -/
structure Span where
  id : UInt64
  participant : String
  number : Nat
  deriving DecidableEq

/-- What a thread keeps; the span that was opened last comes first. -/
structure Locals where
  workerId : Option String := none
  spanStack : List Span := []
  deriving DecidableEq

/-- A profile event that was written while a command was handled. -/
structure Emission where
  participant : String
  number : Nat
  workerId : Option String
  parent : Option Span
  deriving DecidableEq

/-- The event carries the worker id of the participant, and a parent that it names was opened by
the same command. -/
def Emission.Right (e : Emission) : Prop :=
  e.workerId = some e.participant ∧
    ∀ span ∈ e.parent, span.participant = e.participant ∧ span.number = e.number

instance (e : Emission) : Decidable e.Right :=
  inferInstanceAs (Decidable (_ ∧ ∀ span ∈ e.parent, _))

/-- What a request or an operation comes back with: a failure, a decision that depends on it and
a number of rounds. -/
structure Answer where
  failure : Option String := none
  decision : Bool := false
  count : Nat := 0

/-- The counter of span ids is shared. -/
abbrev threading : Threading := ⟨Locals, UInt64, Emission, Answer⟩

/-- Between commands an actor keeps the number of commands it has handled. -/
abbrev Code (α : Type) : Type := Handler threading Nat α

def nextSpanId : Code UInt64 := act (fun l g => (l, g + 1, [])) fun _ g => g

def currentParentSpan : Code (Option Span) :=
  act (fun l g => (l, g, [])) fun l _ => l.spanStack.head?

def pushSpan (span : Span) : Code Unit :=
  act (fun l g => ({ l with spanStack := span :: l.spanStack }, g, [])) fun _ _ => ()

/-- The span with the id that was opened last is closed, wherever it is in the stack. -/
def popSpanId (id : UInt64) : Code Unit :=
  act (fun l g => ({ l with spanStack := l.spanStack.eraseP (·.id == id) }, g, []))
    fun _ _ => ()

def setWorkerId (id : String) : Code Unit :=
  act (fun l g => ({ l with workerId := some id }, g, [])) fun _ _ => ()

def currentWorkerId : Code (Option String) :=
  act (fun l g => (l, g, [])) fun l _ => l.workerId

def write (e : Emission) : Code Unit := act (fun l g => (l, g, [e])) fun _ _ => ()

def demand (answer : Answer) : Code Unit :=
  match answer.failure with
  | none => pure ()
  | some text => fail text

/-- Something local that may fail. -/
def consult : Code Answer := do
  let answer ← choose
  demand answer
  pure answer

def request : Code Answer := do
  let answer ← await
  demand answer
  pure answer

end Threads

section Code

/-- The command that is handled, whether the process writes the spans of the protocol library,
whether the command writes events, and whether it was given a benchmark context. -/
structure Scene where
  participant : String
  number : Nat
  writer : Bool
  path : Bool
  context : Bool

variable (scene : Scene)

def Scene.emission (workerId : Option String) (parent : Option Span) : Emission :=
  ⟨scene.participant, scene.number, workerId, parent⟩

def Scene.span (id : UInt64) : Span := ⟨id, scene.participant, scene.number⟩

@[simp] theorem Scene.span_id (id : UInt64) : (scene.span id).id = id := rfl

/-- An empty worker id counts as none. -/
def finishScope (id : UInt64) (parent : Option Span) : Code Unit := do
  popSpanId id
  let workerId ← currentWorkerId
  write (scene.emission (workerId.filter (· != "")) parent)

/-- A scope of the protocol library around some code. -/
def measureScope (body : Code Unit) : Code Unit := do
  let id ← nextSpanId
  let parent ← currentParentSpan
  pushSpan (scene.span id)
  let _ ← attempt body
  finishScope scene id parent

/-- Scopes one after another and within each other, up to a depth. -/
def scopes : Nat → Code Unit
  | 0 => pure ()
  | depth + 1 => do
    let another ← choose
    if another.decision then
      measureScope scene (scopes depth)
      scopes depth
    else pure ()

/-- An operation of the protocol library, which never waits. -/
def operation : Code Unit := do
  let answer ← choose
  if scene.writer then scopes scene answer.count else pure ()

def installProfileContext : Code Unit :=
  if scene.path && scene.context then setWorkerId scene.participant else pure ()

def eventWorkerId : Code (Option String) :=
  if scene.context then pure (some scene.participant) else currentWorkerId

/-- Write an event of the worker itself. -/
def writeSubspan (path : Bool) (parent : Option Span) : Code Unit := do
  let workerId ← eventWorkerId scene
  if path then write (scene.emission workerId parent) else pure ()

/-- An event without a parent. -/
def subspan : Code Unit := writeSubspan scene scene.path none

/-- A request whose duration is written. -/
def timedRequest : Code Unit := do
  let _ ← request
  subspan scene

def generatePrekeyBundle : Code Unit := do
  installProfileContext scene
  operation scene
  let _ ← consult
  timedRequest scene
  timedRequest scene
  timedRequest scene

def publishPrekeyBundle : Code Unit := do
  installProfileContext scene
  operation scene
  let _ ← consult
  pure ()

def refillPrekeys : Code Unit := do
  installProfileContext scene
  operation scene
  let _ ← consult
  let _ ← request
  let _ ← request
  pure ()

def updateOneTimePrekeys : Code Unit := do
  let stock ← request
  if stock.decision then pure () else refillPrekeys scene

/-- A session from a bundle that has been fetched; the consumption of the bundle may fail. -/
def processBundle : Code Unit := do
  let _ ← consult
  installProfileContext scene
  operation scene
  let _ ← consult
  subspan scene
  let _ ← await
  subspan scene

def establishSession : Code Unit := do
  installProfileContext scene
  operation scene
  let existing ← choose
  if existing.decision then pure ()
  else do
    timedRequest scene
    processBundle scene

def establishSessions : List String → Code Unit
  | [] => pure ()
  | _ :: peers => do
    establishSession scene
    establishSessions peers

def encryptMessage : Code Unit := do
  installProfileContext scene
  operation scene
  let _ ← consult
  subspan scene
  timedRequest scene
  subspan scene

variable (profile : Bool)

/-- Only a profiled receive sets the context again. -/
def decrypt : Code Unit := do
  if profile then
    installProfileContext scene
    operation scene
  else operation scene

def messageDecrypted : Code Unit := do
  let _ ← consult
  subspan scene
  timedRequest scene
  subspan scene

/-- What looks like a duplicate is acknowledged. -/
def decryptFailed (text : String) : Code Unit := do
  let duplicate ← choose
  if duplicate.decision then timedRequest scene else fail text

def decryptDelivery : Code Unit := do
  decrypt scene profile
  let answer ← choose
  match answer.failure with
  | none => messageDecrypted scene
  | some text => decryptFailed scene text

def receiveMessageDelivery : Code Unit := do
  let _ ← request
  let _ ← consult
  subspan scene
  let recognized ← consult
  if recognized.decision then decryptDelivery scene profile else timedRequest scene

/-- The rounds of the receive loop; a run of the process sees only finitely many. -/
def receiveMessages : Nat → Code Unit
  | 0 => pure ()
  | rounds + 1 => do
    let result ← attempt (receiveMessageDelivery scene true)
    match result with
    | .ok _ => receiveMessages rounds
    | .error _ => pure ()

/-- Messages are received without the benchmark context. -/
def processPending (maxMessages : Option Nat) : Code Unit := do
  let rounds ← choose
  receiveMessages { scene with context := false } (min rounds.count (maxMessages.getD rounds.count))
  let _ ← consult
  pure ()

/-- The work of a Sender Keys command between its requests has a span of its own. -/
structure LocalWork where
  span : Span
  parent : Option Span
  path : Bool

def LocalWork.new (path : Bool) : Code LocalWork := do
  let id ← nextSpanId
  let parent ← currentParentSpan
  pure ⟨scene.span id, parent, path⟩

def setContext : Code Unit :=
  if scene.context then setWorkerId scene.participant else pure ()

variable (work : LocalWork)

/-- A piece of the work; its event names the span of the work as its parent. -/
def LocalWork.measure : Code Unit := do
  setContext scene
  pushSpan work.span
  let _ ← attempt (operation scene)
  popSpanId work.span.id
  let _ ← nextSpanId
  writeSubspan scene work.path (some work.span)
  let _ ← consult
  pure ()

def LocalWork.finish : Code Unit := writeSubspan scene work.path work.parent

def distributeTo : List String → Code Unit
  | [] => pure ()
  | _ :: recipients => do
    work.measure scene
    let _ ← request
    distributeTo recipients

def distribute (recipients : List String) : Code Unit := do
  work.measure scene
  distributeTo scene work recipients

def processDistribution : Code Unit := do
  work.measure scene
  let _ ← request
  pure ()

/-- A distribution of an earlier generation is acknowledged and skipped. -/
def takeDistribution (again : Code Unit) : Code Unit := do
  let _ ← consult
  work.measure scene
  let outdated ← consult
  if outdated.decision then do
    let _ ← request
    again
  else processDistribution scene work

/-- The rounds of the receive loop; during a refresh application messages are skipped. -/
def receiveRounds : Nat → Code Unit
  | 0 => fail "not finished"
  | rounds + 1 => do
    let delivery ← request
    if delivery.decision then do
      let _ ← request
      receiveRounds rounds
    else takeDistribution scene work (receiveRounds rounds)

def receiveDistribution : Code Unit := do
  let rounds ← choose
  receiveRounds scene work rounds.count

def receiveDistributions : List String → Code Unit
  | [] => pure ()
  | _ :: senders => do
    receiveDistribution scene work
    receiveDistributions senders

variable (phase : Option String)

def resetSenderKeys (work : LocalWork) : Code Unit :=
  if phase = some "removal.eager_refresh" then work.measure scene else pure ()

def senderKeyDistribute (recipients : List String) : Code Unit := do
  let work ← LocalWork.new scene scene.path
  resetSenderKeys scene phase work
  distribute scene work recipients
  work.finish scene

def senderKeyOnboard (participants : List String) : Code Unit := do
  let work ← LocalWork.new scene scene.path
  work.measure scene
  receiveDistributions scene work participants
  distribute scene work participants
  work.finish scene

def senderKeyReceiveDistribution : Code Unit := do
  let work ← LocalWork.new scene scene.path
  receiveDistribution scene work
  work.finish scene

def senderKeyEncrypt : Code Unit := do
  let work ← LocalWork.new scene scene.path
  work.measure scene
  let _ ← request
  work.finish scene

def senderKeyDecrypt : Code Unit := do
  let work ← LocalWork.new scene (profile && scene.path)
  let _ ← request
  let _ ← consult
  work.measure scene
  let _ ← consult
  let _ ← request
  work.finish scene

inductive Command
  | senderKeyDistribute (recipients : List String)
  | senderKeyOnboard (participants : List String)
  | senderKeyReceiveDistribution
  | senderKeyEncrypt
  | senderKeyDecrypt (profile : Bool)
  | registerParticipant
  | generatePrekeyBundle
  | publishPrekeyBundle
  | updateOneTimePrekeys
  | establishSessions (participants : List String) (profile : Bool)
  | resetSessions
  | encryptMessage
  | decryptMessage (profile : Bool)
  | processPending (maxMessages : Option Nat)
  | showParticipantState
  | removeParticipants

def handleCommand : Command → Code Unit
  | .senderKeyDistribute recipients => senderKeyDistribute scene phase recipients
  | .senderKeyOnboard participants => senderKeyOnboard scene participants
  | .senderKeyReceiveDistribution => senderKeyReceiveDistribution scene
  | .senderKeyEncrypt => senderKeyEncrypt scene
  | .senderKeyDecrypt profile => senderKeyDecrypt scene profile
  | .generatePrekeyBundle => generatePrekeyBundle scene
  | .publishPrekeyBundle => publishPrekeyBundle scene
  | .updateOneTimePrekeys => updateOneTimePrekeys scene
  | .establishSessions participants _ => establishSessions scene participants
  | .encryptMessage => encryptMessage scene
  | .decryptMessage profile => receiveMessageDelivery scene profile
  | .processPending maxMessages => processPending scene maxMessages
  | .registerParticipant | .resetSessions | .showParticipantState | .removeParticipants => pure ()

/-- How the process and its participants are set up. -/
structure Setup where
  /-- The protocol library writes its spans. -/
  writer : Bool
  externalProfiling : Bool
  profileEnabled : String → Bool
  /-- The participant has a profile file. -/
  profilePath : String → Bool

structure Envelope where
  command : Command
  phase : Option String := none
  /-- A benchmark phase, operation or plateau index is given. -/
  hasBenchmark : Bool := false

def Command.profileEnabled : Command → Bool
  | .establishSessions _ profile | .senderKeyDecrypt profile => profile
  | .resetSessions => false
  | _ => true

def Command.isSenderKeys : Command → Bool
  | .senderKeyDistribute _ | .senderKeyOnboard _ | .senderKeyReceiveDistribution
  | .senderKeyEncrypt | .senderKeyDecrypt _ => true
  | _ => false

namespace Setup

variable (setup : Setup) (participant : String) (envelope : Envelope)

def profileThisCommand : Bool :=
  setup.profileEnabled participant && envelope.command.profileEnabled

def sceneOf (number : Nat) : Scene where
  participant
  number
  writer := setup.writer
  path := setup.profileThisCommand participant envelope && setup.profilePath participant
  context := setup.profileThisCommand participant envelope && envelope.hasBenchmark &&
    (setup.externalProfiling || envelope.command.isSenderKeys)

end Setup

/-- The event of the whole command has no parent. -/
def writeWrapper : Code Unit := do
  if scene.path then
    let workerId ← currentWorkerId
    write (scene.emission workerId none)
  else pure ()

/-- A profiled command is handled within a span; an event that cannot be written only changes the
response. -/
def handleProfiled (envelope : Envelope) : Code Unit := do
  let id ← nextSpanId
  pushSpan (scene.span id)
  let _ ← attempt (handleCommand scene envelope.phase envelope.command)
  let _ ← attempt (writeWrapper scene)
  popSpanId id

def handleUnprofiled (envelope : Envelope) : Code Unit := do
  let _ ← attempt (handleCommand scene envelope.phase envelope.command)
  pure ()

variable (setup : Setup)

/-- One command of the actor of a participant. -/
def handleEnvelope (envelope : Envelope) : Code Unit :=
  if setup.profileThisCommand scene.participant envelope then handleProfiled scene envelope
  else handleUnprofiled scene envelope

def setParticipant (participant : String) : Code Unit :=
  if setup.profileEnabled participant then setWorkerId participant else pure ()

def participantCommandActor (participant : String) (envelope : Envelope) :
    Code Unit := do
  let number ← get
  setParticipant setup participant
  let _ ← attempt
    (handleEnvelope (setup.sceneOf participant envelope number) setup envelope)
  set (number + 1)

/-- The command as the code of a task; only the number of commands is kept. -/
def begin (participant : String) (envelope : Envelope) (number : Nat) :
    Strand threading Nat :=
  (participantCommandActor setup participant envelope number).bind fun r => .done r.2

end Code

end MessagingBench.Signal.Profiling
