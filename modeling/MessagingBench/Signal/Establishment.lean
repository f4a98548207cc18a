import MessagingBench.Signal.KeyRepository
import MessagingBench.Worker.Http

/-!
# Prekey commands against one key repository

`GeneratePrekeyBundle`, `UpdateOneTimePrekeys` and `EstablishSessions` of the Signal
`worker_api.rs`. A command proceeds by requests to the key repository, a request by attempts
of the retry loop of `http_retry.rs`. One action of the system is one attempt or one local
step; the schedule interleaves them freely.

An attempt may be answered, lose its request or its response, or leave its request on the
way: the worker times out and the repository handles the request at some later time.
-/

namespace MessagingBench.Signal.Prekeys

open Worker

section Requests

inductive KrRequest (ι : Type)
  | publishPrekeyBundles (participant : ι) (batch : PrekeyBundleBatchStorable)
  | fetchPrekeyBundle (participant : ι)
  | consumeOneTimePrekey (participant : ι)
  | getPrekeyStock (participant : ι)
  deriving DecidableEq, Repr

inductive KrResponse
  | ok
  | notFound
  | bundle (bundle : PrekeyBundleStorable)
  | stock (stock : PrekeyStock)
  deriving DecidableEq, Repr

variable {ι : Type} [DecidableEq ι]

/-- The handlers of `bin/key_repository.rs`. A consume request is always answered alike. -/
def KeyRepository.handle (repository : KeyRepository ι) :
    KrRequest ι → KrResponse × KeyRepository ι
  | .publishPrekeyBundles participant batch =>
    (.ok, repository.publishPrekeyBundleBatch participant batch)
  | .fetchPrekeyBundle participant =>
    (match repository.fetchPrekeyBundle participant with
      | some bundle => .bundle bundle
      | none => .notFound, repository)
  | .consumeOneTimePrekey participant => (.ok, (repository.consumeOneTimePrekey participant).2)
  | .getPrekeyStock participant => (.stock (repository.prekeyStock participant), repository)

end Requests

/-- The commands that deal with prekeys. The keys that a command draws come with it. -/
inductive Command (ι : Type)
  | generatePrekeyBundle (draw : Nat → DrawnKeys)
  | updateOneTimePrekeys (draw : Nat → DrawnKeys)
  | establishSessions (participants : List ι)

/-- A request that a command waits for, with what the command knows at that point. -/
inductive Call (ι : Type)
  /-- The stock before the upload of `GeneratePrekeyBundle`. -/
  | stockBefore (batch : PrekeyBundleBatchStorable)
  /-- The stock that `UpdateOneTimePrekeys` compares with the low watermark. -/
  | stockForUpdate (draw : Nat → DrawnKeys)
  | publish (batch : PrekeyBundleBatchStorable)
  | stockAfter
  | fetch (peer : ι) (rest : List ι)
  | consume (peer : ι) (rest : List ι) (used : PrekeyBundleStorable)

/-- How far the command of a participant has come. -/
inductive Phase (ι : Type)
  | resting
  /-- The head of the loop of `EstablishSessions`. -/
  | selecting (peers : List ι)
  | asking (call : Call ι) (attempt : Nat)
  /-- A bundle was fetched and is not yet processed. -/
  | holding (peer : ι) (rest : List ι) (bundle : PrekeyBundleStorable)

namespace Call

variable {ι : Type}

def request (participant : ι) : Call ι → KrRequest ι
  | .stockBefore _ => .getPrekeyStock participant
  | .stockForUpdate _ => .getPrekeyStock participant
  | .publish batch => .publishPrekeyBundles participant batch
  | .stockAfter => .getPrekeyStock participant
  | .fetch peer _ => .fetchPrekeyBundle peer
  | .consume peer _ _ => .consumeOneTimePrekey peer

/-- A request that failed for good ends the command, except that a failed consume request
is ignored. -/
def abandon : Call ι → Phase ι
  | .consume _ rest _ => .selecting rest
  | _ => .resting

/-- The retry loop after an attempt without a response. -/
def retry (call : Call ι) (attempt : Nat) (transient : Bool) : Phase ι :=
  if transient = true ∧ attempt < maxAttempts then .asking call (attempt + 1) else call.abandon

end Call

section Commands

variable {ι : Type}

/-- The prekey side of a participant and its current command. -/
structure Participant (ι : Type) where
  owner : PrekeyOwner
  phase : Phase ι

/-- Generated bundles are packed; a failure ends the command. -/
def Participant.pack (generated : Except String (List PreKeyBundle) × PrekeyOwner)
    (next : PrekeyBundleBatchStorable → Call ι) : Participant ι where
  owner := generated.2
  phase := match generated.1.bind prekeyBundleBatch with
    | .ok batch => .asking (next batch) 1
    | .error _ => .resting

def PrekeyOwner.start (owner : PrekeyOwner) : Command ι → Participant ι
  | .generatePrekeyBundle draw => Participant.pack (owner.generatePrekeyBundles draw) .stockBefore
  | .updateOneTimePrekeys draw => ⟨owner, .asking (.stockForUpdate draw) 1⟩
  | .establishSessions participants => ⟨owner, .selecting participants⟩

/-- What a command does with the response to a call. -/
def PrekeyOwner.resume (owner : PrekeyOwner) : Call ι → KrResponse → Participant ι
  | .stockBefore batch, .stock _ => ⟨owner, .asking (.publish batch) 1⟩
  | .stockForUpdate draw, .stock stock =>
    if owner.oneTimePrekeyLowWatermark < stock.oneTimeAvailable then ⟨owner, .resting⟩
    else Participant.pack (owner.generateReplenishmentPrekeyBundles draw) .publish
  | .publish _, .ok => ⟨owner, .asking .stockAfter 1⟩
  | .fetch peer rest, .bundle bundle => ⟨owner, .holding peer rest bundle⟩
  | .consume _ rest _, _ => ⟨owner, .selecting rest⟩
  | _, _ => ⟨owner, .resting⟩

/-- The next peer of `EstablishSessions` is passed over if there is a session with it. -/
def selectPeer (hasSession : Bool) : List ι → Phase ι
  | [] => .resting
  | peer :: rest => if hasSession then .selecting rest else .asking (.fetch peer rest) 1

/-- A fetched bundle must name its prekey and hold it, or neither. Whether its keys are valid
and whether libsignal accepts it, is `accepted`. -/
def PrekeyBundleStorable.establishes (bundle : PrekeyBundleStorable) (accepted : Bool) : Bool :=
  bundle.prekeyId.isSome == bundle.prekeyPublic.isSome && accepted

end Commands

section System

variable {ι : Type} [DecidableEq ι]

/-- What is observed of the system; the observations have no counterpart in the source. -/
inductive Event (ι : Type)
  /-- A session with a peer was established from a bundle of the peer. -/
  | established (initiator peer : ι) (bundle : PrekeyBundleStorable)
  /-- The repository handled a consume request of an initiator that had used a bundle. -/
  | consumed (initiator peer : ι) (used : PrekeyBundleStorable)
      (removed : Option PrekeyBundleStorable)
  deriving DecidableEq, Repr

structure System (ι : Type) where
  repository : KeyRepository ι
  participants : ι → Participant ι
  /-- Requests on the way whose senders no longer wait for them. -/
  strays : List (ι × Call ι)
  history : List (Event ι)

inductive Passage
  | answered
  | lost (reached transient : Bool)
  | strayed
  deriving DecidableEq, Repr

inductive Action (ι : Type)
  | start (participant : ι) (command : Command ι)
  /-- A local step: the test for a session, or the processing of a fetched bundle. -/
  | proceed (participant : ι) (outcome : Bool)
  | attempt (participant : ι) (passage : Passage)
  | arrive (index : Nat)

namespace System

def initial (owners : ι → PrekeyOwner) : System ι where
  repository := .new
  participants i := ⟨owners i, .resting⟩
  strays := []
  history := []

variable (s : System ι)

def queue (peer : ι) : List PrekeyBundleStorable :=
  s.repository.prekeyBundles peer

def become (i : ι) (participant : Participant ι) : System ι :=
  { s with participants := Function.update s.participants i participant }

def setPhase (i : ι) (phase : Phase ι) : System ι :=
  s.become i ⟨(s.participants i).owner, phase⟩

def note (events : List (Event ι)) : System ι :=
  { s with history := s.history ++ events }

/-- What is observed when the repository handles a call. -/
def observe (i : ι) : Call ι → List (Event ι)
  | .consume peer _ used => [.consumed i peer used (consumedOf (s.queue peer))]
  | _ => []

/-- The repository handles a call of a participant. -/
def serve (i : ι) (call : Call ι) : System ι :=
  { s with
    repository := (s.repository.handle (call.request i)).2
    history := s.history ++ s.observe i call }

def exchange (i : ι) (call : Call ι) (attempt : Nat) : Passage → System ι
  | .answered => (s.serve i call).become i
      ((s.participants i).owner.resume call (s.repository.handle (call.request i)).1)
  | .lost true transient => (s.serve i call).setPhase i (call.retry attempt transient)
  | .lost false transient => s.setPhase i (call.retry attempt transient)
  | .strayed => { s with strays := s.strays ++ [(i, call)] }.setPhase i (call.retry attempt true)

/-- The processing of a fetched bundle; a failure ends the command. -/
def process (i peer : ι) (rest : List ι) (bundle : PrekeyBundleStorable)
    (accepted : Bool) : System ι :=
  if bundle.establishes accepted then
    (s.note [.established i peer bundle]).setPhase i (.asking (.consume peer rest bundle) 1)
  else s.setPhase i .resting

def step : Action ι → System ι
  | .start i command =>
    match (s.participants i).phase with
    | .resting => s.become i ((s.participants i).owner.start command)
    | _ => s
  | .proceed i outcome =>
    match (s.participants i).phase with
    | .selecting peers => s.setPhase i (selectPeer outcome peers)
    | .holding peer rest bundle => s.process i peer rest bundle outcome
    | _ => s
  | .attempt i passage =>
    match (s.participants i).phase with
    | .asking call attempt => s.exchange i call attempt passage
    | _ => s
  | .arrive index =>
    match s.strays[index]? with
    | some (i, call) => { s with strays := s.strays.eraseIdx index }.serve i call
    | none => s

end System

end System

end MessagingBench.Signal.Prekeys
