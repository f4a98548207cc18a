import MessagingBench.Core.Routine
import MessagingBench.Signal.Participant
import MessagingBench.Signal.Relay
import MessagingBench.Worker.Http

/-!
# Requests of a Signal worker to the relay

The relay helpers of the Signal `worker_api.rs` under the retry loop of `http_retry.rs`.
A worker executes its commands one after the other. How its attempts fare is decided by
a list of attempts that is used up in order: each says what the relay processes for
others before, and whether the request or its response is lost.
-/

namespace MessagingBench.Signal

open Delivery (Bytes)
open Worker

/-- What happens to an attempt; a lost response is seen as an error that may be retried. -/
inductive Fate
  | answered
  | lost (reached transient : Bool) (cause : String)
  deriving DecidableEq, Repr

structure Attempt where
  others : List RelayRequest
  fate : Fate
  elapsedMs : Nat
  deriving DecidableEq, Repr

def Attempt.undisturbed : Attempt := ⟨[], .answered, 0⟩

/-- What is observed of a worker. The observations have no counterpart in the source. -/
inductive Event
  /-- A pending message was decrypted to so many bytes. -/
  | decrypted (message : PendingMessage) (plaintextBytes : Nat)
  /-- The worker is about to acknowledge a pending message. -/
  | acked (message : PendingMessage)
  /-- A receive that asked for a sender and a length ends well with a pending message. -/
  | answered (sender : Option String) (expected : Option Nat) (message : PendingMessage)
  deriving DecidableEq, Repr

/-- A worker, the relay and the attempts that are still to come. -/
structure WorkerState (L : LibSignal) where
  participant : SignalParticipant L
  relay : MessageRelay
  attempts : List Attempt
  history : List Event

/-- The code of a worker; errors are their texts. -/
abbrev Handler (L : LibSignal) (α : Type) : Type := Routine (WorkerState L) String α

inductive RetryDecision
  | success (body : RelayBody)
  | transient (cause : String)
  | fatal (cause : String)
  deriving DecidableEq, Repr

def RelayBody.asText : RelayBody → String
  | .text content => content
  | .message _ => ""

/-- How the helper of a request names its failure. -/
def RelayRequest.failureLabel : RelayRequest → String
  | .publish _ _ _ _ => "Relay POST"
  | .fetchPending _ _ => "Relay pending message GET"
  | .ack _ _ => "Relay ack message"

/-- Classification of a response. -/
def RelayRequest.retryDecision (request : RelayRequest) (response : RelayResponse) :
    RetryDecision :=
  if 200 ≤ response.status ∧ response.status < 300 then
    match request, response.body with
    | .fetchPending _ _, .text _ => .fatal "error decoding response body"
    | _, body => .success body
  else if isTransientStatus response.status = true then
    .transient ("HTTP " ++ statusText response.status ++ ": " ++ response.body.asText)
  else
    .fatal (request.failureLabel ++ " failed with status " ++ statusText response.status ++ ": " ++
      response.body.asText)

abbrev RelayCall : Type := HelperCall RelayRequest

/-- The relay processes requests whose responses do not matter. -/
def MessageRelay.process (relay : MessageRelay) (requests : List RelayRequest) : MessageRelay :=
  requests.foldl (fun relay request => (relay.handle request).2) relay

/-- How one attempt ends and what it leaves of the relay. -/
def Attempt.send (attempt : Attempt) (relay : MessageRelay) (request : RelayRequest) :
    RetryDecision × MessageRelay :=
  let reached := (relay.process attempt.others).handle request
  match attempt.fate with
  | .answered => (request.retryDecision reached.1, reached.2)
  | .lost true transient cause =>
    (if transient then .transient cause else .fatal cause, reached.2)
  | .lost false transient cause =>
    (if transient then .transient cause else .fatal cause, relay.process attempt.others)

section Handlers

variable {L : LibSignal}

def note (event : Event) : Handler L Unit :=
  Routine.modify fun s => { s with history := s.history ++ [event] }

def getParticipant : Handler L (SignalParticipant L) := do
  let s ← Routine.get
  pure s.participant

/-- Run an operation of the participant in place. -/
def onParticipant {α : Type} (f : SignalParticipant L → Except String α × SignalParticipant L) :
    Handler L α :=
  fun s => ((f s.participant).1, { s with participant := (f s.participant).2 })

/-- One attempt of a request. -/
def transmit (request : RelayRequest) : Handler L (RetryDecision × Nat) :=
  Routine.apply fun s =>
    let attempt := s.attempts.headD .undisturbed
    let sent := attempt.send s.relay request
    ((sent.1, attempt.elapsedMs), { s with relay := sent.2, attempts := s.attempts.tail })

/-- The retry loop with so many attempts left. -/
def retryTransientHttp (call : RelayCall) : Nat → Handler L RelayBody
  | 0 => Routine.fail "retry loop always returns"
  | left + 1 => do
    let (decision, elapsedMs) ← transmit call.request
    match decision with
    | .success body => pure body
    | .fatal cause => Routine.fail (call.errorText (maxAttempts - left) elapsedMs cause)
    | .transient cause =>
      if left = 0 then Routine.fail (call.errorText (maxAttempts - left) elapsedMs cause)
      else retryTransientHttp call left

variable (relayUrl : String)

def relayBase : String :=
  String.ofList ((relayUrl.toList.reverse.dropWhile (· == '/')).reverse)

def pendingUrl (recipient : String) : Option String → String
  | some sender => relayBase relayUrl ++ "/message/" ++ recipient ++ "/pending/" ++ sender
  | none => relayBase relayUrl ++ "/message/" ++ recipient ++ "/pending"

def relayGetPendingMessage (recipient : String) (sender : Option String) :
    Handler L PendingMessage := do
  match ← retryTransientHttp ⟨"relay.fetch_pending_message", recipient,
      pendingUrl relayUrl recipient sender, .fetchPending recipient sender⟩ maxAttempts with
  | .message message => pure message
  | .text _ => Routine.fail "error decoding response body"

def relayAckMessage (recipient messageId : String) : Handler L Unit := do
  let _ ← retryTransientHttp ⟨"relay.ack_message", recipient,
    relayBase relayUrl ++ "/message/" ++ recipient ++ "/ack/" ++ messageId,
    .ack recipient messageId⟩ maxAttempts
  pure ()

end Handlers

end MessagingBench.Signal
