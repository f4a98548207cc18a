import MessagingBench.Relay.State

/-!
# The relay for pairwise messages

State and operations of the Signal `message_relay.rs`, and the endpoints through which
workers use it. A published message receives a fresh sequence number and is queued for
every listed recipient except the sender. A recipient may ask for the oldest message of
one sender; it stays queued until it is acknowledged.
-/

namespace MessagingBench.Signal

open Delivery (Bytes)

structure RelayEnvelope where
  id : String
  conversationId : String
  sender : String
  messageBytes : Bytes
  deriving DecidableEq, Repr

/-- A queued message as the pending endpoints report it. -/
structure PendingMessage where
  id : String
  conversationId : String
  sender : String
  messageHex : String
  deriving DecidableEq, Repr

/-- The relay state; request metrics are not part of the model. -/
structure MessageRelay where
  inboxes : Inboxes String RelayEnvelope
  nextMessageId : UInt64

/-- The ids are built like those of the MLS relay. -/
def pairwiseMessageId : String → String → UInt64 → String → String := Relay.applicationMessageId

/-- What is queued for a recipient of a message. -/
def pairwiseEnvelope (conversationId sender : String) (seq : UInt64) (messageBytes : Bytes)
    (recipient : String) : RelayEnvelope :=
  ⟨pairwiseMessageId conversationId sender seq recipient, conversationId, sender, messageBytes⟩

def RelayEnvelope.pending (envelope : RelayEnvelope) : PendingMessage where
  id := envelope.id
  conversationId := envelope.conversationId
  sender := envelope.sender
  messageHex := hexEncode envelope.messageBytes

namespace MessageRelay

def new : MessageRelay := ⟨fun _ => none, 1⟩

variable (relay : MessageRelay)

/-- The queue of a recipient; an absent queue is created empty on first use. -/
def inboxQueue (recipient : String) : List RelayEnvelope := relay.inboxes.queue recipient

/-- The loop over the recipients passes over the sender. -/
def publishPairwiseMessage (conversationId sender : String) (recipients : List String)
    (messageBytes : Bytes) : Except String Unit × MessageRelay :=
  if recipients.isEmpty then (.error "No recipients provided", relay)
  else
    (.ok (),
      { inboxes := relay.inboxes.pushAll
          (pairwiseEnvelope conversationId sender relay.nextMessageId messageBytes)
          (recipients.filter (· != sender))
        nextMessageId := relay.nextMessageId + 1 })

/-- The oldest queued message, of one sender if one is asked for; it is left in the queue. -/
def fetchPendingMessageRecord (recipient : String) (sender : Option String) :
    Option RelayEnvelope :=
  (relay.inboxes recipient).bind fun queue =>
    queue.find? fun envelope => sender.all (envelope.sender == ·)

def ackMessage (recipient messageId : String) : Bool × MessageRelay :=
  match relay.inboxes recipient with
  | none => (false, relay)
  | some queue =>
    let kept := queue.filter fun envelope => envelope.id != messageId
    (queue.length != kept.length,
      { relay with inboxes := Function.update relay.inboxes recipient (some kept) })

end MessageRelay

inductive RelayRequest
  | publish (conversationId sender : String) (recipients : List String) (body : Bytes)
  | fetchPending (recipient : String) (sender : Option String)
  | ack (recipient messageId : String)
  deriving DecidableEq, Repr

inductive RelayBody
  | text (content : String)
  | message (message : PendingMessage)
  deriving DecidableEq, Repr

structure RelayResponse where
  status : Nat
  body : RelayBody
  deriving DecidableEq, Repr

/-- Process one request. -/
def MessageRelay.handle (relay : MessageRelay) : RelayRequest → RelayResponse × MessageRelay
  | .publish conversationId sender recipients body =>
    match Relay.parseRecipientsHeader (Relay.joinRecipients recipients) with
    | .error message => (⟨400, .text message⟩, relay)
    | .ok parsed =>
      match relay.publishPairwiseMessage conversationId sender parsed body with
      | (.ok (), relay') => (⟨200, .text ""⟩, relay')
      | (.error message, relay') => (⟨400, .text message⟩, relay')
  | .fetchPending recipient sender =>
    match relay.fetchPendingMessageRecord recipient sender with
    | some envelope => (⟨200, .message envelope.pending⟩, relay)
    | none => (⟨404, .text ""⟩, relay)
  | .ack recipient messageId =>
    match relay.ackMessage recipient messageId with
    | (true, relay') => (⟨200, .text ""⟩, relay')
    | (false, relay') => (⟨200, .text "message was already acked or absent"⟩, relay')

namespace MessageRelay

variable (relay : MessageRelay)

section Queues

theorem inboxQueue_ackMessage (recipient messageId r : String) :
    (relay.ackMessage recipient messageId).2.inboxQueue r =
      if r = recipient then (relay.inboxQueue r).filter fun envelope => envelope.id != messageId
      else relay.inboxQueue r := by
  unfold ackMessage
  cases hqueue : relay.inboxes recipient with
  | none => by_cases hr : r = recipient <;> simp [inboxQueue, Inboxes.queue, hr, hqueue]
  | some queue => exact Inboxes.queue_update_filter _ hqueue

theorem fetchPendingMessageRecord_eq (recipient : String) (sender : Option String) :
    relay.fetchPendingMessageRecord recipient sender =
      (relay.inboxQueue recipient).find? fun envelope => sender.all (envelope.sender == ·) := by
  unfold fetchPendingMessageRecord inboxQueue Inboxes.queue
  cases relay.inboxes recipient <;> rfl

end Queues

end MessageRelay

end MessagingBench.Signal
