import MessagingBench.Signal.Network
import MessagingBench.Worker.Commands

/-!
# Receiving pairwise messages

`receive_message_delivery` and the commands built on it. A pending message is fetched,
decrypted and acknowledged; bytes that do not parse and errors that look like a repeated
delivery are taken for messages that were processed before.
-/

namespace MessagingBench.Signal

open Delivery (Bytes)
open Worker

variable {L : LibSignal}

/-- The six fragments are those of the MLS worker. -/
def looksLikeDuplicateReceive (error : String) : Bool :=
  looksLikeDuplicateApplicationReceive error

def PendingMessage.describe (delivery : PendingMessage) : String :=
  "message_id=" ++ delivery.id ++ " conversation=" ++ delivery.conversationId ++ " sender=" ++
    delivery.sender

section Receive

variable (relayUrl : String) (sender : Option String) (expected : Option Nat)

/-- Acknowledge a delivery and end well. -/
def acknowledge (delivery : PendingMessage) (text : String) : Handler L String := do
  let participant ← getParticipant
  note (.acked delivery)
  relayAckMessage relayUrl participant.name delivery.id
  note (.answered sender expected delivery)
  pure text

/-- The delivery was decrypted. -/
def acceptPlaintext (delivery : PendingMessage) (plaintext : Bytes) : Handler L String := do
  note (.decrypted delivery plaintext.length)
  if expected.all (plaintext.length == ·) then
    acknowledge relayUrl sender expected delivery ("pairwise message received: " ++
      lossyText plaintext ++ "; " ++ delivery.describe)
  else
    Routine.fail ("Decrypted " ++ plaintext.length.repr ++ " plaintext bytes from " ++
      delivery.sender ++ ", expected " ++ ((expected.map Nat.repr).getD ""))

/-- A delivery whose bytes are known. -/
def openDelivery (delivery : PendingMessage) (messageBytes : Bytes) : Handler L String :=
  match ciphertextFromBytes messageBytes with
  | .error _ =>
    acknowledge relayUrl sender expected delivery
      ("message already processed (deserialize failed): " ++ delivery.describe)
  | .ok ciphertext => do
    match ← Routine.attempt (onParticipant fun participant =>
        participant.decryptMessage delivery.sender ciphertext) with
    | .ok plaintext => acceptPlaintext relayUrl sender expected delivery plaintext
    | .error text =>
      if looksLikeDuplicateReceive text = true then
        acknowledge relayUrl sender expected delivery
          ("pairwise message already processed: " ++ delivery.describe)
      else Routine.fail text

/-- What is done with a fetched delivery. -/
def processDelivery (delivery : PendingMessage) : Handler L String :=
  if sender.all (delivery.sender == ·) then
    match hexDecode delivery.messageHex with
    | none => Routine.fail ("decode pending message id=" ++ delivery.id ++ " conversation=" ++
        delivery.conversationId ++ " sender=" ++ delivery.sender)
    | some messageBytes => openDelivery relayUrl sender expected delivery messageBytes
  else
    Routine.fail ("Relay returned sender " ++ delivery.sender ++ " while " ++ sender.getD "" ++
      " was requested")

def receiveMessageDelivery : Handler L String := do
  let participant ← getParticipant
  let delivery ← relayGetPendingMessage relayUrl participant.name sender
  processDelivery relayUrl sender expected delivery

end Receive

section Commands

variable (relayUrl : String)

/-- The command `DecryptMessage`: only a request for a length asks for the sender. -/
def decryptMessage (sender : String) (expectedPlaintextBytes : Option Nat) : Handler L String :=
  receiveMessageDelivery relayUrl (expectedPlaintextBytes.map fun _ => sender)
    expectedPlaintextBytes

end Commands

/-- The code takes a delivery for one that was processed before: its bytes do not parse,
or its decryption fails with an error that looks like a repeated delivery. -/
def judgedProcessed (participant : SignalParticipant L) (delivery : PendingMessage) : Bool :=
  match hexDecode delivery.messageHex with
  | none => false
  | some messageBytes =>
    match (ciphertextFromBytes messageBytes : Except String L.CiphertextMessage) with
    | .error _ => true
    | .ok ciphertext =>
      match (participant.decryptMessage delivery.sender ciphertext).1 with
      | .ok _ => false
      | .error text => looksLikeDuplicateReceive text

end MessagingBench.Signal
