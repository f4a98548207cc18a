import MessagingBench.Relay.State

/-!
# The participant of a worker

`signal_participant.rs` over the operations it uses of libsignal. The library is a
parameter: its operations receive the stores of the participant, which hold its keys and
its random generator, and return the changed stores also when they fail.
-/

namespace MessagingBench.Signal

open Delivery (Bytes)

/-- The libsignal operations behind a participant. -/
structure LibSignal where
  /-- The protocol stores of a participant. -/
  Store : Type
  PreKeySignalMessage : Type
  SignalMessage : Type
  preKeySignalMessage : Bytes → Option PreKeySignalMessage
  signalMessage : Bytes → Option SignalMessage
  /-- Decrypt a message of a peer. -/
  messageDecrypt : Store → String → PreKeySignalMessage ⊕ SignalMessage →
    Except String Bytes × Store

abbrev LibSignal.CiphertextMessage (L : LibSignal) : Type :=
  L.PreKeySignalMessage ⊕ L.SignalMessage

/-- A participant; a peer's address is its name, as every participant has one device. -/
structure SignalParticipant (L : LibSignal) where
  name : String
  store : L.Store

variable {L : LibSignal}

def ciphertextFromBytes (bytes : Bytes) : Except String L.CiphertextMessage :=
  match L.preKeySignalMessage bytes with
  | some message => .ok (.inl message)
  | none =>
    match L.signalMessage bytes with
    | some message => .ok (.inr message)
    | none => .error "unrecognized ciphertext message type"

namespace SignalParticipant

variable (participant : SignalParticipant L)

def decryptMessage (remote : String) (ciphertext : L.CiphertextMessage) :
    Except String Bytes × SignalParticipant L :=
  match L.messageDecrypt participant.store remote ciphertext with
  | (result, store) => (result, { participant with store := store })

end SignalParticipant

end MessagingBench.Signal
