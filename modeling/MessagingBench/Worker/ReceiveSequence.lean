import Mathlib.Data.List.Induction
import MessagingBench.Core.Run
import MessagingBench.Delivery.State

/-!
# Receive sequences of application messages

A process keeps the highest generation it has received from each sender of an epoch. It
classifies each message for the event of its sub-span and once more for the context of the
whole receive, where the message itself counts as received. A sender of whom nothing is known
is treated as if its generation 0 had been received.
-/

namespace MessagingBench.Worker

open Function

structure ReceiveSequence where
  firstReceiveFromSender : Bool
  generationGap : Nat
  outOfOrderMessage : Bool
  deriving DecidableEq, Repr

/-- One more than the previous maximum, which is -1 before the first message. -/
def nextGeneration (earlier : List Nat) : Nat := earlier.max?.elim 0 (· + 1)

/-- What the values are meant to say about a message after earlier ones. -/
def classification (earlier : List Nat) (generation : Nat) : ReceiveSequence :=
  ⟨earlier.isEmpty, generation - nextGeneration earlier,
    !earlier.isEmpty && generation != nextGeneration earlier⟩

variable {tracker : ReceiveTracker} {key : ReceiveKey} {generation : Nat}

end MessagingBench.Worker
