import Mathlib.Logic.Function.Basic

/-!
# Queues under keys

Values are put at the end of the queues of their keys, and taken out by a test.
-/

namespace MessagingBench

/-- Queues under keys; a missing key stands for an empty queue. -/
abbrev Inboxes (κ ν : Type) : Type := κ → Option (List ν)

namespace Inboxes

variable {κ ν : Type} [DecidableEq κ] (inboxes : Inboxes κ ν)

/-- The queue of a key. -/
def queue (key : κ) : List ν := (inboxes key).getD []

/-- Put a value into the queue of its key. -/
def push (value : κ → ν) (key : κ) : Inboxes κ ν :=
  Function.update inboxes key (some (inboxes.queue key ++ [value key]))

/-- Push values for one key after the other. -/
def pushAll (value : κ → ν) (keys : List κ) : Inboxes κ ν :=
  keys.foldl (fun inboxes key => inboxes.push value key) inboxes

variable (value : κ → ν)

/-- Only the queue of the key becomes longer. -/
theorem queue_push (key k : κ) :
    (inboxes.push value key).queue k =
      inboxes.queue k ++ if k = key then [value k] else [] := by
  by_cases hk : k = key
  · subst hk
    simp [push, queue]
  · simp [push, queue, hk]

/-- A queue becomes longer by one value for each time its key is listed. -/
theorem queue_pushAll (keys : List κ) (k : κ) :
    (inboxes.pushAll value keys).queue k =
      inboxes.queue k ++ List.replicate (keys.count k) (value k) := by
  induction keys generalizing inboxes with
  | nil => simp [pushAll]
  | cons key keys ih =>
    have hstep : inboxes.pushAll value (key :: keys) = (inboxes.push value key).pushAll value keys :=
      rfl
    rw [hstep, ih, queue_push]
    by_cases hk : k = key
    · subst hk
      simp [List.replicate_succ]
    · simp [hk, Ne.symm hk]

/-- Replacing the queue of a key by a part of it. -/
theorem queue_update_filter {key : κ} {values : List ν} (hvalues : inboxes key = some values)
    {keeps : ν → Bool} {k : κ} :
    queue (Function.update inboxes key (some (values.filter keeps))) k =
      if k = key then (inboxes.queue k).filter keeps else inboxes.queue k := by
  by_cases hk : k = key
  · simp [queue, hk, hvalues]
  · simp [queue, hk]

end Inboxes

end MessagingBench
