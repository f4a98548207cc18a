import Mathlib.Data.List.Perm.Basic
import MessagingBench.Core.Routine

/-!
# Random numbers and shuffles

A generator of random numbers is an arbitrary source of numbers below a bound. A list is
shuffled by swapping every position, from the last one down, with one that is not after it.
-/

namespace MessagingBench

open Routine

structure Generator (ρ : Type) where
  next : Nat → ρ → Nat × ρ

namespace Generator

variable {ρ ι α : Type} (rng : Generator ρ)

def below (bound : Nat) : Routine ρ ι Nat :=
  apply fun r => ((rng.next bound r).1 % bound, (rng.next bound r).2)

def shuffleFrom : Nat → List α → Routine ρ ι (List α)
  | 0, values => pure values
  | position + 1, values => do
    let other ← rng.below (position + 2)
    shuffleFrom position (values.swap (position + 1) other)

def shuffle (values : List α) : Routine ρ ι (List α) := rng.shuffleFrom (values.length - 1) values

variable {rng}

theorem returns_below {bound : Nat} (hbound : 0 < bound) :
    Returns (fun _ => True) (rng.below bound : Routine ρ ι Nat) fun number _ => number < bound :=
  .apply fun _ _ => Nat.mod_lt _ hbound

theorem returns_shuffleFrom (position : Nat) (values : List α) :
    Returns (fun _ => True) (rng.shuffleFrom position values : Routine ρ ι (List α))
      fun shuffled _ => shuffled.Perm values := by
  induction position generalizing values with
  | zero => exact .pure fun _ _ => .refl _
  | succ position ih =>
    refine (returns_below (Nat.succ_pos _)).bind fun other => ?_
    exact (ih (values.swap (position + 1) other)).imp (fun _ _ => trivial)
      fun shuffled _ hperm => hperm.trans (List.swap_perm _ _ _)

theorem returns_shuffle (values : List α) :
    Returns (fun _ => True) (rng.shuffle values : Routine ρ ι (List α))
      fun shuffled _ => shuffled.Perm values :=
  returns_shuffleFrom _ values

end Generator

end MessagingBench
