import MessagingBench.Worker.Commands

/-!
# Payloads of a requested length

The payload of an application message repeats a line about its sender until it is long enough
and is then cut at a byte position. A cut inside a character is a panic, so that there is a
payload exactly if the byte at which the line is cut begins a character.
-/

namespace MessagingBench.Runner

open Delivery Worker

/-- The bytes of a character in UTF-8 after its first one. -/
def isContinuation (byte : UInt8) : Bool := 128 ≤ byte && byte < 192

/-- `String::truncate` on the bytes of a text; a cut inside a character panics. -/
def truncate (len : Nat) (text : Bytes) : Option Bytes :=
  if (text[len]?).any isContinuation then none else some (text.take len)

/-- The loop of `deterministic_payload`: every round makes the text longer. -/
def pushSeed (len : Nat) (seed : Bytes) : Nat → Bytes → Bytes
  | 0, out => out
  | rounds + 1, out => if out.length < len then pushSeed len seed rounds (out ++ seed) else out

def payloadSeed (plateauSize payloadSize seqNo : Nat) (actorId : String) : Bytes :=
  utf8Bytes ("plateau=" ++ plateauSize.repr ++ ";payload=" ++ payloadSize.repr ++ ";seq=" ++
    seqNo.repr ++ ";actor=" ++ actorId ++ ";")

def deterministicPayload (len plateauSize payloadSize seqNo : Nat) (actorId : String) :
    Option Bytes :=
  if len = 0 then some []
  else
    truncate len (pushSeed len (payloadSeed plateauSize payloadSize seqNo actorId) len [])

/-- The copy of the seed that a cut falls into is cut inside a character. -/
def cutInside (len : Nat) (seed : Bytes) : Bool := (seed[len % seed.length]?).any isContinuation

/-- A text of whole copies of the seed. -/
structure Repeats (seed text : Bytes) : Prop where
  length : text.length % seed.length = 0
  byte : ∀ i < text.length, text[i]? = seed[i % seed.length]?

variable {seed text : Bytes}

theorem Repeats.append (h : Repeats seed text) : Repeats seed (text ++ seed) := by
  refine ⟨by simp [h.length], fun i hi => ?_⟩
  rw [List.length_append] at hi
  rcases Nat.lt_or_ge i text.length with hlt | hge
  · rw [List.getElem?_append_left hlt, h.byte i hlt]
  · obtain ⟨j, rfl⟩ := Nat.exists_eq_add_of_le hge
    rw [List.getElem?_append_right hge, Nat.add_mod, h.length, Nat.zero_add, Nat.mod_mod,
      Nat.mod_eq_of_lt (by omega), Nat.add_sub_cancel_left]

/-- Enough rounds make the text long enough, and only whole seeds are pushed. -/
theorem pushSeed_repeats {len : Nat} (hseed : seed ≠ []) (rounds : Nat) (h : Repeats seed text)
    (hrounds : len ≤ rounds + text.length) : Repeats seed (pushSeed len seed rounds text) ∧
      len ≤ (pushSeed len seed rounds text).length := by
  induction rounds generalizing text with
  | zero => exact ⟨h, by simpa [pushSeed] using hrounds⟩
  | succ rounds ih =>
    rw [pushSeed]
    split
    · have hpos := List.length_pos_iff.mpr hseed
      refine ih h.append ?_
      rw [List.length_append]
      omega
    · exact ⟨h, by omega⟩

theorem payloadSeed_eq {plateauSize payloadSize seqNo : Nat} {actorId : String} :
    ∃ rest, payloadSeed plateauSize payloadSize seqNo actorId = 112 :: rest := by
  have hstart (a b : String) : utf8Bytes (a ++ b) = utf8Bytes a ++ utf8Bytes b := by
    simp [utf8Bytes]
  have hplateau : utf8Bytes "plateau=" = 112 :: [108, 97, 116, 101, 97, 117, 61] := by
    decide +kernel
  simp only [payloadSeed, hstart, hplateau, List.append_assoc, List.cons_append]
  exact ⟨_, rfl⟩

/-- A payload of the requested length is returned exactly if the line is not cut inside a
character. -/
theorem deterministicPayload_iff (len plateauSize payloadSize seqNo : Nat) (actorId : String) :
    (∃ payload, deterministicPayload len plateauSize payloadSize seqNo actorId = some payload ∧
      payload.length = len) ↔
      cutInside len (payloadSeed plateauSize payloadSize seqNo actorId) = false := by
  obtain ⟨rest, hseed⟩ := payloadSeed_eq
  rw [deterministicPayload, hseed]
  generalize hfirst : 112 :: rest = seed
  have hhead : (seed[0]?).any isContinuation = false := by
    subst hfirst
    rfl
  split
  · rename_i hzero
    rw [hzero, cutInside, Nat.zero_mod]
    exact ⟨fun _ => hhead, fun _ => ⟨[], rfl, rfl⟩⟩
  have hnil : Repeats seed [] := ⟨by simp, by simp⟩
  obtain ⟨hrepeats, hlength⟩ := pushSeed_repeats (hfirst ▸ List.cons_ne_nil _ _) len hnil
    (Nat.le_refl len)
  generalize pushSeed len seed len [] = text at hrepeats hlength
  have hbyte : (text[len]?).any isContinuation = cutInside len seed := by
    rcases Nat.lt_or_eq_of_le hlength with hlt | heq
    · rw [hrepeats.byte len hlt, cutInside]
    · rw [cutInside, heq, hrepeats.length, hhead, List.getElem?_eq_none (Nat.le_refl _)]
      rfl
  rw [truncate, hbyte]
  cases cutInside len seed with
  | true => simp
  | false => simp [List.length_take, Nat.min_eq_left hlength]

/-- Thirty-three bytes end in the middle of the name of the sender. -/
theorem deterministicPayload_panics : deterministicPayload 33 0 0 0 "é" = none := by
  decide +kernel

end MessagingBench.Runner
