import Mathlib.Data.List.Basic
import Mathlib.Logic.Function.Basic
import Mathlib.Tactic.IntervalCases

/-!
# Delimited identifiers, decimal fields and hexadecimal payloads

Identifiers are built by joining fields with a separator character. A field that
does not contain the separator can be split off uniquely, decimal fields never
contain a non-digit, and byte strings survive the hexadecimal encoding used to
embed them in text.
-/

namespace MessagingBench

open List

/-- The text before and after the first occurrence of a separator. -/
def splitOnce (sep : List Char) : List Char → Option (List Char × List Char)
  | [] => if sep = [] then some ([], []) else none
  | c :: text =>
    if sep.isPrefixOf (c :: text) then some ([], (c :: text).drop sep.length)
    else (splitOnce sep text).map fun parts => (c :: parts.1, parts.2)

theorem splitOnce_append_of_not_mem {c : Char} {sep a b : List Char} (h : c ∉ a) :
    splitOnce (c :: sep) (a ++ c :: (sep ++ b)) = some (a, b) := by
  induction a with
  | nil => simp [splitOnce]
  | cons d a ih =>
    rw [mem_cons, not_or] at h
    simp [splitOnce, h.1, ih h.2]

/-- Splitting at the first separator is unique when the heads do not contain it. -/
theorem append_cons_injective {sep : Char} {a a' b b' : List Char} (ha : sep ∉ a)
    (ha' : sep ∉ a') (h : a ++ sep :: b = a' ++ sep :: b') : a = a' ∧ b = b' := by
  have hsplit := @splitOnce_append_of_not_mem sep [] a b ha
  rw [nil_append, h] at hsplit
  exact Prod.mk.inj (Option.some.inj (hsplit.symm.trans (splitOnce_append_of_not_mem ha')))

/-- The decimal rendering of a natural number consists of digits only. -/
theorem not_mem_repr {c : Char} (hc : c.isDigit = false) {n : Nat} : c ∉ n.repr.toList := by
  rw [Nat.toList_repr]
  intro hm
  have hd := Nat.isDigit_of_mem_toDigits (by decide) (by decide) hm
  rw [hc] at hd
  exact absurd hd (by decide)

/-- Different numbers have different decimal renderings. -/
theorem repr_injective : Function.Injective Nat.repr := by
  intro m n h
  have hd : Nat.toDigits 10 m = Nat.toDigits 10 n := by
    rw [← Nat.toList_repr, ← Nat.toList_repr, h]
  have hm := Nat.ofDigitChars_ten_toDigits (n := m)
  rw [hd, Nat.ofDigitChars_ten_toDigits] at hm
  exact hm.symm

/-- A decimal field in front of a common tail is determined by the whole text, whatever stands
before its separator. -/
theorem repr_eq_of_append {sep : Char} (hsep : sep.isDigit = false) {a a' tail : List Char}
    {m n : Nat} (h : a ++ sep :: (m.repr.toList ++ tail) = a' ++ sep :: (n.repr.toList ++ tail)) :
    m = n := by
  have hdigits (k : Nat) : sep ∉ k.repr.toList.reverse :=
    fun hmem => not_mem_repr hsep (mem_reverse.mp hmem)
  have hrev := congrArg reverse h
  simp only [reverse_append, reverse_cons, append_assoc, singleton_append,
    append_cancel_left_eq] at hrev
  obtain ⟨hdigit, -⟩ := append_cons_injective (hdigits m) (hdigits n) hrev
  exact repr_injective (String.toList_inj.mp (reverse_injective hdigit))

/-- The two lower-case hexadecimal digits of a byte, high nibble first. -/
def hexByte (b : UInt8) : List Char :=
  [Nat.digitChar (b.toNat / 16), Nat.digitChar (b.toNat % 16)]

/-- Hexadecimal text of a byte string. -/
def hexEncode (bytes : List UInt8) : String :=
  String.ofList (bytes.flatMap hexByte)

/-- The value of one hexadecimal digit of either case. -/
def hexValue (c : Char) : Option Nat :=
  if '0' ≤ c ∧ c ≤ '9' then some (c.toNat - '0'.toNat)
  else if 'a' ≤ c ∧ c ≤ 'f' then some (c.toNat - 'a'.toNat + 10)
  else if 'A' ≤ c ∧ c ≤ 'F' then some (c.toNat - 'A'.toNat + 10)
  else none

/-- Decode digit pairs; an odd length or a foreign character is an error. -/
def hexDecodeChars : List Char → Option (List UInt8)
  | [] => some []
  | [_] => none
  | hi :: lo :: rest => do
    let h ← hexValue hi
    let l ← hexValue lo
    let bytes ← hexDecodeChars rest
    return UInt8.ofNat (16 * h + l) :: bytes

def hexDecode (text : String) : Option (List UInt8) :=
  hexDecodeChars text.toList

end MessagingBench
