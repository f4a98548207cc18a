import Mathlib.Data.List.Basic

/-!
# Dealing in cycles

A dealer has a rest of a cycle of values. It deals the next one, and begins a new cycle if
nothing is left or if it is asked for another kind of cycle. As long as the kind stays the
same, what is dealt are whole cycles one after the other, the last of them perhaps cut off.
-/

namespace MessagingBench

open List

variable {κ α : Type} {Cycle : κ → List α → Prop} {key key' : κ} {rest : List α}
  {before run after : List (κ × α)}

variable (Cycle) in
/-- The values that are dealt, each with the kind of cycle it was asked for with. -/
inductive Deals : κ → List α → List (κ × α) → Prop
  | done {key : κ} {rest : List α} : Deals key rest []
  | goesOn {key : κ} {value : α} {rest : List α} {dealt : List (κ × α)} (h : Deals key rest dealt) :
      Deals key (value :: rest) ((key, value) :: dealt)
  | begins {key key' : κ} {value : α} {rest rest' : List α} {dealt : List (κ × α)}
      (hnew : rest' = [] ∨ key' ≠ key) (hcycle : Cycle key (value :: rest))
      (h : Deals key rest dealt) : Deals key' rest' ((key, value) :: dealt)

namespace Deals

/-- While the kind stays the same, the rest comes first and then whole cycles. -/
theorem prefix_of_same (h : Deals Cycle key rest (run ++ after))
    (hrun : ∀ dealt ∈ run, dealt.1 = key) :
    ∃ cycles : List (List α), (∀ cycle ∈ cycles, Cycle key cycle) ∧
      run.map (·.2) <+: rest ++ cycles.flatten := by
  induction run generalizing rest with
  | nil => exact ⟨[], nofun, nil_prefix⟩
  | cons first run ih =>
    have hkeys := fun dealt hmem => hrun dealt (mem_cons_of_mem _ hmem)
    obtain ⟨key', value⟩ := first
    obtain rfl : key' = key := hrun _ (mem_cons_self ..)
    cases h with
    | goesOn h =>
      obtain ⟨cycles, hcycles, hpre⟩ := ih h hkeys
      exact ⟨cycles, hcycles, cons_prefix_cons.mpr ⟨rfl, hpre⟩⟩
    | @begins _ _ _ rest' _ _ hnew hcycle h =>
      obtain ⟨cycles, hcycles, hpre⟩ := ih h hkeys
      obtain rfl := hnew.resolve_right fun hne => hne rfl
      refine ⟨(value :: rest') :: cycles, fun cycle hmem => ?_, ?_⟩
      · rcases mem_cons.mp hmem with rfl | hmem
        · exact hcycle
        · exact hcycles cycle hmem
      · exact cons_prefix_cons.mpr ⟨rfl, hpre⟩

/-- Values that were asked for with another kind than what the rest is of begin with a cycle. -/
theorem prefix_of_new (h : Deals Cycle key' rest (run ++ after)) (hnew : rest = [] ∨ key' ≠ key)
    (hrun : ∀ dealt ∈ run, dealt.1 = key) :
    ∃ cycles : List (List α), (∀ cycle ∈ cycles, Cycle key cycle) ∧
      run.map (·.2) <+: cycles.flatten := by
  cases run with
  | nil => exact ⟨[], nofun, nil_prefix⟩
  | cons first run =>
    obtain ⟨first, value⟩ := first
    obtain rfl : first = key := hrun _ (mem_cons_self ..)
    cases h with
    | goesOn h => exact absurd rfl (hnew.resolve_left nofun)
    | begins _ hcycle h =>
      have hrenewed : Deals Cycle first [] _ := .begins (.inl rfl) hcycle h
      exact hrenewed.prefix_of_same hrun

/-- Every value is from a cycle of the kind it was asked for with. -/
theorem mem_cycle {dealt : List (κ × α)} (h : Deals Cycle key rest dealt)
    (hrest : ∀ value ∈ rest, ∃ cycle, Cycle key cycle ∧ value ∈ cycle) :
    ∀ pair ∈ dealt, ∃ cycle, Cycle pair.1 cycle ∧ pair.2 ∈ cycle := by
  induction h with
  | done => exact nofun
  | goesOn h ih =>
    intro pair hpair
    rcases mem_cons.mp hpair with rfl | hpair
    · exact hrest _ (mem_cons_self ..)
    · exact ih (fun value hmem => hrest value (mem_cons_of_mem _ hmem)) pair hpair
  | begins _ hcycle h ih =>
    intro pair hpair
    rcases mem_cons.mp hpair with rfl | hpair
    · exact ⟨_, hcycle, mem_cons_self ..⟩
    · exact ih (fun value hmem => ⟨_, hcycle, mem_cons_of_mem _ hmem⟩) pair hpair

/-- What comes after some values is dealt from a rest of the kind of the last of them. -/
theorem drop (h : Deals Cycle key rest (before ++ run)) : ∃ key' rest',
    Deals Cycle key' rest' run ∧ (before = [] → key' = key ∧ rest' = rest) ∧
      ∀ last ∈ before.getLast?, last.1 = key' := by
  induction before generalizing key rest with
  | nil => exact ⟨key, rest, h, fun _ => ⟨rfl, rfl⟩, nofun⟩
  | cons first before ih =>
    obtain ⟨rest₁, h⟩ : ∃ rest₁, Deals Cycle first.1 rest₁ (before ++ run) := by
      cases h with
      | goesOn h | begins _ _ h => exact ⟨_, h⟩
    obtain ⟨key', rest', hrun, hnil, hlast⟩ := ih h
    refine ⟨key', rest', hrun, nofun, fun last hmem => ?_⟩
    cases before with
    | nil =>
      obtain rfl := Option.mem_some_iff.mp hmem
      exact (hnil rfl).1.symm
    | cons second before => exact hlast last (by rwa [getLast?_cons_cons] at hmem)

/-- A run of one kind that begins with the first value or with a change of the kind consists of
cycles. -/
theorem prefix_of_run (h : Deals Cycle key' [] (before ++ (run ++ after)))
    (hrun : ∀ dealt ∈ run, dealt.1 = key) (hbefore : ∀ last ∈ before.getLast?, last.1 ≠ key) :
    ∃ cycles : List (List α), (∀ cycle ∈ cycles, Cycle key cycle) ∧
      run.map (·.2) <+: cycles.flatten := by
  obtain ⟨key₁, rest₁, hdeals, hnil, hlast⟩ := h.drop
  refine hdeals.prefix_of_new ?_ hrun
  cases hcase : before.getLast? with
  | none => exact .inl (hnil (getLast?_eq_none_iff.mp hcase)).2
  | some last => exact .inr fun heq => hbefore last hcase ((hlast last hcase).trans heq)

end Deals

section Blocks

variable {values : List α} {cycles : List (List α)} {length : Nat}

/-- A block of values that were dealt from cycles of one length begins as a cycle, and is one if
it is complete. -/
theorem block_of_prefix_flatten (hlength : ∀ cycle ∈ cycles, cycle.length = length)
    (hpre : values <+: cycles.flatten) {k : Nat} (hk : k * length < values.length) :
    ∃ cycle ∈ cycles, values[k * length]? = cycle[0]? ∧
      ((k + 1) * length ≤ values.length → (values.drop (k * length)).take length = cycle) := by
  induction cycles generalizing values k with
  | nil =>
    rw [flatten_nil, prefix_nil] at hpre
    rw [hpre] at hk
    cases hk
  | cons cycle cycles ih =>
    have hcycle := hlength cycle (mem_cons_self ..)
    cases k with
    | zero =>
      refine ⟨cycle, mem_cons_self .., ?_, fun hcomplete => ?_⟩
      · rcases Nat.eq_zero_or_pos length with rfl | hpositive
        · -- cycles without values cannot have dealt anything
          have hnil : (cycle :: cycles).flatten = [] :=
            flatten_eq_nil_iff.mpr fun other hmem =>
              eq_nil_of_length_eq_zero (hlength other hmem)
          rw [hnil, prefix_nil] at hpre
          rw [hpre] at hk
          cases hk
        · rw [Nat.zero_mul] at hk ⊢
          rw [flatten_cons] at hpre
          rw [getElem?_eq_getElem hk, hpre.getElem hk,
            getElem_append_left (by omega), getElem?_eq_getElem (by omega)]
      · rw [Nat.zero_add, Nat.one_mul] at hcomplete
        rw [Nat.zero_mul, drop_zero, prefix_iff_eq_take.mp hpre, take_take,
          Nat.min_eq_left hcomplete, flatten_cons, ← hcycle, take_left]
    | succ k =>
      rw [Nat.succ_mul] at hk
      have hrest : values.drop length <+: cycles.flatten := by
        obtain ⟨cut, hcut⟩ := hpre
        refine ⟨cut, ?_⟩
        rw [← drop_append_of_le_length (by omega), hcut, flatten_cons, ← hcycle,
          drop_left]
      obtain ⟨next, hnext, hfirst, hblock⟩ := ih (fun other hmem =>
        hlength other (mem_cons_of_mem _ hmem)) hrest (k := k) (by rw [length_drop]; omega)
      rw [getElem?_drop, Nat.add_comm, ← Nat.succ_mul] at hfirst
      rw [drop_drop, Nat.add_comm length, ← Nat.succ_mul, length_drop] at hblock
      refine ⟨next, mem_cons_of_mem _ hnext, hfirst, fun hcomplete => hblock ?_⟩
      rw [Nat.succ_mul] at hcomplete
      exact Nat.le_sub_of_add_le hcomplete

end Blocks

end MessagingBench
