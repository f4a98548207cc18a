import Mathlib.Algebra.Group.Nat.Even
import Mathlib.Data.List.Count
import MessagingBench.Signal.RoundRobin

/-!
# Density among external devices

For every broadcast the application phase picks the pair of devices that is furthest behind.
As long as a device lacks samples, broadcasts come in twos: the two devices with the lowest
numbers among those behind send to each other. Of an odd number of samples in total a single
device is left over, and somebody who has enough must serve as its partner.
-/

namespace MessagingBench.Signal

open List

section Shares

/-- The samples of a device after so many samples were shared out in turn. -/
def share (count n i : Nat) : Nat := n / count + if i < n % count then 1 else 0

theorem share_eq {count n level rest : Nat} (hn : n = count * level + rest) (hrest : rest < count)
    (i : Nat) : share count n i = level + if i < rest then 1 else 0 := by
  unfold share
  rw [hn, Nat.mul_add_div (by omega), Nat.mul_add_mod_self_left, Nat.div_eq_of_lt hrest,
    Nat.mod_eq_of_lt hrest, Nat.add_zero]

@[simp] theorem share_zero (count i : Nat) : share count 0 i = 0 := by
  simp [share]

/-- The two devices that are next, after all devices before this one are a sample ahead. -/
def partners (count rest : Nat) : Nat × Nat :=
  if rest + 1 < count then (rest, rest + 1) else (0, rest)

theorem partners_spec {count rest : Nat} (hcount : 2 ≤ count) (hrest : rest < count) :
    (partners count rest).1 < (partners count rest).2 ∧ (partners count rest).2 < count := by
  unfold partners
  split
  · omega
  · dsimp only
    omega

theorem le_partners_snd (count rest : Nat) : rest ≤ (partners count rest).2 := by
  unfold partners
  split
  · exact Nat.le_succ rest
  · exact Nat.le_refl rest

/-- Two more samples go to the two devices that are next. -/
theorem share_add_two {count i : Nat} (n : Nat) (hcount : 2 ≤ count) (hi : i < count) :
    share count (n + 2) i = share count n i +
      ((if i = (partners count (n % count)).1 then 1 else 0) +
        if i = (partners count (n % count)).2 then 1 else 0) := by
  have hrest : n % count < count := Nat.mod_lt _ (by omega)
  have hn : n = count * (n / count) + n % count := (Nat.div_add_mod n count).symm
  generalize n / count = level, n % count = rest at hrest hn
  rw [share_eq hn hrest]
  by_cases hlast : rest + 1 < count
  · have hpair : partners count rest = (rest, rest + 1) := if_pos hlast
    rw [hpair]
    by_cases hwithin : rest + 2 < count
    · have hafter : n + 2 = count * level + (rest + 2) := by omega
      rw [share_eq hafter hwithin]
      split <;> split <;> split <;> split <;> omega
    · have hafter : n + 2 = count * (level + 1) + 0 := by
        rw [Nat.mul_succ]
        omega
      rw [share_eq hafter (by omega)]
      split <;> split <;> split <;> split <;> omega
  · have hpair : partners count rest = (0, rest) := if_neg hlast
    have hafter : n + 2 = count * (level + 1) + 1 := by
      rw [Nat.mul_succ]
      omega
    rw [hpair, share_eq hafter (by omega)]
    split <;> split <;> split <;> split <;> omega

end Shares

section Preference

/-- How many of its two ends a broadcast helps. -/
def helped (required actorCount receiverCount : Nat) : Nat :=
  (if actorCount < required then 1 else 0) + if receiverCount < required then 1 else 0

/-- The pair `x`, `y` of devices comes before the pair `i`, `j`, for given samples as actors
and receivers. -/
def Preferred (required : Nat) (actors receivers : Nat → Nat) (x y i j : Nat) : Prop :=
  2 - helped required (actors x) (receivers y) < 2 - helped required (actors i) (receivers j) ∨
    2 - helped required (actors x) (receivers y) = 2 - helped required (actors i) (receivers j) ∧
      (actors x + receivers y < actors i + receivers j ∨
        actors x + receivers y = actors i + receivers j ∧ (x < i ∨ x = i ∧ y < j))

section

variable {required : Nat} {actors receivers : Nat → Nat} {x y i j : Nat}

theorem Preferred.asymm (h : Preferred required actors receivers x y i j) :
    ¬Preferred required actors receivers i j x y := by
  unfold Preferred at *
  omega

/-- A pair that helps at least as much comes first if it has fewer samples. -/
theorem Preferred.of_le
    (hhelped : helped required (actors i) (receivers j) ≤
      helped required (actors x) (receivers y))
    (hsum : actors x + receivers y < actors i + receivers j ∨
      actors x + receivers y = actors i + receivers j ∧ (x < i ∨ x = i ∧ y < j)) :
    Preferred required actors receivers x y i j := by
  unfold Preferred
  omega

variable {actorCount receiverCount : Nat}

theorem helped_le_two : helped required actorCount receiverCount ≤ 2 := by
  unfold helped
  split <;> split <;> omega

theorem helped_eq_two (hactor : actorCount < required) (hreceiver : receiverCount < required) :
    helped required actorCount receiverCount = 2 := by
  unfold helped
  rw [if_pos hactor, if_pos hreceiver]

theorem helped_le_one (h : required ≤ actorCount ∨ required ≤ receiverCount) :
    helped required actorCount receiverCount ≤ 1 := by
  unfold helped
  split <;> split <;> omega

theorem one_le_helped (h : actorCount < required ∨ receiverCount < required) :
    1 ≤ helped required actorCount receiverCount := by
  unfold helped
  split <;> split <;> omega

end

/-- The pair is the first one of those that help somebody. -/
structure First (count required : Nat) (actors receivers : Nat → Nat) (x y : Nat) : Prop where
  actor_lt : x < count
  receiver_lt : y < count
  ne : x ≠ y
  helps : 1 ≤ helped required (actors x) (receivers y)
  preferred : ∀ i j, i < count → j < count → i ≠ j → ¬(i = x ∧ j = y) →
    Preferred required actors receivers x y i j

def oneMore (samples : Nat → Nat) (device i : Nat) : Nat :=
  samples i + if i = device then 1 else 0

theorem oneMore_of_ne (samples : Nat → Nat) {device i : Nat} (h : i ≠ device) :
    oneMore samples device i = samples i := by
  simp [oneMore, h]

theorem le_oneMore (samples : Nat → Nat) (device i : Nat) :
    samples i ≤ oneMore samples device i := by
  unfold oneMore
  omega

/-- The devices before this one are a sample ahead of the others. -/
structure Ahead (level rest : Nat) (samples : Nat → Nat) : Prop where
  before : ∀ i, i < rest → samples i = level + 1
  onwards : ∀ i, rest ≤ i → samples i = level

theorem Ahead.le {level rest : Nat} {samples : Nat → Nat} (h : Ahead level rest samples) (i : Nat) :
    level ≤ samples i := by
  rcases Nat.lt_or_ge i rest with hi | hi
  · rw [h.before i hi]
    exact Nat.le_succ level
  · exact Nat.le_of_eq (h.onwards i hi).symm

variable {count required level rest : Nat} {samples : Nat → Nat}

/-- The pair with the fewest samples is first if it helps two devices or no pair does. -/
theorem first_of_sum {actors receivers : Nat → Nat} {x y : Nat} (hx : x < count) (hy : y < count)
    (hne : x ≠ y) (hhelps : actors x < required ∨ receivers y < required)
    (hsum : ∀ i j, i < count → j < count → i ≠ j → ¬(i = x ∧ j = y) →
      (actors x + receivers y < actors i + receivers j ∨
        actors x + receivers y = actors i + receivers j ∧ (x < i ∨ x = i ∧ y < j)) ∧
      (actors x < required ∧ receivers y < required ∨
        required ≤ actors i ∨ required ≤ receivers j)) :
    First count required actors receivers x y := by
  refine ⟨hx, hy, hne, one_le_helped hhelps, fun i j hi hj hij hother => ?_⟩
  obtain ⟨hless, hboth | hnone⟩ := hsum i j hi hj hij hother
  · refine .of_le ?_ hless
    rw [helped_eq_two hboth.1 hboth.2]
    exact helped_le_two
  · exact .of_le (Nat.le_trans (helped_le_one hnone) (one_le_helped hhelps)) hless

/-- Who is next when everybody has been an actor as often as a receiver. -/
theorem first_of_ahead (hcount : 2 ≤ count) (hlevel : level < required) (hrest : rest < count)
    (hsamples : Ahead level rest samples) :
    First count required samples samples (partners count rest).1 (partners count rest).2 := by
  have hbehind : samples rest = level := hsamples.onwards rest (Nat.le_refl _)
  by_cases hlast : rest + 1 < count
  · have hpair : partners count rest = (rest, rest + 1) := if_pos hlast
    have hnext : samples (rest + 1) = level := hsamples.onwards _ (Nat.le_succ _)
    rw [hpair]
    dsimp only
    refine first_of_sum hrest hlast (by omega) (by omega)
      fun i j hi hj hij hne => ?_
    have hle := hsamples.le i
    have hle' := hsamples.le j
    have hbefore := hsamples.before i
    have hbefore' := hsamples.before j
    omega
  · have hpair : partners count rest = (0, rest) := if_neg hlast
    have hfirst : samples 0 = level + 1 := hsamples.before 0 (by omega)
    rw [hpair]
    dsimp only
    refine first_of_sum (by omega) hrest (by omega) (by omega)
      fun i j hi hj hij hne => ?_
    have hbefore := hsamples.before i
    have hbefore' := hsamples.before j
    have hle := hsamples.le i
    have hle' := hsamples.le j
    omega

/-- Then the two devices change roles. -/
theorem first_of_half (hcount : 2 ≤ count) (hlevel : level < required) (hrest : rest < count)
    (hsamples : Ahead level rest samples) :
    First count required (oneMore samples (partners count rest).1)
      (oneMore samples (partners count rest).2) (partners count rest).2
      (partners count rest).1 := by
  have hbehind : samples rest = level := hsamples.onwards rest (Nat.le_refl _)
  by_cases hlast : rest + 1 < count
  · have hpair : partners count rest = (rest, rest + 1) := if_pos hlast
    have hactor : oneMore samples rest (rest + 1) = level := by
      rw [oneMore_of_ne _ (by omega), hsamples.onwards _ (Nat.le_succ _)]
    have hreceiver : oneMore samples (rest + 1) rest = level := by
      rw [oneMore_of_ne _ (by omega), hbehind]
    rw [hpair]
    dsimp only
    refine first_of_sum hlast hrest (by omega) (by omega)
      fun i j hi hj hij hne => ?_
    have hle := hsamples.le i
    have hle' := hsamples.le j
    have hbefore := hsamples.before i
    have hbefore' := hsamples.before j
    rw [hactor, hreceiver]
    unfold oneMore
    split <;> split <;> omega
  · have hpair : partners count rest = (0, rest) := if_neg hlast
    have hfirst : samples 0 = level + 1 := hsamples.before 0 (by omega)
    have hactor : oneMore samples 0 rest = level := by
      rw [oneMore_of_ne _ (by omega), hbehind]
    have hreceiver : oneMore samples rest 0 = level + 1 := by
      rw [oneMore_of_ne _ (by omega), hfirst]
    rw [hpair]
    dsimp only
    refine first_of_sum hrest (by omega) (by omega) (by omega)
      fun i j hi hj hij hne => ?_
    have hreceivers : level + 1 ≤ oneMore samples rest j := by
      by_cases hj' : j < rest
      · have hle := le_oneMore samples rest j
        rwa [hsamples.before j hj'] at hle
      · have hj' : j = rest := by omega
        simp [oneMore, hj', hbehind]
    have hactors (hi' : i < rest) : level + 1 ≤ oneMore samples 0 i := by
      have hle := le_oneMore samples 0 i
      rwa [hsamples.before i hi'] at hle
    have hself (hi' : i = rest) : oneMore samples 0 i = level := by rw [hi', hactor]
    omega

theorem Ahead.le_succ (h : Ahead level rest samples) (i : Nat) : samples i ≤ level + 1 := by
  rcases Nat.lt_or_ge i rest with hi | hi
  · exact Nat.le_of_eq (h.before i hi)
  · rw [h.onwards i hi]
    exact Nat.le_succ level

theorem oneMore_le (samples : Nat → Nat) (device i : Nat) :
    oneMore samples device i ≤ samples i + 1 := by
  unfold oneMore
  split <;> omega

theorem Ahead.oneMore_le_succ (h : Ahead level rest samples) {device : Nat}
    (hdevice : rest ≤ device) (i : Nat) : oneMore samples device i ≤ level + 1 := by
  by_cases hi : i = device
  · rw [hi]
    have hle := oneMore_le samples device device
    rwa [h.onwards device hdevice] at hle
  · rw [oneMore_of_ne samples hi]
    exact h.le_succ i

/-- While two devices change roles, nobody is more than a sample ahead of them. -/
theorem Ahead.half_le (h : Ahead level rest samples) {x y : Nat} (hy : rest ≤ y) (i j : Nat) :
    oneMore samples x i + oneMore samples y j ≤ 2 * level + 3 := by
  have hactor := oneMore_le samples x i
  have hle := h.le_succ i
  have hreceiver := h.oneMore_le_succ hy j
  omega

theorem ahead_share (count n : Nat) : Ahead (n / count) (n % count) (share count n) := by
  refine ⟨fun i hi => ?_, fun i hi => ?_⟩
  · rw [share, if_pos hi]
  · rw [share, if_neg (Nat.not_lt.mpr hi), Nat.add_zero]

end Preference

section Rosters

variable {active : List WorkerSpec} {indices : List Nat}

/-- The devices at given positions in the order of their ids. -/
structure Roster (active : List WorkerSpec) (indices : List Nat) where
  entries : List (Nat × WorkerSpec)
  positions : (entries.map Prod.fst).Perm indices
  worker : ∀ entry ∈ entries, active[entry.1]? = some entry.2
  ascending : entries.Pairwise fun entry later => entry.2.id < later.2.id

namespace Roster

theorem id_lt_of_le_of_ne {id id' : String} (hle : id ≤ id') (hne : id ≠ id') : id < id' := by
  by_contra hnot
  exact hne (String.le_antisymm hle (String.not_lt.mp hnot))

/-- Devices with different ids can be put in order. -/
theorem exists_of_distinct (hnodup : indices.Nodup) (hlt : ∀ idx ∈ indices, idx < active.length)
    (hdistinct : ∀ idx idx' worker worker', active[idx]? = some worker →
      active[idx']? = some worker' → idx ∈ indices → idx' ∈ indices → worker.id = worker'.id →
        idx = idx') :
    Nonempty (Roster active indices) := by
  let all := indices.filterMap fun idx => (active[idx]?).map (idx, ·)
  let sorted := all.mergeSort fun entry later => decide (entry.2.id ≤ later.2.id)
  have hperm : sorted.Perm all := mergeSort_perm _ _
  have hworker : ∀ entry ∈ sorted, active[entry.1]? = some entry.2 := by
    intro entry hentry
    obtain ⟨idx, -, hidx⟩ := mem_filterMap.mp (hperm.mem_iff.mp hentry)
    obtain ⟨worker, hworker, rfl⟩ := Option.map_eq_some_iff.mp hidx
    exact hworker
  have hall : all.map Prod.fst = indices := by
    have hsome : ∀ idx ∈ indices, ((active[idx]?).map (idx, ·)).map Prod.fst = some idx := by
      intro idx hidx
      rw [getElem?_eq_getElem (hlt idx hidx)]
      rfl
    rw [map_filterMap, filterMap_congr hsome, filterMap_some]
  have hpositions : (sorted.map Prod.fst).Perm indices := hall ▸ hperm.map Prod.fst
  refine ⟨sorted, hpositions, hworker, ?_⟩
  have hle : sorted.Pairwise fun entry later => decide (entry.2.id ≤ later.2.id) = true := by
    refine pairwise_mergeSort ?_ ?_ all
    · intro a b c hab hbc
      exact decide_eq_true (String.le_trans (of_decide_eq_true hab) (of_decide_eq_true hbc))
    · intro a b
      rw [Bool.or_eq_true, decide_eq_true_eq, decide_eq_true_eq]
      exact String.le_total _ _
  have hne : sorted.Pairwise fun entry later => entry.1 ≠ later.1 :=
    pairwise_map.mp (hpositions.nodup_iff.mpr hnodup)
  refine (hle.and hne).imp_of_mem fun {entry later} hentry hlater h => ?_
  refine id_lt_of_le_of_ne (of_decide_eq_true h.1) fun hid => h.2 ?_
  exact hdistinct _ _ _ _ (hworker _ hentry) (hworker _ hlater)
    (hpositions.mem_iff.mp (mem_map_of_mem hentry))
    (hpositions.mem_iff.mp (mem_map_of_mem hlater)) hid

variable (roster : Roster active indices)

theorem length_entries : roster.entries.length = indices.length := by
  rw [← roster.positions.length_eq, length_map]

def position (i : Nat) : Nat := ((roster.entries[i]?).map Prod.fst).getD 0

def idOf (i : Nat) : String := ((roster.entries[i]?).map fun entry => entry.2.id).getD ""

variable {i j : Nat}

theorem getElem?_position (hi : i < indices.length) :
    ∃ worker, active[roster.position i]? = some worker ∧ worker.id = roster.idOf i := by
  have hlt : i < roster.entries.length := by rw [length_entries]; exact hi
  refine ⟨roster.entries[i].2, ?_, ?_⟩
  · rw [position, getElem?_eq_getElem hlt]
    exact roster.worker _ (getElem_mem hlt)
  · rw [idOf, getElem?_eq_getElem hlt]
    rfl

theorem idOf_lt (hij : i < j) (hj : j < indices.length) : roster.idOf i < roster.idOf j := by
  have hlt : j < roster.entries.length := by rw [length_entries]; exact hj
  rw [idOf, idOf, getElem?_eq_getElem hlt, getElem?_eq_getElem (by omega)]
  exact pairwise_iff_getElem.mp roster.ascending i j (by omega) hlt hij

theorem idOf_lt_iff (hi : i < indices.length) (hj : j < indices.length) :
    roster.idOf i < roster.idOf j ↔ i < j := by
  refine ⟨fun h => ?_, fun h => roster.idOf_lt h hj⟩
  rcases Nat.lt_trichotomy i j with hlt | heq | hgt
  · exact hlt
  · rw [heq] at h
    exact absurd h (String.lt_irrefl _)
  · exact absurd h (String.lt_asymm (roster.idOf_lt hgt hi))

theorem idOf_inj (hi : i < indices.length) (hj : j < indices.length) :
    roster.idOf i = roster.idOf j ↔ i = j := by
  refine ⟨fun h => ?_, fun h => by rw [h]⟩
  have hij := (roster.idOf_lt_iff hi hj).not
  have hji := (roster.idOf_lt_iff hj hi).not
  rw [h] at hij hji
  have := hij.mp (String.lt_irrefl _)
  have := hji.mp (String.lt_irrefl _)
  omega

theorem position_inj (hi : i < indices.length) (hj : j < indices.length) :
    roster.position i = roster.position j ↔ i = j := by
  refine ⟨fun h => ?_, fun h => by rw [h]⟩
  obtain ⟨worker, hworker, hid⟩ := roster.getElem?_position hi
  obtain ⟨worker', hworker', hid'⟩ := roster.getElem?_position hj
  rw [h, hworker'] at hworker
  cases hworker
  exact (roster.idOf_inj hi hj).mp (hid.symm.trans hid')

theorem mem_iff {idx : Nat} :
    idx ∈ indices ↔ ∃ i, i < indices.length ∧ roster.position i = idx := by
  rw [← roster.positions.mem_iff, mem_iff_getElem?]
  constructor
  · rintro ⟨i, hi⟩
    rw [getElem?_map] at hi
    refine ⟨i, ?_, by rw [position, hi]; rfl⟩
    obtain ⟨entry, hentry, -⟩ := Option.map_eq_some_iff.mp hi
    rw [← roster.length_entries]
    exact (List.getElem?_eq_some_iff.mp hentry).1
  · rintro ⟨i, hi, rfl⟩
    have hlt : i < roster.entries.length := by rw [length_entries]; exact hi
    refine ⟨i, ?_⟩
    rw [getElem?_map, position, getElem?_eq_getElem hlt]
    rfl

end Roster

end Rosters

section Selection

variable {active : List WorkerSpec} {indices : List Nat} {roster : Roster active indices}
  {actorSuccesses receiverSuccesses : Successes} {actors receivers : Nat → Nat} {required : Nat}

/-- A candidate that comes before all others is selected. -/
theorem foldl_candidates_eq {candidates : List Candidate} {best : Option Candidate}
    {candidate : Candidate}
    (hbefore : ∀ other ∈ candidates, other = candidate ∨
      candidate.before other = true ∧ other.before candidate = false)
    (hbest : ∀ other, best = some other → other = candidate ∨ candidate.before other = true)
    (hmem : candidate ∈ candidates ∨ best = some candidate) :
    candidates.foldl (fun best candidate =>
      match best with
      | none => some candidate
      | some other => if candidate.before other then some candidate else some other) best =
        some candidate := by
  induction candidates generalizing best with
  | nil =>
    rcases hmem with hmem | hmem
    · cases hmem
    · exact hmem
  | cons first candidates ih =>
    rw [foldl_cons]
    have hrest : ∀ other ∈ candidates, other = candidate ∨
        candidate.before other = true ∧ other.before candidate = false :=
      fun other hother => hbefore other (mem_cons_of_mem _ hother)
    have hfirst := hbefore first mem_cons_self
    -- whatever is kept after the first candidate was looked at
    have hkeeps : ∀ kept, (kept = first ∨ best = some kept) →
        (candidate ∈ candidates ∨ kept = candidate) →
        candidates.foldl (fun best candidate =>
          match best with
          | none => some candidate
          | some other => if candidate.before other then some candidate else some other)
            (some kept) = some candidate := by
      intro kept hkept hmem'
      refine ih hrest (fun other hother => ?_) (hmem'.imp_right (congrArg some))
      cases hother
      rcases hkept with rfl | hkept
      · exact hfirst.imp_right And.left
      · exact hbest _ hkept
    cases best with
    | none =>
      refine hkeeps first (.inl rfl) ?_
      rcases hmem with hmem | hmem
      · exact (mem_cons.mp hmem).symm.imp_right Eq.symm
      · cases hmem
    | some other =>
      dsimp only
      by_cases hlater : first.before other = true
      · rw [if_pos hlater]
        refine hkeeps first (.inl rfl) ?_
        rcases hmem with hmem | hmem
        · exact (mem_cons.mp hmem).symm.imp_right Eq.symm
        · cases hmem
          rcases hfirst with heq | hfirst
          · exact .inr heq
          · rw [hfirst.2] at hlater
            cases hlater
      · rw [if_neg hlater]
        refine hkeeps other (.inr rfl) ?_
        rcases hmem with hmem | hmem
        · rcases mem_cons.mp hmem with rfl | hmem
          · exact .inr ((hbest other rfl).resolve_right hlater)
          · exact .inl hmem
        · cases hmem
          exact .inr rfl

/-- The samples of the devices on the roster. -/
def Counted (roster : Roster active indices) (actorSuccesses receiverSuccesses : Successes)
    (actors receivers : Nat → Nat) : Prop :=
  ∀ i, i < indices.length → actorSuccesses.count (roster.idOf i) = actors i ∧
    receiverSuccesses.count (roster.idOf i) = receivers i

/-- The candidate of two devices. -/
def candidateOf (roster : Roster active indices) (actors receivers : Nat → Nat)
    (required i j : Nat) : Candidate :=
  ⟨2 - helped required (actors i) (receivers j), min (actors i + receivers j) usizeMax,
    roster.idOf i, roster.idOf j, roster.position i, roster.position j⟩

theorem densityCandidate_position
    (hcounted : Counted roster actorSuccesses receiverSuccesses actors receivers) {i j : Nat}
    (hi : i < indices.length) (hj : j < indices.length) :
    densityCandidate active actorSuccesses receiverSuccesses required (roster.position i)
        (roster.position j) =
      if i = j ∨ helped required (actors i) (receivers j) = 0 then none
      else some (candidateOf roster actors receivers required i j) := by
  obtain ⟨worker, hworker, hid⟩ := roster.getElem?_position hi
  obtain ⟨worker', hworker', hid'⟩ := roster.getElem?_position hj
  rw [densityCandidate_eq hworker hworker', hid, hid', (hcounted i hi).1, (hcounted j hj).2]
  simp only [roster.position_inj hi hj]
  rfl

/-- Candidates are compared as their devices are. -/
theorem candidateOf_before (hfits : ∀ i j, actors i + receivers j ≤ usizeMax) {x y i j : Nat}
    (hx : x < indices.length) (hy : y < indices.length) (hi : i < indices.length)
    (hj : j < indices.length) :
    (candidateOf roster actors receivers required x y).before
        (candidateOf roster actors receivers required i j) = true ↔
      Preferred required actors receivers x y i j := by
  have hactor := roster.idOf_lt_iff hx hi
  have hrecipient := roster.idOf_lt_iff hy hj
  have hactor' := roster.idOf_inj hx hi
  have hrecipient' := roster.idOf_inj hy hj
  unfold Candidate.before candidateOf Preferred
  dsimp only
  rw [Nat.min_eq_left (hfits x y), Nat.min_eq_left (hfits i j)]
  simp only [Bool.or_eq_true, Bool.and_eq_true, decide_eq_true_eq, beq_iff_eq, hactor, hrecipient,
    hactor', hrecipient']
  refine or_congr_right (and_congr_right fun _ => or_congr_right (and_congr_right fun _ =>
    or_congr_right (and_congr_right fun hsame => ?_)))
  rw [hsame]
  refine or_iff_left ?_
  rintro ⟨rfl, hlt | ⟨-, hlt⟩⟩ <;> exact Nat.lt_irrefl _ hlt

theorem profiledDensityPair_eq_some
    (hcounted : Counted roster actorSuccesses receiverSuccesses actors receivers)
    (hfits : ∀ i j, actors i + receivers j ≤ usizeMax) {x y : Nat}
    (hfirst : First indices.length required actors receivers x y) :
    profiledDensityPair active indices actorSuccesses receiverSuccesses required =
      some (roster.position x, roster.position y) := by
  refine Option.map_eq_some_iff.mpr ⟨candidateOf roster actors receivers required x y,
    foldl_candidates_eq ?_ ?_ ?_, rfl⟩
  · intro other hother
    obtain ⟨actorIdx, hactor, hother⟩ := mem_flatMap.mp hother
    obtain ⟨recipientIdx, hrecipient, hother⟩ := mem_filterMap.mp hother
    obtain ⟨i, hi, rfl⟩ := roster.mem_iff.mp hactor
    obtain ⟨j, hj, rfl⟩ := roster.mem_iff.mp hrecipient
    rw [densityCandidate_position hcounted hi hj, Option.ite_none_left_eq_some] at hother
    obtain ⟨hvalid, hother⟩ := hother
    cases hother
    by_cases hsame : i = x ∧ j = y
    · obtain ⟨rfl, rfl⟩ := hsame
      exact .inl rfl
    · have hpreferred := hfirst.preferred i j hi hj (fun h => hvalid (.inl h)) hsame
      refine Or.inr ⟨?_, ?_⟩
      · exact (candidateOf_before hfits hfirst.actor_lt hfirst.receiver_lt hi hj).mpr hpreferred
      · rw [Bool.eq_false_iff, Ne, candidateOf_before hfits hi hj hfirst.actor_lt
          hfirst.receiver_lt]
        exact hpreferred.asymm
  · intro other hother
    cases hother
  · refine Or.inl (mem_flatMap.mpr ⟨_, roster.mem_iff.mpr ⟨x, hfirst.actor_lt, rfl⟩,
      mem_filterMap.mpr ⟨_, roster.mem_iff.mpr ⟨y, hfirst.receiver_lt, rfl⟩, ?_⟩⟩)
    rw [densityCandidate_position hcounted hfirst.actor_lt hfirst.receiver_lt, if_neg]
    rintro (heq | hzero)
    · exact hfirst.ne heq
    · have := hfirst.helps
      omega

/-- If nobody lacks samples, there is no pair. -/
theorem profiledDensityPair_eq_none
    (hcounted : Counted roster actorSuccesses receiverSuccesses actors receivers)
    (henough : ∀ i, i < indices.length → required ≤ actors i ∧ required ≤ receivers i) :
    profiledDensityPair active indices actorSuccesses receiverSuccesses required = none := by
  cases hpair : profiledDensityPair active indices actorSuccesses receiverSuccesses required with
  | none => rfl
  | some pair =>
    obtain ⟨candidate, hfold, -⟩ := Option.map_eq_some_iff.mp hpair
    rcases foldl_candidates_mem hfold with hmem | hnone
    · obtain ⟨actorIdx, hactor, hmem⟩ := mem_flatMap.mp hmem
      obtain ⟨recipientIdx, hrecipient, hcandidate⟩ := mem_filterMap.mp hmem
      obtain ⟨i, hi, rfl⟩ := roster.mem_iff.mp hactor
      obtain ⟨j, hj, rfl⟩ := roster.mem_iff.mp hrecipient
      have hzero : helped required (actors i) (receivers j) = 0 := by
        unfold helped
        rw [if_neg (Nat.not_lt.mpr (henough i hi).1), if_neg (Nat.not_lt.mpr (henough j hj).2)]
      rw [densityCandidate_position hcounted hi hj, if_pos (.inr hzero)] at hcandidate
      cases hcandidate
    · cases hnone

end Selection

section Loop

variable {config : RunnerConfig} {settings : ApplicationSettings} {plan : PayloadPlan}
  {active : List WorkerSpec} {indices : List Nat} {roster : Roster active indices}
  {vars : BroadcastLocals} {actors receivers : Nat → Nat} {required : Nat}

theorem Successes.count_add (successes : Successes) (id id' : String) :
    (successes.add id).count id' = successes.count id' + if id' = id then 1 else 0 := by
  unfold Successes.add Successes.count
  by_cases hid : id' = id
  · rw [hid, lookup_cons_self, if_pos rfl]
    rfl
  · rw [lookup_cons, beq_false_of_ne hid, if_neg hid]
    rfl

/-- A broadcast is counted for its two devices. -/
theorem counted_after (hplan : plan.samplesPerExternal = some required)
    (hcounted : Counted roster vars.actorSuccesses vars.receiverSuccesses actors receivers)
    {x y : Nat} (hx : x < indices.length) (hy : y < indices.length) :
    Counted roster
      (vars.after plan active (roster.position x) (some (roster.position y))).actorSuccesses
      (vars.after plan active (roster.position x) (some (roster.position y))).receiverSuccesses
      (oneMore actors x) (oneMore receivers y) := by
  obtain ⟨actor, hactor, hid⟩ := roster.getElem?_position hx
  obtain ⟨recipient, hrecipient, hid'⟩ := roster.getElem?_position hy
  have hafter : vars.after plan active (roster.position x) (some (roster.position y)) =
      { actorSuccesses := vars.actorSuccesses.add (roster.idOf x)
        receiverSuccesses := vars.receiverSuccesses.add (roster.idOf y)
        seqNo := vars.seqNo + 1 } := by
    unfold BroadcastLocals.after
    rw [hactor]
    dsimp only [Option.bind_some]
    rw [hrecipient, Option.map_some, hid, hid']
    unfold BroadcastLocals.succeeded
    rw [hplan]
    rfl
  intro i hi
  rw [hafter]
  dsimp only
  rw [Successes.count_add, Successes.count_add, (hcounted i hi).1, (hcounted i hi).2]
  simp only [roster.idOf_inj hi hx, roster.idOf_inj hi hy]
  exact ⟨rfl, rfl⟩

/-- The broadcasts that come in twos, from a given number of samples on. -/
def exchanges (roster : Roster active indices) : Nat → Nat → List (Nat × Option Nat)
  | 0, _ => []
  | times + 1, n =>
    (roster.position (partners indices.length (n % indices.length)).1,
        some (roster.position (partners indices.length (n % indices.length)).2)) ::
      (roster.position (partners indices.length (n % indices.length)).2,
        some (roster.position (partners indices.length (n % indices.length)).1)) ::
      exchanges roster times (n + 2)

variable (hmany : 2 ≤ active.length) (hplan : plan.samplesPerExternal = some required)
  (hindices : profiledIndices settings plan active = indices)

include hmany hplan hindices

/-- The next broadcast is the one between the first pair of devices. -/
theorem broadcasts_cons
    (hcounted : Counted roster vars.actorSuccesses vars.receiverSuccesses actors receivers)
    (hfits : ∀ i j, actors i + receivers j ≤ usizeMax) {x y : Nat}
    (hfirst : First indices.length required actors receivers x y) (rounds : Nat) :
    broadcasts config settings plan active (rounds + 1) vars =
      (roster.position x, some (roster.position y)) :: broadcasts config settings plan active rounds
        (vars.after plan active (roster.position x) (some (roster.position y))) := by
  rw [broadcasts, nextBroadcast_of_density hmany hplan, hindices,
    profiledDensityPair_eq_some hcounted hfits hfirst]

/-- When nobody lacks samples, the broadcasts end. -/
theorem broadcasts_nil
    (hcounted : Counted roster vars.actorSuccesses vars.receiverSuccesses actors receivers)
    (henough : ∀ i, i < indices.length → required ≤ actors i ∧ required ≤ receivers i)
    (rounds : Nat) : broadcasts config settings plan active rounds vars = [] := by
  cases rounds with
  | zero => rfl
  | succ rounds =>
    rw [broadcasts, nextBroadcast_of_density hmany hplan, hindices,
      profiledDensityPair_eq_none hcounted henough]

/-- As long as somebody lacks samples, two devices that are behind send to each other. -/
theorem broadcasts_eq_exchanges (hcount : 2 ≤ indices.length) (hfits : 2 * required ≤ usizeMax)
    {times n rounds : Nat}
    (hcounted : Counted roster vars.actorSuccesses vars.receiverSuccesses
      (share indices.length n) (share indices.length n))
    (henough : indices.length * required ≤ n + 2 * times)
    (hneeded : n + 2 * times ≤ indices.length * required + 1) (hrounds : 2 * times < rounds) :
    broadcasts config settings plan active rounds vars = exchanges roster times n := by
  induction times generalizing n rounds vars with
  | zero =>
    have hlevel : required ≤ n / indices.length :=
      (Nat.le_div_iff_mul_le (by omega)).mpr (by rw [Nat.mul_comm]; exact henough)
    refine broadcasts_nil hmany hplan hindices hcounted (fun i _ => ?_) rounds
    have hle := (ahead_share indices.length n).le i
    exact ⟨Nat.le_trans hlevel hle, Nat.le_trans hlevel hle⟩
  | succ times ih =>
    obtain ⟨rounds, rfl⟩ : ∃ rounds', rounds = rounds' + 1 + 1 := ⟨rounds - 2, by omega⟩
    have hahead := ahead_share indices.length n
    have hrest : n % indices.length < indices.length := Nat.mod_lt _ (by omega)
    have hlevel : n / indices.length < required :=
      (Nat.div_lt_iff_lt_mul (by omega)).mpr (by rw [Nat.mul_comm]; omega)
    have hpartners := partners_spec hcount hrest
    have hfits₁ : ∀ i j, share indices.length n i + share indices.length n j ≤ usizeMax := by
      intro i j
      have hi := hahead.le_succ i
      have hj := hahead.le_succ j
      omega
    have hcounted₁ := counted_after hplan hcounted (Nat.lt_trans hpartners.1 hpartners.2)
      hpartners.2
    have hfits₂ : ∀ i j,
        oneMore (share indices.length n) (partners indices.length (n % indices.length)).1 i +
          oneMore (share indices.length n) (partners indices.length (n % indices.length)).2 j ≤
            usizeMax := by
      intro i j
      refine Nat.le_trans (hahead.half_le (le_partners_snd _ _) i j) ?_
      unfold usizeMax at hfits ⊢
      omega
    rw [broadcasts_cons hmany hplan hindices hcounted hfits₁
        (first_of_ahead hcount hlevel hrest hahead),
      broadcasts_cons hmany hplan hindices hcounted₁ hfits₂
        (first_of_half hcount hlevel hrest hahead), exchanges, ih]
    · have hcounted₂ := counted_after hplan hcounted₁ hpartners.2
        (Nat.lt_trans hpartners.1 hpartners.2)
      intro i hi
      obtain ⟨hactor, hreceiver⟩ := hcounted₂ i hi
      rw [share_add_two n hcount hi, hactor, hreceiver]
      unfold oneMore
      omega
    · omega
    · omega
    · omega

end Loop

section Exchanges

variable {active : List WorkerSpec} {indices : List Nat} {roster : Roster active indices}

theorem length_exchanges (times n : Nat) : (exchanges roster times n).length = 2 * times := by
  induction times generalizing n with
  | zero => rfl
  | succ times ih =>
    rw [exchanges, length_cons, length_cons, ih]
    omega

theorem count_senders_exchanges (roster : Roster active indices) (hcount : 2 ≤ indices.length)
    {i : Nat} (hi : i < indices.length) (times n : Nat) :
    share indices.length n i +
        ((exchanges roster times n).map Prod.fst).count (roster.position i) =
      share indices.length (n + 2 * times) i := by
  induction times generalizing n with
  | zero => simp [exchanges]
  | succ times ih =>
    have hrest : n % indices.length < indices.length := Nat.mod_lt _ (by omega)
    have hpartners := partners_spec hcount hrest
    have hfirst := roster.position_inj
      (Nat.lt_trans hpartners.1 hpartners.2) hi
    have hsecond := roster.position_inj hpartners.2 hi
    have hsum : n + 2 * (times + 1) = n + 2 + 2 * times := by omega
    rw [hsum, ← ih (n + 2), share_add_two n hcount hi, exchanges]
    simp only [map_cons, count_cons, beq_iff_eq, hfirst, hsecond, @eq_comm Nat i]
    omega

/-- Whoever sends to another device also receives from it. -/
theorem recipients_perm_senders (times n : Nat) :
    ((exchanges roster times n).map Prod.snd).Perm
      (((exchanges roster times n).map Prod.fst).map some) := by
  induction times generalizing n with
  | zero => exact .refl _
  | succ times ih =>
    rw [exchanges]
    exact (Perm.swap _ _ _).trans (((ih (n + 2)).cons _).cons _)

theorem count_recipients_exchanges (times n idx : Nat) :
    ((exchanges roster times n).map Prod.snd).count (some idx) =
      ((exchanges roster times n).map Prod.fst).count idx := by
  rw [(recipients_perm_senders times n).count_eq,
    count_map_of_injective _ _ (Option.some_injective Nat)]

theorem exchanges_ne (hcount : 2 ≤ indices.length) (times n : Nat) :
    ∀ send ∈ exchanges roster times n, ∃ recipient, send.2 = some recipient ∧
      send.1 ≠ recipient := by
  induction times generalizing n with
  | zero => exact fun send hsend => absurd hsend not_mem_nil
  | succ times ih =>
    have hrest : n % indices.length < indices.length := Nat.mod_lt _ (by omega)
    have hpartners := partners_spec hcount hrest
    have hne := (roster.position_inj (Nat.lt_trans hpartners.1 hpartners.2)
      hpartners.2).not.mpr (Nat.ne_of_lt hpartners.1)
    intro send hsend
    rw [exchanges, mem_cons, mem_cons] at hsend
    rcases hsend with rfl | rfl | hsend
    · exact ⟨_, rfl, hne⟩
    · exact ⟨_, rfl, Ne.symm hne⟩
    · exact ih (n + 2) send hsend

end Exchanges

section Plan

variable {ε : Type} {env : RunnerEnvironment ε} {config : RunnerConfig}
  {settings : ApplicationSettings} {plan : PayloadPlan} {required : Nat}

def densityDevices (settings : ApplicationSettings) (active : List WorkerSpec) : List WorkerSpec :=
  active.filter fun worker => settings.externalDensityIds.contains worker.id

/-- The number of broadcasts that is announced for a payload source. -/
def plannedCount (settings : ApplicationSettings) (plan : PayloadPlan) (active : List WorkerSpec) :
    Nat :=
  match plan.samplesPerExternal with
  | some required => min ((densityDevices settings active).length * required) usizeMax
  | none => plan.basePerPayloadCount

/-- The position of an active external device. -/
def DeviceAt (settings : ApplicationSettings) (active : List WorkerSpec) (idx : Nat) : Prop :=
  ∃ worker, active[idx]? = some worker ∧ settings.externalDensityIds.contains worker.id = true

/-- The broadcasts are as many as were announced, and every device has the required number of
samples in both roles, none of them from its own broadcast. -/
structure SharedOut (settings : ApplicationSettings) (plan : PayloadPlan)
    (active : List WorkerSpec) (required : Nat) (sends : List (Nat × Option Nat)) : Prop where
  announced : plannedCount settings plan active =
    (densityDevices settings active).length * required
  length : sends.length = plannedCount settings plan active
  sender : ∀ idx, DeviceAt settings active idx → (sends.map Prod.fst).count idx = required
  recipient : ∀ idx, DeviceAt settings active idx →
    (sends.map Prod.snd).count (some idx) = required
  other : ∀ send ∈ sends, ∃ recipient, send.2 = some recipient ∧ send.1 ≠ recipient

section Devices

variable {active : List WorkerSpec} (hplan : plan.samplesPerExternal = some required)
  (hdevices : 0 < (densityDevices settings active).length)
  (hdistinct : ((densityDevices settings active).map (·.id)).Nodup)

include hplan hdevices in
theorem profiledIndices_of_density : profiledIndices settings plan active =
      (range active.length).filter fun idx =>
        (active[idx]?).any fun worker => settings.externalDensityIds.contains worker.id := by
  have hprofiled : profiledBy settings plan =
      fun worker => settings.externalDensityIds.contains worker.id := by
    unfold profiledBy
    rw [hplan]
    rfl
  unfold densityDevices at hdevices
  rw [← hprofiled] at hdevices ⊢
  exact profiledIndices_eq hdevices

include hplan hdevices in
theorem mem_profiledIndices_of_density {idx : Nat} :
    idx ∈ profiledIndices settings plan active ↔ DeviceAt settings active idx := by
  rw [profiledIndices_of_density hplan hdevices, mem_filter, mem_range,
    Option.any_eq_true]
  constructor
  · rintro ⟨-, worker, hworker, hdevice⟩
    exact ⟨worker, hworker, hdevice⟩
  · rintro ⟨worker, hworker, hdevice⟩
    exact ⟨(List.getElem?_eq_some_iff.mp hworker).1, worker, hworker, hdevice⟩

include hdistinct in
/-- Different devices have different ids. -/
theorem deviceAt_eq {idx idx' : Nat} {worker worker' : WorkerSpec}
    (hworker : active[idx]? = some worker)
    (hworker' : active[idx']? = some worker')
    (hdevice : settings.externalDensityIds.contains worker.id = true)
    (hid : worker.id = worker'.id) : idx = idx' := by
  have hpairwise := pairwise_iff_getElem.mp
    (pairwise_filter.mp (pairwise_map.mp hdistinct))
  obtain ⟨hidx, rfl⟩ := List.getElem?_eq_some_iff.mp hworker
  obtain ⟨hidx', rfl⟩ := List.getElem?_eq_some_iff.mp hworker'
  have hdevice' := hdevice
  rw [hid] at hdevice'
  rcases Nat.lt_trichotomy idx idx' with hlt | heq | hgt
  · exact absurd hid (hpairwise idx idx' hidx hidx' hlt hdevice hdevice')
  · exact heq
  · exact absurd hid.symm (hpairwise idx' idx hidx' hidx hgt hdevice' hdevice)

include hplan hdevices hdistinct in
/-- External devices with different ids can be put in order. -/
theorem exists_roster : Nonempty (Roster active (profiledIndices settings plan active)) := by
  refine Roster.exists_of_distinct nodup_profiledIndices (fun _ => mem_profiledIndices_lt) ?_
  intro idx idx' worker worker' hworker hworker' hmem hmem' hid
  obtain ⟨worker₁, hworker₁, hdevice⟩ := (mem_profiledIndices_of_density hplan hdevices).mp hmem
  rw [hworker] at hworker₁
  cases hworker₁
  exact deviceAt_eq hdistinct hworker hworker' hdevice hid

variable (config) in
include hplan hdistinct in
/-- If nothing fails, the broadcasts come in twos until everybody has enough samples. -/
theorem broadcasts_eq_exchanges_of_devices (hcount : 2 ≤ (densityDevices settings active).length)
    (hfits : (densityDevices settings active).length * required ≤ usizeMax) {rounds : Nat}
    (hrounds : (densityDevices settings active).length * required + 1 < rounds) :
    (profiledIndices settings plan active).length = (densityDevices settings active).length ∧
      ∃ times, times = ((densityDevices settings active).length * required + 1) / 2 ∧
        ∃ roster : Roster active (profiledIndices settings plan active),
          broadcasts config settings plan active rounds ⟨[], [], 0⟩ =
            exchanges roster times 0 := by
  have hlength : (profiledIndices settings plan active).length =
      (densityDevices settings active).length := by
    rw [profiledIndices_of_density hplan (by omega), length_filter_range]
    rfl
  obtain ⟨roster⟩ := exists_roster hplan (by omega) hdistinct
  have hmany : 2 ≤ active.length := Nat.le_trans hcount (length_filter_le _ _)
  have hdouble : 2 * required ≤ usizeMax := Nat.le_trans (Nat.mul_le_mul_right _ hcount) hfits
  refine ⟨hlength, _, rfl, roster, ?_⟩
  refine broadcasts_eq_exchanges hmany hplan rfl (by omega) hdouble (fun i _ => ?_) ?_ ?_ ?_
  · simp [Successes.count]
  · rw [hlength]
    omega
  · rw [hlength]
    omega
  · omega

end Devices

/-- As long as nothing fails, the loop over the broadcasts of a payload source shares the
samples out evenly, with as many broadcasts as were announced, exactly if their number is
even and fits in a machine word. -/
theorem density_shared_out_iff {rounds : Nat} {s : RunnerState ε}
    (hplan : plan.samplesPerExternal = some required)
    (hcount : 2 ≤ (densityDevices settings s.active).length)
    (hdistinct : ((densityDevices settings s.active).map (·.id)).Nodup)
    (hrounds : (densityDevices settings s.active).length * required + 1 < rounds)
    (hsucceeding : Succeeding env config settings plan s.active
      (broadcasts config settings plan s.active rounds ⟨[], [], 0⟩) ⟨[], [], 0⟩ s) :
    (broadcastRounds env config settings plan rounds ⟨[], [], 0⟩ s =
        (carryOut env config settings plan s.active
          (broadcasts config settings plan s.active rounds ⟨[], [], 0⟩) ⟨[], [], 0⟩ >>= fun _ =>
            pure true) s ∧
      SharedOut settings plan s.active required
        (broadcasts config settings plan s.active rounds ⟨[], [], 0⟩)) ↔
    (densityDevices settings s.active).length * required ≤ usizeMax ∧
      (Even (densityDevices settings s.active).length ∨ Even required) := by
  have hplanned : plannedCount settings plan s.active =
      min ((densityDevices settings s.active).length * required) usizeMax := by
    unfold plannedCount
    rw [hplan]
  have hmany : 2 ≤ s.active.length := Nat.le_trans hcount (length_filter_le _ _)
  rw [← Nat.even_mul, Nat.even_iff]
  constructor
  · rintro ⟨-, hshared⟩
    have hfits : (densityDevices settings s.active).length * required ≤ usizeMax := by
      have hannounced := hshared.announced
      omega
    obtain ⟨-, times, htimes, roster, hsends⟩ := broadcasts_eq_exchanges_of_devices config hplan
      hdistinct hcount hfits hrounds
    have hlength := hshared.length
    rw [hsends, length_exchanges, hshared.announced] at hlength
    exact ⟨hfits, by omega⟩
  · rintro ⟨hfits, heven⟩
    obtain ⟨hlength, times, htimes, roster, hsends⟩ := broadcasts_eq_exchanges_of_devices config
      hplan hdistinct hcount hfits hrounds
    have htotal : 2 * times = (densityDevices settings s.active).length * required := by omega
    have hshare (i : Nat) : share (profiledIndices settings plan s.active).length (0 + 2 * times) i =
        required := by
      rw [htotal, ← hlength, Nat.zero_add, share_eq (Nat.add_zero _).symm (by omega)]
      rfl
    have hsenders (idx : Nat) (hidx : DeviceAt settings s.active idx) :
        ((exchanges roster times 0).map Prod.fst).count idx = required := by
      obtain ⟨i, hi, rfl⟩ := roster.mem_iff.mp
        ((mem_profiledIndices_of_density hplan (by omega)).mpr hidx)
      have hcounted := count_senders_exchanges roster (by omega) hi times 0
      rwa [hshare, share_zero, Nat.zero_add] at hcounted
    refine ⟨?_, ?_, ?_, ?_, ?_, ?_⟩
    · rw [broadcastRounds_eq_carryOut _ hsucceeding, decide_eq_true hmany]
      rw [hsends, length_exchanges, htotal]
      omega
    · rw [hplanned, Nat.min_eq_left hfits]
    · rw [hsends, length_exchanges, htotal, hplanned, Nat.min_eq_left hfits]
    · rw [hsends]
      exact hsenders
    · rw [hsends]
      intro idx hidx
      rw [count_recipients_exchanges, hsenders idx hidx]
    · rw [hsends]
      exact exchanges_ne (by omega) _ _

section Cases

/-- Active external devices with these ids. -/
abbrev deviceState (ids : List String) : RunnerState Unit :=
  ⟨(), ids.map fun id => ⟨id, id, .singleton, true⟩, [], [], [], 1, []⟩

abbrev deviceSettings (ids : List String) : ApplicationSettings :=
  ⟨ids.length, 1, 1, 1, ids, .fixed [1]⟩

abbrev onePerDevice : PayloadPlan := ⟨.fixed 1, 1, some 1⟩

/-- Two devices send to each other. -/
theorem density_shared_out_of_two :
    SharedOut (deviceSettings ["a", "b"]) onePerDevice (deviceState ["a", "b"]).active 1
      (broadcasts turnConfig (deviceSettings ["a", "b"]) onePerDevice
        (deviceState ["a", "b"]).active 4 ⟨[], [], 0⟩) := by
  have hsends : ∀ send ∈ broadcasts turnConfig (deviceSettings ["a", "b"]) onePerDevice
      (deviceState ["a", "b"]).active 4 ⟨[], [], 0⟩,
        send.1 < (deviceState ["a", "b"]).active.length := by decide +kernel
  exact ((density_shared_out_iff rfl (by decide) (by decide) (by decide)
    (turnEnvironment_obliging.succeeding _ hsends _ (deviceState ["a", "b"]))).mpr
      ⟨by decide, .inl (by decide)⟩).2

/-- Three devices need one sample each. The third one finds nobody who lacks a sample, and the
first one serves as its partner, twice: there are four broadcasts instead of three. -/
theorem density_of_three_not_shared_out :
    Succeeding turnEnvironment turnConfig (deviceSettings ["a", "b", "c"]) onePerDevice
        (deviceState ["a", "b", "c"]).active (broadcasts turnConfig
          (deviceSettings ["a", "b", "c"]) onePerDevice (deviceState ["a", "b", "c"]).active 5
            ⟨[], [], 0⟩) ⟨[], [], 0⟩ (deviceState ["a", "b", "c"]) ∧
      plannedCount (deviceSettings ["a", "b", "c"]) onePerDevice
        (deviceState ["a", "b", "c"]).active = 3 ∧
      broadcasts turnConfig (deviceSettings ["a", "b", "c"]) onePerDevice
          (deviceState ["a", "b", "c"]).active 5 ⟨[], [], 0⟩ =
        [(0, some 1), (1, some 0), (0, some 2), (2, some 0)] ∧
      ¬SharedOut (deviceSettings ["a", "b", "c"]) onePerDevice
        (deviceState ["a", "b", "c"]).active 1 (broadcasts turnConfig
          (deviceSettings ["a", "b", "c"]) onePerDevice (deviceState ["a", "b", "c"]).active 5
            ⟨[], [], 0⟩) := by
  have hsends : broadcasts turnConfig (deviceSettings ["a", "b", "c"]) onePerDevice
      (deviceState ["a", "b", "c"]).active 5 ⟨[], [], 0⟩ =
        [(0, some 1), (1, some 0), (0, some 2), (2, some 0)] := by decide +kernel
  refine ⟨turnEnvironment_obliging.succeeding _ ?_ _ _, by decide, hsends, fun hshared => ?_⟩
  · rw [hsends]
    decide
  have hlength := hshared.length
  rw [hsends] at hlength
  exact absurd hlength (by decide)

end Cases

end Plan

end MessagingBench.Signal
