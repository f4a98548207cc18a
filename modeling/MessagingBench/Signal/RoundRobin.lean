import Mathlib.Data.List.GetD
import Mathlib.Data.List.Rotate
import MessagingBench.Signal.Schedule

/-!
# Taking turns

Without external devices the number of a broadcast says who sends, modulo the number of
workers, and whose receive is profiled, modulo one less. The two lists differ by the sender,
so that the recipient's position is the sender's, shifted by an offset that changes from block
to block.
-/

namespace MessagingBench.Signal

open List

variable {ε : Type} {env : RunnerEnvironment ε} {config : RunnerConfig}
  {settings : ApplicationSettings} {plan : PayloadPlan} {active : List WorkerSpec}

section Positions

theorem mod_eq_of_lt_two_mul {n count : Nat} (h : n < 2 * count) :
    n % count = if n < count then n else n - count := by
  by_cases hlt : n < count
  · rw [if_pos hlt, Nat.mod_eq_of_lt hlt]
  · rw [if_neg hlt, Nat.mod_eq_sub_mod (Nat.not_lt.mp hlt), Nat.mod_eq_of_lt (by omega)]

/-- The position of the recipient among all workers that take turns. -/
def recipientPosition (count seqNo : Nat) : Nat :=
  if seqNo % (count - 1) < seqNo % count then seqNo % (count - 1) else seqNo % (count - 1) + 1

/-- Within a block the recipient stands at a fixed distance behind the sender. -/
theorem recipientPosition_eq {count block position : Nat} (hcount : 2 ≤ count)
    (hposition : position < count) :
    recipientPosition count (block * count + position) =
      (position + 1 + block % (count - 1)) % count := by
  obtain ⟨others, rfl⟩ : ∃ others, count = others + 1 := ⟨count - 1, by omega⟩
  have hoffset : block % others < others := Nat.mod_lt _ (by omega)
  have hsender : (block * (others + 1) + position) % (others + 1) = position := by
    rw [Nat.mul_add_mod_self_right, Nat.mod_eq_of_lt hposition]
  have hother :
      (block * (others + 1) + position) % others = (block % others + position) % others := by
    rw [Nat.mul_add, Nat.mul_one, Nat.add_assoc, Nat.mul_add_mod_self_right, Nat.mod_add_mod]
  have hother' : (block % others + position) % others =
      if block % others + position < others then block % others + position
      else block % others + position - others := mod_eq_of_lt_two_mul (by omega)
  have hsum : (position + 1 + block % others) % (others + 1) =
      if position + 1 + block % others < others + 1 then position + 1 + block % others
      else position + 1 + block % others - (others + 1) := mod_eq_of_lt_two_mul (by omega)
  unfold recipientPosition
  rw [Nat.add_sub_cancel, hsender, hother, hother', hsum]
  by_cases hwrap : block % others + position < others
  · rw [if_pos hwrap, if_neg (by omega), if_pos (by omega)]
    omega
  · rw [if_neg hwrap, if_pos (by omega), if_neg (by omega)]
    omega

/-- Different offsets lead from a sender to different recipients. -/
theorem offset_eq {count position offset offset' : Nat} (hposition : position < count)
    (hoffset : offset < count - 1) (hoffset' : offset' < count - 1)
    (h : (position + 1 + offset) % count = (position + 1 + offset') % count) :
    offset = offset' := by
  rw [mod_eq_of_lt_two_mul (by omega), mod_eq_of_lt_two_mul (by omega)] at h
  split at h <;> split at h <;> omega

/-- The offset at which a sender has a given recipient. -/
theorem exists_offset {count position position' : Nat} (hposition : position < count)
    (hposition' : position' < count) (hne : position ≠ position') :
    ∃ offset, offset < count - 1 ∧ (position + 1 + offset) % count = position' := by
  rcases Nat.lt_or_gt_of_ne hne with hlt | hgt
  · refine ⟨position' - position - 1, by omega, ?_⟩
    rw [Nat.mod_eq_of_lt (by omega)]
    omega
  · refine ⟨position' + count - position - 1, by omega, ?_⟩
    rw [mod_eq_of_lt_two_mul (by omega), if_neg (by omega)]
    omega

/-- Every offset occurs in as many blocks in a row as there are offsets. -/
theorem exists_block {offsets offset : Nat} (start : Nat) (hoffset : offset < offsets) :
    ∃ block, start ≤ block ∧ block < start + offsets ∧ block % offsets = offset := by
  have hstart : start % offsets < offsets := Nat.mod_lt _ (by omega)
  have hsteps : (offset + offsets - start % offsets) % offsets < offsets := Nat.mod_lt _ (by omega)
  refine ⟨start + (offset + offsets - start % offsets) % offsets, by omega, by omega, ?_⟩
  have hsum : start + (offset + offsets - start % offsets) =
      offsets * (start / offsets + 1) + offset := by
    have hdiv := Nat.div_add_mod start offsets
    rw [Nat.mul_add, Nat.mul_one]
    omega
  rw [Nat.add_mod_mod, hsum, Nat.mul_add_mod_self_left, Nat.mod_eq_of_lt hoffset]

/-- Blocks in a row have different offsets. -/
theorem block_eq {offsets start block block' : Nat} (h : block % offsets = block' % offsets)
    (hge : start ≤ block) (hlt : block < start + offsets) (hge' : start ≤ block')
    (hlt' : block' < start + offsets) : block = block' := by
  have hle := Nat.eq_zero_of_dvd_of_lt (Nat.dvd_of_mod_eq_zero (Nat.sub_mod_eq_zero_of_mod_eq h))
    (by omega)
  have hle' := Nat.eq_zero_of_dvd_of_lt
    (Nat.dvd_of_mod_eq_zero (Nat.sub_mod_eq_zero_of_mod_eq h.symm)) (by omega)
  omega

end Positions

section Turns

theorem broadcasts_of_turns (hmany : 2 ≤ active.length) (hplan : plan.samplesPerExternal = none)
    (rounds : Nat) (vars : BroadcastLocals) :
    broadcasts config settings plan active rounds vars =
      (range' vars.seqNo (min rounds (plan.basePerPayloadCount - vars.seqNo))).map
        (turn config settings plan active) := by
  induction rounds generalizing vars with
  | zero => simp [broadcasts]
  | succ rounds ih =>
    unfold broadcasts
    rw [nextBroadcast_of_turns hmany hplan]
    by_cases hdone : plan.basePerPayloadCount ≤ vars.seqNo
    · rw [if_pos hdone, Nat.sub_eq_zero_of_le hdone]
      simp
    · have hcount : min (rounds + 1) (plan.basePerPayloadCount - vars.seqNo) =
          min rounds (plan.basePerPayloadCount - (vars.seqNo + 1)) + 1 := by omega
      rw [if_neg hdone, hcount, range'_succ, map_cons]
      dsimp only
      rw [ih, seqNo_after plan vars _ (turn_lt hmany)]

/-- The pair of those who take turns with this number. -/
def pairing (indices : List Nat) (seqNo : Nat) : Nat × Option Nat :=
  (indices.getD (seqNo % indices.length) 0, indices[recipientPosition indices.length seqNo]?)

/-- Without the sender, the list of those who take turns has a gap at the sender's position. -/
theorem profilingRecipient_of_turns {indices : List Nat} {seqNo : Nat}
    (hexternal : config.externalDevices = false) (hnodup : indices.Nodup)
    (hcount : 2 ≤ indices.length) (hbase : indices.length ≤ plan.basePerPayloadCount)
    (selection : Nat) :
    profilingRecipient config plan seqNo indices selection
        (indices.getD (seqNo % indices.length) 0) =
      indices[recipientPosition indices.length seqNo]? := by
  have hsender : seqNo % indices.length < indices.length := Nat.mod_lt _ (by omega)
  have hothers : indices.filter (· != indices[seqNo % indices.length]) =
      indices.eraseIdx (seqNo % indices.length) := by
    rw [← hnodup.erase_eq_filter, hnodup.erase_getElem]
  have hlength : (indices.eraseIdx (seqNo % indices.length)).length = indices.length - 1 :=
    length_eraseIdx_of_lt hsender
  have hseveral : 1 < indices.length := hcount
  unfold profilingRecipient recipientPosition sampledParticipantIndex
  rw [hexternal, if_neg (by simp), if_pos hseveral, getD_eq_getElem _ _ hsender]
  dsimp only
  rw [hothers, hlength, if_pos (by omega), getElem?_eraseIdx]
  split <;> rfl

/-- If at least one broadcast is asked for of everybody, nobody is left out. -/
theorem turn_eq_pairing (hexternal : config.externalDevices = false)
    (hcount : 2 ≤ (profiledIndices settings plan active).length)
    (hbase : (profiledIndices settings plan active).length ≤ plan.basePerPayloadCount) :
    turn config settings plan active = pairing (profiledIndices settings plan active) := by
  funext seqNo
  have hselection : sampledParticipantIndex (profiledIndices settings plan active).length
      plan.basePerPayloadCount seqNo = seqNo % (profiledIndices settings plan active).length :=
    if_pos hbase
  unfold turn pairing
  dsimp only
  rw [hselection, profilingRecipient_of_turns hexternal nodup_profiledIndices hcount hbase]

end Turns

section Pairings

theorem mem_blocks {count start blocks seqNo : Nat} (hcount : 0 < count)
    (h : seqNo ∈ range' (start * count) (blocks * count)) :
    ∃ block position, start ≤ block ∧ block < start + blocks ∧ position < count ∧
      seqNo = block * count + position := by
  rw [mem_range'_1, ← Nat.add_mul] at h
  refine ⟨seqNo / count, seqNo % count, (Nat.le_div_iff_mul_le hcount).mpr h.1,
    (Nat.div_lt_iff_lt_mul hcount).mpr h.2, Nat.mod_lt _ hcount, (Nat.div_add_mod' _ _).symm⟩

variable {indices : List Nat} {idx : Nat} (hcount : 2 ≤ indices.length)
include hcount

theorem pairing_block {block : Nat} {position : Nat} (hposition : position < indices.length) :
    pairing indices (block * indices.length + position) = (indices[position],
      indices[(position + 1 + block % (indices.length - 1)) % indices.length]?) := by
  unfold pairing
  rw [recipientPosition_eq hcount hposition, Nat.mul_add_mod_self_right,
    Nat.mod_eq_of_lt hposition, getD_eq_getElem _ _ hposition]

theorem senders_of_block (block : Nat) :
    ((range' (block * indices.length) indices.length).map (pairing indices)).map Prod.fst =
      indices := by
  refine ext_getElem (by simp) fun position _ hposition => ?_
  simp [pairing_block hcount hposition]

/-- In a block the recipients are the senders, shifted. -/
theorem recipients_of_block (block : Nat) :
    ((range' (block * indices.length) indices.length).map (pairing indices)).map Prod.snd =
      (indices.rotate (1 + block % (indices.length - 1))).map some := by
  refine ext_getElem (by simp) fun position hposition _ => ?_
  have hlt : position < indices.length := by simpa using hposition
  have hmod : (position + 1 + block % (indices.length - 1)) % indices.length < indices.length :=
    Nat.mod_lt _ (by omega)
  simp [pairing_block hcount hlt, getElem_rotate, ← Nat.add_assoc, hmod]

/-- Within one block less than there are workers, every pair comes once. -/
theorem exists_pairing (start : Nat) {sender recipient : Nat}
    (hsender : sender ∈ indices) (hrecipient : recipient ∈ indices) (hne : sender ≠ recipient) :
    ∃ seqNo ∈ range' (start * indices.length) ((indices.length - 1) * indices.length),
      pairing indices seqNo = (sender, some recipient) := by
  obtain ⟨position, hposition, rfl⟩ := getElem_of_mem hsender
  obtain ⟨position', hposition', rfl⟩ := getElem_of_mem hrecipient
  obtain ⟨offset, hoffset, hto⟩ := exists_offset hposition hposition' fun heq => hne (by simp [heq])
  obtain ⟨block, hge, hlt, hblock⟩ := exists_block start hoffset
  refine ⟨block * indices.length + position, ?_, ?_⟩
  · have hle := Nat.mul_le_mul_right indices.length hge
    have hle' := Nat.mul_le_mul_right indices.length (Nat.succ_le_of_lt hlt)
    rw [Nat.succ_mul] at hle'
    rw [mem_range'_1, ← Nat.add_mul]
    omega
  · rw [pairing_block hcount hposition, hblock, hto, getElem?_eq_getElem hposition']

variable (hnodup : indices.Nodup)
include hnodup

theorem count_senders_of_block (block : Nat) (hidx : idx ∈ indices) :
    (((range' (block * indices.length) indices.length).map (pairing indices)).map
      Prod.fst).count idx = 1 := by
  rw [senders_of_block hcount]
  exact count_eq_one_of_mem hnodup hidx

theorem count_recipients_of_block (block : Nat) (hidx : idx ∈ indices) :
    (((range' (block * indices.length) indices.length).map (pairing indices)).map
      Prod.snd).count (some idx) = 1 := by
  rw [recipients_of_block hcount]
  refine count_eq_one_of_mem ?_ ?_
  · exact (nodup_rotate.mpr hnodup).map (Option.some_injective _)
  · exact mem_map_of_mem (mem_rotate.mpr hidx)

/-- Nobody is the recipient of their own broadcast. -/
theorem pairing_ne (seqNo : Nat) :
    ∃ sender recipient, pairing indices seqNo = (sender, some recipient) ∧ sender ≠ recipient := by
  have hsender : seqNo % indices.length < indices.length := Nat.mod_lt _ (by omega)
  have hother : seqNo % (indices.length - 1) < indices.length - 1 := Nat.mod_lt _ (by omega)
  have hposition : recipientPosition indices.length seqNo < indices.length ∧
      seqNo % indices.length ≠ recipientPosition indices.length seqNo := by
    unfold recipientPosition
    split <;> omega
  refine ⟨indices[seqNo % indices.length], indices[recipientPosition indices.length seqNo],
    ?_, fun heq => hposition.2 (hnodup.getElem_inj_iff.mp heq)⟩
  unfold pairing
  rw [getD_eq_getElem _ _ hsender, getElem?_eq_getElem hposition.1]

/-- Within one block less than there are workers, no pair comes twice. -/
theorem pairing_injective {start seqNo seqNo' : Nat}
    (hmem : seqNo ∈ range' (start * indices.length) ((indices.length - 1) * indices.length))
    (hmem' : seqNo' ∈ range' (start * indices.length) ((indices.length - 1) * indices.length))
    (h : pairing indices seqNo = pairing indices seqNo') : seqNo = seqNo' := by
  obtain ⟨block, position, hge, hlt, hposition, rfl⟩ := mem_blocks (by omega) hmem
  obtain ⟨block', position', hge', hlt', hposition', rfl⟩ := mem_blocks (by omega) hmem'
  rw [pairing_block hcount hposition, pairing_block hcount hposition', Prod.mk.injEq,
    hnodup.getElem_inj_iff] at h
  obtain ⟨rfl, hrecipient⟩ := h
  have hoffset := offset_eq hposition (Nat.mod_lt _ (by omega)) (Nat.mod_lt _ (by omega))
    (getElem?_inj (Nat.mod_lt _ (by omega)) hnodup |>.mp hrecipient)
  rw [block_eq hoffset hge hlt hge' hlt']

theorem count_pairs_of_blocks (start : Nat) {sender recipient : Nat} (hsender : sender ∈ indices)
    (hrecipient : recipient ∈ indices) (hne : sender ≠ recipient) :
    ((range' (start * indices.length) ((indices.length - 1) * indices.length)).map
      (pairing indices)).count (sender, some recipient) = 1 := by
  refine count_eq_one_of_mem ?_ ?_
  · exact Nodup.map_on (fun _ hmem _ hmem' => pairing_injective hcount hnodup hmem hmem')
      nodup_range'
  · exact mem_map.mpr (exists_pairing hcount start hsender hrecipient hne)

end Pairings

section Enabled

/-- How many workers have a profile. -/
abbrev enabledCount (active : List WorkerSpec) : Nat := (active.filter (·.profileEnabled)).length

def ProfileEnabledAt (active : List WorkerSpec) (idx : Nat) : Prop :=
  ∃ worker, active[idx]? = some worker ∧ worker.profileEnabled = true

/-- Without density it is the workers with a profile that take turns. -/
theorem profiledIndices_of_turns (hplan : plan.samplesPerExternal = none)
    (henabled : 0 < enabledCount active) :
    profiledIndices settings plan active =
      (range active.length).filter fun idx => (active[idx]?).any (·.profileEnabled) := by
  have hprofiled : profiledBy settings plan = (·.profileEnabled) := by
    unfold profiledBy
    rw [hplan]
    rfl
  rw [enabledCount, ← hprofiled] at henabled
  exact hprofiled ▸ profiledIndices_eq henabled

theorem mem_profiledIndices_of_turns (hplan : plan.samplesPerExternal = none)
    (henabled : 0 < enabledCount active) {idx : Nat} (hidx : ProfileEnabledAt active idx) :
    idx ∈ profiledIndices settings plan active := by
  obtain ⟨worker, hworker, hprofile⟩ := hidx
  rw [profiledIndices_of_turns hplan henabled, mem_filter, mem_range]
  exact ⟨(List.getElem?_eq_some_iff.mp hworker).1, by simp [hworker, hprofile]⟩

/-- What the broadcasts do for the workers with a profile: in every block of as many broadcasts
as there are such workers, each of them sends once and is profiled as a recipient once, and
one block less than there are workers has every pair of them. -/
structure TakesTurns (active : List WorkerSpec) (sends : List (Nat × Option Nat)) : Prop where
  sender : ∀ block, (block + 1) * enabledCount active ≤ sends.length →
    ∀ idx, ProfileEnabledAt active idx →
      (((sends.drop (block * enabledCount active)).take (enabledCount active)).map Prod.fst).count
        idx = 1
  recipient : ∀ block, (block + 1) * enabledCount active ≤ sends.length →
    ∀ idx, ProfileEnabledAt active idx →
      (((sends.drop (block * enabledCount active)).take (enabledCount active)).map Prod.snd).count
        (some idx) = 1
  other : ∀ send ∈ sends, ∃ recipient, send.2 = some recipient ∧ send.1 ≠ recipient
  pair : ∀ start, (start + (enabledCount active - 1)) * enabledCount active ≤ sends.length →
    ∀ idx idx', ProfileEnabledAt active idx → ProfileEnabledAt active idx' → idx ≠ idx' →
      ((sends.drop (start * enabledCount active)).take
        ((enabledCount active - 1) * enabledCount active)).count (idx, some idx') = 1

/-- A stretch of the broadcasts. -/
theorem drop_take_map_range {α : Type} (f : Nat → α) {start length total : Nat}
    (h : start + length ≤ total) :
    (((range' 0 total).map f).drop start).take length =
      (range' start length).map f := by
  refine ext_getElem ?_ fun seqNo _ _ => ?_
  · simp
    omega
  · simp

theorem takesTurns_pairing {total : Nat} {indices : List Nat} (hnodup : indices.Nodup)
    (hcount : 2 ≤ indices.length) (hlength : indices.length = enabledCount active)
    (hmem : ∀ idx, ProfileEnabledAt active idx → idx ∈ indices) :
    TakesTurns active ((range' 0 total).map (pairing indices)) := by
  refine ⟨fun block hblock idx hidx => ?_, fun block hblock idx hidx => ?_, fun send hsend => ?_,
    fun start hblocks idx idx' hidx hidx' hne => ?_⟩
  · rw [length_map, length_range', Nat.succ_mul] at hblock
    rw [drop_take_map_range _ hblock, ← hlength]
    exact count_senders_of_block hcount hnodup block (hmem idx hidx)
  · rw [length_map, length_range', Nat.succ_mul] at hblock
    rw [drop_take_map_range _ hblock, ← hlength]
    exact count_recipients_of_block hcount hnodup block (hmem idx hidx)
  · obtain ⟨seqNo, -, rfl⟩ := mem_map.mp hsend
    obtain ⟨sender, recipient, hpair, hne⟩ := pairing_ne hcount hnodup seqNo
    rw [hpair]
    exact ⟨recipient, rfl, hne⟩
  · rw [length_map, length_range', Nat.add_mul] at hblocks
    rw [drop_take_map_range _ hblocks, ← hlength]
    exact count_pairs_of_blocks hcount hnodup start (hmem idx hidx) (hmem idx' hidx') hne

/-- If nothing fails, the loop over the broadcasts of a payload source carries out the computed
ones, as many as were asked for, and the workers with a profile take turns in them. -/
theorem broadcastRounds_takes_turns {rounds : Nat} {s : RunnerState ε}
    (hexternal : config.externalDevices = false) (hplan : plan.samplesPerExternal = none)
    (hcount : 2 ≤ enabledCount s.active) (hbase : enabledCount s.active ≤ plan.basePerPayloadCount)
    (hrounds : plan.basePerPayloadCount < rounds)
    (hsucceeding : Succeeding env config settings plan s.active
      (broadcasts config settings plan s.active rounds ⟨[], [], 0⟩) ⟨[], [], 0⟩ s) :
    broadcastRounds env config settings plan rounds ⟨[], [], 0⟩ s =
        (carryOut env config settings plan s.active
          (broadcasts config settings plan s.active rounds ⟨[], [], 0⟩) ⟨[], [], 0⟩ >>= fun _ =>
            pure true) s ∧
      (broadcasts config settings plan s.active rounds ⟨[], [], 0⟩).length =
        plan.basePerPayloadCount ∧
      TakesTurns s.active (broadcasts config settings plan s.active rounds ⟨[], [], 0⟩) := by
  have henabled : 0 < enabledCount s.active := by omega
  have hmany : 2 ≤ s.active.length := Nat.le_trans hcount (length_filter_le _ _)
  have hlength : (profiledIndices settings plan s.active).length = enabledCount s.active := by
    rw [profiledIndices_of_turns hplan henabled, length_filter_range]
  have hsends : broadcasts config settings plan s.active rounds ⟨[], [], 0⟩ =
      (range' 0 plan.basePerPayloadCount).map
        (pairing (profiledIndices settings plan s.active)) := by
    rw [broadcasts_of_turns hmany hplan, turn_eq_pairing hexternal (hlength ▸ hcount)
      (hlength ▸ hbase), Nat.sub_zero, Nat.min_eq_right (Nat.le_of_lt hrounds)]
  refine ⟨?_, ?_, ?_⟩
  · rw [broadcastRounds_eq_carryOut _ hsucceeding, decide_eq_true hmany]
    rw [hsends, length_map, length_range']
    exact hrounds
  · rw [hsends, length_map, length_range']
  · rw [hsends]
    exact takesTurns_pairing nodup_profiledIndices (hlength ▸ hcount) hlength fun idx hidx =>
      mem_profiledIndices_of_turns hplan henabled hidx

section Cases

abbrev turnPlan : PayloadPlan := ⟨.fixed 1, 3, none⟩

abbrev turnSettings : ApplicationSettings := ⟨2, 1, 3, 0, [], .fixed [1]⟩

abbrev turnConfig : RunnerConfig := ⟨.pairwise, 0, false⟩

abbrev turnEnvironment : RunnerEnvironment Unit where
  send _ _ _ _ := (.ok ⟨"ok", "encrypted and sent"⟩, ())
  fanout _ _ := ([], ())
  oomEvidence _ _ := (false, ())
  random _ _ := (0, ())

theorem turnEnvironment_obliging : Obliging turnEnvironment := by
  have hcontained : Worker.containsText "encrypted and sent" "encrypted and sent" = true := by
    decide +kernel
  refine ⟨fun _ _ _ _ => ⟨"encrypted and sent", ?_⟩, fun _ _ => rfl⟩
  simp only [expectOkFragment]
  rw [if_pos ⟨trivial, hcontained⟩]

abbrev turnState : RunnerState Unit :=
  ⟨(), [⟨"alice", "alice", .singleton, true⟩, ⟨"bob", "bob", .singleton, true⟩], [], [], [], 1, []⟩

theorem broadcastRounds_takes_turns_of_two :
    broadcasts turnConfig turnSettings turnPlan turnState.active 4 ⟨[], [], 0⟩ =
        [(0, some 1), (1, some 0), (0, some 1)] ∧
      TakesTurns turnState.active
        (broadcasts turnConfig turnSettings turnPlan turnState.active 4 ⟨[], [], 0⟩) :=
  ⟨by decide +kernel, (broadcastRounds_takes_turns rfl rfl (by decide) (by decide) (by decide)
    (turnEnvironment_obliging.succeeding _ (by decide +kernel) _ _)).2.2⟩

end Cases

end Enabled

end MessagingBench.Signal
