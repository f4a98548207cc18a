import MessagingBench.Affinity.Topology
import MessagingBench.Core.Slices

/-!
# The CPU affinity plan

`cpu_affinity_planner.py` gives every profiled worker CPUs of its own, slices of the selected
CPUs, and the other containers what is left. Reserved siblings are selected too and all CPUs
sorted by number before they are sliced, so that two workers may share a physical core. Masks
are numbers instead of their hexadecimal texts.
-/

namespace MessagingBench.Affinity

open List

section Plans

structure WorkerSpec where
  workerId : String
  containerName : String
  logicalClientId : String
  rayonNumThreads : Option Nat
  experimentKind : Option String
  resourceProfileId : Option String
  deriving DecidableEq, Repr

structure BackgroundSpec where
  containerName : String
  containerRole : String
  deriving DecidableEq, Repr

structure ProfiledAssignment where
  workerId : String
  containerName : String
  logicalClientId : String
  assignedCpus : List Nat
  assignedMask : Nat
  assignedCpuCount : Nat
  rayonNumThreads : Nat
  experimentKind : String
  resourceProfileId : String
  deriving DecidableEq, Repr

structure BackgroundAssignment where
  containerName : String
  containerRole : String
  assignedCpus : List Nat
  assignedMask : Nat
  deriving DecidableEq, Repr

structure AffinityPlan where
  cpuAffinityMode : String
  onlineCpus : List Nat
  onlineCpuMask : Nat
  profiledAssignments : List ProfiledAssignment
  profiledMask : Nat
  reservedMask : Nat
  backgroundCpus : List Nat
  backgroundMask : Nat
  smtSiblingPolicy : String
  warnings : List String
  backgroundAssignments : List BackgroundAssignment
  deriving DecidableEq, Repr

def createEmptyAffinityPlan : AffinityPlan :=
  ⟨"none", [], 0, [], 0, 0, [], 0, "no_reservation", [], []⟩

abbrev CpuCounts : Type := List (String × Nat)

def CpuCounts.countFor (counts : CpuCounts) (spec : WorkerSpec) : Nat :=
  (counts.lookup spec.workerId).getD 1

def assignment (spec : WorkerSpec) (count : Nat) (assigned : List Nat) (mask : Nat) :
    ProfiledAssignment :=
  { workerId := spec.workerId
    containerName := spec.containerName
    logicalClientId := spec.logicalClientId
    assignedCpus := assigned.insertionSort (· ≤ ·)
    assignedMask := mask
    assignedCpuCount := assigned.length
    rayonNumThreads := spec.rayonNumThreads.getD count
    experimentKind := spec.experimentKind.getD ""
    resourceProfileId := spec.resourceProfileId.getD "" }

/-- The loop over the profiled workers. -/
def assignCpus (counts : CpuCounts) (selected : List Nat) :
    List WorkerSpec → Nat → Except String (List ProfiledAssignment)
  | [], _ => .ok []
  | spec :: specs, cpuIndex => do
    let count := counts.countFor spec
    let assigned := (selected.drop cpuIndex).take count
    let mask ← cpuListToMask assigned
    let rest ← assignCpus counts selected specs (cpuIndex + count)
    return assignment spec count assigned mask :: rest

/-- The CPUs that the background may not use. -/
def reservedCpus (topology : CpuTopology) (reserveSmtSiblings : Bool) (assigned : List Nat) :
    List Nat :=
  if reserveSmtSiblings && topology.smtEnabled then
    sortedSet (assigned ++ getSmtSiblings topology (sortedSet assigned))
  else sortedSet assigned

variable {β : Type} [LinearOrder β]

/-- `create_affinity_plan` on a detected topology and a load for every CPU. -/
def createAffinityPlan (topology : CpuTopology) (busy : Nat → β)
    (profiledWorkerSpecs : List WorkerSpec) (backgroundSpecs : List BackgroundSpec)
    (cpuAffinityMode : String) (reserveSmtSiblings : Bool) (profiledCpuCounts : Option CpuCounts) :
    Except String AffinityPlan :=
  if cpuAffinityMode = "none" then .ok createEmptyAffinityPlan
  else do
    let onlineCpus := getOnlineCpuList topology
    let onlineMask ← cpuListToMask onlineCpus
    let counts := profiledCpuCounts.getD (profiledWorkerSpecs.map fun spec => (spec.workerId, 1))
    let total := (counts.map Prod.snd).sum
    let selected ← selectLeastLoadedCpus topology total busy [] true reserveSmtSiblings
    let assignments ← assignCpus counts selected profiledWorkerSpecs 0
    let assigned := assignments.flatMap (·.assignedCpus)
    let profiledMask ← cpuListToMask (sortedSet assigned)
    let reservedMask ← cpuListToMask (reservedCpus topology reserveSmtSiblings assigned)
    let backgroundMask := complementMask reservedMask onlineMask
    let backgroundCpus := maskToCpuList backgroundMask
    return {
      cpuAffinityMode := cpuAffinityMode
      onlineCpus := onlineCpus
      onlineCpuMask := onlineMask
      profiledAssignments := assignments
      profiledMask := profiledMask
      reservedMask := reservedMask
      backgroundCpus := backgroundCpus
      backgroundMask := backgroundMask
      smtSiblingPolicy := if reserveSmtSiblings then "reserve_siblings" else "no_reservation"
      warnings :=
        (if backgroundCpus.isEmpty && !backgroundSpecs.isEmpty then
          ["Background mask is empty after reserving profiled CPUs (profiled=" ++
            (sortedSet assigned).length.repr ++ ", online=" ++ onlineCpus.length.repr ++ ")"]
        else []) ++
        (if onlineCpus.length < total then
          ["Host has " ++ onlineCpus.length.repr ++ " online CPUs but " ++ total.repr ++
            " profiled CPUs are requested"]
        else [])
      backgroundAssignments := backgroundSpecs.map fun spec =>
        ⟨spec.containerName, spec.containerRole, backgroundCpus, backgroundMask⟩ }

end Plans

variable {cpu : Nat}

section Selection

variable {cpus : List Nat}

theorem mem_sortedSet : cpu ∈ sortedSet cpus ↔ cpu ∈ cpus := by
  simp [sortedSet, mem_insertionSort]

theorem nodup_sortedSet (cpus : List Nat) : (sortedSet cpus).Nodup :=
  (perm_insertionSort _ _).nodup_iff.mpr (nodup_dedup cpus)

theorem sortedLT_sortedSet (cpus : List Nat) : (sortedSet cpus).Pairwise (· < ·) :=
  ((pairwise_insertionSort (· ≤ ·) _).and (nodup_sortedSet cpus)).imp fun h =>
    lt_of_le_of_ne h.1 h.2

variable {topology : CpuTopology}

theorem mem_getOnlineCpuList :
    cpu ∈ getOnlineCpuList topology ↔
      ∃ info ∈ topology.cpus, info.cpuId = cpu ∧ info.online = true := by
  simp only [getOnlineCpuList, mem_insertionSort, mem_map, mem_filter]
  constructor
  · rintro ⟨info, ⟨hmem, honline⟩, rfl⟩
    exact ⟨info, hmem, rfl, honline⟩
  · rintro ⟨info, hmem, rfl, honline⟩
    exact ⟨info, ⟨hmem, honline⟩, rfl⟩

theorem CpuTopology.Consistent.nodup_online (h : topology.Consistent) :
    (getOnlineCpuList topology).Nodup :=
  (perm_insertionSort _ _).nodup_iff.mpr
    (h.nodup.sublist (filter_sublist.map CpuInfo.cpuId))

theorem CpuTopology.Consistent.sortedLT_online
    (h : topology.Consistent) : (getOnlineCpuList topology).Pairwise (· < ·) :=
  ((pairwise_insertionSort (· ≤ ·) _).and h.nodup_online).imp fun h => lt_of_le_of_ne h.1 h.2

/-- The physical core of a CPU, as far as it is known. -/
def coreOf (topology : CpuTopology) (cpu : Nat) : Option Int :=
  (topology.cpus.find? (·.cpuId == cpu)).bind (·.coreId)

/-- Two CPUs are known to be on one core. -/
def SameCore (topology : CpuTopology) (c d : Nat) : Prop :=
  (coreOf topology c).isSome = true ∧ coreOf topology c = coreOf topology d

instance (topology : CpuTopology) : DecidableRel (SameCore topology) := fun _ _ =>
  inferInstanceAs (Decidable (_ ∧ _))

/-- The online CPUs on the cores of the given ones, by number. -/
def wholeCores (topology : CpuTopology) (cpus : List Nat) : List Nat :=
  (getOnlineCpuList topology).filter fun d => decide (∃ c ∈ cpus, c = d ∨ SameCore topology c d)

theorem mem_siblingMap {cores : List (Int × List Nat)} {siblings : List Nat} :
    (cpu, siblings) ∈ siblingMap cores ↔ ∃ core ∈ cores, 1 < core.2.length ∧ cpu ∈ core.2 ∧
      core.2.filter (· != cpu) = siblings := by
  rw [siblingMap, mem_flatMap]
  refine exists_congr fun core => and_congr_right fun _ => ?_
  by_cases hlength : 1 < core.2.length
  · simp only [hlength, if_true, mem_map, Prod.mk.injEq, true_and]
    exact ⟨fun ⟨_, hmem, heq, hsiblings⟩ => heq ▸ ⟨hmem, hsiblings⟩,
      fun ⟨hmem, hsiblings⟩ => ⟨cpu, hmem, rfl, hsiblings⟩⟩
  · simp [hlength]

theorem mem_of_lookup {κ : Type} [BEq κ] [LawfulBEq κ] {entries : List (κ × List Nat)} {k : κ}
    (h : entries.lookup k = some cpus) : (k, cpus) ∈ entries := by
  obtain ⟨before, after, rfl, -⟩ := lookup_eq_some_iff.mp h
  simp

section Cores

variable {topology : CpuTopology} (h : topology.Consistent)
include h

theorem CpuTopology.Consistent.coreOf_eq {info : CpuInfo} (hinfo : info ∈ topology.cpus) :
    coreOf topology info.cpuId = info.coreId := by
  cases hfind : topology.cpus.find? (·.cpuId == info.cpuId) with
  | none => simpa using find?_eq_none.mp hfind info hinfo
  | some found =>
    have hid : found.cpuId = info.cpuId := by simpa using find?_some hfind
    have heq : found = info :=
      inj_on_of_nodup_map h.nodup (mem_of_find?_eq_some hfind) hinfo hid
    rw [coreOf, hfind, heq, Option.bind_some]

variable (hsmt : topology.smtEnabled = true)
include hsmt

theorem CpuTopology.Consistent.online_of_mem {core : Int × List Nat}
    (hcore : core ∈ topology.coreToCpus) (hcpu : cpu ∈ core.2) :
    cpu ∈ getOnlineCpuList topology ∧ coreOf topology cpu = some core.1 := by
  obtain ⟨info, hinfo, rfl, hk, hon⟩ := h.listed hsmt core.1 core.2 hcore cpu hcpu
  exact ⟨mem_getOnlineCpuList.mpr ⟨info, hinfo, rfl, hon⟩, (h.coreOf_eq hinfo).trans hk⟩

/-- Two online CPUs of one core are in its list. -/
theorem CpuTopology.Consistent.exists_core {c d : Nat} (hc : c ∈ getOnlineCpuList topology)
    (hd : d ∈ getOnlineCpuList topology) (hsame : SameCore topology c d) (hne : d ≠ c) :
    ∃ core ∈ topology.coreToCpus, c ∈ core.2 ∧ d ∈ core.2 ∧ 1 < core.2.length := by
  obtain ⟨k, hk⟩ := Option.isSome_iff_exists.mp hsame.1
  obtain ⟨info, hinfo, rfl, hon⟩ := mem_getOnlineCpuList.mp hc
  obtain ⟨info', hinfo', rfl, hon'⟩ := mem_getOnlineCpuList.mp hd
  have hcin := h.found hsmt info hinfo hon k (h.coreOf_eq hinfo ▸ hk)
  have hdin := h.found hsmt info' hinfo' hon' k (h.coreOf_eq hinfo' ▸ hsame.2 ▸ hk)
  cases hlookup : topology.coreToCpus.lookup k with
  | none => simp [hlookup] at hcin
  | some cpus =>
    rw [hlookup, Option.getD_some] at hcin hdin
    refine ⟨(k, cpus), mem_of_lookup hlookup, hcin, hdin, ?_⟩
    by_contra hshort
    obtain ⟨cpu, rfl⟩ : ∃ cpu, cpus = [cpu] := length_eq_one_iff.mp
      (le_antisymm (not_lt.mp hshort) (length_pos_of_mem hcin))
    exact hne ((mem_singleton.mp hdin).trans (mem_singleton.mp hcin).symm)

theorem CpuTopology.Consistent.mem_siblingsOf {c d : Nat} (hc : c ∈ getOnlineCpuList topology) :
    d ∈ siblingsOf (siblingMap topology.coreToCpus) c ↔
      d ∈ getOnlineCpuList topology ∧ d ≠ c ∧ SameCore topology c d := by
  constructor
  · intro hd
    cases hlookup : (siblingMap topology.coreToCpus).lookup c with
    | none => simp [siblingsOf, hlookup] at hd
    | some siblings =>
      obtain ⟨core, hcore, -, hin, rfl⟩ := mem_siblingMap.mp (mem_of_lookup hlookup)
      rw [siblingsOf, hlookup, Option.getD_some, mem_filter] at hd
      obtain ⟨honline, hk⟩ := h.online_of_mem hsmt hcore hd.1
      have hk' := (h.online_of_mem hsmt hcore hin).2
      exact ⟨honline, by simpa using hd.2, by simp [hk'], hk'.trans hk.symm⟩
  · rintro ⟨hd, hne, hsame⟩
    obtain ⟨core, hcore, hcin, hdin, hlength⟩ := h.exists_core hsmt hc hd hsame hne
    have hmem := mem_siblingMap.mpr ⟨core, hcore, hlength, hcin, rfl⟩
    cases hlookup : (siblingMap topology.coreToCpus).lookup c with
    | none => simpa using lookup_eq_none_iff.mp hlookup _ hmem
    | some siblings =>
      obtain ⟨core', hcore', -, hin, rfl⟩ := mem_siblingMap.mp (mem_of_lookup hlookup)
      have hk : core'.1 = core.1 := Option.some.inj
        ((h.online_of_mem hsmt hcore' hin).2.symm.trans (h.online_of_mem hsmt hcore hcin).2)
      have heq : core' = core := inj_on_of_nodup_map (h.keys hsmt) hcore' hcore hk
      rw [siblingsOf, hlookup, Option.getD_some, heq]
      exact mem_filter.mpr ⟨hdin, by simpa using hne⟩

/-- CPUs and their siblings are the CPUs of whole cores. -/
theorem CpuTopology.Consistent.sortedSet_siblings {chosen : List Nat}
    (hchosen : ∀ cpu ∈ chosen, cpu ∈ getOnlineCpuList topology) :
    sortedSet (chosen ++ chosen.flatMap (siblingsOf (siblingMap topology.coreToCpus))) =
      wholeCores topology chosen := by
  refine Pairwise.eq_of_mem_iff (sortedLT_sortedSet _) (h.sortedLT_online.filter _) fun d => ?_
  rw [mem_sortedSet, mem_append, mem_flatMap, wholeCores, mem_filter, decide_eq_true_iff]
  constructor
  · rintro (hd | ⟨c, hc, hd⟩)
    · exact ⟨hchosen d hd, d, hd, .inl rfl⟩
    · obtain ⟨honline, -, hsame⟩ := (h.mem_siblingsOf hsmt (hchosen c hc)).mp hd
      exact ⟨honline, c, hc, .inr hsame⟩
  · rintro ⟨honline, c, hc, hcd⟩
    by_cases hne : d = c
    · exact .inl (hne ▸ hc)
    · exact .inr ⟨c, hc, (h.mem_siblingsOf hsmt (hchosen c hc)).mpr
        ⟨honline, hne, hcd.resolve_left (Ne.symm hne)⟩⟩

end Cores

variable {β : Type} [LinearOrder β] {topology : CpuTopology} {busy : Nat → β} {requiredCount : Nat}
  {preferPhysicalCores reserveSmtSiblings : Bool} {selected : List Nat}

/-- The chosen CPUs are different candidates, as many as are required. -/
theorem leastLoaded_spec {candidates : List Nat}
    (hnodup : candidates.Nodup) (henough : requiredCount ≤ candidates.length) :
    (leastLoaded topology requiredCount busy preferPhysicalCores candidates).Nodup ∧
      (∀ cpu ∈ leastLoaded topology requiredCount busy preferPhysicalCores candidates,
        cpu ∈ candidates) ∧
      (leastLoaded topology requiredCount busy preferPhysicalCores candidates).length =
        requiredCount := by
  simp only [leastLoaded]
  set preferred := candidates.filter fun cpu => !isSecondary topology preferPhysicalCores cpu
  set secondary := candidates.filter fun cpu => isSecondary topology preferPhysicalCores cpu
  have hperm : (preferred ++ secondary).Perm candidates := by
    simpa [Bool.not_not] using filter_append_perm
      (fun cpu => !isSecondary topology preferPhysicalCores cpu) candidates
  set combined := if preferred.length < requiredCount then preferred ++ secondary
    else preferred with hcombined
  have hspec : combined.Nodup ∧ (∀ cpu ∈ combined, cpu ∈ candidates) ∧
      requiredCount ≤ combined.length := by
    rw [hcombined]
    split
    · exact ⟨hperm.nodup_iff.mpr hnodup, fun cpu hcpu => hperm.mem_iff.mp hcpu,
        hperm.length_eq ▸ henough⟩
    · exact ⟨hnodup.filter _, fun cpu hcpu => (mem_filter.mp hcpu).1, by omega⟩
  have hsorted := perm_insertionSort (lessLoaded busy) combined
  exact ⟨(hsorted.nodup_iff.mpr hspec.1).sublist (take_sublist _ _),
    fun cpu hcpu => hspec.2.1 cpu (hsorted.mem_iff.mp (mem_of_mem_take hcpu)),
    by rw [length_take, hsorted.length_eq, Nat.min_eq_left hspec.2.2]⟩

/-- The least loaded CPUs are selected by number, with reserved siblings their whole cores. -/
theorem selectLeastLoadedCpus_eq (hconsistent : topology.Consistent)
    (h : selectLeastLoadedCpus topology requiredCount busy [] preferPhysicalCores
      reserveSmtSiblings = .ok selected) :
    requiredCount ≤ (getOnlineCpuList topology).length ∧
      selected = if reserveSmtSiblings && topology.smtEnabled then
          wholeCores topology
            (leastLoaded topology requiredCount busy preferPhysicalCores (getOnlineCpuList topology))
        else (leastLoaded topology requiredCount busy preferPhysicalCores
          (getOnlineCpuList topology)).insertionSort (· ≤ ·) := by
  have hall : (getOnlineCpuList topology).filter (fun cpu => !([] : List Nat).contains cpu) =
      getOnlineCpuList topology := by simp
  simp only [selectLeastLoadedCpus, hall] at h
  split at h
  · rename_i hzero
    cases h
    simp [hzero, leastLoaded, wholeCores]
  · split at h
    · cases h
    rename_i henough
    refine ⟨not_lt.mp henough, ?_⟩
    split at h
    · rename_i hreserve
      cases h
      rw [if_pos hreserve, ← hconsistent.sortedSet_siblings (Bool.and_eq_true _ _ ▸ hreserve).2
        (leastLoaded_spec hconsistent.nodup_online (not_lt.mp henough)).2.1]
      simp
    · rename_i hreserve
      cases h
      rw [if_neg hreserve]

/-- The selected CPUs are different online CPUs, and there are enough of them. -/
theorem selectLeastLoadedCpus_spec (hconsistent : topology.Consistent)
    (h : selectLeastLoadedCpus topology requiredCount busy [] preferPhysicalCores
      reserveSmtSiblings = .ok selected) :
    selected.Nodup ∧ (∀ cpu ∈ selected, cpu ∈ getOnlineCpuList topology) ∧
      requiredCount ≤ selected.length := by
  obtain ⟨henough, rfl⟩ := selectLeastLoadedCpus_eq hconsistent h
  set chosen := leastLoaded topology requiredCount busy preferPhysicalCores
    (getOnlineCpuList topology)
  obtain ⟨hnodup, honline, hlength⟩ : chosen.Nodup ∧ _ ∧ chosen.length = requiredCount :=
    leastLoaded_spec hconsistent.nodup_online henough
  split
  · have hsubset : chosen ⊆ wholeCores topology chosen := fun cpu hcpu =>
      mem_filter.mpr ⟨honline cpu hcpu, decide_eq_true ⟨cpu, hcpu, .inl rfl⟩⟩
    exact ⟨hconsistent.nodup_online.filter _, fun cpu hcpu => (mem_filter.mp hcpu).1,
      hlength ▸ (subperm_of_subset hnodup hsubset).length_le⟩
  · have hfinal := perm_insertionSort (· ≤ ·) chosen
    exact ⟨hfinal.nodup_iff.mpr hnodup, fun cpu hcpu => honline cpu (hfinal.mem_iff.mp hcpu),
      by rw [hfinal.length_eq, hlength]⟩

end Selection

section Assignments

variable {assignments : List ProfiledAssignment} {counts : CpuCounts} {specs : List WorkerSpec}

theorem assignCpus_spec {selected : List Nat}
    {cpuIndex : Nat} (h : assignCpus counts selected specs cpuIndex = .ok assignments) :
    assignments.map (·.workerId) = specs.map (·.workerId) ∧
      Forall₂ (fun assignment slice => assignment.assignedCpus.Perm slice) assignments
        (slices (selected.drop cpuIndex) (specs.map counts.countFor)) := by
  induction specs generalizing cpuIndex assignments with
  | nil =>
    cases h
    exact ⟨rfl, .nil⟩
  | cons spec specs ih =>
    rw [assignCpus] at h
    cases hmask : cpuListToMask ((selected.drop cpuIndex).take (counts.countFor spec)) with
    | error text => simp [hmask, bind, Except.bind] at h
    | ok mask =>
      cases hrest : assignCpus counts selected specs (cpuIndex + counts.countFor spec) with
      | error text => simp [hmask, hrest, bind, Except.bind] at h
      | ok rest =>
        simp only [hmask, hrest, bind, Except.bind, pure, Except.pure] at h
        cases h
        obtain ⟨hids, hslices⟩ := ih hrest
        refine ⟨by simp [hids, assignment], ?_⟩
        rw [map_cons, slices, drop_drop]
        exact .cons (perm_insertionSort _ _) hslices

variable {α β : Type} {blocks : List (List Nat)}

/-- A relation between different elements of a list is one between the related ones. -/
theorem pairwise_iff_of_forall₂ {R : α → α → Prop} {S : β → β → Prop} {rel : α → β → Prop}
    {as : List α} {bs : List β} (h : Forall₂ rel as bs)
    (hRS : ∀ a b a' b', rel a b → rel a' b' → (R a a' ↔ S b b')) :
    as.Pairwise R ↔ bs.Pairwise S := by
  induction h with
  | nil => simp
  | @cons a b as bs hab hrest ih =>
    rw [pairwise_cons, pairwise_cons, ih]
    have hhead : (∀ a' ∈ as, R a a') ↔ ∀ b' ∈ bs, S b b' := by
      clear ih
      induction hrest with
      | nil => simp
      | cons hab' _ ih' =>
        rw [forall_mem_cons, forall_mem_cons, hRS _ _ _ _ hab hab', ih']
    rw [hhead]

theorem forall₂_map_length
    (h : Forall₂ (fun assignment slice => assignment.assignedCpus.Perm slice) assignments
      blocks) : assignments.map (·.assignedCpus.length) = blocks.map length := by
  induction h with
  | nil => rfl
  | cons hperm _ ih => rw [map_cons, map_cons, ih, hperm.length_eq]

theorem forall₂_exists_slice
    (h : Forall₂ (fun assignment slice => assignment.assignedCpus.Perm slice) assignments
      blocks) {assignment : ProfiledAssignment} (hmem : assignment ∈ assignments) :
    ∃ slice ∈ blocks, assignment.assignedCpus.Perm slice := by
  induction h with
  | nil => cases hmem
  | cons hperm _ ih =>
    rcases mem_cons.mp hmem with rfl | hmem
    · exact ⟨_, mem_cons_self, hperm⟩
    · obtain ⟨slice, hslice, hperm'⟩ := ih hmem
      exact ⟨slice, mem_cons_of_mem _ hslice, hperm'⟩

theorem lookup_eq_of_mem (h : (counts.map Prod.fst).Nodup)
    {entry : String × Nat} (hmem : entry ∈ counts) : counts.lookup entry.1 = some entry.2 := by
  obtain ⟨before, after, rfl⟩ := append_of_mem hmem
  refine lookup_eq_some_iff.mpr ⟨before, after, rfl, fun other hother => ?_⟩
  rw [map_append, nodup_append] at h
  have hne := h.2.2 other.1 (mem_map_of_mem hother) entry.1 (by simp)
  simpa using Ne.symm hne

/-- Counts that are given for exactly the workers add up to the sum over the workers. -/
theorem sum_countFor (hkeys : (counts.map Prod.fst).Perm (specs.map (·.workerId)))
    (hdistinct : (specs.map (·.workerId)).Nodup) :
    (specs.map counts.countFor).sum = (counts.map Prod.snd).sum := by
  have hnodup : (counts.map Prod.fst).Nodup := hkeys.nodup_iff.mpr hdistinct
  have hlookup : counts.map (fun entry => (counts.lookup entry.1).getD 1) =
      counts.map Prod.snd := by
    refine map_congr_left fun entry hmem => ?_
    rw [lookup_eq_of_mem hnodup hmem]
    rfl
  have hperm := hkeys.map fun id => (counts.lookup id).getD 1
  rw [map_map, map_map] at hperm
  calc (specs.map counts.countFor).sum
      = (counts.map ((fun id => (counts.lookup id).getD 1) ∘ Prod.fst)).sum := hperm.sum_nat.symm
    _ = (counts.map Prod.snd).sum := congrArg sum hlookup

end Assignments

section Isolation

variable {topology : CpuTopology} {assigned : List Nat}

/-- With reserved siblings the background loses every core of a profiled CPU. -/
theorem mem_reservedCpus_of_sameCore (hconsistent : topology.Consistent)
    (hsmt : topology.smtEnabled = true) {c d : Nat} (hc : c ∈ assigned)
    (hconline : c ∈ getOnlineCpuList topology) (hdonline : d ∈ getOnlineCpuList topology)
    (hsame : SameCore topology c d) : d ∈ reservedCpus topology true assigned := by
  rw [reservedCpus, hsmt, Bool.and_self, if_pos rfl, mem_sortedSet]
  by_cases hd : d ∈ assigned
  · exact mem_append_left _ hd
  refine mem_append_right _ ?_
  obtain ⟨core, hcore, hcin, hdin, hlength⟩ := hconsistent.exists_core hsmt hconline hdonline hsame
    fun heq => hd (heq ▸ hc)
  have hmeets : core.2.any ((sortedSet assigned).contains ·) = true :=
    any_eq_true.mpr ⟨c, hcin, by simpa [mem_sortedSet] using hc⟩
  rw [getSmtSiblings, if_pos hsmt, mem_sortedSet]
  refine mem_flatMap.mpr ⟨core, hcore, ?_⟩
  simp only [if_pos (And.intro hlength hmeets)]
  exact mem_filter.mpr ⟨hdin, by simpa [mem_sortedSet] using hd⟩

theorem mem_reservedCpus_of_mem {reserveSmtSiblings : Bool}
    (h : cpu ∈ assigned) : cpu ∈ reservedCpus topology reserveSmtSiblings assigned := by
  unfold reservedCpus
  split
  · exact mem_sortedSet.mpr (mem_append_left _ h)
  · exact mem_sortedSet.mpr h

/-- The profiled workers and the background are kept apart: the workers have different online
CPUs, as many as they requested, the background has none of them, and with reserved siblings
nobody shares a physical core with a profiled worker. -/
structure Isolated (topology : CpuTopology) (specs : List WorkerSpec) (counts : CpuCounts)
    (reserveSmtSiblings : Bool) (plan : AffinityPlan) : Prop where
  disjoint : plan.profiledAssignments.Pairwise fun a b =>
    List.Disjoint a.assignedCpus b.assignedCpus
  online : ∀ a ∈ plan.profiledAssignments, ∀ cpu ∈ a.assignedCpus,
    cpu ∈ getOnlineCpuList topology
  workers : plan.profiledAssignments.map (·.workerId) = specs.map (·.workerId)
  sizes : plan.profiledAssignments.map (·.assignedCpus.length) = specs.map counts.countFor
  nodup : ∀ a ∈ plan.profiledAssignments, a.assignedCpus.Nodup
  background : ∀ b ∈ plan.backgroundAssignments, ∀ a ∈ plan.profiledAssignments,
    List.Disjoint b.assignedCpus a.assignedCpus
  workerCores : reserveSmtSiblings = true → topology.smtEnabled = true →
    plan.profiledAssignments.Pairwise fun a b =>
      ∀ c ∈ a.assignedCpus, ∀ d ∈ b.assignedCpus, ¬SameCore topology c d
  backgroundCores : reserveSmtSiblings = true → topology.smtEnabled = true →
    ∀ b ∈ plan.backgroundAssignments, ∀ a ∈ plan.profiledAssignments,
      ∀ c ∈ a.assignedCpus, ∀ d ∈ b.assignedCpus, ¬SameCore topology c d

/-- No cut between the slices of two workers goes through a physical core. -/
def CutsNoCore (topology : CpuTopology) (selected : List Nat) (sizes : List Nat) : Prop :=
  ∀ before after, sizes = before ++ after → ∀ c ∈ selected.take before.sum,
    ∀ d ∈ (selected.drop before.sum).take after.sum, ¬SameCore topology c d

variable {β : Type} [LinearOrder β] {busy : Nat → β} {specs : List WorkerSpec}
  {backgroundSpecs : List BackgroundSpec} {mode : String} {reserveSmtSiblings : Bool}
  {counts : CpuCounts} {plan : AffinityPlan}

/-- What a plan that was returned consists of. -/
theorem createAffinityPlan_ok (hmode : mode ≠ "none")
    (h : createAffinityPlan topology busy specs backgroundSpecs mode reserveSmtSiblings
      (some counts) = .ok plan) :
    ∃ selected onlineMask reservedMask,
      cpuListToMask (getOnlineCpuList topology) = .ok onlineMask ∧
      selectLeastLoadedCpus topology (counts.map Prod.snd).sum busy [] true reserveSmtSiblings =
        .ok selected ∧
      assignCpus counts selected specs 0 = .ok plan.profiledAssignments ∧
      cpuListToMask (reservedCpus topology reserveSmtSiblings
        (plan.profiledAssignments.flatMap (·.assignedCpus))) = .ok reservedMask ∧
      ∀ b ∈ plan.backgroundAssignments,
        b.assignedCpus = maskToCpuList (complementMask reservedMask onlineMask) := by
  rw [createAffinityPlan, if_neg hmode] at h
  simp only [Option.getD_some] at h
  cases honline : cpuListToMask (getOnlineCpuList topology) with
  | error text => simp [honline, bind, Except.bind] at h
  | ok onlineMask =>
    cases hselected : selectLeastLoadedCpus topology (counts.map Prod.snd).sum busy [] true
        reserveSmtSiblings with
    | error text => simp [honline, hselected, bind, Except.bind] at h
    | ok selected =>
      cases hassign : assignCpus counts selected specs 0 with
      | error text => simp [honline, hselected, hassign, bind, Except.bind] at h
      | ok assignments =>
        cases hprofiled : cpuListToMask (sortedSet (assignments.flatMap (·.assignedCpus))) with
        | error text => simp [honline, hselected, hassign, hprofiled, bind, Except.bind] at h
        | ok profiledMask =>
          cases hreserved : cpuListToMask (reservedCpus topology reserveSmtSiblings
              (assignments.flatMap (·.assignedCpus))) with
          | error text =>
            simp [honline, hselected, hassign, hprofiled, hreserved, bind, Except.bind] at h
          | ok reservedMask =>
            simp only [honline, hselected, hassign, hprofiled, hreserved, bind, Except.bind, pure,
              Except.pure, Except.ok.injEq] at h
            subst h
            refine ⟨selected, onlineMask, reservedMask, rfl, rfl, hassign, hreserved, ?_⟩
            intro b hb
            obtain ⟨spec, -, rfl⟩ := mem_map.mp hb
            rfl

/-- A plan that was returned isolates the profiled workers exactly if siblings are not to be
reserved, or no cut between two workers goes through a physical core. What is cut is the list, by
number, of all online CPUs on the cores of the least loaded CPUs. -/
theorem createAffinityPlan_isolates_iff {entries : List LscpuEntry} {sysOnline : List Nat}
    (hreport : OneLinePerCpu entries) (hmode : mode ≠ "none")
    (hdistinct : (specs.map (·.workerId)).Nodup)
    (hcounts : (counts.map Prod.fst).Perm (specs.map (·.workerId)))
    (h : createAffinityPlan (detectCpuTopology entries sysOnline) busy specs backgroundSpecs mode
      reserveSmtSiblings (some counts) = .ok plan) :
    Isolated (detectCpuTopology entries sysOnline) specs counts reserveSmtSiblings plan ↔
      (reserveSmtSiblings = true → (detectCpuTopology entries sysOnline).smtEnabled = true →
        CutsNoCore (detectCpuTopology entries sysOnline)
          (wholeCores (detectCpuTopology entries sysOnline)
            (leastLoaded (detectCpuTopology entries sysOnline) (counts.map Prod.snd).sum busy true
              (getOnlineCpuList (detectCpuTopology entries sysOnline))))
          (specs.map counts.countFor)) := by
  set topology := detectCpuTopology entries sysOnline
  have hconsistent : topology.Consistent := detectCpuTopology_consistent hreport
  obtain ⟨selected, onlineMask, reservedMask, honlineMask, hselected, hassign, hreservedMask,
    hbackground⟩ := createAffinityPlan_ok hmode h
  obtain ⟨hnodup, honline, hlength⟩ := selectLeastLoadedCpus_spec hconsistent hselected
  obtain ⟨hworkers, hslices⟩ := assignCpus_spec hassign
  rw [drop_zero] at hslices
  have hcores : (plan.profiledAssignments.Pairwise fun a b =>
      ∀ c ∈ a.assignedCpus, ∀ d ∈ b.assignedCpus, ¬SameCore topology c d) ↔
        CutsNoCore topology selected (specs.map counts.countFor) := by
    refine (pairwise_iff_of_forall₂ hslices fun a slice b slice' ha hb => ?_).trans
      (pairwise_slices_iff selected _)
    constructor
    · exact fun hab c hc d hd => hab c (ha.mem_iff.mpr hc) d (hb.mem_iff.mpr hd)
    · exact fun hab c hc d hd => hab c (ha.mem_iff.mp hc) d (hb.mem_iff.mp hd)
  have hassigned {a : ProfiledAssignment} (ha : a ∈ plan.profiledAssignments) {cpu : Nat}
      (hcpu : cpu ∈ a.assignedCpus) : cpu ∈ getOnlineCpuList topology := by
    obtain ⟨slice, hslice, hperm⟩ := forall₂_exists_slice hslices ha
    exact honline cpu (mem_of_mem_take
      (mem_take_of_mem_slices hslice (hperm.mem_iff.mp hcpu)))
  have hfree {b : BackgroundAssignment} (hb : b ∈ plan.backgroundAssignments) {cpu : Nat}
      (hcpu : cpu ∈ b.assignedCpus) : cpu ∈ getOnlineCpuList topology ∧
        cpu ∉ reservedCpus topology reserveSmtSiblings
          (plan.profiledAssignments.flatMap (·.assignedCpus)) := by
    rw [hbackground b hb, mem_maskToCpuList, testBit_complementMask,
      testBit_cpuListToMask honlineMask, testBit_cpuListToMask hreservedMask] at hcpu
    simpa using hcpu
  have hchosen (hreserve : reserveSmtSiblings = true) (hsmt : topology.smtEnabled = true) :=
    (selectLeastLoadedCpus_eq hconsistent hselected).2.trans (if_pos (by simp [hreserve, hsmt]))
  constructor
  · intro hisolated hreserve hsmt
    exact hchosen hreserve hsmt ▸ hcores.mp (hisolated.workerCores hreserve hsmt)
  · intro hcuts
    refine ⟨?_, fun a ha cpu hcpu => hassigned ha hcpu, hworkers, ?_, fun a ha => ?_,
      fun b hb a ha cpu hcpu hcpu' => ?_, fun hreserve hsmt => ?_,
      fun hreserve hsmt b hb a ha c hc d hd hsame => ?_⟩
    · refine (pairwise_iff_of_forall₂ hslices fun a slice b slice' ha hb => ?_).mpr
        (pairwise_disjoint_slices hnodup _)
      exact ha.disjoint_left.trans hb.disjoint_right
    · rw [forall₂_map_length hslices,
        map_length_slices (by rw [sum_countFor hcounts hdistinct]; exact hlength)]
    · obtain ⟨slice, hslice, hperm⟩ := forall₂_exists_slice hslices ha
      exact hperm.nodup_iff.mpr (nodup_of_mem_slices hnodup hslice)
    · exact (hfree hb hcpu).2 (mem_reservedCpus_of_mem (mem_flatMap.mpr ⟨a, ha, hcpu'⟩))
    · exact hcores.mpr (hchosen hreserve hsmt ▸ hcuts hreserve hsmt)
    · subst hreserve
      exact (hfree hb hd).2 (mem_reservedCpus_of_sameCore hconsistent hsmt
        (mem_flatMap.mpr ⟨a, ha, hc⟩) (hassigned ha hc) (hfree hb hd).1 hsame)

/-- A host with two cores of two CPUs each, whose siblings have adjacent numbers. -/
abbrev adjacentSiblings : List LscpuEntry :=
  [⟨some 0, some 0, some 0, some 0, true⟩, ⟨some 1, some 0, some 0, some 0, true⟩,
    ⟨some 2, some 1, some 0, some 0, true⟩, ⟨some 3, some 1, some 0, some 0, true⟩]

abbrev worker (id : String) : WorkerSpec := ⟨id, id, id, none, none, none⟩

/-- A host whose siblings are two apart. -/
abbrev alternatingSiblings : List LscpuEntry :=
  [⟨some 0, some 0, some 0, some 0, true⟩, ⟨some 1, some 1, some 0, some 0, true⟩,
    ⟨some 2, some 0, some 0, some 0, true⟩, ⟨some 3, some 1, some 0, some 0, true⟩]

/-- With siblings two apart, two workers with one CPU each get a core of their own. -/
theorem createAffinityPlan_isolates_two :
    ∃ plan, createAffinityPlan (detectCpuTopology alternatingSiblings []) (fun _ => (0 : Nat))
        [worker "a", worker "b"] [] "strict" true (some [("a", 1), ("b", 1)]) = .ok plan ∧
      Isolated (detectCpuTopology alternatingSiblings []) [worker "a", worker "b"]
        [("a", 1), ("b", 1)] true plan := by
  have hok : (createAffinityPlan (detectCpuTopology alternatingSiblings []) (fun _ => (0 : Nat))
      [worker "a", worker "b"] [] "strict" true (some [("a", 1), ("b", 1)])).isOk = true := by
    decide
  cases hplan : createAffinityPlan (detectCpuTopology alternatingSiblings []) (fun _ => (0 : Nat))
      [worker "a", worker "b"] [] "strict" true (some [("a", 1), ("b", 1)]) with
  | error text =>
    rw [hplan] at hok
    cases hok
  | ok plan =>
    refine ⟨plan, rfl, (createAffinityPlan_isolates_iff (by decide) (by decide) (by decide)
      (.refl _) hplan).mpr fun _ _ => (pairwise_slices_iff _ _).mp ?_⟩
    decide

/-- With adjacent siblings two workers with one CPU each get the two CPUs of one core. -/
theorem createAffinityPlan_shares_core :
    ∃ plan, createAffinityPlan (detectCpuTopology adjacentSiblings []) (fun _ => (0 : Nat))
        [worker "a", worker "b"] [] "strict" true (some [("a", 1), ("b", 1)]) = .ok plan ∧
      plan.profiledAssignments.map (·.assignedCpus) = [[0], [1]] ∧
      SameCore (detectCpuTopology adjacentSiblings []) 0 1 ∧
      ¬Isolated (detectCpuTopology adjacentSiblings []) [worker "a", worker "b"]
        [("a", 1), ("b", 1)] true plan := by
  refine ⟨_, rfl, by decide, by decide, fun hisolated => ?_⟩
  have hcores := hisolated.workerCores rfl (by decide)
  exact absurd hcores (by decide)

end Isolation

end MessagingBench.Affinity
