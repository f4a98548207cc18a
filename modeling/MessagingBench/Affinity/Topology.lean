import Mathlib.Data.List.Dedup
import Mathlib.Data.List.Induction
import Mathlib.Data.List.Sort
import Mathlib.Data.Nat.Bitwise
import Mathlib.Data.Nat.Size
import Mathlib.Order.Lattice

/-!
# CPU topology, selection and masks

`cpu_topology.py` and `cpu_mask_util.py`: the CPUs of a host and which of them share a
physical core, the choice of the least loaded ones, and CPU sets as bit masks. Dictionaries
are lists in insertion order. Loads are only compared, so that any linear order will do.
-/

namespace MessagingBench.Affinity

open List

section Detection

/-- A line of the `lscpu` report; a CPU without a valid number is skipped. -/
structure LscpuEntry where
  cpu : Option Nat
  core : Option Int
  socket : Option Int
  node : Option Int
  online : Bool
  deriving DecidableEq, Repr

structure CpuInfo where
  cpuId : Nat
  coreId : Option Int
  socketId : Option Int
  numaNode : Option Int
  online : Bool
  isSmtSibling : Bool
  deriving DecidableEq, Repr

structure CpuTopology where
  cpus : List CpuInfo
  onlineCpuCount : Nat
  totalCpuCount : Nat
  smtEnabled : Bool
  coreToCpus : List (Int × List Nat)
  deriving DecidableEq, Repr

def reportedCpus (entries : List LscpuEntry) : List (Nat × LscpuEntry) :=
  entries.filterMap fun entry => entry.cpu.map fun cpu => (cpu, entry)

/-- Enter a CPU into the dictionary of the report. -/
def enterEntry (cpu : Nat) (entry : LscpuEntry) :
    List (Nat × LscpuEntry) → List (Nat × LscpuEntry)
  | [] => [(cpu, entry)]
  | (key, other) :: dictionary =>
    if key = cpu then (key, entry) :: dictionary
    else (key, other) :: enterEntry cpu entry dictionary

def lscpuTopology (reported : List (Nat × LscpuEntry)) : List (Nat × LscpuEntry) :=
  reported.foldl (fun dictionary (cpu, entry) => enterEntry cpu entry dictionary) []

def addToCore (core : Int) (cpu : Nat) : List (Int × List Nat) → List (Int × List Nat)
  | [] => [(core, [cpu])]
  | (key, cpus) :: cores =>
    if key = core then (key, cpus ++ [cpu]) :: cores else (key, cpus) :: addToCore core cpu cores

/-- The online CPUs of each core. -/
def smtCores (reported : List (Nat × LscpuEntry)) : List (Int × List Nat) :=
  reported.foldl (fun cores (cpu, entry) =>
    match entry.core with
    | some core => if entry.online then addToCore core cpu cores else cores
    | none => cores) []

/-- The CPUs that share a core with others. -/
def siblingMap (cores : List (Int × List Nat)) : List (Nat × List Nat) :=
  cores.flatMap fun (_, cpus) =>
    if 1 < cpus.length then cpus.map fun cpu => (cpu, cpus.filter (· != cpu)) else []

def siblingsOf (siblings : List (Nat × List Nat)) (cpu : Nat) : List Nat :=
  (siblings.lookup cpu).getD []

/-- `detect_cpu_topology` on a report, with the CPUs that the system directory lists as online
for the case that there is no report. -/
def detectCpuTopology (entries : List LscpuEntry) (sysOnline : List Nat) : CpuTopology :=
  let reported := reportedCpus entries
  let cores := smtCores reported
  let smtEnabled := cores.any fun (_, cpus) => decide (1 < cpus.length)
  let siblings := if smtEnabled then siblingMap cores else []
  let listed := ((lscpuTopology reported).insertionSort fun a b => a.1 ≤ b.1).map
    fun (cpu, entry) => CpuInfo.mk cpu entry.core entry.socket entry.node entry.online
      (siblings.any fun sibling => sibling.1 == cpu)
  let cpus := if listed.isEmpty then
      sysOnline.dedup.map fun cpu => CpuInfo.mk cpu none none none true false
    else listed
  { cpus := cpus
    onlineCpuCount := (cpus.filter (·.online)).length
    totalCpuCount := cpus.length
    smtEnabled := smtEnabled
    coreToCpus :=
      if smtEnabled then cores
      else cores ++ (cpus.filter fun info => !cores.any fun core => core.1 == info.cpuId).map
        fun info => ((info.cpuId : Int), [info.cpuId]) }

end Detection

section Selection

variable (topology : CpuTopology)

def getOnlineCpuList : List Nat :=
  ((topology.cpus.filter (·.online)).map (·.cpuId)).insertionSort (· ≤ ·)

/-- `sorted` of a set. -/
def sortedSet (cpus : List Nat) : List Nat := cpus.dedup.insertionSort (· ≤ ·)

variable {β : Type} [LinearOrder β]

/-- The order of CPUs by load and then by number. -/
def lessLoaded (busy : Nat → β) (a b : Nat) : Prop := busy a < busy b ∨ busy a = busy b ∧ a ≤ b

instance (busy : Nat → β) : DecidableRel (lessLoaded busy) := fun _ _ =>
  inferInstanceAs (Decidable (_ ∨ _ ∧ _))

def isSecondary (preferPhysicalCores : Bool) (cpu : Nat) : Bool :=
  preferPhysicalCores && (topology.cpus.find? (·.cpuId == cpu)).any (·.isSmtSibling)

/-- The least loaded candidates; siblings count only if there are too few others. -/
def leastLoaded (requiredCount : Nat) (busy : Nat → β)
    (preferPhysicalCores : Bool) (candidates : List Nat) : List Nat :=
  let preferred := candidates.filter fun cpu => !isSecondary topology preferPhysicalCores cpu
  let secondary := candidates.filter fun cpu => isSecondary topology preferPhysicalCores cpu
  let combined := if preferred.length < requiredCount then preferred ++ secondary else preferred
  (combined.insertionSort (lessLoaded busy)).take requiredCount

def selectLeastLoadedCpus (requiredCount : Nat) (busy : Nat → β)
    (excludeCpus : List Nat) (preferPhysicalCores reserveSmtSiblings : Bool) :
    Except String (List Nat) :=
  if requiredCount = 0 then .ok []
  else
    let candidates := (getOnlineCpuList topology).filter fun cpu => !excludeCpus.contains cpu
    if candidates.length < requiredCount then
      .error ("Insufficient online CPUs: need " ++ requiredCount.repr ++ ", have " ++
        candidates.length.repr ++ " after exclusions")
    else
      let selected := leastLoaded topology requiredCount busy preferPhysicalCores candidates
      if reserveSmtSiblings && topology.smtEnabled then
        let siblings := siblingMap topology.coreToCpus
        .ok (sortedSet (selected ++ selected.flatMap fun cpu =>
          (siblingsOf siblings cpu).filter fun sibling => !excludeCpus.contains sibling))
      else .ok (selected.insertionSort (· ≤ ·))

def getSmtSiblings (cpuList : List Nat) : List Nat :=
  if topology.smtEnabled then
    sortedSet (topology.coreToCpus.flatMap fun (_, coreCpus) =>
      if 1 < coreCpus.length ∧ coreCpus.any (cpuList.contains ·) = true then
        coreCpus.filter fun cpu => !cpuList.contains cpu
      else [])
  else []

end Selection

section Masks

def enterCpus : List Nat → List Nat → Nat → Except String Nat
  | [], _, mask => .ok mask
  | cpu :: cpus, seen, mask =>
    if 1023 < cpu then .error ("CPU ID too large for mask: " ++ cpu.repr)
    else if seen.contains cpu then .error ("Duplicate CPU ID: " ++ cpu.repr)
    else enterCpus cpus (cpu :: seen) (mask ||| 2 ^ cpu)

def cpuListToMask (cpus : List Nat) : Except String Nat := enterCpus cpus [] 0

/-- The loop of `mask_to_cpu_list`, for as many rounds as the mask has bits. -/
def maskBits : Nat → Nat → Nat → List Nat
  | 0, _, _ => []
  | rounds + 1, mask, bit =>
    (if mask.testBit 0 then [bit] else []) ++ maskBits rounds (mask / 2) (bit + 1)

def maskToCpuList (mask : Nat) : List Nat := maskBits mask.size mask 0

def complementMask (mask onlineMask : Nat) : Nat := onlineMask ^^^ (onlineMask &&& mask)

end Masks

variable {reported : List (Nat × LscpuEntry)} {cpus : List Nat}

section MaskLemmas

variable {mask : Nat}

theorem testBit_enterCpus {cpus seen : List Nat} {result : Nat}
    (h : enterCpus cpus seen mask = .ok result) (i : Nat) :
    result.testBit i = (mask.testBit i || decide (i ∈ cpus)) := by
  induction cpus generalizing seen mask with
  | nil =>
    cases h
    simp
  | cons cpu cpus ih =>
    rw [enterCpus] at h
    split_ifs at h
    rw [ih h, Nat.testBit_or, Nat.testBit_two_pow]
    by_cases hi : cpu = i
    · simp [hi]
    · simp [hi, Ne.symm hi]

theorem testBit_cpuListToMask (h : cpuListToMask cpus = .ok mask) (i : Nat) :
    mask.testBit i = decide (i ∈ cpus) := by
  rw [testBit_enterCpus h i, Nat.zero_testBit, Bool.false_or]

theorem enterCpus_ok_iff {cpus seen : List Nat} :
    (∃ result, enterCpus cpus seen mask = .ok result) ↔
      cpus.Nodup ∧ ∀ cpu ∈ cpus, cpu ∉ seen ∧ cpu ≤ 1023 := by
  induction cpus generalizing seen mask with
  | nil => simp [enterCpus]
  | cons cpu cpus ih =>
    rw [enterCpus]
    split_ifs with hlarge hseen
    · simp [hlarge]
    · simp_all
    · rw [ih]
      simp only [contains_iff_mem] at hseen
      grind

/-- The mask of a list is computed unless a CPU is listed twice or has too large a number. -/
theorem cpuListToMask_ok_iff : (∃ mask, cpuListToMask cpus = .ok mask) ↔
    cpus.Nodup ∧ ∀ cpu ∈ cpus, cpu ≤ 1023 := by
  simp [cpuListToMask, enterCpus_ok_iff]

theorem mem_maskBits {rounds bit i : Nat} (hmask : mask < 2 ^ rounds) :
    i ∈ maskBits rounds mask bit ↔ ∃ j, mask.testBit j = true ∧ i = bit + j := by
  induction rounds generalizing mask bit with
  | zero =>
    have hzero : mask = 0 := by omega
    simp [maskBits, hzero]
  | succ rounds ih =>
    have hhalf : mask / 2 < 2 ^ rounds := by
      rw [pow_succ] at hmask
      omega
    rw [maskBits, mem_append, ih hhalf]
    constructor
    · rintro (hmem | ⟨j, hj, rfl⟩)
      · split at hmem
        · rename_i hbit
          exact ⟨0, hbit, mem_singleton.mp hmem⟩
        · cases hmem
      · exact ⟨j + 1, by rwa [Nat.testBit_add_one], by omega⟩
    · rintro ⟨j, hj, rfl⟩
      cases j with
      | zero => exact .inl (by simp [hj])
      | succ j => exact .inr ⟨j, by rwa [Nat.testBit_add_one] at hj, by omega⟩

theorem mem_maskToCpuList {i : Nat} : i ∈ maskToCpuList mask ↔ mask.testBit i = true := by
  rw [maskToCpuList, mem_maskBits (Nat.lt_size_self mask)]
  constructor
  · rintro ⟨j, hj, rfl⟩
    rwa [Nat.zero_add]
  · exact fun h => ⟨i, h, (Nat.zero_add i).symm⟩

theorem testBit_complementMask (mask onlineMask i : Nat) :
    (complementMask mask onlineMask).testBit i = (onlineMask.testBit i && !mask.testBit i) := by
  rw [complementMask, Nat.testBit_xor, Nat.testBit_and]
  cases onlineMask.testBit i <;> cases mask.testBit i <;> rfl

end MaskLemmas

section Cores

theorem lookup_addToCore (core k : Int) (cpu : Nat) (cores : List (Int × List Nat)) :
    ((addToCore core cpu cores).lookup k).getD [] =
      (cores.lookup k).getD [] ++ if k = core then [cpu] else [] := by
  induction cores with
  | nil =>
    by_cases hk : k = core
    · simp [addToCore, hk]
    · have hkey : (k == core) = false := beq_eq_false_iff_ne.mpr hk
      simp [addToCore, lookup_cons, hk, hkey]
  | cons head cores ih =>
    obtain ⟨key, cpus⟩ := head
    unfold addToCore
    by_cases hkey : key = core
    · by_cases hk : k = key
      · subst hk
        simp [hkey]
      · have hcore : k ≠ core := hkey ▸ hk
        have hother : (k == core) = false := beq_eq_false_iff_ne.mpr hcore
        simp [hkey, lookup_cons, hcore, hother]
    · by_cases hk : k = key
      · subst hk
        simp [hkey]
      · simp only [if_neg hkey, lookup_cons, beq_eq_false_iff_ne.mpr hk]
        exact ih

variable {cores : List (Int × List Nat)} {cpu c : Nat} {k core : Int}

theorem mem_addToCore (h : (k, cpus) ∈ addToCore core cpu cores) (hc : c ∈ cpus) :
    (∃ cpus', (k, cpus') ∈ cores ∧ c ∈ cpus') ∨ k = core ∧ c = cpu := by
  induction cores with
  | nil =>
    simp only [addToCore, mem_singleton, Prod.mk.injEq] at h
    obtain ⟨rfl, rfl⟩ := h
    exact .inr ⟨rfl, mem_singleton.mp hc⟩
  | cons head cores ih =>
    obtain ⟨key, list⟩ := head
    unfold addToCore at h
    split at h
    · rename_i hkey
      rcases mem_cons.mp h with heq | hmem
      · obtain ⟨rfl, rfl⟩ := Prod.mk.inj heq
        rcases mem_append.mp hc with hc | hc
        · exact .inl ⟨list, mem_cons_self, hc⟩
        · exact .inr ⟨hkey, mem_singleton.mp hc⟩
      · exact .inl ⟨cpus, mem_cons_of_mem _ hmem, hc⟩
    · rcases mem_cons.mp h with heq | hmem
      · exact .inl ⟨cpus, heq ▸ mem_cons_self, hc⟩
      · exact (ih hmem).imp (fun ⟨cpus', hmem', hc'⟩ =>
          ⟨cpus', mem_cons_of_mem _ hmem', hc'⟩) id

theorem mem_keys_addToCore :
    k ∈ (addToCore core cpu cores).map Prod.fst → k = core ∨ k ∈ cores.map Prod.fst := by
  fun_induction addToCore core cpu cores <;> grind

theorem nodup_addToCore
    (h : (cores.map Prod.fst).Nodup) : ((addToCore core cpu cores).map Prod.fst).Nodup := by
  fun_induction addToCore core cpu cores <;> grind [mem_keys_addToCore]

theorem nodup_smtCores (reported : List (Nat × LscpuEntry)) :
    ((smtCores reported).map Prod.fst).Nodup := by
  refine foldlRecOn (motive := fun cores : List (Int × List Nat) => (cores.map Prod.fst).Nodup)
    reported _ nodup_nil fun cores h line _ => ?_
  dsimp only
  split
  · split
    · exact nodup_addToCore h
    · exact h
  · exact h

theorem mem_smtCores (h : (k, cpus) ∈ smtCores reported) (hc : c ∈ cpus) :
    ∃ entry, (c, entry) ∈ reported ∧ entry.core = some k ∧ entry.online = true := by
  induction reported using reverseRecOn generalizing cpus with
  | nil => simp [smtCores] at h
  | append_singleton reported last ih =>
    obtain ⟨cpu, entry⟩ := last
    have hearlier {cpus : List Nat} (h : (k, cpus) ∈ smtCores reported) (hc : c ∈ cpus) :
        ∃ entry', (c, entry') ∈ reported ++ [(cpu, entry)] ∧ entry'.core = some k ∧
          entry'.online = true := by
      obtain ⟨entry', hmem, hrest⟩ := ih h hc
      exact ⟨entry', mem_append_left _ hmem, hrest⟩
    rw [smtCores, foldl_append, foldl_cons, foldl_nil] at h
    simp only at h
    split at h
    · rename_i core hcore
      split at h
      · rename_i honline
        rcases mem_addToCore h hc with ⟨cpus', hmem, hc'⟩ | ⟨rfl, rfl⟩
        · exact hearlier hmem hc'
        · exact ⟨entry, mem_append_right _ (mem_singleton_self _), hcore, honline⟩
      · exact hearlier h hc
    · exact hearlier h hc

/-- Whoever was reported online on a core is found under that core. -/
theorem mem_lookup_smtCores {entry : LscpuEntry} (hmem : (c, entry) ∈ reported)
    (hcore : entry.core = some k) (honline : entry.online = true) :
    c ∈ ((smtCores reported).lookup k).getD [] := by
  induction reported using reverseRecOn with
  | nil => cases hmem
  | append_singleton reported last ih =>
    obtain ⟨cpu, entry'⟩ := last
    rw [smtCores, foldl_append, foldl_cons, foldl_nil]
    simp only
    rcases mem_append.mp hmem with hmem | hmem
    · have hearlier := ih hmem
      split
      · split
        · rw [lookup_addToCore]
          exact mem_append_left _ hearlier
        · exact hearlier
      · exact hearlier
    · obtain ⟨rfl, rfl⟩ := Prod.mk.inj (mem_singleton.mp hmem)
      rw [hcore]
      simp only [honline, if_true, lookup_addToCore]
      exact mem_append_right _ (mem_singleton_self _)

end Cores

section Detected

def OneLinePerCpu (entries : List LscpuEntry) : Prop :=
  ((reportedCpus entries).map Prod.fst).Nodup

instance (entries : List LscpuEntry) : Decidable (OneLinePerCpu entries) :=
  inferInstanceAs (Decidable (Nodup _))

variable {dictionary : List (Nat × LscpuEntry)} {cpu : Nat}

theorem enterEntry_eq_append {entry : LscpuEntry} (h : cpu ∉ dictionary.map Prod.fst) :
    enterEntry cpu entry dictionary = dictionary ++ [(cpu, entry)] := by
  induction dictionary with
  | nil => rfl
  | cons head dictionary ih =>
    rw [map_cons, mem_cons, not_or] at h
    rw [enterEntry, if_neg (Ne.symm h.1), ih h.2, cons_append]

theorem lscpuTopology_eq (h : (reported.map Prod.fst).Nodup) :
    lscpuTopology reported = reported := by
  induction reported using reverseRecOn with
  | nil => rfl
  | append_singleton reported last ih =>
    rw [map_append, map_singleton, nodup_append] at h
    have hfresh : last.1 ∉ reported.map Prod.fst :=
      fun hmem => h.2.2 _ hmem _ (mem_singleton_self _) rfl
    have hearlier : reported.foldl (fun dictionary (cpu, entry) =>
        enterEntry cpu entry dictionary) [] = reported := ih h.1
    rw [lscpuTopology, foldl_append, hearlier]
    exact enterEntry_eq_append hfresh

theorem mem_enterEntry {entry : LscpuEntry} {line : Nat × LscpuEntry}
    (h : line ∈ enterEntry cpu entry dictionary) : line = (cpu, entry) ∨ line ∈ dictionary := by
  fun_induction enterEntry cpu entry dictionary <;> grind

theorem nodup_enterEntry {entry : LscpuEntry} (h : (dictionary.map Prod.fst).Nodup) :
    ((enterEntry cpu entry dictionary).map Prod.fst).Nodup := by
  fun_induction enterEntry cpu entry dictionary <;> grind [→ mem_enterEntry]

theorem lscpuTopology_spec (reported : List (Nat × LscpuEntry)) :
    ((lscpuTopology reported).map Prod.fst).Nodup ∧ lscpuTopology reported ⊆ reported := by
  induction reported using reverseRecOn with
  | nil => exact ⟨nodup_nil, Subset.refl _⟩
  | append_singleton reported last ih =>
    rw [lscpuTopology, foldl_append, foldl_cons, foldl_nil]
    refine ⟨nodup_enterEntry ih.1, fun line hline => ?_⟩
    rcases mem_enterEntry hline with rfl | hline
    · exact mem_append_right _ (mem_singleton_self _)
    · exact mem_append_left _ (ih.2 hline)

variable (entries : List LscpuEntry) (sysOnline : List Nat)

def reportedSiblings : List (Nat × List Nat) :=
  let cores := smtCores (reportedCpus entries)
  if cores.any fun core => decide (1 < core.2.length) then siblingMap cores else []

/-- The CPUs of a report that is not empty. -/
def listedCpus : List CpuInfo :=
  ((lscpuTopology (reportedCpus entries)).insertionSort fun a b => a.1 ≤ b.1).map fun line =>
    ⟨line.1, line.2.core, line.2.socket, line.2.node, line.2.online,
      (reportedSiblings entries).any fun sibling => sibling.1 == line.1⟩

theorem cpus_detectCpuTopology : (detectCpuTopology entries sysOnline).cpus =
    if (listedCpus entries).isEmpty then
      sysOnline.dedup.map fun cpu => CpuInfo.mk cpu none none none true false
    else listedCpus entries := rfl

theorem nodup_cpus_detectCpuTopology :
    ((detectCpuTopology entries sysOnline).cpus.map (·.cpuId)).Nodup := by
  rw [cpus_detectCpuTopology]
  split
  · rw [map_map]
    simpa [Function.comp_def] using nodup_dedup sysOnline
  · rw [listedCpus, map_map]
    exact (Perm.map _ (perm_insertionSort _ _)).nodup_iff.mpr (lscpuTopology_spec _).1

variable {entries sysOnline}

/-- An online CPU is found under its core, and marked if it is among the siblings. -/
theorem detected_core {info : CpuInfo} (h : info ∈ (detectCpuTopology entries sysOnline).cpus)
    (honline : info.online = true) {k : Int} (hcore : info.coreId = some k) :
    info.cpuId ∈ ((smtCores (reportedCpus entries)).lookup k).getD [] ∧
      info.isSmtSibling = (reportedSiblings entries).any fun sibling =>
        sibling.1 == info.cpuId := by
  rw [cpus_detectCpuTopology] at h
  split at h
  · obtain ⟨cpu, -, rfl⟩ := mem_map.mp h
    cases hcore
  · obtain ⟨line, hmem, rfl⟩ := mem_map.mp h
    exact ⟨mem_lookup_smtCores ((lscpuTopology_spec _).2 ((mem_insertionSort _).mp hmem)) hcore
      honline, rfl⟩

/-- What detection establishes: CPUs are listed once, and on a host with several CPUs in a core
every core has one list, that of its online CPUs. -/
structure CpuTopology.Consistent (topology : CpuTopology) : Prop where
  nodup : (topology.cpus.map (·.cpuId)).Nodup
  keys : topology.smtEnabled = true → (topology.coreToCpus.map Prod.fst).Nodup
  listed : topology.smtEnabled = true → ∀ k cpus, (k, cpus) ∈ topology.coreToCpus → ∀ c ∈ cpus,
    ∃ info ∈ topology.cpus, info.cpuId = c ∧ info.coreId = some k ∧ info.online = true
  found : topology.smtEnabled = true → ∀ info ∈ topology.cpus, info.online = true → ∀ k,
    info.coreId = some k → info.cpuId ∈ (topology.coreToCpus.lookup k).getD []

theorem detectCpuTopology_consistent {entries : List LscpuEntry} (h : OneLinePerCpu entries)
    {sysOnline : List Nat} : (detectCpuTopology entries sysOnline).Consistent := by
  have hcores (hon : (detectCpuTopology entries sysOnline).smtEnabled = true) :
      (detectCpuTopology entries sysOnline).coreToCpus = smtCores (reportedCpus entries) :=
    if_pos hon
  refine ⟨nodup_cpus_detectCpuTopology entries sysOnline,
    fun hon => hcores hon ▸ nodup_smtCores _, fun hon k cpus hin c hc => ?_, fun hon info hinfo
      honline k hk => hcores hon ▸ (detected_core hinfo honline hk).1⟩
  rw [hcores hon] at hin
  obtain ⟨entry, hreported, hentry, honline⟩ := mem_smtCores hin hc
  rw [← lscpuTopology_eq h] at hreported
  have hinfo : _ ∈ listedCpus entries := mem_map_of_mem ((mem_insertionSort _).mpr hreported)
  rw [cpus_detectCpuTopology, if_neg fun hempty => ?_]
  · exact ⟨_, hinfo, rfl, hentry, honline⟩
  · rw [isEmpty_iff.mp hempty] at hinfo
    cases hinfo

end Detected

end MessagingBench.Affinity
