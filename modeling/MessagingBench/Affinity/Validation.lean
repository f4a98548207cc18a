import MessagingBench.Affinity.Plan

/-!
# Validation of affinity plans

`validate_affinity_plan` rejects plans in which a CPU is assigned to profiled workers twice. It
then compares the mask of the profiled CPUs with its own complement: what the plan says about
the background is not looked at.
-/

namespace MessagingBench.Affinity

open List

def masksOverlap (maskA maskB : Nat) : Bool := maskA &&& maskB != 0

/-- The loop over the profiled CPUs. -/
def repeatErrors : List Nat → List Nat → List String
  | _, [] => []
  | seen, cpu :: cpus =>
    (if seen.contains cpu then ["CPU " ++ cpu.repr ++ " assigned to multiple profiled workers"]
      else []) ++ repeatErrors (cpu :: seen) cpus

def countErrors (assignment : ProfiledAssignment) : List String :=
  (if assignment.assignedCpuCount = 0 then
    ["Profiled worker " ++ assignment.workerId ++ " has 0 assigned CPUs"] else []) ++
  (if assignment.rayonNumThreads ≠ assignment.assignedCpuCount then
    ["Profiled worker " ++ assignment.workerId ++ ": RAYON_NUM_THREADS=" ++
      assignment.rayonNumThreads.repr ++ " does not match assigned_cpu_count=" ++
      assignment.assignedCpuCount.repr] else [])

variable (plan : AffinityPlan)

def AffinityPlan.profiledCpus : List Nat :=
  plan.profiledAssignments.flatMap (·.assignedCpus)

/-- The errors, and the plan with a further warning. -/
def validateAffinityPlan : Except String (List String × AffinityPlan) :=
  if plan.cpuAffinityMode = "none" then .ok ([], plan)
  else do
    let profiledMask ← cpuListToMask (sortedSet plan.profiledCpus)
    let onlineMask ← cpuListToMask plan.onlineCpus
    let backgroundMask := complementMask profiledMask onlineMask
    return (repeatErrors [] plan.profiledCpus ++
      (if masksOverlap profiledMask backgroundMask then
        ["Profiled mask overlaps with background mask"] else []) ++
      plan.profiledAssignments.flatMap countErrors,
      if plan.backgroundCpus.isEmpty && !plan.backgroundAssignments.isEmpty then
        { plan with warnings := plan.warnings ++
          ["Background mask is empty but background containers are assigned"] }
      else plan)

/-- The CPU lists that the background containers are given. -/
def AffinityPlan.backgroundLists : List (List Nat) :=
  plan.backgroundCpus :: plan.backgroundAssignments.map (·.assignedCpus)

/-- Profiled workers share CPUs neither with each other nor with the background. -/
structure AffinityPlan.Separates (plan : AffinityPlan) : Prop where
  profiled : plan.profiledAssignments.Pairwise fun a b =>
    List.Disjoint a.assignedCpus b.assignedCpus
  background : ∀ a ∈ plan.profiledAssignments, ∀ cpus ∈ plan.backgroundLists,
    List.Disjoint a.assignedCpus cpus

theorem repeatErrors_eq_nil_iff {seen cpus : List Nat} :
    repeatErrors seen cpus = [] ↔ cpus.Nodup ∧ ∀ cpu ∈ cpus, cpu ∉ seen := by
  induction cpus generalizing seen with
  | nil => simp [repeatErrors]
  | cons cpu cpus ih =>
    have hfirst : (if seen.contains cpu then
        ["CPU " ++ cpu.repr ++ " assigned to multiple profiled workers"] else []) = [] ↔
          cpu ∉ seen := by
      simp
    rw [repeatErrors, append_eq_nil_iff, hfirst, ih, nodup_cons]
    simp only [mem_cons, not_or, forall_eq_or_imp, forall_and]
    grind

/-- A mask does not overlap with its own complement. -/
theorem masksOverlap_complementMask (mask onlineMask : Nat) :
    masksOverlap mask (complementMask mask onlineMask) = false := by
  have hzero : mask &&& complementMask mask onlineMask = 0 := by
    refine Nat.eq_of_testBit_eq fun i => ?_
    rw [Nat.testBit_and, testBit_complementMask, Nat.zero_testBit]
    cases mask.testBit i <;> simp
  simp [masksOverlap, hzero]

/-- What the validation finds no fault with: valid CPU numbers, a list of online CPUs without
repetition, no CPU for two profiled workers, and as many threads as CPUs for each of them. -/
structure AffinityPlan.ProfiledValid (plan : AffinityPlan) : Prop where
  numbers : ∀ cpu ∈ plan.profiledCpus ++ plan.onlineCpus, cpu ≤ 1023
  online : plan.onlineCpus.Nodup
  once : plan.profiledCpus.Nodup
  counts : ∀ a ∈ plan.profiledAssignments,
    a.assignedCpuCount ≠ 0 ∧ a.rayonNumThreads = a.assignedCpuCount

/-- No CPU of the background is given to a profiled worker. -/
def AffinityPlan.BackgroundFree : Prop :=
  ∀ cpus ∈ plan.backgroundLists, ∀ cpu ∈ cpus, cpu ∉ plan.profiledCpus

theorem flatMap_countErrors_eq_nil_iff {assignments : List ProfiledAssignment} :
    assignments.flatMap countErrors = [] ↔
      ∀ a ∈ assignments, a.assignedCpuCount ≠ 0 ∧ a.rayonNumThreads = a.assignedCpuCount := by
  simp [countErrors]

variable {plan : AffinityPlan}

/-- The validation returns without errors exactly if the profiled part is valid. -/
theorem validateAffinityPlan_ok_iff (hmode : plan.cpuAffinityMode ≠ "none") :
    (∃ plan', validateAffinityPlan plan = .ok ([], plan')) ↔ plan.ProfiledValid := by
  have hprofiled := @cpuListToMask_ok_iff (sortedSet plan.profiledCpus)
  have honline := @cpuListToMask_ok_iff plan.onlineCpus
  simp only [nodup_sortedSet, mem_sortedSet, true_and] at hprofiled
  rw [validateAffinityPlan, if_neg hmode]
  constructor
  · rintro ⟨plan', h⟩
    cases hmask : cpuListToMask (sortedSet plan.profiledCpus) with
    | error message => simp [hmask, bind, Except.bind] at h
    | ok profiledMask =>
      cases hmask' : cpuListToMask plan.onlineCpus with
      | error message => simp [hmask, hmask', bind, Except.bind] at h
      | ok onlineMask =>
        simp only [hmask, hmask', bind, Except.bind, pure, Except.pure, Except.ok.injEq,
          Prod.mk.injEq, append_eq_nil_iff] at h
        obtain ⟨hnodup, hlisted⟩ := honline.mp ⟨onlineMask, hmask'⟩
        exact ⟨fun cpu hcpu => (mem_append.mp hcpu).elim (hprofiled.mp ⟨profiledMask, hmask⟩ cpu)
          (hlisted cpu), hnodup, (repeatErrors_eq_nil_iff.mp h.1.1.1).1,
          flatMap_countErrors_eq_nil_iff.mp h.1.2⟩
  · intro h
    obtain ⟨profiledMask, hmask⟩ := hprofiled.mpr fun cpu hcpu =>
      h.numbers cpu (mem_append_left _ hcpu)
    obtain ⟨onlineMask, hmask'⟩ := honline.mpr ⟨h.online, fun cpu hcpu =>
      h.numbers cpu (mem_append_right _ hcpu)⟩
    have hrepeats : repeatErrors [] plan.profiledCpus = [] :=
      repeatErrors_eq_nil_iff.mpr ⟨h.once, fun _ _ hmem => nomatch hmem⟩
    simp [hmask, hmask', bind, Except.bind, pure, Except.pure, hrepeats,
      masksOverlap_complementMask, flatMap_countErrors_eq_nil_iff.mpr h.counts]

/-- What the validation finds no fault with is separated exactly if the background is free. -/
theorem AffinityPlan.ProfiledValid.separates_iff (h : plan.ProfiledValid) :
    plan.Separates ↔ plan.BackgroundFree := by
  constructor
  · intro hseparates cpus hcpus cpu hcpu hmem
    obtain ⟨a, ha, hmem⟩ := mem_flatMap.mp hmem
    exact hseparates.background a ha cpus hcpus hmem hcpu
  · intro hfree
    exact ⟨(nodup_flatMap.mp h.once).2, fun a ha cpus hcpus cpu hmem hcpu =>
      hfree cpus hcpus cpu hcpu (mem_flatMap_of_mem ha hmem)⟩

/-- Returning without errors means that the plan separates the workers exactly if the profiled
part is not valid anyway or the background is free. -/
theorem validateAffinityPlan_sound_iff (plan : AffinityPlan)
    (hmode : plan.cpuAffinityMode ≠ "none") :
    ((∃ plan', validateAffinityPlan plan = .ok ([], plan')) → plan.Separates) ↔
      ¬plan.ProfiledValid ∨ plan.BackgroundFree := by
  rw [validateAffinityPlan_ok_iff hmode, imp_iff_not_or]
  by_cases hvalid : plan.ProfiledValid
  · simp [hvalid, hvalid.separates_iff]
  · simp [hvalid]

/-- Workers on the CPUs 0 and 1, and a background on the given CPUs. -/
abbrev twoWorkersAnd (background : List Nat) : AffinityPlan :=
  { createEmptyAffinityPlan with
    cpuAffinityMode := "strict"
    onlineCpus := [0, 1, 2]
    profiledAssignments := [⟨"a", "a", "a", [0], 1, 1, 1, "", ""⟩,
      ⟨"b", "b", "b", [1], 2, 1, 1, "", ""⟩]
    backgroundCpus := background
    backgroundAssignments := [⟨"relay", "relay", background, 0⟩] }

theorem validateAffinityPlan_sound_rest :
    validateAffinityPlan (twoWorkersAnd [2]) = .ok ([], twoWorkersAnd [2]) ∧
      (twoWorkersAnd [2]).Separates := by
  have hfree : (twoWorkersAnd [2]).BackgroundFree := by
    unfold AffinityPlan.BackgroundFree
    decide
  exact ⟨by decide, (validateAffinityPlan_sound_iff (twoWorkersAnd [2]) (by decide)).mpr
    (.inr hfree) ⟨twoWorkersAnd [2], by decide⟩⟩

/-- The background is given the CPU of a worker. -/
theorem validateAffinityPlan_unsound :
    validateAffinityPlan (twoWorkersAnd [1, 2]) = .ok ([], twoWorkersAnd [1, 2]) ∧
      ¬(twoWorkersAnd [1, 2]).Separates := by
  refine ⟨by decide, fun h => ?_⟩
  exact h.background _ (mem_cons_of_mem _ mem_cons_self) _ mem_cons_self
    mem_cons_self mem_cons_self

end MessagingBench.Affinity
