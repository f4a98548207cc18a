import MessagingBench.Core.Cycles
import MessagingBench.Runner.Batches

/-!
# The batch sizes of a planner

Whatever a planner is asked for, one call after the other, it deals out whole cycles: each
size up to the cap once with the largest one first, or the largest one and one in turn. Only
another cap interrupts a cycle. The random numbers are arbitrary.
-/

namespace MessagingBench.Runner

open List Routine

variable {ε : Type} {env : RunnerEnvironment ε}

namespace MembershipBatchPlanner

/-- The sizes that are dealt out before a new cycle begins. -/
def IsCycle (extremesOnly : Bool) (cap : Nat) (cycle : List Nat) : Prop :=
  if extremesOnly = true ∧ 1 < cap then cycle = [cap, 1]
  else cycle.Perm (range' 1 cap) ∧ cycle[0]? = some cap

variable {cap : Nat}

/-- The largest size comes first when it is swapped there. -/
theorem swap_largest {values : List Nat} (h : cap ∈ values) :
    (values.swap 0 ((values.idxOf? cap).getD 0))[0]? = some cap := by
  have hsome : (values.findIdx? (· == cap)).isSome = true := by
    rw [findIdx?_isSome]
    exact any_eq_true.mpr ⟨cap, h, beq_self_eq_true cap⟩
  obtain ⟨position, hfound⟩ := Option.isSome_iff_exists.mp hsome
  obtain ⟨hlt, hcap, -⟩ := findIdx?_eq_some_iff_getElem.mp hfound
  have hlength : 0 < (values.swap 0 position).length := by
    rw [length_swap]
    exact Nat.zero_lt_of_lt hlt
  rw [idxOf?, hfound, Option.getD_some, getElem?_eq_getElem hlength,
    getElem_swap_left_of_lt hlt, eq_of_beq hcap]

variable {extremesOnly : Bool} {cycle : List Nat}

theorem returns_newCycle (hcap : 0 < cap) :
    Returns (fun _ => True) (newCycle env extremesOnly cap)
      fun cycle _ => IsCycle extremesOnly cap cycle := by
  unfold newCycle IsCycle
  rcases Nat.lt_or_ge 1 cap with hmany | hone
  · simp only [hmany, and_true, if_true]
    split
    · exact .pure fun _ _ => rfl
    · refine (Generator.returns_shuffle _).bind fun values => .pure fun _ hperm => ?_
      refine ⟨(swap_perm _ _ _).trans hperm, swap_largest (hperm.mem_iff.mpr ?_)⟩
      rw [mem_range'_1]
      omega
  · obtain rfl : cap = 1 := by omega
    simp only [Nat.lt_irrefl, and_false, if_false]
    split
    · exact .pure fun _ _ => ⟨.refl _, rfl⟩
    · refine (Generator.returns_shuffle _).bind fun values => .pure fun _ hperm => ⟨hperm, ?_⟩
      rw [perm_singleton.mp hperm]
      rfl

theorem IsCycle.ne_nil (h : IsCycle extremesOnly cap cycle) : cycle ≠ [] := by
  unfold IsCycle at h
  split at h
  · rw [h]
    exact cons_ne_nil _ _
  · rintro rfl
    cases h.2

variable (planner : MembershipBatchPlanner)

theorem returns_refill (hcap : 0 < cap) :
    Returns (fun _ => True) (planner.refill env cap)
      fun refilled _ => refilled.cycleCap = cap ∧ refilled.extremesOnly = planner.extremesOnly ∧
        ((planner.cycleCap = cap ∧ refilled.cycle = planner.cycle ∧ planner.cycle ≠ []) ∨
          ((planner.cycle = [] ∨ planner.cycleCap ≠ cap) ∧
            IsCycle planner.extremesOnly cap refilled.cycle)) := by
  unfold refill
  split
  · rename_i hnew
    rw [List.isEmpty_iff] at hnew
    exact (returns_newCycle hcap).bind fun cycle =>
      .pure fun _ hcycle => ⟨rfl, rfl, .inr ⟨hnew, hcycle⟩⟩
  · rename_i hkept
    rw [List.isEmpty_iff, not_or, not_not] at hkept
    exact .pure fun _ _ => ⟨hkept.2, rfl, .inl ⟨hkept.2, rfl, hkept.1⟩⟩

/-- What a call with a cap does: it takes the next size of the cycle, or begins a new one. -/
structure Takes (planner : MembershipBatchPlanner) (cap : Nat)
    (decision : MembershipBatchDecision) (planner' : MembershipBatchPlanner) : Prop where
  effective : decision.effective = decision.requested
  cycleCap : planner'.cycleCap = cap
  extremesOnly : planner'.extremesOnly = planner.extremesOnly
  next : (planner.cycleCap = cap ∧ planner.cycle = decision.requested :: planner'.cycle) ∨
    ((planner.cycle = [] ∨ planner.cycleCap ≠ cap) ∧
      IsCycle planner.extremesOnly cap (decision.requested :: planner'.cycle))

theorem returns_nextBatch {currentGroupSize : Nat}
    {maxAllowed : Nat} (hallowed : maxAllowed ≠ 0) {source : String} :
    Returns (fun _ => True) (planner.nextBatch env currentGroupSize maxAllowed source)
      fun result _ => planner.Takes (min maxRandomMembershipBatchSize maxAllowed) result.1
        result.2 := by
  have hcap : 0 < min maxRandomMembershipBatchSize maxAllowed := by
    unfold maxRandomMembershipBatchSize
    omega
  unfold nextBatch
  rw [if_neg hallowed]
  refine (returns_refill planner hcap).bind fun refilled => .pure fun _ hrefilled => ?_
  obtain ⟨hcap, hextremes, hcycle⟩ := hrefilled
  have hne : refilled.cycle ≠ [] := by
    rcases hcycle with ⟨-, heq, hne⟩ | ⟨-, hcycle⟩
    · rwa [heq]
    · exact hcycle.ne_nil
  obtain ⟨size, sizes, hsizes⟩ := exists_cons_of_ne_nil hne
  rw [hsizes] at hcycle
  refine ⟨rfl, hcap, hextremes, ?_⟩
  rw [hsizes]
  rcases hcycle with ⟨hsame, heq, -⟩ | hnew
  · exact .inl ⟨hsame, heq.symm⟩
  · exact .inr hnew

/-- What the planner is asked for. -/
structure Call where
  currentGroupSize : Nat
  maxAllowed : Nat
  source : String

variable (env) in
def nextBatches (planner : MembershipBatchPlanner) :
    List Call → Phase ε (List MembershipBatchDecision × MembershipBatchPlanner)
  | [] => pure ([], planner)
  | call :: calls => do
    let (decision, planner) ← planner.nextBatch env call.currentGroupSize call.maxAllowed call.source
    let (decisions, planner) ← nextBatches planner calls
    pure (decision :: decisions, planner)

/-- The caps of the calls that allow something, with the sizes they got. -/
def dealtSizes : List Call → List MembershipBatchDecision → List (Nat × Nat)
  | call :: calls, decision :: decisions =>
    if call.maxAllowed = 0 then dealtSizes calls decisions
    else (min maxRandomMembershipBatchSize call.maxAllowed, decision.requested) ::
      dealtSizes calls decisions
  | _, _ => []

/-- A call that allows nothing gets nothing, the others get what they request. -/
def Answers (call : Call) (decision : MembershipBatchDecision) : Prop :=
  if call.maxAllowed = 0 then decision.requested = 0 ∧ decision.effective = 0
  else decision.effective = decision.requested

theorem returns_nextBatches {calls : List Call} :
    Returns (fun _ => True) (planner.nextBatches env calls)
      fun result _ => Forall₂ Answers calls result.1 ∧
        Deals (IsCycle planner.extremesOnly) planner.cycleCap planner.cycle
          (dealtSizes calls result.1) := by
  induction calls generalizing planner with
  | nil => exact .pure fun _ _ => ⟨.nil, .done⟩
  | cons call calls ih =>
    by_cases hallowed : call.maxAllowed = 0
    · refine Returns.bind (Q := fun result _ => result = (⟨0, 0, 0, 0, call.source⟩, planner)) ?_
        fun result => ?_
      · rw [nextBatch, if_pos hallowed]
        exact .pure fun _ _ => rfl
      · refine Returns.imp (Returns.given (P := fun _ => True) fun hresult => ?_)
          (fun s hs => ⟨trivial, hs⟩) fun _ _ hs => hs
        subst hresult
        refine (ih planner).bind fun rest => .pure fun _ hrest => ?_
        refine ⟨.cons ?_ hrest.1, ?_⟩
        · rw [Answers, if_pos hallowed]
          exact ⟨rfl, rfl⟩
        · rw [dealtSizes, if_pos hallowed]
          exact hrest.2
    · refine (returns_nextBatch planner hallowed).bind
        fun result => Returns.imp (Returns.given (P := fun _ => True) fun htakes => ?_)
          (fun s hs => ⟨trivial, hs⟩) fun _ _ hs => hs
      refine (ih result.2).bind fun rest => .pure fun _ hrest => ?_
      obtain ⟨hanswers, hdeals⟩ := hrest
      rw [htakes.extremesOnly, htakes.cycleCap] at hdeals
      refine ⟨.cons ?_ hanswers, ?_⟩
      · rw [Answers, if_neg hallowed]
        exact htakes.effective
      · rw [dealtSizes, if_neg hallowed]
        rcases htakes.next with ⟨hcap, hcycle⟩ | ⟨hnew, hcycle⟩
        · rw [hcap, hcycle]
          exact .goesOn hdeals
        · exact .begins hnew hcycle hdeals

theorem IsCycle.bounds {size : Nat}
    (h : IsCycle extremesOnly cap cycle) (hsize : size ∈ cycle) : 1 ≤ size ∧ size ≤ cap := by
  unfold IsCycle at h
  split at h
  · rw [h, mem_pair] at hsize
    omega
  · have hmem := mem_range'_1.mp (h.1.mem_iff.mp hsize)
    omega

/-- A call that allows something gets a size up to its cap. -/
def AnswersWithinCap (call : Call) (decision : MembershipBatchDecision) : Prop :=
  if call.maxAllowed = 0 then decision.requested = 0 ∧ decision.effective = 0
  else 1 ≤ decision.requested ∧
    decision.requested ≤ min maxRandomMembershipBatchSize call.maxAllowed ∧
    decision.effective = decision.requested

theorem answersWithinCap {calls : List Call} {decisions : List MembershipBatchDecision}
    (h : Forall₂ Answers calls decisions)
    (hsizes : ∀ dealt ∈ dealtSizes calls decisions, 1 ≤ dealt.2 ∧ dealt.2 ≤ dealt.1) :
    Forall₂ AnswersWithinCap calls decisions := by
  induction h with
  | nil => exact .nil
  | @cons call decision calls decisions hanswers _ ih =>
    unfold dealtSizes at hsizes
    unfold Answers at hanswers
    split at hanswers
    · rename_i hnothing
      rw [if_pos hnothing] at hsizes
      refine .cons ?_ (ih hsizes)
      rw [AnswersWithinCap, if_pos hnothing]
      exact hanswers
    · rename_i hallowed
      rw [if_neg hallowed] at hsizes
      refine .cons ?_ (ih fun dealt hmem => hsizes dealt (mem_cons_of_mem _ hmem))
      obtain ⟨hpositive, hcap⟩ := hsizes _ (mem_cons_self ..)
      rw [AnswersWithinCap, if_neg hallowed]
      exact ⟨hpositive, hcap, hanswers⟩

/-- The largest size and one in turn, or blocks of all sizes that begin with the largest. The
last block may be cut off. -/
def Cyclic (extremesOnly : Bool) (cap : Nat) (sizes : List Nat) : Prop :=
  if extremesOnly = true ∧ 1 < cap then
    ∀ i < sizes.length, sizes[i]? = some (if i % 2 = 0 then cap else 1)
  else
    ∀ k, k * cap < sizes.length → sizes[k * cap]? = some cap ∧
      ((k + 1) * cap ≤ sizes.length → ((sizes.drop (k * cap)).take cap).Perm (range' 1 cap))

theorem cyclic_of_prefix {sizes : List Nat}
    {cycles : List (List Nat)} (hcycles : ∀ cycle ∈ cycles, IsCycle extremesOnly cap cycle)
    (hpre : sizes <+: cycles.flatten) : Cyclic extremesOnly cap sizes := by
  unfold Cyclic
  unfold IsCycle at hcycles
  split
  · rename_i hextremes
    simp only [hextremes, and_self, if_true] at hcycles
    intro i hi
    have hlength : ∀ cycle ∈ cycles, cycle.length = 2 :=
      fun cycle hmem => congrArg length (hcycles cycle hmem)
    obtain ⟨cycle, hmem, hfirst, hblock⟩ :=
      block_of_prefix_flatten hlength hpre (show i / 2 * 2 < sizes.length by omega)
    rw [hcycles cycle hmem] at hfirst hblock
    split
    · rw [show i = i / 2 * 2 by omega]
      exact hfirst
    · have hsecond := congrArg (·[1]?) (hblock (by omega))
      simp only [getElem?_take_of_succ, getElem?_drop] at hsecond
      rw [show i = i / 2 * 2 + 1 by omega]
      exact hsecond
  · rename_i hextremes
    simp only [hextremes, if_false] at hcycles
    intro k hk
    have hlength : ∀ cycle ∈ cycles, cycle.length = cap := by
      intro cycle hmem
      rw [(hcycles cycle hmem).1.length_eq, length_range']
    obtain ⟨cycle, hmem, hfirst, hblock⟩ := block_of_prefix_flatten hlength hpre hk
    obtain ⟨hperm, hlargest⟩ := hcycles cycle hmem
    refine ⟨hfirst.trans hlargest, fun hcomplete => ?_⟩
    rw [hblock hcomplete]
    exact hperm

/-- All calls are answered within their caps, and calls with the same cap that begin with a fresh
planner or a change of the cap get whole cycles, whatever calls that allow nothing are in
between. -/
theorem planner_deals_cycles (extremesOnly : Bool) (calls : List Call) (s : RunnerState ε) :
    ∃ decisions planner s',
      (new extremesOnly).nextBatches env calls s = (.ok (decisions, planner), s') ∧
      Forall₂ AnswersWithinCap calls decisions ∧
      ∀ before run after cap, dealtSizes calls decisions = before ++ (run ++ after) →
        (∀ dealt ∈ run, dealt.1 = cap) → (∀ last ∈ before.getLast?, last.1 ≠ cap) →
        Cyclic extremesOnly cap (run.map (·.2)) := by
  obtain ⟨⟨decisions, planner⟩, s', hcalls, hanswers, hdeals⟩ :=
    returns_nextBatches (new extremesOnly) s trivial
  refine ⟨decisions, planner, s', hcalls, answersWithinCap hanswers fun dealt hmem => ?_,
    fun before run after cap hsplit hrun hbefore => ?_⟩
  · obtain ⟨cycle, hcycle, hsize⟩ := hdeals.mem_cycle nofun dealt hmem
    exact hcycle.bounds hsize
  · rw [hsplit] at hdeals
    obtain ⟨cycles, hcycles, hpre⟩ := hdeals.prefix_of_run hrun hbefore
    exact cyclic_of_prefix hcycles hpre

end MembershipBatchPlanner

end MessagingBench.Runner
