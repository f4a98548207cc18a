import Mathlib.Data.List.Forall2
import Mathlib.Logic.Function.Basic

/-!
# Measuring the allocations of a closure

`measure` counts in a slot of its own and adds it to the slot below when its closure
returns; `opt_out` counts how often counting is switched off. A slot is used again later, so
that it says nothing until the next `measure` clears it. Arithmetic wraps, as in a release
build.
-/

namespace MessagingBench.AllocationCounter

open Function

structure AllocationInfo where
  countTotal : UInt64
  countCurrent : Int64
  countMax : UInt64
  bytesTotal : UInt64
  bytesCurrent : Int64
  bytesMax : UInt64

namespace AllocationInfo

def default : AllocationInfo := ⟨0, 0, 0, 0, 0, 0⟩

def addAssign (info other : AllocationInfo) : AllocationInfo where
  countTotal := info.countTotal + other.countTotal
  countCurrent := info.countCurrent + other.countCurrent
  countMax := info.countMax + other.countMax
  bytesTotal := info.bytesTotal + other.bytesTotal
  bytesCurrent := info.bytesCurrent + other.bytesCurrent
  bytesMax := info.bytesMax + other.bytesMax

def alloc (size : UInt64) (info : AllocationInfo) : AllocationInfo :=
  let countCurrent := info.countCurrent + 1
  let bytesCurrent := info.bytesCurrent + size.toInt64
  { countTotal := info.countTotal + 1
    countCurrent := countCurrent
    countMax := max info.countMax (max countCurrent 0).toUInt64
    bytesTotal := info.bytesTotal + size
    bytesCurrent := bytesCurrent
    bytesMax := max info.bytesMax (max bytesCurrent 0).toUInt64 }

def dealloc (size : UInt64) (info : AllocationInfo) : AllocationInfo :=
  { info with
    countCurrent := info.countCurrent - 1
    bytesCurrent := info.bytesCurrent - size.toInt64 }

end AllocationInfo

def maxDepth : Nat := 64

/-- The counters of one thread: `ALLOCATIONS` with its stack of slots, and `DO_COUNT`. -/
structure ThreadCounters where
  depth : Fin maxDepth
  elements : Fin maxDepth → AllocationInfo
  doCount : UInt32

namespace ThreadCounters

def initial : ThreadCounters := ⟨⟨0, by decide⟩, fun _ => .default, 0⟩

/-- A change that the allocator makes to the slot in use, unless counting is switched off. -/
def count (t : ThreadCounters) (change : AllocationInfo → AllocationInfo) : ThreadCounters :=
  if t.doCount = 0 then
    { t with elements := update t.elements t.depth (change (t.elements t.depth)) }
  else t

/-- The first half of `measure`; its assertion fails when no slot is left. -/
def push (t : ThreadCounters) : Option ThreadCounters :=
  if h : t.depth + 1 < maxDepth then
    some { t with
      depth := ⟨t.depth + 1, h⟩
      elements := update t.elements ⟨t.depth + 1, h⟩ .default }
  else none

def below (i : Fin maxDepth) : Fin maxDepth := ⟨i - 1, Nat.lt_of_le_of_lt (Nat.sub_le i 1) i.2⟩

/-- The second half of `measure`: what it returns, and the counters afterwards. -/
def pop (t : ThreadCounters) : AllocationInfo × ThreadCounters :=
  let popped := t.elements t.depth
  let depth := below t.depth
  (popped, { t with
    depth := depth
    elements := update t.elements depth ((t.elements depth).addAssign popped) })

end ThreadCounters

/-- What a closure does on its thread. An allocation whose pointer is null has failed. -/
inductive Closure
  | done
  | alloc (size : UInt64) (null : Bool) (rest : Closure)
  | dealloc (size : UInt64) (rest : Closure)
  | measure (body rest : Closure)
  | optOut (body rest : Closure)

namespace Closure

/-- The results of all `measure` calls in the order in which they return; `none` is a panic. -/
def run : Closure → ThreadCounters → Option (List AllocationInfo × ThreadCounters)
  | done, t => some ([], t)
  | alloc size null rest, t => rest.run (if null then t else t.count (.alloc size))
  | dealloc size rest, t => rest.run (t.count (.dealloc size))
  | measure body rest, t => do
      let (inner, left) ← body.run (← t.push)
      let (later, last) ← rest.run left.pop.2
      return (inner ++ left.pop.1 :: later, last)
  | optOut body rest, t => do
      let (inner, left) ← body.run { t with doCount := t.doCount + 1 }
      let (later, last) ← rest.run { left with doCount := left.doCount - 1 }
      return (inner ++ later, last)

def measureDepth : Closure → Nat
  | done => 0
  | alloc _ _ rest => rest.measureDepth
  | dealloc _ rest => rest.measureDepth
  | measure body rest => max (body.measureDepth + 1) rest.measureDepth
  | optOut body rest => max body.measureDepth rest.measureDepth

def optOutDepth : Closure → Nat
  | done => 0
  | alloc _ _ rest => rest.optOutDepth
  | dealloc _ rest => rest.optOutDepth
  | measure body rest => max body.optOutDepth rest.optOutDepth
  | optOut body rest => max (body.optOutDepth + 1) rest.optOutDepth

/-- The sizes of the allocations that a closure makes outside `opt_out`. -/
def allocated : Closure → List UInt64
  | done => []
  | alloc size null rest => if null then rest.allocated else size :: rest.allocated
  | dealloc _ rest => rest.allocated
  | measure body rest => body.allocated ++ rest.allocated
  | optOut _ rest => rest.allocated

/-- The same for a closure that is itself run inside or outside `opt_out`. -/
def allocatedIf (counting : Bool) (closure : Closure) : List UInt64 :=
  if counting then closure.allocated else []

/-- For each `measure` call, in the order in which they return, the sizes it has to report. -/
def measured (counting : Bool) : Closure → List (List UInt64)
  | done => []
  | alloc _ _ rest => rest.measured counting
  | dealloc _ rest => rest.measured counting
  | measure body rest =>
      body.measured counting ++ body.allocatedIf counting :: rest.measured counting
  | optOut body rest => body.measured false ++ rest.measured counting

end Closure

def bytesOf (sizes : List UInt64) : Nat := sizes.foldr (fun size bytes => size.toNat + bytes) 0

/-- The totals of a slot have grown by allocations of these sizes. -/
def Grown (before after : AllocationInfo) (sizes : List UInt64) : Prop :=
  after.countTotal = before.countTotal + .ofNat sizes.length ∧
    after.bytesTotal = before.bytesTotal + .ofNat (bytesOf sizes)

namespace Grown

variable {before between after : AllocationInfo} {sizes more : List UInt64}

theorem bytesOf_append : bytesOf (sizes ++ more) = bytesOf sizes + bytesOf more := by
  induction sizes with
  | nil => simp [bytesOf]
  | cons size sizes ih =>
    simp only [bytesOf, List.cons_append, List.foldr_cons] at ih ⊢
    omega

variable (info : AllocationInfo)

theorem refl : Grown info info [] := by simp [Grown, bytesOf]

theorem trans (h : Grown before between sizes) (h' : Grown between after more) :
    Grown before after (sizes ++ more) := by
  obtain ⟨hc, hb⟩ := h
  obtain ⟨hc', hb'⟩ := h'
  constructor
  · rw [hc', hc, UInt64.add_assoc, List.length_append, UInt64.ofNat_add]
  · rw [hb', hb, UInt64.add_assoc, bytesOf_append, UInt64.ofNat_add]

theorem alloc (size : UInt64) (info : AllocationInfo) : Grown info (info.alloc size) [size] := by
  simp [Grown, AllocationInfo.alloc, bytesOf]

theorem dealloc (size : UInt64) (info : AllocationInfo) : Grown info (info.dealloc size) [] :=
  refl info

theorem addAssign (h : Grown .default after sizes) : Grown info (info.addAssign after) sizes := by
  obtain ⟨hc, hb⟩ := h
  simp [Grown, AllocationInfo.addAssign, hc, hb, AllocationInfo.default]

end Grown

/-- What a closure leaves behind: depth and opt-outs as before, the open measurements below
untouched, and its own allocations in the slot in use. Slots above may hold anything. -/
structure Settled (sizes : List UInt64) (t t' : ThreadCounters) : Prop where
  depth : t'.depth = t.depth
  doCount : t'.doCount = t.doCount
  others : ∀ i < t.depth, t'.elements i = t.elements i
  slot : Grown (t.elements t.depth) (t'.elements t.depth) sizes

namespace Settled

variable {sizes more : List UInt64} {t entered left t' : ThreadCounters}

theorem refl (t : ThreadCounters) : Settled [] t t :=
  ⟨rfl, rfl, fun _ _ => rfl, Grown.refl _⟩

theorem trans (h : Settled sizes t left) (h' : Settled more left t') :
    Settled (sizes ++ more) t t' where
  depth := h'.depth.trans h.depth
  doCount := h'.doCount.trans h.doCount
  others i hi := (h'.others i (h.depth ▸ hi)).trans (h.others i hi)
  slot := h.slot.trans (h.depth ▸ h'.slot)

theorem count {change : AllocationInfo → AllocationInfo}
    (h : ∀ info, Grown info (change info) sizes) (t : ThreadCounters) :
    Settled (if t.doCount == 0 then sizes else []) t (t.count change) := by
  by_cases hcount : t.doCount = 0
  · simp only [ThreadCounters.count, hcount, beq_self_eq_true, ↓reduceIte]
    refine ⟨rfl, hcount.symm, fun i hi => ?_, ?_⟩
    · exact update_of_ne (Fin.ne_of_lt hi) _ _
    · simpa only [update_self] using h _
  · simpa [ThreadCounters.count, hcount] using refl t

theorem push (h : t.depth + 1 < maxDepth) : ∃ entered, t.push = some entered ∧
    entered.depth.val = t.depth + 1 ∧ entered.doCount = t.doCount ∧
      entered.elements entered.depth = .default ∧
      ∀ i < entered.depth, entered.elements i = t.elements i := by
  refine ⟨_, dif_pos h, rfl, rfl, update_self _ _ _, ?_⟩
  exact fun i hi => update_of_ne (Fin.ne_of_lt hi) _ _

/-- A measurement reports what its closure has allocated and adds it to the one around it. -/
theorem measure (hpush : t.push = some entered) (h : Settled sizes entered left) :
    Settled sizes t left.pop.2 ∧ Grown .default left.pop.1 sizes := by
  have hroom : t.depth + 1 < maxDepth := by
    by_contra hfull
    rw [ThreadCounters.push, dif_neg hfull] at hpush
    contradiction
  obtain ⟨_, hentered, hdepth, hcount, hslot, hothers⟩ := push hroom
  cases hpush.symm.trans hentered
  have hbelow : ThreadCounters.below left.depth = t.depth := by
    apply Fin.ext
    simp [ThreadCounters.below, h.depth, hdepth]
  have hlt : ∀ i ≤ t.depth, i < entered.depth := fun i hi => by
    rw [Fin.lt_def, hdepth]
    exact Nat.lt_succ_of_le hi
  have hkept : ∀ i ≤ t.depth, left.elements i = t.elements i := fun i hi =>
    (h.others i (hlt i hi)).trans (hothers i (hlt i hi))
  have hgrown : Grown .default (left.elements left.depth) sizes := by
    simpa only [h.depth, hslot] using h.slot
  refine ⟨⟨hbelow, h.doCount.trans hcount, fun i hi => ?_, ?_⟩, hgrown⟩
  · simp only [ThreadCounters.pop, hbelow]
    rw [update_of_ne (Fin.ne_of_lt hi), hkept i (Fin.le_of_lt hi)]
  · simp only [ThreadCounters.pop, hbelow, update_self, hkept t.depth (Fin.le_refl _)]
    exact Grown.addAssign _ hgrown

theorem optOut (h : Settled [] { t with doCount := t.doCount + 1 } left) :
    Settled [] t { left with doCount := left.doCount - 1 } where
  depth := h.depth
  doCount := by
    rw [h.doCount]
    exact UInt32.add_sub_cancel _ _
  others := h.others
  slot := h.slot

end Settled

namespace Closure

variable {t : ThreadCounters}

/-- The counters switch counting off in the closure of `opt_out`, whatever they were before. -/
theorem optOut_counting (depth : Nat) (h : t.doCount.toNat + (depth + 1) < UInt32.size) :
    (t.doCount + 1 == 0) = false ∧ (t.doCount + 1).toNat + depth < UInt32.size := by
  have hvalue : (t.doCount + 1).toNat = t.doCount.toNat + 1 := by
    rw [UInt32.toNat_add]
    exact Nat.mod_eq_of_lt (by simp only [UInt32.size, UInt32.reduceToNat] at h ⊢; omega)
  refine ⟨beq_eq_false_iff_ne.2 fun hzero => ?_, by omega⟩
  rw [hzero] at hvalue
  simp at hvalue

variable {counting : Bool}

theorem allocatedIf_alloc (size : UInt64) (null : Bool) (rest : Closure) :
    (alloc size null rest).allocatedIf counting =
      (if counting then (if null then [] else [size]) else []) ++ rest.allocatedIf counting := by
  cases counting <;> cases null <;> simp [allocatedIf, allocated]

theorem allocatedIf_measure (body rest : Closure) :
    (measure body rest).allocatedIf counting =
      body.allocatedIf counting ++ rest.allocatedIf counting := by
  cases counting <;> simp [allocatedIf, allocated]

/-- Every closure that finds slots enough runs to its end, and the measurements in it report
what they have to. The induction is on the closure: a `measure` starts from an empty slot
above the one in use, which is why only the slots up to that one are kept. -/
theorem run_settled (closure : Closure) (t : ThreadCounters)
    (hdepth : t.depth + closure.measureDepth < maxDepth)
    (hopt : t.doCount.toNat + closure.optOutDepth < UInt32.size) :
    ∃ infos t', closure.run t = some (infos, t') ∧
      Settled (closure.allocatedIf (t.doCount == 0)) t t' ∧
      List.Forall₂ (Grown .default) infos (closure.measured (t.doCount == 0)) := by
  induction closure generalizing t with
  | done =>
    refine ⟨[], t, rfl, ?_, .nil⟩
    simpa [allocatedIf, allocated] using Settled.refl t
  | alloc size null rest ih =>
    have hstep : Settled (if t.doCount == 0 then (if null then [] else [size]) else []) t
        (if null then t else t.count (.alloc size)) := by
      cases null with
      | true => simpa using Settled.refl t
      | false => simpa using Settled.count (Grown.alloc size) t
    obtain ⟨infos, t', hrun, hsettled, hinfos⟩ := ih _ (hstep.depth ▸ hdepth) (hstep.doCount ▸ hopt)
    rw [hstep.doCount] at hsettled hinfos
    exact ⟨infos, t', hrun, allocatedIf_alloc size null rest ▸ hstep.trans hsettled, hinfos⟩
  | dealloc size rest ih =>
    have hstep : Settled [] t (t.count (.dealloc size)) := by
      simpa using Settled.count (Grown.dealloc size) t
    obtain ⟨infos, t', hrun, hsettled, hinfos⟩ := ih _ (hstep.depth ▸ hdepth) (hstep.doCount ▸ hopt)
    rw [hstep.doCount] at hsettled hinfos
    exact ⟨infos, t', hrun, hstep.trans hsettled, hinfos⟩
  | measure body rest ihb ihr =>
    simp only [measureDepth, optOutDepth] at hdepth hopt
    obtain ⟨entered, hpush, hentered, hcount, -⟩ := Settled.push (t := t) (by omega)
    obtain ⟨inner, left, hbody, hleft, hinner⟩ := ihb entered (by omega) (by rw [hcount]; omega)
    rw [hcount] at hleft hinner
    obtain ⟨hpopped, hreport⟩ := hleft.measure hpush
    obtain ⟨later, t', hrest, hsettled, hlater⟩ :=
      ihr left.pop.2 (by rw [hpopped.depth]; omega) (by rw [hpopped.doCount]; omega)
    rw [hpopped.doCount] at hsettled hlater
    refine ⟨inner ++ left.pop.1 :: later, t', ?_, ?_, ?_⟩
    · simp [run, hpush, hbody, hrest]
    · exact allocatedIf_measure body rest ▸ hpopped.trans hsettled
    · exact List.rel_append hinner (.cons hreport hlater)
  | optOut body rest ihb ihr =>
    simp only [measureDepth, optOutDepth] at hdepth hopt
    obtain ⟨hoff, hroom⟩ := optOut_counting (t := t) body.optOutDepth (by omega)
    obtain ⟨inner, left, hbody, hleft, hinner⟩ :=
      ihb { t with doCount := t.doCount + 1 } (by simp only; omega) hroom
    rw [hoff] at hleft hinner
    have hstep := Settled.optOut (t := t) hleft
    obtain ⟨later, t', hrest, hsettled, hlater⟩ :=
      ihr _ (by rw [hstep.depth]; omega) (by rw [hstep.doCount]; omega)
    rw [hstep.doCount] at hsettled hlater
    refine ⟨inner ++ later, t', ?_, hstep.trans hsettled, List.rel_append hinner hlater⟩
    simp [run, hbody, hrest]

/-- The totals that the `measure` calls of a closure return are the number and the bytes of
the allocations in their closures outside `opt_out`, as 64-bit numbers. -/
theorem run_measures (closure : Closure) (t : ThreadCounters)
    (hdepth : t.depth + closure.measureDepth < maxDepth)
    (hopt : t.doCount.toNat + closure.optOutDepth < UInt32.size) :
    ∃ infos t', closure.run t = some (infos, t') ∧
      List.Forall₂ (fun info sizes => info.countTotal = .ofNat sizes.length ∧
        info.bytesTotal = .ofNat (bytesOf sizes)) infos (closure.measured (t.doCount == 0)) := by
  obtain ⟨infos, t', hrun, -, hinfos⟩ := run_settled closure t hdepth hopt
  refine ⟨infos, t', hrun, hinfos.imp fun info sizes h => ?_⟩
  simpa [Grown, AllocationInfo.default] using h

/-- A measurement with one nested in it, an `opt_out` around a third, and a freed block. -/
def nestedMeasures : Closure :=
  .measure (.alloc 8 false <| .measure (.alloc 16 false <| .dealloc 8 .done) <|
    .optOut (.alloc 100 false <| .measure (.alloc 7 false .done) .done) <|
    .alloc 4 true <| .alloc 32 false .done) .done

theorem run_measures_nested : ∃ infos t',
    nestedMeasures.run .initial = some (infos, t') ∧
      List.Forall₂ (fun info sizes => info.countTotal = .ofNat sizes.length ∧
        info.bytesTotal = .ofNat (bytesOf sizes)) infos [[16], [], [8, 16, 32]] :=
  run_measures nestedMeasures .initial (by decide) (by decide)

end Closure
end MessagingBench.AllocationCounter
