import MessagingBench.Core.Run

/-!
# Tasks on threads

A task is a sequence of strands: code that runs on one thread until it waits, and goes on on
any thread. Threads have a state of their own and share another one. Strands of different
threads are interleaved at every action. A discipline says how both states may have changed
when a task goes on, and what may be recorded; a strand that keeps it ends as stated,
whatever the other tasks do.
-/

namespace MessagingBench

open Function

/-- The state of a thread, the shared state, what is recorded and what comes from outside. -/
structure Threading where
  Local : Type
  Shared : Type
  Event : Type
  Answer : Type

/-- Code of a task. An action is handed the states of its thread and of all threads; a choice is
made at once, while an answer is waited for. -/
inductive Strand (T : Threading) (α : Type)
  | done (result : α)
  | act (effect : T.Local → T.Shared → T.Local × T.Shared × List T.Event)
      (next : T.Local → T.Shared → Strand T α)
  | choose (next : T.Answer → Strand T α)
  | await (next : T.Answer → Strand T α)

/-- What a strand may expect of others and what it may record. -/
structure Discipline (T : Threading) where
  /-- How the state of the thread may be when a task goes on, compared with when it waited. -/
  wake : T.Local → T.Local → Prop
  /-- How others, and the strand itself, may change the shared state. -/
  rely : T.Shared → T.Shared → Prop
  good : T.Event → Prop
  /-- What holds of the shared state at all times. -/
  valid : T.Shared → Prop
  valid_rely : ∀ {s₁ s₂}, rely s₁ s₂ → valid s₁ → valid s₂
  rely_refl : ∀ shared, rely shared shared
  rely_trans : ∀ {s₁ s₂ s₃}, rely s₁ s₂ → rely s₂ s₃ → rely s₁ s₃

namespace Strand

variable {T : Threading} {α β : Type}

def bind : Strand T α → (α → Strand T β) → Strand T β
  | done result, f => f result
  | act effect next, f => act effect fun local' shared => (next local' shared).bind f
  | choose next, f => choose fun answer => (next answer).bind f
  | await next, f => await fun answer => (next answer).bind f

variable (D : Discipline T) (touch : T.Local → T.Local → Prop)

/-- The strand keeps the discipline from the given states on, changes the state of its thread as
stated and ends as stated. -/
def Ensures (post : α → T.Local → T.Shared → Prop) : Strand T α → T.Local → T.Shared → Prop
  | done result, l, g => ∀ g', D.rely g g' → post result l g'
  | act effect next, l, g => ∀ g', D.rely g g' →
      D.rely g' (effect l g').2.1 ∧ touch l (effect l g').1 ∧
        (∀ event ∈ (effect l g').2.2, D.good event) ∧
          (next l g').Ensures post (effect l g').1 (effect l g').2.1
  | choose next, l, g => ∀ answer, (next answer).Ensures post l g
  | await next, l, g => ∀ l', D.wake l l' → ∀ answer, (next answer).Ensures post l' g

variable {D touch} {post : α → T.Local → T.Shared → Prop} {strand : Strand T α} {l : T.Local}
  {g g' : T.Shared}

theorem Ensures.of_rely (h : strand.Ensures D touch post l g) (hrely : D.rely g g') :
    strand.Ensures D touch post l g' := by
  induction strand generalizing l with
  | done result | act effect next ih => exact fun g'' hg => h g'' (D.rely_trans hrely hg)
  | choose next ih => exact fun answer => ih answer (h answer)
  | await next ih => exact fun l' hwake answer => ih answer (h l' hwake answer)

theorem Ensures.mono {post' : α → T.Local → T.Shared → Prop} (h : strand.Ensures D touch post l g)
    (himp : ∀ result l g, post result l g → post' result l g) :
    strand.Ensures D touch post' l g := by
  induction strand generalizing l g with
  | done result => exact fun g' hg => himp result l g' (h g' hg)
  | act effect next ih =>
    exact fun g' hg => ⟨(h g' hg).1, (h g' hg).2.1, (h g' hg).2.2.1, ih l g' (h g' hg).2.2.2⟩
  | choose next ih => exact fun answer => ih answer (h answer)
  | await next ih => exact fun l' hwake answer => ih answer (h l' hwake answer)

theorem Ensures.bind {f : α → Strand T β} {post : β → T.Local → T.Shared → Prop}
    (h : strand.Ensures D touch (fun result l g => (f result).Ensures D touch post l g) l g) :
    (strand.bind f).Ensures D touch post l g := by
  induction strand generalizing l g with
  | done result => exact h g (D.rely_refl g)
  | act effect next ih =>
    exact fun g' hg => ⟨(h g' hg).1, (h g' hg).2.1, (h g' hg).2.2.1, ih l g' (h g' hg).2.2.2⟩
  | choose next ih => exact fun answer => ih answer (h answer)
  | await next ih => exact fun l' hwake answer => ih answer (h l' hwake answer)

end Strand

section Handlers

/-- Code with a private state that may fail with a text; changes persist when it fails. -/
def Handler (T : Threading) (σ α : Type) : Type := σ → Strand T (Except String α × σ)

namespace Handler

variable {T : Threading} {σ α β : Type}

/-- Continue after success, stop with the text after failure. -/
def andThen (f : α → Handler T σ β) : Except String α × σ → Strand T (Except String β × σ)
  | (.ok a, s) => f a s
  | (.error text, s) => .done (.error text, s)

instance : Monad (Handler T σ) where
  pure a := fun s => .done (.ok a, s)
  bind x f := fun s => (x s).bind (andThen f)

def get : Handler T σ σ := fun s => .done (.ok s, s)

def set (s : σ) : Handler T σ Unit := fun _ => .done (.ok (), s)

def fail (text : String) : Handler T σ α := fun s => .done (.error text, s)

def attempt (x : Handler T σ α) : Handler T σ (Except String α) :=
  fun s => (x s).bind fun r => .done (.ok r.1, r.2)

/-- An action; its result is computed from the states before it. -/
def act (effect : T.Local → T.Shared → T.Local × T.Shared × List T.Event)
    (result : T.Local → T.Shared → α) : Handler T σ α :=
  fun s => .act effect fun l g => .done (.ok (result l g), s)

def choose : Handler T σ T.Answer := fun s => .choose fun answer => .done (.ok answer, s)

def await : Handler T σ T.Answer := fun s => .await fun answer => .done (.ok answer, s)

variable {D : Discipline T} {touch : T.Local → T.Local → Prop}
  {post : Except String α × σ → T.Local → T.Shared → Prop} {s : σ}
  {l : T.Local} {g : T.Shared} {x : Handler T σ α}

theorem ensures_bind {f : α → Handler T σ β}
    {post : Except String β × σ → T.Local → T.Shared → Prop}
    (h : (x s).Ensures D touch (fun r l g => (andThen f r).Ensures D touch post l g) l g) :
    ((x >>= f) s).Ensures D touch post l g :=
  h.bind

/-- After an attempt the code goes on in any case. -/
theorem ensures_attempt_bind {f : Except String α → Handler T σ β}
    {post : Except String β × σ → T.Local → T.Shared → Prop}
    (h : (x s).Ensures D touch (fun r l g => (f r.1 r.2).Ensures D touch post l g) l g) :
    ((attempt x >>= f) s).Ensures D touch post l g :=
  ensures_bind (h.mono fun _ _ _ hnext _ hrely => hnext.of_rely hrely).bind

end Handler

end Handlers

section Pools

variable {T : Threading} {σ ι J : Type}

/-- A task between two jobs, on a thread, or waiting. Of a job the state with which it began is
kept, and of a waiting one the state that its thread had when it began to wait. -/
inductive Status (T : Threading) (σ : Type)
  | resting (state : σ)
  | running (begun : σ) (thread : Nat) (strand : Strand T σ)
  | waiting (begun : σ) (left : T.Local) (next : T.Answer → Strand T σ)

/-- Tasks and threads; a thread runs one task at a time. -/
structure Pool (T : Threading) (σ ι : Type) where
  locals : Nat → T.Local
  shared : T.Shared
  occupant : Nat → Option ι
  tasks : ι → Status T σ
  events : List T.Event

inductive Move (T : Threading) (ι J : Type)
  | start (task : ι) (thread : Nat) (job : J)
  | resume (task : ι) (thread : Nat) (answer : T.Answer)
  | step (task : ι) (answer : T.Answer)

namespace Pool

variable [DecidableEq ι] (s : Pool T σ ι)

/-- The task gets a thread. -/
def enter (i : ι) (begun : σ) (thread : Nat) (strand : Strand T σ) : Pool T σ ι :=
  { s with
    occupant := update s.occupant thread (some i)
    tasks := update s.tasks i (.running begun thread strand) }

/-- The task gives up its thread. -/
def leave (i : ι) (thread : Nat) (status : Status T σ) : Pool T σ ι :=
  { s with
    occupant := update s.occupant thread none
    tasks := update s.tasks i status }

/-- The task has made an action on its thread. -/
def acted (i : ι) (begun : σ) (thread : Nat)
    (effect : T.Local → T.Shared → T.Local × T.Shared × List T.Event)
    (next : T.Local → T.Shared → Strand T σ) : Pool T σ ι :=
  { s with
    locals := update s.locals thread (effect (s.locals thread) s.shared).1
    shared := (effect (s.locals thread) s.shared).2.1
    events := s.events ++ (effect (s.locals thread) s.shared).2.2
    tasks := update s.tasks i (.running begun thread (next (s.locals thread) s.shared)) }

/-- The task goes on with a choice. -/
def chosen (i : ι) (begun : σ) (thread : Nat) (strand : Strand T σ) :
    Pool T σ ι :=
  { s with tasks := update s.tasks i (.running begun thread strand) }

/-- One move, where a job of a task begins with a strand. -/
def step (begin : ι → J → σ → Strand T σ) (s : Pool T σ ι) : Move T ι J → Pool T σ ι
  | .start i thread job =>
    match s.tasks i, s.occupant thread with
    | .resting state, none => s.enter i state thread (begin i job state)
    | _, _ => s
  | .resume i thread answer =>
    match s.tasks i, s.occupant thread with
    | .waiting begun _ next, none => s.enter i begun thread (next answer)
    | _, _ => s
  | .step i answer =>
    match s.tasks i with
    | .running _ thread (.done state) => s.leave i thread (.resting state)
    | .running begun thread (.act effect next) => s.acted i begun thread effect next
    | .running begun thread (.choose next) => s.chosen i begun thread (next answer)
    | .running begun thread (.await next) =>
      s.leave i thread (.waiting begun (s.locals thread) next)
    | _ => s

/-- What a move can do. -/
inductive Does (begin : ι → J → σ → Strand T σ) (s : Pool T σ ι) : Move T ι J → Pool T σ ι → Prop
  | nothing (move : Move T ι J) : Does begin s move s
  | start {i : ι} {thread : Nat} {state : σ} (job : J) (htask : s.tasks i = .resting state)
      (hfree : s.occupant thread = none) :
      Does begin s (.start i thread job) (s.enter i state thread (begin i job state))
  | resume {i : ι} {thread : Nat} {begun : σ} {left : T.Local} {next : T.Answer → Strand T σ}
      (answer : T.Answer) (htask : s.tasks i = .waiting begun left next)
      (hfree : s.occupant thread = none) :
      Does begin s (.resume i thread answer) (s.enter i begun thread (next answer))
  | finish {i : ι} {thread : Nat} {begun state : σ} (answer : T.Answer)
      (htask : s.tasks i = .running begun thread (.done state)) :
      Does begin s (.step i answer) (s.leave i thread (.resting state))
  | act {i : ι} {thread : Nat} {begun : σ}
      {effect : T.Local → T.Shared → T.Local × T.Shared × List T.Event}
      {next : T.Local → T.Shared → Strand T σ} (answer : T.Answer)
      (htask : s.tasks i = .running begun thread (.act effect next)) :
      Does begin s (.step i answer) (s.acted i begun thread effect next)
  | choose {i : ι} {thread : Nat} {begun : σ} {next : T.Answer → Strand T σ} (answer : T.Answer)
      (htask : s.tasks i = .running begun thread (.choose next)) :
      Does begin s (.step i answer) (s.chosen i begun thread (next answer))
  | await {i : ι} {thread : Nat} {begun : σ} {next : T.Answer → Strand T σ} (answer : T.Answer)
      (htask : s.tasks i = .running begun thread (.await next)) :
      Does begin s (.step i answer) (s.leave i thread (.waiting begun (s.locals thread) next))

theorem does_step (begin : ι → J → σ → Strand T σ) (s : Pool T σ ι) (move : Move T ι J) :
    s.Does begin move (s.step begin move) := by
  cases move with
  | start i thread job =>
    simp only [step]
    split
    · rename_i htask hfree
      exact .start job htask hfree
    · exact .nothing _
  | resume i thread answer =>
    simp only [step]
    split
    · rename_i htask hfree
      exact .resume answer htask hfree
    · exact .nothing _
  | step i answer =>
    simp only [step]
    split
    · rename_i htask
      exact .finish answer htask
    · rename_i htask
      exact .act answer htask
    · rename_i htask
      exact .choose answer htask
    · rename_i htask
      exact .await answer htask
    · exact .nothing _

end Pool

/-- How the jobs of all tasks behave. -/
structure Conduct (T : Threading) (σ ι : Type) extends Discipline T where
  /-- The states of a thread on which a job may start; a job leaves such a state behind. -/
  clean : T.Local → Prop
  /-- The states of a task between two jobs. -/
  keeps : ι → σ → Prop
  /-- How a job that began in a state may change the state of its thread. -/
  touch : ι → σ → T.Local → T.Local → Prop
  /-- In which state a job that began in a state may end. -/
  ends : ι → σ → σ → Prop
  keeps_of_ends : ∀ {i begun state}, ends i begun state → keeps i state

/-- The end of a job. -/
def Conduct.Ending (C : Conduct T σ ι) (i : ι) (begun state : σ) (l : T.Local) (_ : T.Shared) :
    Prop :=
  C.ends i begun state ∧ C.clean l

/-- The code of a job conducts itself. -/
def Conduct.Follows (C : Conduct T σ ι) (i : ι) (begun : σ) (strand : Strand T σ) (l : T.Local)
    (g : T.Shared) : Prop :=
  strand.Ensures C.toDiscipline (C.touch i begun) (C.Ending i begun) l g

namespace Pool

variable [DecidableEq ι] (C : Conduct T σ ι)

/-- Where a task is, it conducts itself. -/
def Fits (s : Pool T σ ι) (i : ι) : Status T σ → Prop
  | .resting state => C.keeps i state
  | .running begun thread strand => s.occupant thread = some i ∧
      C.Follows i begun strand (s.locals thread) s.shared
  | .waiting begun left next => ∀ l, C.wake left l → ∀ answer,
      C.Follows i begun (next answer) l s.shared

/-- All tasks conduct themselves, and all that was recorded is good. -/
structure Sound (s : Pool T σ ι) : Prop where
  valid : C.valid s.shared
  good : ∀ event ∈ s.events, C.good event
  fits : ∀ i, s.Fits C i (s.tasks i)

/-- A job starts on a clean thread, and a task goes on on a thread that is as it may be. -/
def Admitted (accepts : ι → J → Prop) (s : Pool T σ ι) : Move T ι J → Prop
  | .start i thread job => C.clean (s.locals thread) ∧ accepts i job
  | .resume i thread _ => ∀ begun left next, s.tasks i = .waiting begun left next →
      C.wake left (s.locals thread)
  | .step _ _ => True

/-- Every accepted job conducts itself from a clean thread on. -/
def Begins (begin : ι → J → σ → Strand T σ) (accepts : ι → J → Prop) : Prop :=
  ∀ i job state l g, accepts i job → C.keeps i state → C.clean l → C.valid g →
    C.Follows i state (begin i job state) l g

variable {C} {begin : ι → J → σ → Strand T σ} {accepts : ι → J → Prop}
  {s s' : Pool T σ ι} {i : ι} {thread : Nat} {begun : σ} {status : Status T σ} {move : Move T ι J}

omit [DecidableEq ι] in
/-- A task is not concerned by a change of other threads. -/
theorem Fits.carry (h : s.Fits C i status) (hrely : C.rely s.shared s'.shared)
    (hthread : ∀ t, s.occupant t = some i → s'.occupant t = some i ∧ s'.locals t = s.locals t) :
    s'.Fits C i status := by
  cases status with
  | resting state => exact h
  | running begun t strand =>
    obtain ⟨hon, hlocal⟩ := hthread t h.1
    refine ⟨hon, ?_⟩
    rw [hlocal]
    exact h.2.of_rely hrely
  | waiting begun left next => exact fun l hwake answer => (h l hwake answer).of_rely hrely

/-- One task moves, the threads of the others stay as they are. -/
theorem Sound.moved (h : s.Sound C) (htasks : s'.tasks = update s.tasks i status)
    (hrely : C.rely s.shared s'.shared) (hgood : ∀ event ∈ s'.events, C.good event)
    (hown : s'.Fits C i status)
    (hothers : ∀ j ≠ i, ∀ t, s.occupant t = some j →
      s'.occupant t = some j ∧ s'.locals t = s.locals t) : s'.Sound C := by
  refine ⟨C.valid_rely hrely h.valid, hgood, fun j => ?_⟩
  rw [htasks]
  by_cases hji : j = i
  · rw [hji, update_self]
    exact hown
  · rw [update_of_ne hji]
    exact (h.fits j).carry hrely (hothers j hji)

/-- A task gets a thread with a strand that conducts itself there. -/
theorem Sound.enter (h : s.Sound C) {strand : Strand T σ} (hfree : s.occupant thread = none)
    (hstrand : C.Follows i begun strand (s.locals thread) s.shared) :
    (s.enter i begun thread strand).Sound C := by
  refine h.moved rfl (C.rely_refl _) h.good ⟨update_self .., hstrand⟩ fun j _ t ht => ?_
  have hne : t ≠ thread := by
    rintro rfl
    rw [hfree] at ht
    cases ht
  exact ⟨(update_of_ne hne _ _).trans ht, rfl⟩

omit [DecidableEq ι] in
/-- The thread of a task is not the thread of another one. -/
theorem ne_of_occupant {i j : ι} {t : Nat} (hon : s.occupant thread = some i)
    (hother : s.occupant t = some j) (hji : j ≠ i) : t ≠ thread := by
  rintro rfl
  rw [hon] at hother
  exact hji (Option.some.inj hother).symm

/-- A task gives up its thread. -/
theorem Sound.leave (h : s.Sound C) (hon : s.occupant thread = some i)
    (hstatus : s.Fits C i status) (hnot : ∀ begun t strand, status ≠ .running begun t strand) :
    (s.leave i thread status).Sound C := by
  refine h.moved rfl (C.rely_refl _) h.good ?_ fun j hji t ht => ?_
  · cases status with
    | resting state | waiting begun left next => exact hstatus
    | running begun t strand => exact absurd rfl (hnot begun t strand)
  · exact ⟨(update_of_ne (ne_of_occupant hon ht hji) _ _).trans ht, rfl⟩

/-- An action changes the state of the own thread, and the shared state as others expect. -/
theorem Sound.acted (h : s.Sound C)
    {effect : T.Local → T.Shared → T.Local × T.Shared × List T.Event}
    {next : T.Local → T.Shared → Strand T σ} (hon : s.occupant thread = some i)
    (hens : C.Follows i begun (.act effect next) (s.locals thread) s.shared) :
    (s.acted i begun thread effect next).Sound C := by
  obtain ⟨hrely, -, hgood, hnext⟩ := hens s.shared (C.rely_refl s.shared)
  refine h.moved rfl hrely (fun event hevent => ?_) ⟨hon, ?_⟩ fun j hji t ht => ⟨ht, ?_⟩
  · rcases List.mem_append.mp hevent with hevent | hevent
    · exact h.good event hevent
    · exact hgood event hevent
  · have hlocal : (s.acted i begun thread effect next).locals thread =
        (effect (s.locals thread) s.shared).1 := update_self ..
    rw [hlocal]
    exact hnext
  · exact update_of_ne (ne_of_occupant hon ht hji) _ _

omit [DecidableEq ι] in
theorem Sound.fits_of (h : s.Sound C) (htask : s.tasks i = status) : s.Fits C i status :=
  htask ▸ h.fits i

theorem Sound.of_does (h : s.Sound C) (hbegin : Begins C begin accepts)
    (hadmitted : Admitted C accepts s move) (hdoes : s.Does begin move s') : s'.Sound C := by
  cases hdoes with
  | nothing => exact h
  | start job htask hfree =>
    exact h.enter hfree (hbegin _ _ _ _ _ hadmitted.2 (h.fits_of htask) hadmitted.1 h.valid)
  | resume answer htask hfree =>
    exact h.enter hfree (h.fits_of htask _ (hadmitted _ _ _ htask) answer)
  | finish answer htask =>
    obtain ⟨hon, hens⟩ := h.fits_of htask
    exact h.leave hon (C.keeps_of_ends (hens s.shared (C.rely_refl _)).1) (by simp)
  | act answer htask =>
    obtain ⟨hon, hens⟩ := h.fits_of htask
    exact h.acted hon hens
  | choose answer htask =>
    obtain ⟨hon, hens⟩ := h.fits_of htask
    have hown : s.Fits C _ (.running _ _ _) := ⟨hon, hens answer⟩
    exact h.moved rfl (C.rely_refl _) h.good hown fun _ _ _ ht => ⟨ht, rfl⟩
  | await answer htask =>
    obtain ⟨hon, hens⟩ := h.fits_of htask
    exact h.leave hon hens (by simp)

/-- Every admitted move keeps all tasks to their conduct. -/
theorem Sound.step (h : s.Sound C) (hbegin : Begins C begin accepts)
    (hadmitted : Admitted C accepts s move) : (s.step begin move).Sound C :=
  h.of_does hbegin hadmitted (s.does_step begin move)

/-- In every run of admitted moves all that is recorded is good. -/
theorem Sound.of_guarded (hbegin : Begins C begin accepts) {moves : List (Move T ι J)}
    (h : s.Sound C) (hguarded : Guarded (Pool.step begin) (Admitted C accepts) s moves) :
    (execute (Pool.step begin) s moves).Sound C :=
  hguarded.invariant (fun _ _ hsound hadmitted => hsound.step hbegin hadmitted) h

end Pool

end Pools

end MessagingBench
