import MessagingBench.Core.Strand

/-!
# What tasks leave on threads

While a task is on a thread, it may leave traces in the state of the thread, and while it waits
they stay there. If jobs start on clean threads only, clean up before they end, and go on where
they left their traces, then the traces of a job are on one thread at most, nobody else's are
there, and after the job none is left anywhere.
-/

namespace MessagingBench.Pool

open Function

variable {T : Threading} {σ ι J : Type} [DecidableEq ι] {C : Conduct T σ ι}
  {begin : ι → J → σ → Strand T σ} {accepts : ι → J → Prop} {s s' : Pool T σ ι} {i : ι}
  {thread : Nat} {begun : σ} {status : Status T σ}

/-- What is on a thread of the jobs of tasks, named by the state with which they began: a job
adds only traces of its own, a clean thread has none, and none is lost while a task waits. -/
structure Traces (C : Conduct T σ ι) where
  has : T.Local → ι → σ → Prop
  of_touch : ∀ {i begun l l' j state}, C.touch i begun l l' → has l' j state →
    has l j state ∨ j = i ∧ state = begun
  not_clean : ∀ {l j state}, C.clean l → ¬ has l j state
  of_wake : ∀ {l l' j state}, C.wake l l' → (has l j state ↔ has l' j state)

variable (trace : Traces C)

/-- The traces of a task are on the thread where it is or waits to go on, and there is nothing
else there. -/
def Homed (s : Pool T σ ι) (i : ι) : Status T σ → Prop
  | .resting _ => ∀ t state, ¬ trace.has (s.locals t) i state
  | .running begun thread _ =>
      (∀ j state, trace.has (s.locals thread) j state → j = i ∧ state = begun) ∧
        ∀ t state, trace.has (s.locals t) i state → t = thread
  | .waiting begun left _ => (∀ j state, trace.has left j state → j = i ∧ state = begun) ∧
      (∀ t state, trace.has (s.locals t) i state → trace.has left i state) ∧
        ∀ t t' state state', trace.has (s.locals t) i state → trace.has (s.locals t') i state' →
          t = t'

variable {trace} {R : σ → Prop} {moves : List (Move T ι J)} {move : Move T ι J} {state : σ}
  {t : Nat}

omit [DecidableEq ι] in
/-- A task is not concerned by changes that add no traces of it and leave its thread alone. -/
theorem Homed.carry (h : s.Homed trace i status)
    (hadded : ∀ t state, trace.has (s'.locals t) i state → trace.has (s.locals t) i state)
    (hthread : ∀ begun t strand, status = .running begun t strand → s'.locals t = s.locals t) :
    s'.Homed trace i status := by
  cases status with
  | resting state => exact fun t state' hhas => h t state' (hadded t state' hhas)
  | running begun t strand =>
    refine ⟨?_, fun t' state hhas => h.2 t' state (hadded t' state hhas)⟩
    rw [hthread begun t strand rfl]
    exact h.1
  | waiting begun left next =>
    refine ⟨h.1, fun t state hhas => h.2.1 t state (hadded t state hhas), ?_⟩
    exact fun t t' state state' hhas hhas' =>
      h.2.2 t t' state state' (hadded t state hhas) (hadded t' state' hhas')

/-- One task moves without a change of any thread. -/
theorem homed_moved (h : ∀ j, s.Homed trace j (s.tasks j))
    (htasks : s'.tasks = update s.tasks i status) (hlocals : s'.locals = s.locals)
    (hown : s.Homed trace i status) (j : ι) : s'.Homed trace j (s'.tasks j) := by
  have hcarry : ∀ {j status}, s.Homed trace j status → s'.Homed trace j status := by
    intro j status hj
    refine hj.carry (fun t state hhas => ?_) fun _ t _ _ => ?_
    · rw [hlocals] at hhas
      exact hhas
    · rw [hlocals]
  rw [htasks]
  by_cases hji : j = i
  · rw [hji, update_self]
    exact hcarry hown
  · rw [update_of_ne hji]
    exact hcarry (h j)

/-- An action leaves the traces of other tasks alone. -/
theorem homed_acted (hsound : s.Sound C) (h : ∀ j, s.Homed trace j (s.tasks j))
    {effect : T.Local → T.Shared → T.Local × T.Shared × List T.Event}
    {next : T.Local → T.Shared → Strand T σ}
    (htask : s.tasks i = .running begun thread (.act effect next)) (j : ι) :
    (s.acted i begun thread effect next).Homed trace j
      ((s.acted i begun thread effect next).tasks j) := by
  obtain ⟨hon, hens⟩ := hsound.fits_of htask
  obtain ⟨-, htouch, -, -⟩ := hens s.shared (C.rely_refl s.shared)
  have hself : (s.acted i begun thread effect next).locals thread =
      (effect (s.locals thread) s.shared).1 := update_self ..
  have hother : ∀ t ≠ thread, (s.acted i begun thread effect next).locals t = s.locals t :=
    fun t ht => update_of_ne ht _ _
  have hhome := h i
  rw [htask] at hhome
  have hadded : ∀ t k state, trace.has ((s.acted i begun thread effect next).locals t) k state →
      trace.has (s.locals t) k state ∨ t = thread ∧ k = i ∧ state = begun := by
    intro t k state hhas
    by_cases ht : t = thread
    · subst ht
      rw [hself] at hhas
      exact (trace.of_touch htouch hhas).imp id fun hown => ⟨rfl, hown⟩
    · rw [hother t ht] at hhas
      exact .inl hhas
  by_cases hji : j = i
  · subst hji
    have hstatus : (s.acted j begun thread effect next).tasks j =
        .running begun thread (next (s.locals thread) s.shared) := update_self ..
    rw [hstatus]
    refine ⟨fun k state hhas => ?_, fun t state hhas => ?_⟩
    · rcases hadded thread k state hhas with hold | ⟨-, hown⟩
      · exact hhome.1 k state hold
      · exact hown
    · rcases hadded t j state hhas with hold | ⟨ht, -⟩
      · exact hhome.2 t state hold
      · exact ht
  · have hstatus : (s.acted i begun thread effect next).tasks j = s.tasks j :=
      update_of_ne hji _ _
    rw [hstatus]
    refine (h j).carry (fun t state hhas => ?_) fun begun' t strand hrun => hother t ?_
    · rcases hadded t j state hhas with hold | ⟨-, hown, -⟩
      · exact hold
      · exact absurd hown hji
    · exact ne_of_occupant hon (hsound.fits_of hrun).1 hji

theorem homed_of_does (hsound : s.Sound C) (h : ∀ j, s.Homed trace j (s.tasks j))
    (hadmitted : Admitted C accepts s move) (hdoes : s.Does begin move s') :
    ∀ j, s'.Homed trace j (s'.tasks j) := by
  have hhome : ∀ {j status}, s.tasks j = status → s.Homed trace j status := by
    intro j status hj
    exact hj ▸ h j
  cases hdoes with
  | nothing => exact h
  | start job htask hfree =>
    refine homed_moved h rfl rfl ⟨fun j state hhas => ?_, fun t state hhas => ?_⟩
    · exact absurd hhas (trace.not_clean hadmitted.1)
    · exact absurd hhas (hhome htask t state)
  | resume answer htask hfree =>
    have hwake := hadmitted _ _ _ htask
    obtain ⟨hown, hleft, hunique⟩ := hhome htask
    refine homed_moved h rfl rfl ⟨fun j state hhas => ?_, fun t state hhas => ?_⟩
    · exact hown j state ((trace.of_wake hwake).mpr hhas)
    · exact hunique _ _ state state hhas ((trace.of_wake hwake).mp (hleft t state hhas))
  | finish answer htask =>
    obtain ⟨-, hens⟩ := hsound.fits_of htask
    have hclean := (hens s.shared (C.rely_refl _)).2
    refine homed_moved h rfl rfl fun t state hhas => ?_
    rw [(hhome htask).2 t state hhas] at hhas
    exact trace.not_clean hclean hhas
  | act answer htask => exact homed_acted hsound h htask
  | choose answer htask =>
    exact homed_moved h rfl rfl ⟨(hhome htask).1, (hhome htask).2⟩
  | await answer htask =>
    obtain ⟨hown, honly⟩ := hhome htask
    refine homed_moved h rfl rfl ⟨hown, fun t state hhas => ?_,
      fun t t' state state' hhas hhas' => ?_⟩
    · rw [honly t state hhas] at hhas
      exact hhas
    · rw [honly t state hhas, honly t' state' hhas']

/-- The job of a task, or its next one, began in a state of the given kind. -/
def Since (R : σ → Prop) : Status T σ → Prop
  | .resting state => R state
  | .running begun _ _ => R begun
  | .waiting begun _ _ => R begun

/-- A kind of states that jobs do not leave is not left. -/
theorem since_of_does (hR : ∀ begun state, R begun → C.ends i begun state → R state)
    (hsound : s.Sound C) (h : Since R (s.tasks i))
    (hdoes : s.Does begin move s') : Since R (s'.tasks i) := by
  have hupdate : ∀ {j : ι} {old new : Status T σ}, s.tasks j = old →
      (j = i → Since R old → Since R new) → Since R (update s.tasks j new i) := by
    intro j old new hold hnew
    by_cases hij : i = j
    · subst hij
      rw [update_self]
      exact hnew rfl (hold ▸ h)
    · rw [update_of_ne hij]
      exact h
  cases hdoes with
  | nothing => exact h
  | start job htask hfree | resume answer htask hfree | act answer htask
  | choose answer htask | await answer htask => exact hupdate htask fun _ hold => hold
  | finish answer htask =>
    refine hupdate htask ?_
    rintro rfl hold
    exact hR _ _ hold ((hsound.fits_of htask).2 s.shared (C.rely_refl _)).1

omit [DecidableEq ι] in
theorem Homed.since (h : s.Homed trace i (s.tasks i))
    (hsince : Since R (s.tasks i)) (hhas : trace.has (s.locals t) i state) : R state := by
  cases htask : s.tasks i with
  | resting state' =>
    rw [htask] at h
    exact absurd hhas (h t state)
  | running begun thread strand =>
    rw [htask] at h hsince
    rw [h.2 t state hhas] at hhas
    rw [(h.1 i state hhas).2]
    exact hsince
  | waiting begun left next =>
    rw [htask] at h hsince
    rw [(h.1 i state (h.2.1 t state hhas)).2]
    exact hsince

variable (trace) in
/-- All tasks conduct themselves and leave traces only where they are. -/
structure Tidy (s : Pool T σ ι) : Prop where
  sound : s.Sound C
  homed : ∀ i, s.Homed trace i (s.tasks i)

theorem Tidy.of_guarded (hbegin : Begins C begin accepts)
    (h : s.Tidy trace) (hguarded : Guarded (Pool.step begin) (Admitted C accepts) s moves) :
    (execute (Pool.step begin) s moves).Tidy trace :=
  hguarded.invariant (fun s move hs hadmitted =>
    ⟨hs.sound.step hbegin hadmitted,
      homed_of_does hs.sound hs.homed hadmitted (s.does_step begin move)⟩) h

/-- Once the jobs of a task have come to a kind of states, no trace of an earlier job is left or
comes back, on any thread. -/
theorem Tidy.since (hbegin : Begins C begin accepts)
    (hR : ∀ begun state, R begun → C.ends i begun state → R state) (h : s.Tidy trace)
    (hsince : Since R (s.tasks i))
    (hguarded : Guarded (Pool.step begin) (Admitted C accepts) s moves)
    (hhas : trace.has ((execute (Pool.step begin) s moves).locals t) i state) : R state := by
  have hstep : ∀ (s : Pool T σ ι) (move : Move T ι J), s.Sound C ∧ Since R (s.tasks i) →
      Admitted C accepts s move →
      (s.step begin move).Sound C ∧ Since R ((s.step begin move).tasks i) :=
    fun s move hs hadmitted =>
      ⟨hs.1.step hbegin hadmitted, since_of_does hR hs.1 hs.2 (s.does_step begin move)⟩
  have hrun := Guarded.invariant hstep hguarded ⟨h.sound, hsince⟩
  exact ((h.of_guarded hbegin hguarded).homed i).since hrun.2 hhas

end MessagingBench.Pool
