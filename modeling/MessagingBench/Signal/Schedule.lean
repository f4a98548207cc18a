import MessagingBench.Signal.Application

/-!
# Broadcasts that all succeed

As long as no broadcast fails, the loop of the application phase is a matter of counting:
who sends next and whose receive is profiled depends on the active workers and on the
variables of the loop only. The broadcasts are computed here without any worker, and the
loop of the phase is shown to carry out exactly these.
-/

namespace MessagingBench.Signal

open List Routine

variable {ε : Type} (env : RunnerEnvironment ε) (config : RunnerConfig)
  (settings : ApplicationSettings) (plan : PayloadPlan) (active : List WorkerSpec)

/-- The variables after a broadcast between two positions. -/
def BroadcastLocals.after (vars : BroadcastLocals) (actorIdx : Nat) (profiled : Option Nat) :
    BroadcastLocals :=
  match active[actorIdx]? with
  | none => vars
  | some actor =>
    vars.succeeded plan actor.id (profiled.bind fun idx => (active[idx]?).map (·.id))

/-- The broadcasts of so many rounds: the positions of the sender and of the recipient whose
receive is profiled. -/
def broadcasts : Nat → BroadcastLocals → List (Nat × Option Nat)
  | 0, _ => []
  | rounds + 1, vars =>
    match nextBroadcast config settings plan vars active with
    | .stop => []
    | .done => []
    | .send actorIdx profiled =>
      (actorIdx, profiled) :: broadcasts rounds (vars.after plan active actorIdx profiled)

/-- Given broadcasts, one after the other. -/
def carryOut : List (Nat × Option Nat) → BroadcastLocals → Phase ε BroadcastLocals
  | [], vars => pure vars
  | (actorIdx, profiled) :: sends, vars => do
    let vars' ← broadcastOnce env config settings plan vars active actorIdx profiled
    carryOut sends vars'

/-- None of the given broadcasts fails: each of them is counted. -/
def Succeeding : List (Nat × Option Nat) → BroadcastLocals → RunnerState ε → Prop
  | [], _, _ => True
  | (actorIdx, profiled) :: sends, vars, s =>
    (broadcastOnce env config settings plan vars active actorIdx profiled s).1 =
        .ok (vars.after plan active actorIdx profiled) ∧
      Succeeding sends (vars.after plan active actorIdx profiled)
        (broadcastOnce env config settings plan vars active actorIdx profiled s).2

variable {vars : BroadcastLocals}

section Positions

variable {config settings plan active} {candidate : Candidate}

theorem profiledIndices_sublist :
    (profiledIndices settings plan active).Sublist (range active.length) := by
  have hfiltered (selected : Nat → Bool) :
      (if ((range active.length).filter selected).isEmpty then range active.length
        else (range active.length).filter selected).Sublist (range active.length) := by
    by_cases hempty : ((range active.length).filter selected).isEmpty = true
    · rw [if_pos hempty]
    · rw [if_neg hempty]
      exact filter_sublist
  exact hfiltered _

theorem mem_profiledIndices_lt {idx : Nat} (h : idx ∈ profiledIndices settings plan active) :
    idx < active.length :=
  mem_range.mp (profiledIndices_sublist.subset h)

theorem nodup_profiledIndices : (profiledIndices settings plan active).Nodup :=
  profiledIndices_sublist.nodup nodup_range

theorem length_filter_range (active : List WorkerSpec) (p : WorkerSpec → Bool) :
    ((range active.length).filter fun idx => (active[idx]?).any p).length =
      (active.filter p).length := by
  have hmap : active.map some = (range active.length).map (active[·]?) :=
    ext_getElem (by simp) fun idx _ _ => by simp
  calc ((range active.length).filter fun idx => (active[idx]?).any p).length
      = ((range active.length).map (active[·]?)).countP (·.any p) := by
        rw [countP_map, countP_eq_length_filter]
        rfl
    _ = active.countP p := by
        rw [← hmap, countP_map]
        rfl
    _ = (active.filter p).length := countP_eq_length_filter

/-- The workers that are profiled, if there are any. -/
def profiledBy (settings : ApplicationSettings) (plan : PayloadPlan) (worker : WorkerSpec) : Bool :=
  if plan.samplesPerExternal.isSome then settings.externalDensityIds.contains worker.id
  else worker.profileEnabled

theorem profiledIndices_eq (hsome : 0 < (active.filter (profiledBy settings plan)).length) :
    profiledIndices settings plan active =
      (range active.length).filter fun idx =>
        (active[idx]?).any (profiledBy settings plan) := by
  have hnonempty : ¬((range active.length).filter fun idx =>
      (active[idx]?).any (profiledBy settings plan)).isEmpty = true := by
    rw [isEmpty_iff_length_eq_zero, length_filter_range]
    omega
  have hselected (selected : Nat → Bool)
      (h : selected = fun idx => (active[idx]?).any (profiledBy settings plan)) :
      (if ((range active.length).filter selected).isEmpty then range active.length
        else (range active.length).filter selected) =
      (range active.length).filter fun idx =>
        (active[idx]?).any (profiledBy settings plan) := by
    rw [h, if_neg hnonempty]
  refine hselected _ (funext fun idx => ?_)
  cases active[idx]? <;> rfl

theorem foldl_candidates_mem {candidates : List Candidate} {best : Option Candidate}
    (h : candidates.foldl (fun best candidate =>
      match best with
      | none => some candidate
      | some other => if candidate.before other then some candidate else some other) best =
        some candidate) :
    candidate ∈ candidates ∨ best = some candidate := by
  induction candidates generalizing best with
  | nil => exact .inr h
  | cons first candidates ih =>
    rw [foldl_cons] at h
    rcases ih h with hmem | hbest
    · exact .inl (mem_cons_of_mem _ hmem)
    cases best with
    | none =>
      cases hbest
      exact .inl mem_cons_self
    | some other =>
      dsimp only at hbest
      split at hbest
      · cases hbest
        exact .inl mem_cons_self
      · exact .inr hbest

variable {actorSuccesses receiverSuccesses : Successes} {required actorIdx recipientIdx : Nat}

theorem densityCandidate_eq {actor recipient : WorkerSpec} (hactor : active[actorIdx]? = some actor)
    (hrecipient : active[recipientIdx]? = some recipient) :
    densityCandidate active actorSuccesses receiverSuccesses required actorIdx recipientIdx =
      if actorIdx = recipientIdx ∨
          (if actorSuccesses.count actor.id < required then 1 else 0) +
            (if receiverSuccesses.count recipient.id < required then 1 else 0) = 0 then none
      else some ⟨2 - ((if actorSuccesses.count actor.id < required then 1 else 0) +
          (if receiverSuccesses.count recipient.id < required then 1 else 0)),
        min (actorSuccesses.count actor.id + receiverSuccesses.count recipient.id) usizeMax,
        actor.id, recipient.id, actorIdx, recipientIdx⟩ := by
  unfold densityCandidate
  rw [hactor, hrecipient]
  rfl

theorem densityCandidate_positions
    (h : densityCandidate active actorSuccesses receiverSuccesses required actorIdx recipientIdx =
      some candidate) : candidate.actorIdx = actorIdx ∧ candidate.recipientIdx = recipientIdx := by
  cases hactor : active[actorIdx]? with
  | none => simp [densityCandidate, hactor] at h
  | some actor =>
    cases hrecipient : active[recipientIdx]? with
    | none => simp [densityCandidate, hactor, hrecipient] at h
    | some recipient =>
      rw [densityCandidate_eq hactor hrecipient, Option.ite_none_left_eq_some] at h
      cases h.2
      exact ⟨rfl, rfl⟩

theorem profiledDensityPair_mem {indices : List Nat}
    (h : profiledDensityPair active indices actorSuccesses receiverSuccesses required =
      some (actorIdx, recipientIdx)) : actorIdx ∈ indices ∧ recipientIdx ∈ indices := by
  unfold profiledDensityPair at h
  obtain ⟨candidate, hfold, hpair⟩ := Option.map_eq_some_iff.mp h
  rcases foldl_candidates_mem hfold with hmem | hnone
  · obtain ⟨i, hi, hmem⟩ := mem_flatMap.mp hmem
    obtain ⟨j, hj, hcandidate⟩ := mem_filterMap.mp hmem
    obtain ⟨hactor, hrecipient⟩ := densityCandidate_positions hcandidate
    cases hpair
    rw [hactor, hrecipient]
    exact ⟨hi, hj⟩
  · cases hnone

theorem nextBroadcast_of_few (hfew : active.length < 2) :
    nextBroadcast config settings plan vars active = .stop := by
  unfold nextBroadcast
  rw [if_pos hfew]

theorem nextBroadcast_of_density {required : Nat} (hmany : 2 ≤ active.length)
    (hplan : plan.samplesPerExternal = some required) :
    nextBroadcast config settings plan vars active =
      match profiledDensityPair active (profiledIndices settings plan active) vars.actorSuccesses
          vars.receiverSuccesses required with
      | none => .done
      | some (actorIdx, recipientIdx) => .send actorIdx (some recipientIdx) := by
  unfold nextBroadcast
  rewrite [if_neg (Nat.not_lt.mpr hmany), hplan]
  rfl

/-- The broadcast with this number, when the workers take turns. -/
def turn (config : RunnerConfig) (settings : ApplicationSettings) (plan : PayloadPlan)
    (active : List WorkerSpec) (seqNo : Nat) : Nat × Option Nat :=
  let indices := profiledIndices settings plan active
  let selection := sampledParticipantIndex indices.length plan.basePerPayloadCount seqNo
  (indices.getD selection 0,
    profilingRecipient config plan seqNo indices selection (indices.getD selection 0))

theorem nextBroadcast_of_turns (hmany : 2 ≤ active.length) (hplan : plan.samplesPerExternal = none) :
    nextBroadcast config settings plan vars active =
      if plan.basePerPayloadCount ≤ vars.seqNo then .done
      else .send (turn config settings plan active vars.seqNo).1
        (turn config settings plan active vars.seqNo).2 := by
  unfold nextBroadcast
  rewrite [if_neg (Nat.not_lt.mpr hmany), hplan]
  rfl

theorem turn_lt {seqNo : Nat} (hmany : 2 ≤ active.length) :
    (turn config settings plan active seqNo).1 < active.length := by
  show (profiledIndices settings plan active).getD _ 0 < active.length
  rw [getD_eq_getElem?_getD]
  cases hget : (profiledIndices settings plan active)[sampledParticipantIndex
      (profiledIndices settings plan active).length plan.basePerPayloadCount seqNo]? with
  | none => exact Nat.lt_of_lt_of_le Nat.zero_lt_two hmany
  | some idx => exact mem_profiledIndices_lt (mem_of_getElem? hget)

variable (config settings plan active) in
/-- What the next broadcast says about the active workers: they are too few, or there are
enough of them and whoever is to send is one of them. -/
theorem nextBroadcast_spec (vars : BroadcastLocals) :
    match nextBroadcast config settings plan vars active with
    | .stop => active.length < 2
    | .done => 2 ≤ active.length
    | .send actorIdx _ => 2 ≤ active.length ∧ actorIdx < active.length := by
  by_cases hfew : active.length < 2
  · rw [nextBroadcast_of_few hfew]
    exact hfew
  have hmany : 2 ≤ active.length := Nat.not_lt.mp hfew
  cases hplan : plan.samplesPerExternal with
  | some required =>
    rw [nextBroadcast_of_density hmany hplan]
    cases hpair : profiledDensityPair active (profiledIndices settings plan active)
        vars.actorSuccesses vars.receiverSuccesses required with
    | none => exact hmany
    | some pair => exact ⟨hmany, mem_profiledIndices_lt (profiledDensityPair_mem hpair).1⟩
  | none =>
    rw [nextBroadcast_of_turns hmany hplan]
    by_cases hdone : plan.basePerPayloadCount ≤ vars.seqNo
    · rw [if_pos hdone]
      exact hmany
    · rw [if_neg hdone]
      exact ⟨hmany, turn_lt hmany⟩

end Positions

section Loop

/-- The active workers stay. -/
def keepingActive : Frame (RunnerState ε) where
  rel s s' := s'.active = s.active
  refl _ := rfl
  trans h₁ h₂ := h₂.trans h₁

variable {env config settings plan} {recipients : List WorkerSpec} {sender : WorkerSpec}
  {s : RunnerState ε} {payload : String} {actorIdx : Nat}

theorem nextWorkflowId_keepsActive : Within keepingActive (Phase.nextWorkflowId : Phase ε UInt64) :=
  .apply fun _ => rfl

theorem encryptPairwise_keepsActive :
    Within keepingActive (encryptPairwise env sender payload recipients) := by
  induction recipients with
  | nil => exact .pure ()
  | cons recipient recipients ih => exact .bind (fun _ => rfl) fun _ => ih

theorem encryptBroadcast_keepsActive :
    Within keepingActive (encryptBroadcast env config sender recipients payload) := by
  unfold encryptBroadcast
  split
  · exact .bind (fun _ => rfl) fun _ => .pure ()
  · exact encryptPairwise_keepsActive

theorem profileRecipients_keepsActive {profilingRecipientId : Option String} :
    Within keepingActive (profileRecipients profilingRecipientId recipients : Phase ε Unit) := by
  induction recipients with
  | nil => exact .pure ()
  | cons recipient recipients ih =>
    unfold profileRecipients
    split
    · exact .bind nextWorkflowId_keepsActive fun _ => ih
    · exact ih

theorem broadcastMessage_keepsActive (sender : WorkerSpec) (recipients : List WorkerSpec)
    (payload : String) (payloadSize : Nat) (profilingRecipientId : Option String) :
    Within keepingActive (broadcastMessage env config sender recipients payload payloadSize
      profilingRecipientId) :=
  .bind nextWorkflowId_keepsActive fun _ =>
    .bind encryptBroadcast_keepsActive fun _ =>
      .bind profileRecipients_keepsActive fun _ => fun _ => rfl

theorem samplePayloadSize_keepsActive (source : PayloadSizeSource) :
    Within keepingActive (samplePayloadSize env source) := by
  cases source with
  | fixed size => exact .pure size
  | uniformRange min max => exact .bind (.apply fun _ => rfl) fun _ => .pure _

variable (plan) in
theorem seqNo_after {active : List WorkerSpec} (vars : BroadcastLocals)
    (profiled : Option Nat) (hactor : actorIdx < active.length) :
    (vars.after plan active actorIdx profiled).seqNo = vars.seqNo + 1 := by
  unfold BroadcastLocals.after
  rw [getElem?_eq_getElem hactor]
  rfl

/-- Whoever fails is not counted, so a broadcast that counts leaves the active workers. -/
theorem broadcastOnce_keepsActive {profiled : Option Nat}
    (hactor : actorIdx < active.length)
    (h : (broadcastOnce env config settings plan vars active actorIdx profiled s).1 =
      .ok (vars.after plan active actorIdx profiled)) :
    (broadcastOnce env config settings plan vars active actorIdx profiled s).2.active =
      s.active := by
  obtain ⟨s', hs'⟩ : ∃ s', broadcastOnce env config settings plan vars active actorIdx profiled s =
      (.ok (vars.after plan active actorIdx profiled), s') := ⟨_, Prod.ext h rfl⟩
  rw [hs']
  have hseqNo := seqNo_after plan vars profiled hactor
  unfold broadcastOnce at hs'
  rw [getElem?_eq_getElem hactor] at hs'
  obtain ⟨size, s₁, hsize, hs'⟩ := bind_ok hs'
  obtain ⟨result, s₂, hresult, hs'⟩ := bind_ok hs'
  have hactive₁ := (samplePayloadSize_keepsActive plan.source).of_eq hsize
  have hactive₂ := (Within.attempt (broadcastMessage_keepsActive _ _ _ _ _)).of_eq hresult
  cases result with
  | ok value =>
    obtain ⟨-, rfl⟩ := pure_ok hs'
    exact hactive₂.trans hactive₁
  | error error =>
    obtain ⟨_, s₃, -, hs'⟩ := bind_ok hs'
    obtain ⟨hvars, -⟩ := pure_ok hs'
    rw [hvars] at hseqNo
    omega

/-- As long as no broadcast fails, the loop carries out the broadcasts that were computed and
then goes on with the next payload source. -/
theorem broadcastRounds_eq_carryOut {rounds : Nat}
    (hrounds : (broadcasts config settings plan s.active rounds vars).length < rounds)
    (hsucceeding : Succeeding env config settings plan s.active
      (broadcasts config settings plan s.active rounds vars) vars s) :
    broadcastRounds env config settings plan rounds vars s =
      (carryOut env config settings plan s.active
        (broadcasts config settings plan s.active rounds vars) vars >>= fun _ =>
          pure (decide (2 ≤ s.active.length))) s := by
  induction rounds generalizing vars s with
  | zero => exact absurd hrounds (Nat.not_lt_zero _)
  | succ rounds ih =>
    have hactive : (Phase.active : Phase ε (List WorkerSpec)) s = (.ok s.active, s) := rfl
    have hspec := nextBroadcast_spec config settings plan s.active vars
    unfold broadcastRounds
    rw [bind_apply, hactive, andThen_ok]
    unfold broadcasts at hrounds hsucceeding ⊢
    cases hnext : nextBroadcast config settings plan vars s.active with
    | stop | done =>
      rw [hnext] at hspec
      simp [carryOut, hspec]
    | send actorIdx profiled =>
      rw [hnext] at hrounds hsucceeding hspec
      obtain ⟨honce, hrest⟩ := hsucceeding
      have hkept := broadcastOnce_keepsActive s.active hspec.2 honce
      have hih := ih (by rw [hkept]; exact Nat.lt_of_succ_lt_succ hrounds)
        (by rw [hkept]; exact hrest)
      rw [hkept] at hih
      have hpair : broadcastOnce env config settings plan vars s.active actorIdx profiled s =
          (.ok (vars.after plan s.active actorIdx profiled),
            (broadcastOnce env config settings plan vars s.active actorIdx profiled s).2) :=
        Prod.ext honce rfl
      dsimp only
      rw [bind_apply, hpair, andThen_ok, hih, bind_apply,
        bind_apply, carryOut, bind_apply, hpair, andThen_ok]

end Loop

section Obliging

/-- Every encrypt command succeeds, and every recipient receives. -/
structure Obliging (env : RunnerEnvironment ε) : Prop where
  send : ∀ worker command phase e, ∃ message,
    expectOkFragment worker "encrypted and sent" (env.send worker command phase e).1 = .ok message
  fanout : ∀ commands e, (env.fanout commands e).1 = []

variable {env config settings plan} (hobliging : Obliging env)

include hobliging

variable (sender : WorkerSpec)

theorem Obliging.encrypts (command : Command) (s : RunnerState ε) :
    ∃ message s', sendCmdExpectOkFragmentWithContext env sender command none
      "encrypted and sent" s = (.ok message, s') := by
  obtain ⟨message, hmessage⟩ := hobliging.send sender command none s.env
  exact ⟨message, _, Prod.ext hmessage rfl⟩

theorem Obliging.encryptPairwise (payload : String) (recipients : List WorkerSpec)
    (s : RunnerState ε) : ∃ s', encryptPairwise env sender payload recipients s = (.ok (), s') := by
  induction recipients generalizing s with
  | nil => exact ⟨s, rfl⟩
  | cons recipient recipients ih =>
    obtain ⟨message, s₁, hsent⟩ := hobliging.encrypts sender
      (.encryptMessage recipient.id payload) s
    obtain ⟨s', hrest⟩ := ih s₁
    refine ⟨s', ?_⟩
    rw [Signal.encryptPairwise, bind_apply, hsent, andThen_ok, hrest]

variable (config) in
theorem Obliging.encryptBroadcast (recipients : List WorkerSpec)
    (payload : String) (s : RunnerState ε) :
    ∃ s', encryptBroadcast env config sender recipients payload s = (.ok (), s') := by
  unfold Signal.encryptBroadcast
  cases config.groupModel with
  | senderKeys =>
    obtain ⟨message, s₁, hsent⟩ := hobliging.encrypts sender
      (.senderKeyEncrypt (recipients.map (·.id)) payload) s
    refine ⟨s₁, ?_⟩
    dsimp only
    rw [bind_apply, hsent, andThen_ok]
    rfl
  | pairwise => exact hobliging.encryptPairwise sender payload recipients s

omit hobliging in
theorem profileRecipients_ok (profilingRecipientId : Option String) (recipients : List WorkerSpec)
    (s : RunnerState ε) :
    ∃ s', profileRecipients profilingRecipientId recipients s = (.ok (), s') := by
  induction recipients generalizing s with
  | nil => exact ⟨s, rfl⟩
  | cons recipient recipients ih =>
    unfold profileRecipients
    by_cases hprofiled : profilingRecipientId = some recipient.id
    · rw [if_pos hprofiled]
      exact ih _
    · rw [if_neg hprofiled]
      exact ih s

theorem Obliging.broadcastMessage (recipients : List WorkerSpec) (payload : String)
    (payloadSize : Nat) (profilingRecipientId : Option String) (s : RunnerState ε) :
    (broadcastMessage env config sender recipients payload payloadSize profilingRecipientId s).1 =
      .ok () := by
  unfold Signal.broadcastMessage
  obtain ⟨s₁, hid⟩ : ∃ s₁, (Phase.nextWorkflowId : Phase ε UInt64) s =
      (.ok s.workflowCounter, s₁) := ⟨_, rfl⟩
  obtain ⟨s₂, hencrypt⟩ := hobliging.encryptBroadcast config sender recipients payload s₁
  obtain ⟨s₃, hprofile⟩ := profileRecipients_ok profilingRecipientId recipients s₂
  rw [bind_apply, hid, andThen_ok, bind_apply, hencrypt, andThen_ok,
    bind_apply, hprofile, andThen_ok]
  simp [batchFanoutWorkers, hobliging.fanout]

/-- If no command fails, no broadcast does. -/
theorem Obliging.succeeding {sends : List (Nat × Option Nat)}
    (hsends : ∀ send ∈ sends, send.1 < active.length) (vars : BroadcastLocals) (s : RunnerState ε) :
    Succeeding env config settings plan active sends vars s := by
  induction sends generalizing vars s with
  | nil => trivial
  | cons send sends ih =>
    refine ⟨?_, ih (fun other hother => hsends other (mem_cons_of_mem _ hother)) _ _⟩
    have hget := getElem?_eq_getElem (hsends send mem_cons_self)
    obtain ⟨size, s₁, hsize⟩ : ∃ size s₁, samplePayloadSize env plan.source s = (.ok size, s₁) := by
      cases plan.source <;> exact ⟨_, _, rfl⟩
    unfold broadcastOnce BroadcastLocals.after
    rw [hget]
    dsimp only
    rw [bind_apply, hsize, andThen_ok, bind_apply, attempt_apply,
      andThen_ok, hobliging.broadcastMessage]
    rfl

end Obliging

end MessagingBench.Signal
