import MessagingBench.Worker.Conduct

/-!
# What holds in every run

In every state of every run the services have answered genuinely, every slot is in
order, and every waiting program keeps its contract once it is resumed. From this
follow the facts that results about runs start from: what a step can record, and
which calls a worker can be waiting for.
-/

namespace MessagingBench.Worker

open World List Delivery

variable {M : Mls} (log : Log Event)

/-- Progress of a call of a waiting job. -/
def CallOk (job : Job) (call : Call) : CallState → Prop
  | .active _ _ call' => call' = call
  | .finished reply => Heard log job call.request reply

/-- A commit that is posted was created. -/
def PostOk (call : Call) : Prop :=
  ∀ groupId sender epoch commitBytes,
    call.request = .publishGroupCommit groupId sender epoch commitBytes →
    Event.created sender groupId epoch commitBytes ∈ log.events

/-- The calls a program waits for. -/
def CallsOk (job : Job) (calls : List CallState) : CommandProgram M → Prop
  | .await _ pending _ =>
    Forall₂ (CallOk log job) pending calls ∧ ∀ call ∈ pending, PostOk log call
  | _ => True

/-- The program keeps the contract of its job, and the job ends as it should. -/
abbrev Fulfils (job : Job) (envelope : Envelope) (log : Log Event) (program : CommandProgram M) :
    Prop :=
  program.Sat (contract M job) (fun log r => Finishes job envelope log r.1 r.2) log

/-- What a worker is doing is in order. -/
def ActivityOk (nextJob : Nat) (worker : String) : Activity M → Prop
  | .idle slot => SlotOk worker log slot
  | .busy job envelope program calls =>
    job.worker = worker ∧ job.number < nextJob ∧
      program.Ready (contract M job) (fun log r => Finishes job envelope log r.1 r.2) log ∧
      CallsOk log job calls program

/-- Every call that ended belongs to a job that was started. -/
def Numbered (nextJob : Nat) : Prop :=
  ∀ id job request result, Event.concluded id job request result ∈ log.events →
    job.number < nextJob

/-- The state of a run is in order. -/
structure Kept (world : World M) : Prop where
  sound : Sound M world.log
  numbered : Numbered world.log world.nextJob
  workers : ∀ worker activity, world.workers worker = some activity →
    ActivityOk world.log world.nextJob worker activity

variable {program : CommandProgram M} {event : Event} {world : World M} {action : Action}

section Extension

variable {log log' : Log Event} {nextJob nextJob' : Nat} {worker : String} {job : Job}

theorem Finishes.grows {envelope : Envelope} {result : Except String Outcome} {slot : Slot M}
    (h : Finishes job envelope log result slot) (hgrows : Grows job.worker log log') :
    Finishes job envelope log' result slot := by
  refine ⟨h.1.grows hgrows, ?_⟩
  intro text hcommand outcome hresult
  obtain ⟨hfinished, groupId, members, body, reply, hmembers, hbody, hheard⟩ :=
    h.2 text hcommand outcome hresult
  exact ⟨hfinished, groupId, members, body, reply, hmembers, hbody,
    hheard.mono fun _ => hgrows.mem⟩

theorem CallOk.mono {call : Call} {state : CallState} (h : CallOk log job call state)
    (hmem : ∀ event ∈ log.events, event ∈ log'.events) : CallOk log' job call state := by
  cases state with
  | active id attempt call' => exact h
  | finished reply => exact Heard.mono h hmem

theorem CallsOk.mono {calls : List CallState} (h : CallsOk log job calls program)
    (hmem : ∀ event ∈ log.events, event ∈ log'.events) : CallsOk log' job calls program := by
  cases program with
  | await state pending next =>
    refine ⟨h.1.imp fun _ _ hcall => hcall.mono hmem, ?_⟩
    intro call hcall groupId sender epoch commitBytes hrequest
    exact hmem _ (h.2 call hcall groupId sender epoch commitBytes hrequest)
  | done result => trivial
  | note event next => trivial
  | draw next => trivial

theorem ActivityOk.grows {activity : Activity M} (h : ActivityOk log nextJob worker activity)
    (hgrows : Grows worker log log') (hjob : nextJob ≤ nextJob') :
    ActivityOk log' nextJob' worker activity := by
  cases activity with
  | idle slot => exact SlotOk.grows h hgrows
  | busy job envelope program calls =>
    obtain ⟨rfl, hnumber, hready, hcalls⟩ := h
    refine ⟨rfl, hnumber.trans_le hjob, hready.mono hgrows ?_, hcalls.mono fun _ => hgrows.mem⟩
    exact fun r hr => Finishes.grows hr hgrows

/-- Events that nobody observes, added to a record: genuine responses and ends of calls
whose commits were created. -/
structure Neutral (log : Log Event) (nextJob : Nat) (new : List Event) : Prop where
  owner : ∀ event ∈ new, event.owner = none
  genuine : ∀ id job request response heard, Event.served id job request response heard ∈ new →
    ∃ order servers, response = (handle order servers request).1
  concluded : ∀ id job request result, Event.concluded id job request result ∈ new →
    job.number < nextJob ∧ ∀ groupId sender epoch commitBytes,
      request = .publishGroupCommit groupId sender epoch commitBytes →
      Event.created sender groupId epoch commitBytes ∈ log.events

theorem Neutral.nil : Neutral log nextJob [] :=
  ⟨by simp, by simp, by simp⟩

theorem Sound.append {new : List Event} (h : Sound M log) (hnew : Neutral log nextJob new) :
    Sound M ⟨log.events ++ new, log.draws⟩ := by
  refine ⟨?_, ?_, ?_⟩
  · intro id job request response heard hmem
    rcases mem_append.mp hmem with hmem | hmem
    · exact h.genuine id job request response heard hmem
    · exact hnew.genuine id job request response heard hmem
  · refine h.distinct.of_created_eq (le_refl _) ?_
    refine created_append.trans ?_
    have hnone : created ⟨new, log.draws⟩ = [] := by
      refine filterMap_eq_nil_iff.mpr ?_
      intro event hmem
      have hevent := hnew.owner event hmem
      cases event <;> first | rfl | cases hevent
    rw [hnone, append_nil]
  · intro id job groupId sender epoch commitBytes result hmem
    rcases mem_append.mp hmem with hmem | hmem
    · exact mem_append_left _ (h.postsCreated _ _ _ _ _ _ _ hmem)
    · exact mem_append_left _ ((hnew.concluded _ _ _ _ hmem).2 _ _ _ _ rfl)

theorem Neutral.grows {new : List Event} (h : Neutral log nextJob new) :
    Grows worker log ⟨log.events ++ new, log.draws⟩ :=
  ⟨le_refl _, new, rfl, fun event hmem => by simp [h.owner event hmem]⟩

end Extension

namespace Kept

variable {world : World M} {worker : String} {job : Job}

/-- Neutral events keep everything in order. -/
theorem extend {world' : World M} (h : Kept world) (new : List Event)
    (hworkers : world'.workers = world.workers) (hjobs : world.nextJob ≤ world'.nextJob)
    (hlog : world'.log = ⟨world.log.events ++ new, world.log.draws⟩)
    (hnew : Neutral world.log world'.nextJob new) : Kept world' := by
  refine ⟨?_, ?_, ?_⟩
  · rw [hlog]
    exact h.sound.append hnew
  · intro id job request result hmem
    rw [hlog] at hmem
    rcases mem_append.mp hmem with hmem | hmem
    · exact (h.numbered id job request result hmem).trans_le hjobs
    · exact (hnew.concluded id job request result hmem).1
  · intro worker activity hworker
    rw [hworkers] at hworker
    rw [hlog]
    exact (h.workers worker activity hworker).grows hnew.grows hjobs

theorem setWorker {activity : Activity M} (h : Kept world)
    (hactivity : ActivityOk world.log world.nextJob worker activity) :
    Kept (world.setWorker worker activity) := by
  refine ⟨h.sound, h.numbered, ?_⟩
  intro worker' activity' hworker
  unfold World.setWorker at hworker
  by_cases heq : worker' = worker
  · subst heq
    simp only [Function.update_self, Option.some.injEq] at hworker
    subst hworker
    exact hactivity
  · simp only [Function.update_of_ne heq] at hworker
    exact h.workers worker' activity' hworker

theorem conclude {id : Nat} {call : Call} {result : Except String Reply} (h : Kept world)
    (hjob : job.number < world.nextJob) (hpost : PostOk world.log call) :
    Kept (world.conclude id job call.request result) := by
  refine h.extend [.concluded id job call.request result] rfl (le_refl _) rfl ⟨?_, ?_, ?_⟩
  · intro event hmem
    obtain rfl := mem_singleton.mp hmem
    rfl
  · intro id' job' request' response heard hmem
    cases mem_singleton.mp hmem
  · intro id' job' request' result' hmem
    cases mem_singleton.mp hmem
    exact ⟨hjob, hpost⟩

end Kept

/-- The observations of a program between two waiting points. -/
structure Observes (M : Mls) (job : Job) (log log' : Log Event) : Prop where
  draws : log.draws ≤ log'.draws
  events : ∃ new, log'.events = log.events ++ new ∧ ∀ event ∈ new,
    ∃ before, (∀ earlier ∈ before.events, earlier ∈ log'.events) ∧ mayRecord M before job event

namespace Observes

variable {log log' : Log Event} {job : Job}

/-- A program that keeps its contract records what it may. -/
theorem settle {post : Log Event → Except String Outcome × Slot M → Prop}
    (hsat : program.Sat (contract M job) post log) (hsound : Sound M log) :
    Observes M job log (program.settle log).2 := by
  refine hsat.settle_rel (R := Observes M job log) ?_ ?_ hsound ⟨le_refl _, [], by simp, by simp⟩
  · rintro log' event _ hmay ⟨hdraws, new, hnew, hmays⟩
    refine ⟨hdraws, new ++ [event], ?_, ?_⟩
    · rw [Log.events_record, hnew, append_assoc]
    · intro event' hmem
      rcases mem_append.mp hmem with hmem | hmem
      · obtain ⟨before, hbefore, hmay'⟩ := hmays event' hmem
        exact ⟨before, fun earlier h => mem_append_left _ (hbefore earlier h), hmay'⟩
      · obtain rfl := mem_singleton.mp hmem
        exact ⟨log', fun earlier h => mem_append_left _ h, hmay⟩
  · rintro log' ⟨hdraws, new, hnew, hmays⟩
    exact ⟨Nat.le_succ_of_le hdraws, new, hnew, hmays⟩

/-- Nobody else's observations are recorded. -/
theorem grows {worker : String} (h : Observes M job log log') (hne : job.worker ≠ worker) :
    Grows worker log log' := by
  obtain ⟨hdraws, new, hnew, hmays⟩ := h
  refine ⟨hdraws, new, hnew, ?_⟩
  intro event hmem howner
  obtain ⟨before, _, hmay⟩ := hmays event hmem
  cases event with
  | created | rolledBack =>
    cases howner
    exact hne hmay.1.symm
  | merged =>
    cases howner
    exact hne (Eq.symm hmay)
  | served | accepted | concluded | answered => cases howner

/-- Only observations are recorded. -/
theorem mem_of_owner_none (h : Observes M job log log') (howner : event.owner = none)
    (hmem : event ∈ log'.events) : event ∈ log.events := by
  obtain ⟨_, new, hnew, hmays⟩ := h
  rw [hnew] at hmem
  rcases mem_append.mp hmem with hmem | hmem
  · exact hmem
  · obtain ⟨before, _, hmay⟩ := hmays event hmem
    cases event with
    | created | rolledBack | merged => cases howner
    | served | accepted | concluded | answered => exact hmay.elim

end Observes

theorem newCalls_ok {log : Log Event} {job : Job} {firstId : Nat} {pending : List Call} :
    Forall₂ (CallOk log job) pending (newCalls firstId pending) := by
  unfold newCalls
  rw [forall₂_map_right_iff, forall₂_iff_get]
  refine ⟨by simp, ?_⟩
  intro i h₁ h₂
  simp [CallOk]

namespace Kept

variable {world : World M} {worker : String} {job : Job} {envelope : Envelope}

/-- A program that keeps its contract can be started or resumed. -/
theorem launch (h : Kept world) (hworker : job.worker = worker)
    (hnumber : job.number < world.nextJob) (hsat : Fulfils job envelope world.log program) :
    Kept (world.launch worker job envelope program) := by
  obtain ⟨hsound, hready, hissued⟩ := hsat.settle h.sound
  have hobserves := Observes.settle hsat h.sound
  refine ⟨?_, ?_, ?_⟩
  · rw [log_launch]
    exact hsound
  · rw [log_launch, nextJob_launch]
    intro id job' request result hmem
    exact h.numbered id job' request result (hobserves.mem_of_owner_none rfl hmem)
  · rw [log_launch, nextJob_launch, workers_launch]
    intro worker' activity hactivity
    by_cases heq : worker' = worker
    · subst heq
      simp only [Function.update_self, Option.some.injEq] at hactivity
      subst hactivity
      refine ⟨hworker, hnumber, hready, ?_⟩
      generalize (program.settle world.log).1 = settled at hissued
      cases settled with
      | await state pending next =>
        refine ⟨newCalls_ok, ?_⟩
        intro call hmem groupId sender epoch commitBytes hrequest
        have hmay := hissued call hmem
        unfold mayCall at hmay
        rw [hrequest] at hmay
        exact hmay.2.2.1
      | done result => trivial
      | note event next => trivial
      | draw next => trivial
    · simp only [Function.update_of_ne heq] at hactivity
      refine (h.workers worker' activity hactivity).grows (hobserves.grows ?_) (le_refl _)
      exact fun heq' => heq (heq'.symm.trans hworker)

end Kept

theorem mem_effects {servers : Servers} {request : Request}
    (h : event ∈ effects servers request) : ∃ commit, event = .accepted commit := by
  unfold effects at h
  split at h
  · split at h
    · exact ⟨_, mem_singleton.mp h⟩
    · cases h
  · cases h

theorem mem_processed (h : event ∈ world.processed action) :
    ∃ sending, world.sends action = some sending ∧
      (event ∈ effects world.servers sending.request ∨
        event = .served sending.call sending.job sending.request
          (handle sending.order world.servers sending.request).1 sending.heard) := by
  unfold processed at h
  split at h
  · rename_i sending hsends
    refine ⟨sending, hsends, ?_⟩
    rcases mem_append.mp h with h | h
    · exact .inl h
    · exact .inr (mem_singleton.mp h)
  · cases h

theorem concluded_not_mem_processed {id : Nat} {job : Job}
    {request : Request} {result : Except String Reply} :
    Event.concluded id job request result ∉ world.processed action := by
  intro h
  obtain ⟨sending, _, h | h⟩ := mem_processed h
  · obtain ⟨commit, h⟩ := mem_effects h
    cases h
  · cases h

/-- What the services record in a step is neutral. -/
theorem neutral_processed (world : World M) (action : Action) (log : Log Event) (nextJob : Nat) :
    Neutral log nextJob (world.processed action) := by
  refine ⟨?_, ?_, fun _ _ _ _ hmem => absurd hmem concluded_not_mem_processed⟩
  · intro event hmem
    obtain ⟨sending, _, hmem | rfl⟩ := mem_processed hmem
    · obtain ⟨commit, rfl⟩ := mem_effects hmem
      rfl
    · rfl
  · intro id job request response heard hmem
    obtain ⟨sending, _, hmem | hmem⟩ := mem_processed hmem
    · obtain ⟨commit, heq⟩ := mem_effects hmem
      cases heq
    · cases hmem
      exact ⟨_, _, rfl⟩

section Calls

variable {log : Log Event} {job : Job} {pending : List Call} {calls : List CallState}

theorem forall₂_set {α β : Type} {r : α → β → Prop} {xs : List α} {ys : List β} {index : Nat}
    {old new : β} (h : Forall₂ r xs ys) (hold : ys[index]? = some old)
    (hnew : ∀ x ∈ xs, r x old → r x new) : Forall₂ r xs (ys.set index new) := by
  induction h generalizing index with
  | nil => exact .nil
  | cons hhead htail ih =>
    cases index with
    | zero =>
      cases hold
      exact .cons (hnew _ mem_cons_self hhead) htail
    | succ index =>
      exact .cons hhead (ih hold fun x hmem => hnew x (mem_cons_of_mem _ hmem))

theorem active_mem {index id attempt : Nat} {call : Call}
    (h : Forall₂ (CallOk log job) pending calls)
    (hactive : calls[index]? = some (.active id attempt call)) : call ∈ pending := by
  induction h generalizing index with
  | nil => cases hactive
  | cons hhead _ ih =>
    cases index with
    | zero =>
      cases hactive
      cases hhead
      exact mem_cons_self
    | succ index => exact mem_cons_of_mem _ (ih hactive)

theorem replies_heard {all : List Reply} (h : Forall₂ (CallOk log job) pending calls)
    (hall : replies calls = some all) :
    Forall₂ (fun call reply => Heard log job call.request reply) pending all := by
  induction h generalizing all with
  | nil =>
    cases hall
    exact .nil
  | cons hhead _ ih =>
    rename_i state calls' _ _
    unfold replies at hall ih
    cases state with
    | active id attempt call => simp at hall
    | finished reply =>
      simp only [mapM_cons, Option.pure_def, Option.bind_eq_bind, Option.bind_some,
        Option.bind_eq_some_iff, Option.some.injEq] at hall
      obtain ⟨rest, hrest, rfl⟩ := hall
      exact .cons hhead (ih hrest)

end Calls

namespace World.RunningCall

variable {world : World M} {reply : Reply}

section Answers

variable {run : RunningCall world} {fate : Fate} {order : List String}

/-- A call succeeds only by a response that arrives. -/
theorem success (hdecision : (run.sent fate order).1 = .success reply) :
    fate = .answered ∧ run.call.request.retryDecision
      (handle order world.servers run.call.request).1 = .success reply := by
  cases fate with
  | answered => exact ⟨rfl, hdecision⟩
  | lost reach transient cause => cases transient <;> cases hdecision

theorem nextJob_sent : (run.sent fate order).2.nextJob = world.nextJob := by
  match fate with
  | .answered => rfl
  | .lost .never _ _ => rfl
  | .lost .now _ _ => rfl
  | .lost .later _ _ => rfl

theorem heard (hdecision : (run.sent fate order).1 = .success reply) :
    Heard (run.concluded fate order (.ok reply)).log run.job run.call.request reply := by
  obtain ⟨rfl, hreply⟩ := success hdecision
  refine ⟨run.id, (handle order world.servers run.call.request).1, ?_, hreply, ?_⟩
  · refine mem_append_left _ ?_
    simp [sent, World.transmit, serve]
  · exact mem_append_right _ (mem_singleton_self _)

end Answers

variable (run : RunningCall world) (hkept : Kept world) (fate : Fate) (order : List String)
  (result : Except String Reply) (observer : String)

theorem grows_sent : Grows observer world.log (run.sent fate order).2.log := by
  obtain ⟨late, heq, -⟩ := run.transmit fate order 0
  rw [heq]
  exact (neutral_processed world _ world.log 0).grows

theorem grows_concluded : Grows observer world.log (run.concluded fate order result).log :=
  (run.grows_sent fate order observer).record (by simp [Event.owner])

include hkept

theorem ok : run.job.worker = run.worker ∧ run.job.number < world.nextJob ∧
      (∀ log', Grows run.job.worker world.log log' → Sound M log' → ∀ result,
        Answered log' run.job run.pending result →
        Fulfils run.job run.envelope log' (run.next result)) ∧
      Forall₂ (CallOk world.log run.job) run.pending run.calls ∧
      ∀ call ∈ run.pending, PostOk world.log call :=
  hkept.workers run.worker _ run.busy

theorem mem_pending : run.call ∈ run.pending :=
  active_mem (run.ok hkept).2.2.2.1 run.active

theorem kept_sent : Kept (run.sent fate order).2 := by
  obtain ⟨late, heq, -⟩ := run.transmit fate order 0
  rw [heq]
  exact hkept.extend _ rfl (le_refl _) rfl (neutral_processed world _ _ _)

theorem kept_concluded : Kept (run.concluded fate order result) := by
  obtain ⟨-, hnumber, -, -, hposts⟩ := run.ok hkept
  refine (run.kept_sent hkept fate order).conclude (hnumber.trans_eq nextJob_sent.symm) ?_
  intro groupId sender epoch commitBytes hrequest
  exact (run.grows_sent fate order run.worker).mem
    (hposts run.call (run.mem_pending hkept) groupId sender epoch commitBytes hrequest)

/-- The program goes on waiting. -/
theorem stays {log' : Log Event} {calls' : List CallState}
    (hgrows : Grows run.worker world.log log')
    (hcalls : Forall₂ (CallOk log' run.job) run.pending calls') :
    ActivityOk log' world.nextJob run.worker (run.waiting calls') := by
  obtain ⟨hworker, hnumber, hready, -, hposts⟩ := run.ok hkept
  rw [← hworker] at hgrows
  refine ⟨hworker, hnumber, fun log'' hgrows' => hready log'' (hgrows.trans hgrows'), hcalls, ?_⟩
  intro call' hmem groupId sender epoch commitBytes hrequest
  exact hgrows.mem (hposts call' hmem groupId sender epoch commitBytes hrequest)

theorem resumes {answer : Except CallFailure (List Reply)}
    (hanswer : Answered (run.concluded fate order result).log run.job run.pending answer) :
    Fulfils run.job run.envelope (run.concluded fate order result).log (run.next answer) :=
  (run.ok hkept).2.2.1 _ (run.grows_concluded fate order result _)
    (run.kept_concluded hkept fate order result).sound answer hanswer

theorem calls_finished (hdecision : (run.sent fate order).1 = .success reply) :
    Forall₂ (CallOk (run.concluded fate order (.ok reply)).log run.job) run.pending
      (run.calls.set run.index (.finished reply)) := by
  obtain ⟨-, -, -, hcalls, -⟩ := run.ok hkept
  have hmono := hcalls.imp fun _ _ hcall =>
    CallOk.mono hcall fun _ => (run.grows_concluded fate order (.ok reply) run.worker).mem
  refine forall₂_set hmono run.active ?_
  rintro call' _ rfl
  exact heard hdecision

theorem resumes_join {all : List Reply} (hdecision : (run.sent fate order).1 = .success reply)
    (hreplies : replies (run.calls.set run.index (.finished reply)) = some all) :
    Fulfils run.job run.envelope (run.concluded fate order (.ok reply)).log (run.next (.ok all)) :=
  run.resumes hkept fate order _
    (replies_heard (run.calls_finished hkept fate order hdecision) hreplies)

theorem resumes_failure (text : String) :
    Fulfils run.job run.envelope (run.concluded fate order (.error text)).log
      (run.next (.error ⟨run.call.request, text⟩)) :=
  run.resumes hkept fate order _ ⟨run.call, run.mem_pending hkept, rfl, run.id, text,
    mem_append_right _ (mem_singleton_self _)⟩

end World.RunningCall

section Starting

variable {world : World M} {worker : String} {slot : Slot M} (urls : Urls)

/-- The program of a new job keeps its contract. -/
theorem Kept.starts (h : Kept world) (envelope : Envelope)
    (hidle : world.workers worker = some (.idle slot)) : Fulfils ⟨worker, world.nextJob⟩ envelope
      world.log (handleCommand urls envelope slot) := by
  have hslot : SlotOk worker world.log slot := h.workers worker _ hidle
  refine handleCommand_sat urls h.sound hslot ?_
  intro id request result hmem
  exact lt_irrefl _ (h.numbered _ _ _ _ hmem)

/-- The next round of the receive loop keeps the contract. -/
theorem Kept.continues {job : Job} {envelope : Envelope} {staleAcked processed : Nat}
    {calls : List CallState} (h : Kept world) (hbusy : world.workers worker = some (.busy job envelope
      (.done (.ok (.again staleAcked processed), slot)) calls)) :
    Fulfils job envelope world.log
      (receiveCommitDelivery urls envelope.expectedEpoch staleAcked processed slot) := by
  obtain ⟨-, -, hready, -⟩ := h.workers worker _ hbusy
  obtain ⟨hslot, hsend⟩ : Finishes job envelope world.log (.ok (.again staleAcked processed))
    slot := hready
  refine (Keeps.receiveCommitDelivery urls _ _ _).finishes ?_ h.sound hslot
  intro text hcommand
  obtain ⟨⟨message, hfinished⟩, -⟩ := hsend text hcommand _ rfl
  cases hfinished

end Starting

/-- Every step keeps the state in order. -/
theorem Kept.step (urls : Urls) (h : Kept world) (action : Action) :
    Kept (world.step urls action) := by
  have hmove := step_move urls world action
  generalize world.step urls action = world' at hmove ⊢
  cases hmove with
  | stay => exact h
  | start hidle =>
    have hnext : Kept { world with nextJob := world.nextJob + 1 } :=
      h.extend [] rfl (Nat.le_succ _) (by simp) .nil
    exact hnext.launch rfl (Nat.lt_succ_self _) (h.starts urls _ hidle)
  | @retry run fate order =>
    obtain ⟨-, -, -, hcalls, -⟩ := run.ok h
    have hgrows := run.grows_sent fate order run.worker
    refine (run.kept_sent h fate order).setWorker ?_
    rw [RunningCall.nextJob_sent]
    refine run.stays h hgrows ?_
    refine forall₂_set (hcalls.imp fun _ _ hcall => hcall.mono fun _ => hgrows.mem) run.active ?_
    exact fun call' _ heq => heq
  | @progress run fate order _ reply hdecision =>
    refine (run.kept_concluded h fate order (.ok reply)).setWorker ?_
    have hstays := run.stays h (run.grows_concluded fate order (.ok reply) run.worker)
      (run.calls_finished h fate order hdecision)
    rw [← RunningCall.nextJob_sent] at hstays
    exact hstays
  | join run hdecision hreplies =>
    refine (run.kept_concluded h _ _ _).launch (run.ok h).1 ?_
      (run.resumes_join h _ _ hdecision hreplies)
    exact (run.ok h).2.1.trans_eq RunningCall.nextJob_sent.symm
  | failure run text =>
    refine (run.kept_concluded h _ _ _).launch (run.ok h).1 ?_ (run.resumes_failure h _ _ text)
    exact (run.ok h).2.1.trans_eq RunningCall.nextJob_sent.symm
  | @late index order request hrequest =>
    have hsends : world.sends (.deliver index order) =
        some ⟨request.call, request.job, request.request, order, false⟩ := by
      simp [sends, hrequest]
    refine h.extend (world.processed (.deliver index order)) rfl (le_refl _) ?_
      (neutral_processed world _ _ _)
    simp [serve, processed, hsends]
  | @again worker _ _ _ _ _ _ hbusy =>
    obtain ⟨hworker, hnumber, -, -⟩ := h.workers worker _ hbusy
    exact h.launch hworker hnumber (h.continues urls hbusy)
  | @finish worker job envelope result slot calls answer hbusy =>
    obtain ⟨rfl, -, hready, -⟩ := h.workers worker _ hbusy
    obtain ⟨hslot, -⟩ : Finishes job envelope world.log result slot := hready
    have hkept : Kept { world with log := world.log.record (.answered job envelope answer) } := by
      refine h.extend [.answered job envelope answer] rfl (le_refl _) rfl ⟨?_, ?_, ?_⟩
      · intro event hmem
        obtain rfl := mem_singleton.mp hmem
        rfl
      · intro id' job' request' response heard hmem
        cases mem_singleton.mp hmem
      · intro id' job' request' result' hmem
        cases mem_singleton.mp hmem
    exact hkept.setWorker (hslot.grows ((Grows.refl _).record (by simp [Event.owner])))

theorem Kept.init (mode : CommitDeliveryMode) (crypto : String → Option M.Crypto) :
    Kept (init mode crypto : World M) := by
  refine ⟨⟨?_, ?_, ?_⟩, ?_, ?_⟩
  · intro id job request response heard hmem
    cases hmem
  · intro seedOf _
    refine ⟨?_, nodup_nil⟩
    intro commitBytes hmem
    cases hmem
  · intro id job groupId sender epoch commitBytes result hmem
    cases hmem
  · intro id job request result hmem
    cases hmem
  · intro worker activity hworker
    simp only [World.init, Option.map_eq_some_iff] at hworker
    obtain ⟨key, _, rfl⟩ := hworker
    refine ⟨rfl, fun _ => rfl, ?_⟩
    intro groupId epoch added welcome hmem
    cases hmem

end MessagingBench.Worker
