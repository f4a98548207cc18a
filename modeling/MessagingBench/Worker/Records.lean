import MessagingBench.Worker.Invariant

/-!
# What a step records

Every step extends the record by what a service processed and then by notes: the end
of a call, the observations of a program that runs, or the end of a job. A worker
that waits after a step waited for the same calls before, or it has just issued them.
-/

namespace MessagingBench.Worker

open World List Function Delivery

variable {M : Mls}

/-- What is recorded in a step after what a service processed and the end of a call: the
observations of a program, or the end of a job. -/
inductive Noted (world : World M) (log' : Log Event) : Event → Prop
  | observed {job event before} : (∀ earlier ∈ before.events, earlier ∈ log'.events) →
      mayRecord M before job event → Noted world log' event
  | answered {job envelope answer calls} {slot : Slot M} (result : Except String Outcome) :
      world.workers job.worker = some (.busy job envelope (.done (result, slot)) calls) →
      Finishes job envelope world.log result slot →
      (∀ message, answer = .ok message → result = .ok (.finished message)) →
      log' = world.log.record (.answered job envelope answer) →
      Noted world log' (.answered job envelope answer)

def Waits (world : World M) (worker : String) (job : Job) (pending : List Call) : Prop :=
  ∃ envelope state next calls,
    world.workers worker = some (.busy job envelope (.await state pending next) calls)

/-- The slot of a worker that does not run. -/
def shows : Activity M → Option (Slot M)
  | .idle slot => some slot
  | .busy _ _ (.done (_, slot)) _ => some slot
  | .busy _ _ (.await slot _ _) _ => some slot
  | _ => none

/-- A worker has just issued the calls it waits for. -/
def Issues (world : World M) (worker : String) (job : Job) (pending : List Call) : Prop :=
  ∃ activity state, world.workers worker = some activity ∧ shows activity = some state ∧
    ∀ call ∈ pending, mayCall M world.log job state pending call

/-- While a worker waits, calls of its job end only with success and only in a join of
several calls. -/
def StillOpen (log log' : Log Event) (job : Job) (pending : List Call) : Prop :=
  ∀ id request result, Event.concluded id job request result ∈ log'.events →
    Event.concluded id job request result ∈ log.events ∨
      (∃ reply, result = .ok reply) ∧ ∀ call, pending ≠ [call]

/-- The welcomes that are stored for a recipient. -/
def World.welcomes (world : World M) (recipient : String) : List Bytes :=
  (world.servers.ds.welcomeInboxes recipient).getD []

section Steps

variable {world : World M} (urls : Urls) (action : Action)

variable {program : CommandProgram M} {request : Request} {sending : Sending} {event : Event}
  {reply : Reply} {job : Job} {id : Nat} {envelope : Envelope}

section Attempts

variable (run : RunningCall world) (fate : Fate) (order : List String)

theorem World.RunningCall.workers_sent : (run.sent fate order).2.workers = world.workers := by
  obtain ⟨late, heq, -⟩ := run.transmit fate order 0
  rw [heq]

theorem World.RunningCall.servers_sent (elapsedMs : Nat) : (run.sent fate order).2.servers =
    world.serversAfter (.attempt run.worker run.index fate order elapsedMs) := by
  obtain ⟨late, heq, -⟩ := run.transmit fate order elapsedMs
  rw [heq]

theorem World.RunningCall.inFlight_sent : ∀ request ∈ (run.sent fate order).2.inFlight,
    request ∈ world.inFlight ∨ request = ⟨run.id, run.job, run.call.request⟩ := by
  obtain ⟨late, heq, hlate⟩ := run.transmit fate order 0
  rw [heq]
  exact fun request hmem => (mem_append.mp hmem).imp_right (hlate request)

end Attempts

theorem servers_step : (world.step urls action).servers = world.serversAfter action := by
  have hmove := step_move urls world action
  generalize world.step urls action = world' at hmove ⊢
  cases hmove with
  | stay _ hsends => simp [serversAfter, hsends]
  | start | again => simp [serversAfter, sends]
  | retry run | progress run => exact run.servers_sent _ _ _
  | join run | failure run =>
    rw [servers_launch]
    exact run.servers_sent _ _ _
  | late hrequest => simp [serve, serversAfter, sends, hrequest]
  | finish => rfl

theorem inFlight_step : ∀ request ∈ (world.step urls action).inFlight, request ∈ world.inFlight ∨
    ∃ run : RunningCall world, request = ⟨run.id, run.job, run.call.request⟩ := by
  have hmove := step_move urls world action
  generalize world.step urls action = world' at hmove ⊢
  cases hmove with
  | stay | finish => exact fun request hmem => .inl hmem
  | start | again =>
    rw [inFlight_launch]
    exact fun request hmem => .inl hmem
  | retry run | progress run =>
    exact fun request hmem => (run.inFlight_sent _ _ request hmem).imp_right fun h => ⟨run, h⟩
  | join run | failure run =>
    rw [inFlight_launch]
    exact fun request hmem => (run.inFlight_sent _ _ request hmem).imp_right fun h => ⟨run, h⟩
  | late => exact fun request hmem => .inl (mem_of_mem_eraseIdx hmem)

variable {urls action} in
/-- A step changes the worker that takes it only. -/
theorem workers_step {worker : String} (hne : action.actor ≠ some worker) :
    (world.step urls action).workers worker = world.workers worker := by
  have hmove := step_move urls world action
  generalize world.step urls action = world' at hmove ⊢
  have hother {actor : String} (h : some actor ≠ some worker) : worker ≠ actor :=
    fun heq => h (congrArg some heq.symm)
  cases hmove with
  | stay => rfl
  | start | again => rw [workers_launch, update_of_ne (hother hne)]
  | retry run | progress run =>
    exact (update_of_ne (hother hne) ..).trans (congrFun (run.workers_sent _ _) worker)
  | join run | failure run =>
    rw [workers_launch, update_of_ne (hother hne)]
    exact congrFun (run.workers_sent _ _) worker
  | late => rfl
  | finish => simp only [setWorker, update_of_ne (hother hne)]

/-- A commit that is accepted in a step was posted by the request that the step processes. -/
theorem accepted_processed {action : Action} {commit : AcceptedCommit}
    (h : Event.accepted commit ∈ world.processed action) : ∃ sending ds,
      world.sends action = some sending ∧ sending.request = .publishGroupCommit commit.groupId
        commit.sender commit.epoch commit.commitBytes ∧
      world.servers.ds.acceptCommit commit.groupId commit.epoch = .ok (commit.members, ds) := by
  obtain ⟨sending, hsends, h | h⟩ := mem_processed h
  · unfold effects at h
    split at h
    · rename_i hrequest
      split at h
      · rename_i haccept
        cases mem_singleton.mp h
        exact ⟨sending, _, hsends, hrequest, haccept⟩
      · cases h
    · cases h
  · cases h

/-- A request that is processed belongs to a running call or was left behind by one. -/
theorem World.sends_origin {action : Action} (h : world.sends action = some sending) :
    (∃ run : RunningCall world, sending.call = run.id ∧ sending.job = run.job ∧
      sending.request = run.call.request) ∨
      ∃ request ∈ world.inFlight, request.call = sending.call ∧ request.job = sending.job ∧
        request.request = sending.request := by
  unfold sends at h
  split at h
  · left
    split at h
    · rename_i hbusy
      split at h
      · rename_i hactive
        split at h
        · cases h
          exact ⟨⟨_, _, _, _, _, _, _, _, _, _, _, hbusy, hactive⟩, rfl, rfl, rfl⟩
        · cases h
          exact ⟨⟨_, _, _, _, _, _, _, _, _, _, _, hbusy, hactive⟩, rfl, rfl, rfl⟩
        · cases h
      · cases h
    · cases h
  · obtain ⟨request, hrequest, rfl⟩ := Option.map_eq_some_iff.mp h
    exact .inr ⟨request, mem_of_getElem? hrequest, rfl, rfl, rfl⟩
  · cases h

theorem notes_launch (base : World M) (worker : String) (hsound : Sound M base.log)
    (hsat : Fulfils job envelope base.log program) :
    ∃ notes, (base.launch worker job envelope program).log.events = base.log.events ++ notes ∧
      ∀ event ∈ notes, Noted world (base.launch worker job envelope program).log event := by
  obtain ⟨-, notes, hnotes, hmay⟩ := Observes.settle hsat hsound
  rw [log_launch]
  refine ⟨notes, hnotes, ?_⟩
  intro event hmem
  obtain ⟨before, hbefore, hmay⟩ := hmay event hmem
  exact .observed hbefore hmay

section Endings

variable (run : RunningCall world) (fate : Fate) (order : List String) (elapsedMs : Nat)
  {result : Except String Reply}

/-- The record after a call has ended. -/
theorem World.RunningCall.log_concluded : (run.concluded fate order result).log.events =
    world.log.events ++ (world.processed (.attempt run.worker run.index fate order elapsedMs) ++
      [.concluded run.id run.job run.call.request result]) := by
  obtain ⟨late, heq, -⟩ := run.transmit fate order elapsedMs
  rw [RunningCall.concluded, heq, ← append_assoc]
  rfl

theorem World.RunningCall.log_resume (hkept : Kept world)
    (hends : callEnd run.call run.attempt elapsedMs (run.sent fate order).1 = some result)
    (hsat : Fulfils run.job run.envelope (run.concluded fate order result).log program) :
    ∃ notes, ((run.concluded fate order result).launch run.worker run.job run.envelope
        program).log.events = world.log.events ++
          (world.processed (.attempt run.worker run.index fate order elapsedMs) ++
            (world.ended (.attempt run.worker run.index fate order elapsedMs) ++ notes)) ∧
      ∀ event ∈ notes, Noted world ((run.concluded fate order result).launch run.worker run.job
        run.envelope program).log event := by
  obtain ⟨notes, hnotes, hnoted⟩ := notes_launch _ run.worker
    (run.kept_concluded hkept fate order result).sound hsat
  refine ⟨notes, ?_, hnoted⟩
  rw [hnotes, run.log_concluded fate order elapsedMs, run.ended fate order elapsedMs, hends]
  simp

end Endings

/-- The record after a step. -/
theorem log_step (hkept : Kept world) : ∃ notes, (world.step urls action).log.events =
    world.log.events ++ (world.processed action ++ (world.ended action ++ notes)) ∧
      ∀ event ∈ notes, Noted world (world.step urls action).log event := by
  have hmove := step_move urls world action
  generalize world.step urls action = world' at hmove ⊢
  cases hmove with
  | stay _ hsends hended => exact ⟨[], by simp [processed, hsends, hended], by simp⟩
  | @start worker envelope _ hidle =>
    obtain ⟨notes, hnotes, hnoted⟩ := notes_launch { world with nextJob := world.nextJob + 1 } worker
      hkept.sound (hkept.starts urls envelope hidle)
    exact ⟨notes, by simpa [processed, sends, ended] using hnotes, hnoted⟩
  | @retry run fate order elapsedMs _ hdecision hattempt =>
    obtain ⟨late, heq, -⟩ := run.transmit fate order elapsedMs
    refine ⟨[], ?_, by simp⟩
    rw [run.ended fate order elapsedMs, heq, hdecision]
    simp [callEnd, hattempt, setWorker]
  | @progress run fate order elapsedMs _ hdecision =>
    refine ⟨[], ?_, by simp⟩
    rw [run.ended fate order elapsedMs, hdecision]
    exact run.log_concluded fate order elapsedMs
  | join run hdecision hreplies =>
    exact run.log_resume _ _ _ hkept (by rw [hdecision]; rfl)
      (run.resumes_join hkept _ _ hdecision hreplies)
  | failure run text hends =>
    exact run.log_resume _ _ _ hkept hends (run.resumes_failure hkept _ _ text)
  | late hrequest =>
    exact ⟨[], by simp [serve, processed, sends, ended, hrequest], by simp⟩
  | @again worker _ _ _ _ _ _ hbusy =>
    obtain ⟨notes, hnotes, hnoted⟩ := notes_launch world worker hkept.sound
      (hkept.continues urls hbusy)
    exact ⟨notes, by simpa [processed, sends, ended] using hnotes, hnoted⟩
  | @finish worker job envelope result slot calls answer hbusy hanswer =>
    obtain ⟨hworker, -, hready, -⟩ := hkept.workers worker _ hbusy
    refine ⟨[.answered job envelope answer], rfl, ?_⟩
    intro event hmem
    obtain rfl := mem_singleton.mp hmem
    refine .answered result (hworker.symm ▸ hbusy) hready ?_ rfl
    rintro message rfl
    rcases hanswer with ⟨message', hresult, heq⟩ | ⟨message', _, heq⟩
    · cases heq
      exact hresult
    · cases heq

variable {action} in
theorem mem_ended (h : event ∈ world.ended action) :
    ∃ (run : RunningCall world) (fate : Fate) (order : List String) (elapsedMs : Nat)
      (result : Except String Reply), action = .attempt run.worker run.index fate order elapsedMs ∧
      event = .concluded run.id run.job run.call.request result ∧
      callEnd run.call run.attempt elapsedMs (run.sent fate order).1 = some result := by
  unfold ended at h
  split at h
  · split at h
    · rename_i hbusy
      split at h
      · rename_i hactive
        obtain ⟨result, hends, rfl⟩ := Option.map_eq_some_iff.mp (Option.mem_toList.mp h)
        exact ⟨⟨_, _, _, _, _, _, _, _, _, _, _, hbusy, hactive⟩, _, _, _, result, rfl, rfl, hends⟩
      · cases h
    · cases h
  · cases h

variable {action} in
theorem concluded_of_mem_ended (h : event ∈ world.ended action) :
    ∃ id job request result, event = .concluded id job request result := by
  obtain ⟨run, _, _, _, result, _, heq, _⟩ := mem_ended h
  exact ⟨run.id, run.job, run.call.request, result, heq⟩

section

variable {urls action} (hkept : Kept world)
include hkept

/-- An event of a step is old, recorded by a service, the end of a call, or noted. -/
theorem mem_step (h : event ∈ (world.step urls action).log.events) :
    event ∈ world.log.events ∨
      event ∈ world.processed action ∨ event ∈ world.ended action ∨
      Noted world (world.step urls action).log event := by
  obtain ⟨notes, hnotes, hnoted⟩ := log_step urls action hkept
  rw [hnotes] at h
  rcases mem_append.mp h with h | h
  · exact .inl h
  rcases mem_append.mp h with h | h
  · exact .inr (.inl h)
  · exact .inr (.inr ((mem_append.mp h).imp_right (hnoted event)))

theorem mem_step_of_mem (h : event ∈ world.log.events) :
    event ∈ (world.step urls action).log.events := by
  obtain ⟨notes, hnotes, -⟩ := log_step urls action hkept
  rw [hnotes]
  exact mem_append_left _ h

theorem mem_step_of_ended (h : event ∈ world.ended action) :
    event ∈ (world.step urls action).log.events := by
  obtain ⟨notes, hnotes, -⟩ := log_step urls action hkept
  rw [hnotes]
  exact mem_append_right _ (mem_append_right _ (mem_append_left _ h))

theorem kept_execute {schedule : List Action} : Kept (execute (step urls) world schedule) := by
  induction schedule generalizing world with
  | nil => exact hkept
  | cons action schedule ih => exact ih (hkept.step urls action)

theorem mem_execute_of_mem (schedule : List Action)
    (h : event ∈ world.log.events) : event ∈ (execute (step urls) world schedule).log.events := by
  induction schedule generalizing world with
  | nil => exact h
  | cons action schedule ih => exact ih (hkept.step urls action) (mem_step_of_mem hkept h)

variable (urls) in
/-- The response to a request that is processed in a step is recorded. -/
theorem served_of_sends (h : world.sends action = some sending) :
    Event.served sending.call sending.job sending.request
        (handle sending.order world.servers sending.request).1 sending.heard ∈
      (world.step urls action).log.events := by
  obtain ⟨notes, hnotes, -⟩ := log_step urls action hkept
  rw [hnotes]
  refine mem_append_right _ (mem_append_left _ ?_)
  simp [processed, h]

/-- A command that is answered in a step has finished before. -/
theorem finishes_of_answered {answer : Except String String}
    (h : Event.answered job envelope answer ∈ (world.step urls action).log.events) :
    Event.answered job envelope answer ∈ world.log.events ∨
      ∃ (result : Except String Outcome) (slot : Slot M) (calls : List CallState),
        world.workers job.worker = some (.busy job envelope (.done (result, slot)) calls) ∧
        Finishes job envelope world.log result slot ∧
        ∀ message, answer = .ok message → result = .ok (.finished message) := by
  rcases mem_step hkept h with hold | hnew | hnew | hnew
  · exact .inl hold
  · obtain ⟨sending, _, hnew | hnew⟩ := mem_processed hnew
    · obtain ⟨_, heq⟩ := mem_effects hnew
      cases heq
    · cases hnew
  · obtain ⟨_, _, _, _, heq⟩ := concluded_of_mem_ended hnew
    cases heq
  · cases hnew with
    | observed _ hmay => exact hmay.elim
    | answered result hbusy hfinishes hresult =>
      exact .inr ⟨result, _, _, hbusy, hfinishes, hresult⟩

theorem served_step {response : Response} {heard : Bool}
    (h : Event.served id job request response heard ∈ (world.step urls action).log.events) :
    Event.served id job request response heard ∈ world.log.events ∨
      ∃ order, world.sends action = some ⟨id, job, request, order, heard⟩ ∧
        response = (handle order world.servers request).1 := by
  rcases mem_step hkept h with h | h | h | h
  · exact .inl h
  · obtain ⟨sending, hsends, h | h⟩ := mem_processed h
    · obtain ⟨commit, heq⟩ := mem_effects h
      cases heq
    · cases h
      exact .inr ⟨sending.order, hsends, rfl⟩
  · obtain ⟨_, _, _, _, heq⟩ := concluded_of_mem_ended h
    cases heq
  · cases h with
    | observed _ hmay => exact hmay.elim

theorem concluded_step {result : Except String Reply}
    (h : Event.concluded id job request result ∈ (world.step urls action).log.events) :
    Event.concluded id job request result ∈ world.log.events ∨
      ∃ (run : RunningCall world) (fate : Fate) (order : List String) (elapsedMs : Nat),
        action = .attempt run.worker run.index fate order elapsedMs ∧ id = run.id ∧
        job = run.job ∧ request = run.call.request ∧
        callEnd run.call run.attempt elapsedMs (run.sent fate order).1 = some result := by
  rcases mem_step hkept h with h | h | h | h
  · exact .inl h
  · exact absurd h concluded_not_mem_processed
  · obtain ⟨run, fate, order, elapsedMs, _, haction, heq, hends⟩ := mem_ended h
    cases heq
    exact .inr ⟨run, fate, order, elapsedMs, haction, rfl, rfl, rfl, hends⟩
  · cases h with
    | observed _ hmay => exact hmay.elim

end

theorem World.sends_heard (h : world.sends action = some sending) (hheard : sending.heard = true) :
    ∃ (run : RunningCall world) (elapsedMs : Nat),
      action = .attempt run.worker run.index .answered sending.order elapsedMs ∧
      sending = ⟨run.id, run.job, run.call.request, sending.order, true⟩ := by
  unfold sends at h
  split at h
  · split at h
    · rename_i hbusy
      split at h
      · rename_i hactive
        split at h
        · cases h
          exact ⟨⟨_, _, _, _, _, _, _, _, _, _, _, hbusy, hactive⟩, _, rfl, rfl⟩
        · cases h
          cases hheard
        · cases h
      · cases h
    · cases h
  · obtain ⟨request, _, rfl⟩ := Option.map_eq_some_iff.mp h
    cases hheard
  · cases h

theorem World.ended_of_heard (h : world.sends action = some sending) (hheard : sending.heard = true)
    (hreply : sending.request.retryDecision
      (handle sending.order world.servers sending.request).1 = .success reply) :
    world.ended action = [.concluded sending.call sending.job sending.request (.ok reply)] := by
  obtain ⟨run, elapsedMs, rfl, heq⟩ := sends_heard action h hheard
  rw [heq] at hreply ⊢
  have hdecision : (run.sent .answered sending.order).1 = .success reply := hreply
  rw [run.ended, hdecision]
  rfl

/-- A call that succeeds ends at once. -/
theorem World.concluded_of_heard (hkept : Kept world) (h : world.sends action = some sending)
    (hheard : sending.heard = true) (hreply : sending.request.retryDecision
      (handle sending.order world.servers sending.request).1 = .success reply) :
    Event.concluded sending.call sending.job sending.request (.ok reply) ∈
      (world.step urls action).log.events := by
  refine mem_step_of_ended hkept ?_
  rw [ended_of_heard action h hheard hreply]
  exact mem_singleton_self _

variable {urls action} in
theorem fails_of_failed (hkept : Kept world) {text : String}
    (h : Event.concluded id job request (.error text) ∈ (world.step urls action).log.events)
    (hold : Event.concluded id job request (.error text) ∉ world.log.events) :
    ∃ (fate : Fate) (order : List String),
      world.fails action = some (job, request, decide (fate = .answered)) ∧
      (fate = .answered → Event.served id job request (handle order world.servers request).1 true ∈
        (world.step urls action).log.events) := by
  obtain ⟨run, fate, order, elapsedMs, rfl, rfl, rfl, rfl, hends⟩ :=
    (concluded_step hkept h).resolve_left hold
  refine ⟨fate, order, ?_, ?_⟩
  · simp only [fails, run.busy, run.active]
    rw [show callEnd run.call run.attempt elapsedMs
      (world.transmit run.id run.job run.call.request fate order).1 = _ from hends]
  · rintro rfl
    exact served_of_sends urls hkept (run.sends .answered order elapsedMs)

variable {action} in
/-- A call that ends with a reply ends in the step in which the response arrives. -/
theorem heard_of_ended (h : Event.concluded id job request (.ok reply) ∈ world.ended action) :
    ∃ order, world.sends action = some ⟨id, job, request, order, true⟩ ∧
      request.retryDecision (handle order world.servers request).1 = .success reply := by
  obtain ⟨run, fate, order, elapsedMs, result, rfl, heq, hends⟩ := mem_ended h
  cases heq
  have hdecision : (run.sent fate order).1 = .success reply := by
    unfold callEnd at hends
    split at hends
    · rename_i hdecision
      cases hends
      exact hdecision
    · split at hends <;> cases hends
    · cases hends
  obtain ⟨rfl, hreply⟩ := RunningCall.success hdecision
  exact ⟨order, run.sends .answered order elapsedMs, hreply⟩

section Waiting

/-- No call of the job has ended. -/
def Continues (log log' : Log Event) (job : Job) : Prop :=
  ∀ id request result, Event.concluded id job request result ∈ log'.events →
    Event.concluded id job request result ∈ log.events

variable {worker : String} {job : Job} {pending : List Call}

variable {actor : String} {job' : Job} {order : List String} {fate : Fate}

theorem waits_launch (base : World M) {envelope : Envelope} (hsound : Sound M base.log)
    (hsat : Fulfils job' envelope base.log program)
    (h : Waits (base.launch actor job' envelope program) worker job pending) :
    Issues (base.launch actor job' envelope program) worker job pending ∨
      worker ≠ actor ∧ Waits base worker job pending ∧
        Continues base.log (base.launch actor job' envelope program).log job := by
  obtain ⟨envelope', state, next, calls, hbusy⟩ := h
  by_cases heq : worker = actor
  · subst heq
    left
    refine ⟨_, state, hbusy, rfl, ?_⟩
    rw [workers_launch] at hbusy
    simp only [update_self, Option.some.injEq, Activity.busy.injEq] at hbusy
    obtain ⟨rfl, rfl, hsettled, -⟩ := hbusy
    obtain ⟨-, -, hissued⟩ := hsat.settle hsound
    rw [log_launch]
    rw [hsettled] at hissued
    exact hissued
  · right
    rw [workers_launch] at hbusy
    simp only [update_of_ne heq] at hbusy
    refine ⟨heq, ⟨envelope', state, next, calls, hbusy⟩, fun id request result hmem => ?_⟩
    rw [log_launch] at hmem
    exact (Observes.settle hsat hsound).mem_of_owner_none rfl hmem

theorem Waits.job_worker (hkept : Kept world) (h : Waits world worker job pending) :
    job.worker = worker := by
  obtain ⟨envelope, state, next, calls, hbusy⟩ := h
  exact (hkept.workers worker _ hbusy).1

theorem World.RunningCall.waits (run : RunningCall world) :
    Waits world run.worker run.job run.pending :=
  ⟨run.envelope, run.state, run.next, run.calls, run.busy⟩

/-- A join of one call ends with it. -/
theorem World.RunningCall.pending_ne (run : RunningCall world) (hkept : Kept world)
    (hreplies : replies (run.calls.set run.index (.finished reply)) = none) (call : Call) :
    run.pending ≠ [call] := by
  intro hsingle
  obtain ⟨-, -, -, hcalls, -⟩ := run.ok hkept
  have hactive := run.active
  rw [hsingle] at hcalls
  generalize run.calls = calls at hcalls hactive hreplies
  generalize run.index = index at hactive hreplies
  cases hcalls with
  | cons _ htail =>
    cases htail
    cases index with
    | zero => simp [replies] at hreplies
    | succ index => simp at hactive

theorem Continues.stillOpen {log log' : Log Event} (h : Continues log log' job) :
    StillOpen log log' job pending :=
  fun id request result hmem => .inl (h id request result hmem)

theorem World.RunningCall.waits_sent (run : RunningCall world)
    (h : Waits (run.sent fate order).2 worker job pending) : Waits world worker job pending := by
  unfold Waits at h ⊢
  rwa [← run.workers_sent fate order]

theorem World.RunningCall.continues (run : RunningCall world) {result : Except String Reply}
    (hne : job ≠ run.job) : Continues world.log (run.concluded fate order result).log job := by
  intro id' request' result' hmem
  rw [run.log_concluded fate order 0] at hmem
  rcases mem_append.mp hmem with hmem | hmem
  · exact hmem
  · rcases mem_append.mp hmem with hmem | hmem
    · exact absurd hmem concluded_not_mem_processed
    · cases mem_singleton.mp hmem
      exact absurd rfl hne

/-- Another worker has another job. -/
theorem World.RunningCall.job_ne (run : RunningCall world) (hkept : Kept world)
    (hne : worker ≠ run.worker) (h : Waits world worker job pending) : job ≠ run.job := by
  rintro rfl
  exact hne ((h.job_worker hkept).symm.trans (run.ok hkept).1)

theorem waits_setWorker {base : World M} {activity : Activity M}
    (h : Waits (base.setWorker actor activity) worker job pending) :
    (worker = actor ∧ ∃ envelope state next calls,
      activity = .busy job envelope (.await state pending next) calls) ∨
      worker ≠ actor ∧ Waits base worker job pending := by
  obtain ⟨envelope, state, next, calls, hbusy⟩ := h
  unfold setWorker at hbusy
  by_cases heq : worker = actor
  · subst heq
    simp only [update_self, Option.some.injEq] at hbusy
    exact .inl ⟨rfl, envelope, state, next, calls, hbusy⟩
  · simp only [update_of_ne heq] at hbusy
    exact .inr ⟨heq, envelope, state, next, calls, hbusy⟩

/-- After a call has ended, its worker has just issued new calls; others wait as before
and their joins are still open. -/
theorem World.RunningCall.waits_resume (run : RunningCall world)
    {result : Except String Reply} (hkept : Kept world)
    (hsat : Fulfils run.job run.envelope (run.concluded fate order result).log program)
    (hwaits : Waits ((run.concluded fate order result).launch run.worker run.job run.envelope
      program) worker job pending) :
    Issues ((run.concluded fate order result).launch run.worker run.job run.envelope program)
        worker job pending ∨
      Waits world worker job pending ∧ StillOpen world.log ((run.concluded fate order result).launch
        run.worker run.job run.envelope program).log job pending := by
  have hsound := (run.kept_concluded hkept fate order result).sound
  refine (waits_launch _ hsound hsat hwaits).imp_right ?_
  rintro ⟨hne, hwaits, hcontinues⟩
  have hbefore : Waits world worker job pending := run.waits_sent hwaits
  refine ⟨hbefore, Continues.stillOpen fun id request result hmem => ?_⟩
  exact run.continues (run.job_ne hkept hne hbefore) id request result
    (hcontinues id request result hmem)

/-- A worker that waits after a step has just issued its calls, or it waited for them
before and its join is still open. -/
theorem waits_step (hkept : Kept world) (h : Waits (world.step urls action) worker job pending) :
    Issues (world.step urls action) worker job pending ∨ Waits world worker job pending ∧
      StillOpen world.log (world.step urls action).log job pending := by
  have hmove := step_move urls world action
  generalize world.step urls action = world' at hmove h ⊢
  cases hmove with
  | stay => exact .inr ⟨h, Continues.stillOpen fun _ _ _ => id⟩
  | @start _ envelope _ hidle =>
    exact (waits_launch { world with nextJob := world.nextJob + 1 } hkept.sound
      (hkept.starts urls envelope hidle) h).imp_right fun hold => ⟨hold.2.1, hold.2.2.stillOpen⟩
  | @retry run fate order elapsedMs =>
    right
    have hbefore : Waits world worker job pending := by
      rcases waits_setWorker h with ⟨rfl, _, _, _, _, heq⟩ | ⟨-, hwaits⟩
      · cases heq
        exact run.waits
      · exact run.waits_sent hwaits
    refine ⟨hbefore, Continues.stillOpen fun id request result hmem => ?_⟩
    obtain ⟨late, heq, -⟩ := run.transmit fate order elapsedMs
    rw [heq] at hmem
    rcases mem_append.mp hmem with hmem | hmem
    · exact hmem
    · exact absurd hmem concluded_not_mem_processed
  | @progress run fate order elapsedMs reply _ hreplies =>
    right
    rcases waits_setWorker h with ⟨rfl, _, _, _, _, heq⟩ | ⟨hne, hwaits⟩
    · cases heq
      refine ⟨run.waits, fun id request result hmem => ?_⟩
      rcases mem_append.mp (run.log_concluded fate order elapsedMs ▸ hmem) with hmem | hmem
      · exact .inl hmem
      rcases mem_append.mp hmem with hmem | hmem
      · exact absurd hmem concluded_not_mem_processed
      · cases mem_singleton.mp hmem
        exact .inr ⟨⟨reply, rfl⟩, run.pending_ne hkept hreplies⟩
    · have hbefore : Waits world worker job pending := run.waits_sent hwaits
      exact ⟨hbefore, (run.continues (run.job_ne hkept hne hbefore)).stillOpen⟩
  | join run hdecision hreplies =>
    exact run.waits_resume hkept (run.resumes_join hkept _ _ hdecision hreplies) h
  | failure run text => exact run.waits_resume hkept (run.resumes_failure hkept _ _ text) h
  | @late index order request hrequest =>
    refine Or.inr ⟨h, Continues.stillOpen fun id request' result hmem => ?_⟩
    have hserve : ({ world with inFlight := world.inFlight.eraseIdx index }.serve request.call
        request.job request.request order false).log.events =
        world.log.events ++ world.processed (.deliver index order) := by
      simp [serve, processed, sends, hrequest]
    rw [hserve] at hmem
    rcases mem_append.mp hmem with hmem | hmem
    · exact hmem
    · exact absurd hmem concluded_not_mem_processed
  | again hbusy =>
    exact (waits_launch world hkept.sound (hkept.continues urls hbusy) h).imp_right
      fun hold => ⟨hold.2.1, hold.2.2.stillOpen⟩
  | finish answer hbusy =>
    right
    rcases waits_setWorker h with ⟨rfl, _, _, _, _, heq⟩ | ⟨-, hwaits⟩
    · cases heq
    · refine ⟨hwaits, Continues.stillOpen fun id request result hmem => ?_⟩
      rcases mem_append.mp hmem with hmem | hmem
      · exact hmem
      · cases mem_singleton.mp hmem

end Waiting

end Steps

end MessagingBench.Worker
