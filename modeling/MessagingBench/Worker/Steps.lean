import MessagingBench.Worker.World

/-!
# The steps of the whole system

Every step of the system is one of a few moves: a command starts, an attempt leaves a
call running, ends a call of a join, or resumes the waiting program, a late request is
processed, or a program ends. Results about runs are proved by these cases.
-/

namespace MessagingBench.Worker

variable {M : Mls}

/-- The worker that takes a step. -/
def Action.actor : Action → Option String
  | .start worker _ => some worker
  | .attempt worker _ _ _ _ => some worker
  | .deliver _ _ => none
  | .proceed worker => some worker

namespace World

/-- What an attempt hands to a service: call, job, request, iteration order, and
whether the response arrives. -/
structure Sending where
  call : Nat
  job : Job
  request : Request
  order : List String
  heard : Bool
  deriving DecidableEq

variable (world : World M)

/-- The request a service processes in a step, if any. -/
def sends : Action → Option Sending
  | .attempt worker index fate order _ =>
    match world.workers worker with
    | some (.busy job _ (.await _ _ _) calls) =>
      match calls[index]? with
      | some (.active id _ call) =>
        match fate with
        | .answered => some ⟨id, job, call.request, order, true⟩
        | .lost .now _ _ => some ⟨id, job, call.request, order, false⟩
        | .lost _ _ _ => none
      | _ => none
    | _ => none
  | .deliver index order =>
    world.inFlight[index]?.map fun request =>
      ⟨request.call, request.job, request.request, order, false⟩
  | _ => none

/-- What the services record in a step. -/
def processed (action : Action) : List Event :=
  match world.sends action with
  | some sending =>
    effects world.servers sending.request ++
      [.served sending.call sending.job sending.request
        (handle sending.order world.servers sending.request).1 sending.heard]
  | none => []

/-- The services after a step. -/
def serversAfter (action : Action) : Servers :=
  match world.sends action with
  | some sending => (handle sending.order world.servers sending.request).2
  | none => world.servers

/-- How a call ends under a decision at some attempt, if it ends. -/
def callEnd (call : Call) (attempt elapsedMs : Nat) : RetryDecision → Option (Except String Reply)
  | .success reply => some (.ok reply)
  | .transient cause =>
    if attempt < maxAttempts then none
    else some (.error (call.errorText attempt elapsedMs cause))
  | .fatal cause => some (.error (call.errorText attempt elapsedMs cause))

/-- The end of a call that is recorded in a step. -/
def ended : Action → List Event
  | .attempt worker index fate order elapsedMs =>
    match world.workers worker with
    | some (.busy job _ (.await _ _ _) calls) =>
      match calls[index]? with
      | some (.active id attempt call) =>
        ((callEnd call attempt elapsedMs (world.transmit id job call.request fate order).1).map
          fun result => .concluded id job call.request result).toList
      | _ => []
    | _ => []
  | _ => []

/-- The call that ends in failure in a step, and whether a response arrived. -/
def fails : Action → Option (Job × Request × Bool)
  | .attempt worker index fate order elapsedMs =>
    match world.workers worker with
    | some (.busy job _ (.await _ _ _) calls) =>
      match calls[index]? with
      | some (.active id attempt call) =>
        match callEnd call attempt elapsedMs
            (world.transmit id job call.request fate order).1 with
        | some (.error _) => some (job, call.request, decide (fate = .answered))
        | _ => none
      | _ => none
    | _ => none
  | _ => none

/-- A running call of a waiting worker. -/
structure RunningCall (world : World M) where
  worker : String
  job : Job
  envelope : Envelope
  state : Slot M
  pending : List Call
  next : Except CallFailure (List Reply) → CommandProgram M
  calls : List CallState
  index : Nat
  id : Nat
  attempt : Nat
  call : Call
  busy : world.workers worker = some (.busy job envelope (.await state pending next) calls)
  active : calls[index]? = some (.active id attempt call)

section

variable {world : World M} (run : RunningCall world) (fate : Fate) (order : List String)

/-- The decision about the call after an attempt, and the world then. -/
def RunningCall.sent : RetryDecision × World M :=
  world.transmit run.id run.job run.call.request fate order

def RunningCall.concluded (result : Except String Reply) : World M :=
  (run.sent fate order).2.conclude run.id run.job run.call.request result

/-- The worker goes on waiting. -/
def RunningCall.waiting (calls : List CallState) : Activity M :=
  .busy run.job run.envelope (.await run.state run.pending run.next) calls

end

/-- The moves of the system. -/
inductive Move (urls : Urls) (world : World M) : Action → World M → Prop
  | stay (action : Action) : world.sends action = none → world.ended action = [] →
      Move urls world action world
  | start {worker envelope slot} : world.workers worker = some (.idle slot) →
      Move urls world (.start worker envelope)
        ({ world with nextJob := world.nextJob + 1 }.launch worker ⟨worker, world.nextJob⟩ envelope
          (handleCommand urls envelope slot))
  | retry (run : RunningCall world) {fate order elapsedMs cause} :
      (run.sent fate order).1 = .transient cause → run.attempt < maxAttempts →
      Move urls world (.attempt run.worker run.index fate order elapsedMs)
        ((run.sent fate order).2.setWorker run.worker
          (run.waiting (run.calls.set run.index (.active run.id (run.attempt + 1) run.call))))
  | progress (run : RunningCall world) {fate order elapsedMs reply} :
      (run.sent fate order).1 = .success reply →
      replies (run.calls.set run.index (.finished reply)) = none →
      Move urls world (.attempt run.worker run.index fate order elapsedMs)
        ((run.concluded fate order (.ok reply)).setWorker run.worker
          (run.waiting (run.calls.set run.index (.finished reply))))
  | join (run : RunningCall world) {fate order elapsedMs reply all} :
      (run.sent fate order).1 = .success reply →
      replies (run.calls.set run.index (.finished reply)) = some all →
      Move urls world (.attempt run.worker run.index fate order elapsedMs)
        ((run.concluded fate order (.ok reply)).launch run.worker run.job run.envelope
          (run.next (.ok all)))
  | failure (run : RunningCall world) {fate order elapsedMs} (text : String) :
      callEnd run.call run.attempt elapsedMs (run.sent fate order).1 = some (.error text) →
      Move urls world (.attempt run.worker run.index fate order elapsedMs)
        ((run.concluded fate order (.error text)).launch run.worker run.job run.envelope
          (run.next (.error ⟨run.call.request, text⟩)))
  | late {index order request} : world.inFlight[index]? = some request →
      Move urls world (.deliver index order)
        ({ world with inFlight := world.inFlight.eraseIdx index }.serve request.call request.job
          request.request order false)
  | again {worker job envelope staleAcked processed slot calls} :
      world.workers worker = some (.busy job envelope
        (.done (.ok (.again staleAcked processed), slot)) calls) →
      Move urls world (.proceed worker)
        (world.launch worker job envelope
          (receiveCommitDelivery urls envelope.expectedEpoch staleAcked processed slot))
  | finish {worker job envelope result slot calls} (answer : Except String String) :
      world.workers worker = some (.busy job envelope (.done (result, slot)) calls) →
      (∃ message, result = .ok (.finished message) ∧ answer = .ok message) ∨
        (∃ message, result = .error message ∧ answer = .error message) →
      Move urls world (.proceed worker)
        ({ world with log := world.log.record (.answered job envelope answer) }.setWorker worker
          (.idle slot))

section Projections

variable (world : World M) (worker : String) (job : Job) (envelope : Envelope)
  (program : CommandProgram M)

@[simp] theorem servers_launch : (world.launch worker job envelope program).servers =
    world.servers := by
  unfold launch
  split <;> rfl

@[simp] theorem inFlight_launch : (world.launch worker job envelope program).inFlight =
    world.inFlight := by
  unfold launch
  split <;> rfl

@[simp] theorem nextJob_launch : (world.launch worker job envelope program).nextJob =
    world.nextJob := by
  unfold launch
  split <;> rfl

@[simp] theorem log_launch : (world.launch worker job envelope program).log =
    (program.settle world.log).2 := by
  unfold launch
  cases program.settle world.log with
  | mk settled log => cases settled <;> rfl

/-- The calls of a program that has just come to wait. -/
def firstCalls (firstId : Nat) : CommandProgram M → List CallState
  | .await _ calls _ => newCalls firstId calls
  | _ => []

theorem workers_launch : (world.launch worker job envelope program).workers =
    Function.update world.workers worker (some (.busy job envelope (program.settle world.log).1
      (firstCalls world.nextCall (program.settle world.log).1))) := by
  unfold launch
  cases program.settle world.log with
  | mk settled log => cases settled <;> rfl

variable {world} (run : RunningCall world) (fate : Fate) (order : List String) (elapsedMs : Nat)

/-- Worker and index determine a running call. -/
theorem RunningCall.unique (run run' : RunningCall world) (hworker : run.worker = run'.worker)
    (hindex : run.index = run'.index) : run = run' := by
  obtain ⟨worker, _, _, _, _, _, _, index, _, _, _, hbusy, hactive⟩ := run
  obtain ⟨worker', _, _, _, _, _, _, index', _, _, _, hbusy', hactive'⟩ := run'
  obtain rfl : worker = worker' := hworker
  obtain rfl : index = index' := hindex
  cases hbusy.symm.trans hbusy'
  cases hactive.symm.trans hactive'
  rfl

theorem RunningCall.sends : world.sends (.attempt run.worker run.index fate order elapsedMs) =
    match fate with
    | .answered => some ⟨run.id, run.job, run.call.request, order, true⟩
    | .lost .now _ _ => some ⟨run.id, run.job, run.call.request, order, false⟩
    | .lost _ _ _ => none := by
  simp only [World.sends, run.busy, run.active]

theorem RunningCall.ended : world.ended (.attempt run.worker run.index fate order elapsedMs) =
    ((callEnd run.call run.attempt elapsedMs (run.sent fate order).1).map
      fun result => .concluded run.id run.job run.call.request result).toList := by
  simp only [World.ended, run.busy, run.active]
  rfl

theorem RunningCall.transmit : ∃ late : List InFlight, (run.sent fate order).2 =
      { world with
        servers := world.serversAfter (.attempt run.worker run.index fate order elapsedMs)
        log := ⟨world.log.events ++
          world.processed (.attempt run.worker run.index fate order elapsedMs), world.log.draws⟩
        inFlight := world.inFlight ++ late } ∧
      ∀ request ∈ late, request = ⟨run.id, run.job, run.call.request⟩ := by
  unfold serversAfter processed RunningCall.sent
  rw [run.sends fate order elapsedMs]
  match fate with
  | .answered | .lost .now _ _ => exact ⟨[], by simp [World.transmit, serve], by simp⟩
  | .lost .never _ _ => exact ⟨[], by simp [World.transmit], by simp⟩
  | .lost .later _ _ =>
    exact ⟨[⟨run.id, run.job, run.call.request⟩], by simp [World.transmit], by simp⟩

end Projections

/-- Every step is one of the moves. -/
theorem step_move (urls : Urls) (world : World M) (action : Action) :
    Move urls world action (step urls world action) := by
  cases action with
  | start worker envelope =>
    simp only [step]
    split
    · rename_i slot hidle
      exact .start hidle
    · exact .stay _ rfl rfl
  | attempt worker index fate order elapsedMs =>
    simp only [step]
    split
    · rename_i job envelope state pending next calls hbusy
      split
      · rename_i id attempt call hcall
        let run : RunningCall world :=
          ⟨worker, job, envelope, state, pending, next, calls, index, id, attempt, call, hbusy, hcall⟩
        cases hdecision : (world.transmit id job call.request fate order).1 with
        | success reply =>
          simp only [settleCall]
          split
          · rename_i all hall
            exact .join run hdecision hall
          · rename_i hnone
            exact .progress run hdecision hnone
        | transient cause =>
          simp only [settleCall]
          split
          · rename_i hlt
            exact .retry run hdecision hlt
          · rename_i hlt
            exact .failure run _ (by simp [run, RunningCall.sent, hdecision, callEnd, hlt])
        | fatal cause => exact .failure run _ (by simp [run, RunningCall.sent, hdecision, callEnd])
      · refine .stay _ ?_ ?_
        · simp only [sends, hbusy]
        · simp only [ended, hbusy]
    · refine .stay _ ?_ ?_
      · simp only [sends]
      · simp only [ended]
  | deliver index order =>
    simp only [step]
    split
    · rename_i request hrequest
      exact .late hrequest
    · rename_i hnone
      exact .stay _ (by simp [sends, hnone]) rfl
  | proceed worker =>
    simp only [step]
    split
    · rename_i job envelope result slot calls hbusy
      cases result with
      | ok outcome =>
        cases outcome with
        | finished message => exact .finish _ hbusy (.inl ⟨message, rfl, rfl⟩)
        | again staleAcked processed => exact .again hbusy
      | error message => exact .finish _ hbusy (.inr ⟨message, rfl, rfl⟩)
    · exact .stay _ rfl rfl

end World

end MessagingBench.Worker
