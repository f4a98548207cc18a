import MessagingBench.Worker.Intents
import MessagingBench.Worker.Records
import MessagingBench.Worker.Symbolic

/-!
# Queued intents over whole runs

A command that lost the epoch race is queued and retried after the next commit the
client applies. The slot holds one intent: a further command that loses the race
takes it over. As long as that does not happen, a queued intent stays until a retry
has published it or the client has been removed from the group.
-/

namespace MessagingBench.Worker

open World Delivery

variable {M : Mls} (world : World M)

def World.slot (worker : String) : Option (Slot M) :=
  (world.workers worker).bind shows

def World.queuedIntent (worker : String) : Option PendingIntent :=
  (world.slot worker).bind Slot.queuedIntent

/-- What the rest of a worker's program does to the queued intent. -/
def ActivityTreats : Activity M → Prop
  | .idle _ => True
  | .busy _ envelope (.done (result, slot)) _ => Closes envelope.command result slot
  | .busy _ envelope (.await state pending next) _ => ∀ replies,
      (next replies).Segments (Treats envelope.command) (fun entry shown r =>
        Treats envelope.command entry shown r.2 ∧ Closes envelope.command r.1 r.2)
        (some (pending, replies)) state
  | _ => False

structure IntentsSound (world : World M) : Prop where
  kept : Kept world
  treats : ∀ worker activity, world.workers worker = some activity → ActivityTreats activity

/-- The segment of a worker's program that a step runs, by what it starts with. -/
def Enters (action : Action) (worker : String) (command : Command)
    (entry : Entry M) : Prop :=
  ∀ pending all, entry = some (pending, .ok all) →
    ∃ (run : RunningCall world) (order : List String) (elapsedMs : Nat) (reply : Reply),
      action = .attempt worker run.index .answered order elapsedMs ∧ run.worker = worker ∧
      run.pending = pending ∧ run.envelope.command = command ∧
      run.call.request.retryDecision (handle order world.servers run.call.request).1 =
        .success reply ∧
      replies (run.calls.set run.index (.finished reply)) = some all

def Changes (action : Action) (worker : String) (before after : Slot M) : Prop :=
  after = before ∨ ∃ command entry, Enters world action worker command entry ∧
    Treats command entry before after

section Launch

variable {world base world' : World M} {worker : String} {job : Job} {envelope : Envelope}
  {program : CommandProgram M} {entry : Entry M} {shown : Slot M} {urls : Urls} {action : Action}

/-- Running a program completes one segment and leaves the rest in order. -/
theorem launch_treats (hprogram : program.Segments (Treats envelope.command) (fun entry shown r =>
      Treats envelope.command entry shown r.2 ∧ Closes envelope.command r.1 r.2) entry shown) :
    ∃ activity state, (base.launch worker job envelope program).workers worker = some activity ∧
      ActivityTreats activity ∧ shows activity = some state ∧
      Treats envelope.command entry shown state := by
  have hpaused := hprogram.settle base.log
  rw [workers_launch, Function.update_self]
  generalize (program.settle base.log).1 = settled at hpaused
  cases settled with
  | done r => exact ⟨_, r.2, rfl, hpaused.2, rfl, hpaused.1⟩
  | await state pending next => exact ⟨_, state, rfl, hpaused.2, rfl, hpaused.1⟩
  | note event next | draw next => exact hpaused.elim

/-- A worker of a step: what it does next is in order, and its slot changes as a segment
of its program does. -/
structure Advances (world world' : World M) (action : Action) (worker : String) : Prop where
  treats : ∀ activity, world'.workers worker = some activity → ActivityTreats activity
  slot : ∀ before, world.slot worker = some before →
    ∃ after, world'.slot worker = some after ∧ Changes world action worker before after

theorem Advances.stays (h : IntentsSound world)
    (hworkers : world'.workers worker = world.workers worker) :
    Advances world world' action worker := by
  refine ⟨fun activity hactivity => h.treats worker activity (hworkers ▸ hactivity), ?_⟩
  intro before hbefore
  refine ⟨before, ?_, .inl rfl⟩
  unfold World.slot at hbefore ⊢
  rw [hworkers, hbefore]

theorem Advances.launch (hshown : world.slot worker = some shown)
    (henters : Enters world action worker envelope.command entry)
    (hprogram : program.Segments (Treats envelope.command) (fun entry shown r =>
      Treats envelope.command entry shown r.2 ∧ Closes envelope.command r.1 r.2) entry shown) :
    Advances world (base.launch worker job envelope program) action worker := by
  obtain ⟨activity, state, hactivity, htreats, hshows, hstate⟩ := launch_treats hprogram
  constructor
  · intro activity' hactivity'
    cases hactivity.symm.trans hactivity'
    exact htreats
  · intro before hbefore
    cases hshown.symm.trans hbefore
    refine ⟨state, ?_, .inr ⟨envelope.command, entry, henters, hstate⟩⟩
    unfold World.slot
    rw [hactivity, Option.bind_some, hshows]

theorem Advances.waits (h : IntentsSound world) {state : Slot M} {pending : List Call}
    {next : Except CallFailure (List Reply) → CommandProgram M} {calls calls' : List CallState}
    (hbusy : world.workers worker = some (.busy job envelope (.await state pending next) calls))
    (hbusy' : world'.workers worker = some (.busy job envelope (.await state pending next) calls')) :
    Advances world world' action worker := by
  have htreats := h.treats worker _ hbusy
  constructor
  · intro activity hactivity
    cases hbusy'.symm.trans hactivity
    exact htreats
  · intro before hbefore
    refine ⟨before, ?_, .inl rfl⟩
    unfold World.slot at hbefore ⊢
    rw [hbusy] at hbefore
    rw [hbusy']
    exact hbefore

end Launch

section Step

variable {world : World M} {urls : Urls} {action : Action}

theorem IntentsSound.advances (h : IntentsSound world) (worker : String) :
    Advances world (world.step urls action) action worker := by
  by_cases hactor : action.actor = some worker
  swap
  · exact .stays h (workers_step hactor)
  have hmove := step_move urls world action
  generalize world.step urls action = world' at hmove ⊢
  cases hmove with
  | stay => exact .stays h rfl
  | @start _ envelope slot hidle =>
    cases hactor
    refine .launch (by simp [World.slot, hidle, shows]) ?_ (handleCommand_treats urls envelope slot)
    exact fun _ _ hentry => nomatch hentry
  | retry run | progress run =>
    cases hactor
    exact .waits h run.busy (Function.update_self ..)
  | join run hdecision hall =>
    cases hactor
    refine .launch (by simp [slot, run.busy, shows]) ?_ (h.treats _ _ run.busy _)
    rintro pending all hentry
    cases hentry
    obtain ⟨rfl, hreply⟩ := RunningCall.success hdecision
    exact ⟨run, _, _, _, rfl, rfl, rfl, rfl, hreply, hall⟩
  | failure run text =>
    cases hactor
    refine .launch (by simp [slot, run.busy, shows]) ?_ (h.treats _ _ run.busy _)
    exact fun _ _ hentry => nomatch hentry
  | late => cases hactor
  | @again _ job envelope staleAcked processed slot calls hbusy =>
    cases hactor
    have hcloses : Closes envelope.command (.ok (.again staleAcked processed)) slot :=
      h.treats worker _ hbusy
    have hsegments := (Tending.receiveCommitDelivery urls envelope.expectedEpoch staleAcked
      processed).treats (hcloses.receiving _ _ rfl) none slot
    refine .launch (by simp [World.slot, hbusy, shows]) ?_ hsegments
    exact fun _ _ hentry => nomatch hentry
  | @finish _ _ _ _ slot _ answer hbusy =>
    cases hactor
    constructor
    · intro activity hactivity
      simp only [setWorker, Function.update_self, Option.some.injEq] at hactivity
      subst hactivity
      trivial
    · intro before hbefore
      simp only [World.slot, hbusy, shows, Option.bind_some, Option.some.injEq] at hbefore
      subst hbefore
      exact ⟨slot, by simp [World.slot, setWorker, shows], .inl rfl⟩

theorem IntentsSound.step (h : IntentsSound world) : IntentsSound (world.step urls action) :=
  ⟨h.kept.step urls action, fun worker => (h.advances worker).treats⟩

theorem IntentsSound.init (mode : CommitDeliveryMode) (crypto : String → Option M.Crypto) :
    IntentsSound (init mode crypto : World M) := by
  refine ⟨.init mode crypto, ?_⟩
  intro worker activity hactivity
  simp only [World.init, Option.map_eq_some_iff] at hactivity
  obtain ⟨_, _, rfl⟩ := hactivity
  trivial

end Step

def rejectsCommit (servers : Servers) : Request → Bool
  | .publishGroupCommit groupId sender epoch body =>
    match (servers.ds.publishGroupCommit groupId sender epoch body).1 with
    | .ok () => false
    | .error _ => true
  | _ => false

/-- The step answers the post of a command that starts an intent with a conflict while
another intent of its client is queued. -/
def requeues : Action → Bool
  | .attempt worker index .answered _ _ =>
    match world.workers worker with
    | some (.busy _ envelope (.await state _ _) calls) =>
      match calls[index]? with
      | some (.active _ _ call) => envelope.command.lostText.isSome && state.queuedIntent.isSome &&
          rejectsCommit world.servers call.request
      | _ => false
    | _ => false
  | _ => false

/-- How a queued intent ends. -/
inductive Retired (urls : Urls) (world : World M) (action : Action) (worker : String)
    (intent : PendingIntent) : Prop
  /-- A command that receives commits has posted a commit of the intent and hears in this
  step that it is accepted. -/
  | published {job envelope state pending next calls id order groupId sender epoch commitBytes} :
      world.workers worker = some (.busy job envelope (.await state pending next) calls) →
      envelope.command.lostText = none →
      world.sends action = some
        ⟨id, job, .publishGroupCommit groupId sender epoch commitBytes, order, true⟩ →
      CommitFor M intent commitBytes →
      (world.servers.ds.publishGroupCommit groupId sender epoch commitBytes).1 = .ok () →
      Retired urls world action worker intent
  /-- The client applies a commit that removes it. -/
  | removed {slot} : (world.step urls action).slot worker = some slot → JustRemoved slot.client →
      Retired urls world action worker intent

/-- The command that a step answers with success, and the answer. -/
def World.answers : Action → Option (String × Command × String)
  | .proceed worker =>
    match world.workers worker with
    | some (.busy _ envelope (.done (.ok (.finished answer), _)) _) =>
      some (worker, envelope.command, answer)
    | _ => none
  | _ => none

section Retiring

variable {world : World M} {urls : Urls} {action : Action} {worker : String}

theorem Enters.single (hkept : Kept world) {command : Command} {entry : Entry M} {call : Call}
    {reply : Reply} {rest : List Reply} (h : Enters world action worker command entry)
    (hentry : entry = some ([call], .ok (reply :: rest))) :
    ∃ (run : RunningCall world) (order : List String) (elapsedMs : Nat),
      action = .attempt run.worker run.index .answered order elapsedMs ∧ run.worker = worker ∧
      run.call = call ∧ run.envelope.command = command ∧
      call.request.retryDecision (handle order world.servers call.request).1 = .success reply := by
  obtain ⟨run, order, elapsedMs, reply', haction, rfl, hpending, hcommand, hreply, hall⟩ :=
    h _ _ hentry
  obtain ⟨-, -, -, hcalls, -⟩ := run.ok hkept
  have hactive := run.active
  have hcall := run.mem_pending hkept
  rw [hpending] at hcalls hcall
  obtain hcall : run.call = call := List.mem_singleton.mp hcall
  rw [hcall] at hreply
  refine ⟨run, order, elapsedMs, haction, rfl, hcall, hcommand, ?_⟩
  generalize run.calls = calls at hcalls hactive hall
  generalize run.index = index at hactive hall
  cases hcalls with
  | cons hhead htail =>
    cases htail
    obtain rfl : index = 0 := by simpa using (List.getElem?_eq_some_iff.mp hactive).1
    simp only [replies, List.set_cons_zero, List.mapM_cons, List.mapM_nil] at hall
    cases hall
    exact hreply

/-- A post is rejected exactly if it is answered with a conflict. -/
theorem retryDecision_commit {servers : Servers} {order : List String} {groupId sender : String}
    {epoch : Epoch} {body : Bytes} {reply : Reply}
    (h : (Request.publishGroupCommit groupId sender epoch body).retryDecision
      (handle order servers (.publishGroupCommit groupId sender epoch body)).1 = .success reply) :
    (servers.ds.publishGroupCommit groupId sender epoch body).1 = .ok () ∧ reply = .done ∨
      rejectsCommit servers (.publishGroupCommit groupId sender epoch body) = true ∧
        ∃ message, reply = .conflict message := by
  rcases hpost : servers.ds.publishGroupCommit groupId sender epoch body with ⟨result, ds⟩
  cases result with
  | ok done =>
    left
    simpa [handle, hpost, ok, Request.retryDecision, Request.reply, eq_comm] using h
  | error message =>
    right
    refine ⟨by simp [rejectsCommit, hpost], message, ?_⟩
    simpa [handle, hpost, conflict, Request.retryDecision, Request.allowsConflict, Body.asText,
      eq_comm] using h

theorem IntentsSound.keeps (h : IntentsSound world) (hguard : requeues world action = false)
    {intent : PendingIntent} (hqueued : world.queuedIntent worker = some intent) :
    (world.step urls action).queuedIntent worker = some intent ∨
      Retired urls world action worker intent := by
  have hadvances : Advances world (world.step urls action) action worker := h.advances worker
  obtain ⟨before, hbefore, hintent⟩ := Option.bind_eq_some_iff.mp hqueued
  obtain ⟨after, hafter, hchanges⟩ := hadvances.slot before hbefore
  have hkeeps (hsame : after.queuedIntent = before.queuedIntent) :
      (world.step urls action).queuedIntent worker = some intent := by
    unfold queuedIntent
    rw [hafter, Option.bind_some, hsame, hintent]
  rcases hchanges with rfl | ⟨command, entry, henters, htreats⟩
  · exact .inl (hkeeps rfl)
  cases hlost : command.lostText with
  | some lost =>
    simp only [Treats, hlost] at htreats
    rcases htreats with hsame | ⟨commitBytes, message, hanswered⟩
    · exact .inl (hkeeps hsame)
    · obtain ⟨hrequest, hentry⟩ := hanswered
      obtain ⟨run, order, elapsedMs, rfl, rfl, rfl, rfl, hreply⟩ := henters.single h.kept hentry
      rw [hrequest] at hreply
      have hstate : before = run.state := by
        simpa [slot, run.busy, shows, eq_comm] using hbefore
      rw [hstate] at hintent
      rcases retryDecision_commit hreply with ⟨-, hdone⟩ | ⟨hrejects, -⟩
      · cases hdone
      · simp [requeues, run.busy, run.active, hlost, hintent, hrequest, hrejects] at hguard
  | none =>
    simp only [Treats, hlost] at htreats
    rcases htreats with hsame | ⟨-, hposted | hremoved⟩
    · exact .inl (hkeeps hsame)
    · right
      obtain ⟨intent', commitBytes, reply, hshown, hcommit, hanswered, hreply⟩ := hposted
      cases hintent.symm.trans hshown
      obtain ⟨hrequest, hentry⟩ := hanswered
      obtain ⟨run, order, elapsedMs, rfl, rfl, rfl, rfl, hdecision⟩ :=
        henters.single h.kept hentry
      have hsends := run.sends .answered order elapsedMs
      rw [hrequest] at hdecision hsends
      rcases retryDecision_commit hdecision with ⟨haccepted, -⟩ | ⟨-, message, hconflict⟩
      · exact .published run.busy hlost hsends hcommit haccepted
      · exact absurd hconflict (hreply message)
    · exact .inr (.removed hafter hremoved)

theorem IntentsSound.queued (h : IntentsSound world) {command : Command} {answer : String}
    (hanswers : world.answers action = some (worker, command, answer))
    (hqueued : AnsweredQueued command answer) : ∃ intent, command.intends intent ∧
      (world.step urls action).queuedIntent worker = some intent := by
  unfold answers at hanswers
  split at hanswers
  · split at hanswers
    · rename_i job envelope answer' slot calls hbusy
      cases hanswers
      have hcloses : Closes envelope.command (.ok (.finished answer)) slot := h.treats _ _ hbusy
      obtain ⟨intent, hintends, hslot⟩ := hcloses.queued answer rfl hqueued
      refine ⟨intent, hintends, ?_⟩
      simp [queuedIntent, World.slot, World.step, hbusy, setWorker, shows, hslot]
    · cases hanswers
  · cases hanswers

end Retiring

def QueuedUntilRetired (urls : Urls) (world : World M) (worker : String) (intent : PendingIntent)
    (schedule : List Action) : Prop :=
  (execute (step urls) world schedule).queuedIntent worker = some intent ∨
    ∃ before action after, schedule = before ++ action :: after ∧
      (execute (step urls) world before).queuedIntent worker = some intent ∧
      Retired urls (execute (step urls) world before) action worker intent

/-- In every run in which no command that starts an intent is answered with a conflict while
an intent of its client is queued, a command that is answered as queued for retry stays the
queued intent until a retry has published it or the client has been removed. -/
theorem queued_until_retired (urls : Urls) (mode : CommitDeliveryMode)
    (crypto : String → Option M.Crypto) (before : List Action) (action : Action)
    (after : List Action)
    (hrun : Guarded (step urls) (fun world action => requeues world action = false)
      (init mode crypto) (before ++ action :: after)) {worker : String} {command : Command}
    {answer : String}
    (hanswers : (execute (step urls) (init mode crypto) before).answers action =
      some (worker, command, answer)) (hqueued : AnsweredQueued command answer) :
    ∃ intent, command.intends intent ∧ QueuedUntilRetired urls
      ((execute (step urls) (init mode crypto) before).step urls action) worker intent
      after := by
  obtain ⟨hbefore, -, hafter⟩ := (guarded_append ..).mp hrun
  have hsound : IntentsSound (execute (step urls) (init mode crypto) before) :=
    hbefore.invariant (fun _ _ h _ => h.step) (.init mode crypto)
  obtain ⟨intent, hintends, hintent⟩ := hsound.queued hanswers hqueued
  have hstep (world : World M) (action : Action) (h : IntentsSound world)
      (_ : requeues world action = false) : IntentsSound (world.step urls action) := h.step
  have hkeeps (world : World M) (action : Action) (h : IntentsSound world)
      (hguard : requeues world action = false)
      (hheld : world.queuedIntent worker = some intent) :
      (world.step urls action).queuedIntent worker = some intent ∨
        Retired urls world action worker intent := h.keeps hguard hheld
  exact ⟨intent, hintends, hafter.kept_or_released hstep hkeeps hsound.step hintent⟩

/-- Bob joins alice's group and publishes an update first; alice's own update conflicts. -/
def lostRace : List Action :=
  Symbolic.addBob ++ [.attempt "alice" 0 .answered [] 0, .attempt "alice" 0 .answered [] 0,
    .proceed "alice",
    .start "bob" ⟨.joinFromWelcome, none⟩, .attempt "bob" 0 .answered [] 0, .proceed "bob",
    .start "bob" ⟨.selfUpdate, none⟩, .attempt "bob" 0 .answered [] 0, .proceed "bob",
    .start "alice" ⟨.selfUpdate, none⟩, .attempt "alice" 0 .answered [] 0]

/-- Alice applies bob's update and retries her own. -/
def retried : List Action :=
  [.start "alice" ⟨.receiveCommit, none⟩, .attempt "alice" 0 .answered [] 0,
    .attempt "alice" 0 .answered [] 0, .attempt "alice" 0 .answered [] 0]

def queuedAnswer : String :=
  "self_update lost the epoch race and was queued for retry: " ++
    "Commit epoch mismatch for group '00': expected 2, got 1"

/-- The system after a run of alice and bob. -/
def afterRun (schedule : List Action) : World Symbolic.mls :=
  execute (step Symbolic.urls) (init .perRecipient (Symbolic.crypto ["alice", "bob"]))
    schedule

theorem answeredQueued_selfUpdate : AnsweredQueued .selfUpdate queuedAnswer :=
  ⟨"self_update", "Commit epoch mismatch for group '00': expected 2, got 1", rfl, by decide⟩

set_option maxRecDepth 8000 in
theorem queued_until_retired_retried :
    (afterRun lostRace).answers (.proceed "alice") = some ("alice", .selfUpdate, queuedAnswer) ∧
      ∃ intent, Command.selfUpdate.intends intent ∧ QueuedUntilRetired Symbolic.urls
        (afterRun (lostRace ++ [.proceed "alice"])) "alice" intent retried :=
  ⟨by decide, queued_until_retired Symbolic.urls .perRecipient (Symbolic.crypto ["alice", "bob"])
    lostRace (.proceed "alice") retried (by decide) (by decide) answeredQueued_selfUpdate⟩

/-- Alice's removal of bob loses the race, too. -/
def replaced : List Action :=
  [.start "alice" ⟨.removeMembers ["bob"], none⟩, .attempt "alice" 0 .answered [] 0,
    .proceed "alice"]

/-- The command a busy worker executes. -/
def Activity.command : Activity M → Option Command
  | .idle _ => none
  | .busy _ envelope _ _ => some envelope.command

/-- A worker that executes a command that starts an intent and ends in a group has not
retired its intent. -/
theorem not_retired {world : World M} {urls : Urls} {action : Action} {worker : String}
    {intent : PendingIntent} (command : Command)
    (hcommand : world.sends action = none ∨
      (world.workers worker).bind Activity.command = some command ∧ command.lostText.isSome = true)
    (hgroup : ((world.step urls action).slot worker).map (·.client.group.isSome) = some true) :
    ¬Retired urls world action worker intent := by
  intro h
  cases h with
  | published hbusy hlost hsends _ _ =>
    rcases hcommand with hnone | ⟨hsame, hsome⟩
    · rw [hnone] at hsends
      cases hsends
    · rw [hbusy] at hsame
      cases hsame
      rw [hlost] at hsome
      cases hsome
  | removed hslot hremoved =>
    rw [hslot] at hgroup
    simp [hremoved.group] at hgroup

set_option maxRecDepth 8000 in
/-- Alice's update was answered as queued for retry; her removal of bob takes its place. -/
theorem queued_replaced :
    (afterRun lostRace).answers (.proceed "alice") = some ("alice", .selfUpdate, queuedAnswer) ∧
      AnsweredQueued .selfUpdate queuedAnswer ∧
      ¬∃ intent, Command.selfUpdate.intends intent ∧ QueuedUntilRetired Symbolic.urls
        (afterRun (lostRace ++ [.proceed "alice"])) "alice" intent replaced := by
  refine ⟨by decide, answeredQueued_selfUpdate, ?_⟩
  rintro ⟨intent, hintends, hend | ⟨before, action, after, hsplit, -, hretired⟩⟩
  · cases intent with
    | selfUpdate => exact absurd hend (by decide)
    | addMembers | removeMembers => exact hintends
  · unfold replaced at hsplit
    rcases before with _ | ⟨first, _ | ⟨second, _ | ⟨third, rest⟩⟩⟩
    · cases hsplit
      exact not_retired (.removeMembers ["bob"]) (.inl rfl) (by decide) hretired
    · cases hsplit
      exact not_retired (.removeMembers ["bob"]) (.inr (by decide)) (by decide) hretired
    · cases hsplit
      exact not_retired (.removeMembers ["bob"]) (.inl rfl) (by decide) hretired
    · simp at hsplit

end MessagingBench.Worker
