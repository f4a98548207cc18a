import MessagingBench.Worker.Records
import MessagingBench.Worker.Symbolic

/-!
# The effects of an own commit

After a worker has merged its own add commit it stores the welcomes and puts the group
state. Whether a later command has already reached its epoch is decided by the local
epoch alone, so an effect that failed is not made up for. As long as none of them
fails, a command that is answered with success finds all of them in place.
-/

namespace MessagingBench.Worker

open List World Delivery

variable {M : Mls}

/-- A command that waits for an epoch. -/
def Expects (envelope : Envelope) (epoch : Epoch) : Prop :=
  envelope.command = .receiveCommit ∧ envelope.expectedEpoch = some epoch ∨
    ∃ kinds maxMessages, envelope.command = .processPending kinds maxMessages (some epoch)

/-- At some point of a run a welcome is in the inbox of its recipient. -/
def WelcomeStored (urls : Urls) (start : World M) (run : List Action) (recipient : String)
    (body : Bytes) : Prop :=
  ∃ part, part <+: run ∧ body ∈ (execute (step urls) start part).welcomes recipient

/-- A group state update was rejected because the group is at a later epoch. -/
def Superseded (groupId : String) (epoch : Epoch) (response : Response) : Prop :=
  ∃ current, epoch < current ∧
    response = conflict (DeliveryService.groupStateMismatch groupId current epoch)

/-- A group state update of a worker was accepted or rejected as superseded. -/
def StateSettled (events : List Event) (worker groupId : String) (epoch : Epoch) : Prop :=
  ∃ id job members response heard, job.worker = worker ∧
    Event.served id job (.putGroupState groupId epoch members) response heard ∈ events ∧
      (response.status = 200 ∨ Superseded groupId epoch response)

/-- Whenever a command of the worker that waits for the epoch is answered with success in a
step of the run, the effects of the own commit that led to the epoch are in place. -/
def EffectsKept (worker groupId : String) (epoch : Epoch) (urls : Urls) (start : World M)
    (schedule : List Action) : Prop :=
  ∀ earlier action later job envelope message, schedule = earlier ++ action :: later →
    Event.answered job envelope (.ok message) ∈
      ((execute (step urls) start earlier).step urls action).log.events →
    Event.answered job envelope (.ok message) ∉ (execute (step urls) start earlier).log.events →
    job.worker = worker → Expects envelope epoch → ∀ added welcome,
      Event.merged worker groupId epoch added welcome ∈
        (execute (step urls) start earlier).log.events →
      (∀ recipient ∈ added, ∃ body ∈ welcome,
          WelcomeStored urls start earlier recipient body) ∧
        StateSettled (execute (step urls) start earlier).log.events worker groupId epoch

def isLater (servers : Servers) (groupId : String) (epoch : Epoch) : Bool :=
  match servers.ds.groups groupId with
  | some state => decide (epoch < state.currentEpoch)
  | none => false

/-- The second event is the failure of a welcome of the commit that the worker has merged into
the epoch of the group according to the first. -/
def isLostWelcome (worker groupId : String) (epoch : Epoch) : Event → Event → Bool
  | .merged worker' groupId' epoch' added welcome,
    .concluded _ job (.publishWelcome recipient body) (.error _) =>
    worker' == worker && groupId' == groupId && epoch' == epoch && job.worker == worker &&
      added.contains recipient && welcome == some body
  | _, _ => false

/-- The group state update of the worker for the epoch fails in this step other than by being
superseded. -/
def losesUpdate (worker groupId : String) (epoch : Epoch) (world : World M) (action : Action) :
    Bool :=
  match world.fails action with
  | some (job, .putGroupState groupId' epoch' _, heard) =>
    job.worker == worker && groupId' == groupId && epoch' == epoch &&
      !(heard && isLater world.servers groupId epoch)
  | _ => false

/-- The failed updates of the worker for the epoch were superseded. -/
structure UpdatesSettled (worker groupId : String) (epoch : Epoch) (world : World M) : Prop where
  kept : Kept world
  puts : ∀ job members, job.worker = worker →
    Failed world.log job (.putGroupState groupId epoch members) →
    StateSettled world.log.events worker groupId epoch

section Facts

variable {log : Log Event} {worker groupId : String} {epoch : Epoch}

theorem StateSettled.mono {events events' : List Event}
    (h : StateSettled events worker groupId epoch) (hmem : ∀ event ∈ events, event ∈ events') :
    StateSettled events' worker groupId epoch := by
  obtain ⟨id, job, members, response, heard, hjob, hserved, hresponse⟩ := h
  exact ⟨id, job, members, response, heard, hjob, hmem _ hserved, hresponse⟩

/-- A group state update that ends with a result was accepted by the service. -/
theorem Heard.putGroupState_settled {job : Job} {members : List String} {reply : Reply}
    (hgenuine : Genuine log) (hjob : job.worker = worker)
    (h : Heard log job (.putGroupState groupId epoch members) reply) :
    StateSettled log.events worker groupId epoch := by
  obtain ⟨id, response, hserved, hreply, -⟩ := h
  refine ⟨id, job, members, response, true, hjob, hserved, .inl ?_⟩
  obtain ⟨order, servers, rfl⟩ := hgenuine _ _ _ _ _ hserved
  simp only [handle] at hreply ⊢
  split at hreply
  · rfl
  · simp [conflict, Request.retryDecision, Request.allowsConflict, isTransientStatus] at hreply

end Facts

section Step

variable {worker groupId : String} {epoch : Epoch} {world : World M} {urls : Urls} {action : Action}

/-- The service rejects an update for an earlier epoch as superseded. -/
theorem superseded_of_isLater {servers : Servers} {order : List String} {members : List String}
    (h : isLater servers groupId epoch = true) : Superseded groupId epoch
      (handle order servers (.putGroupState groupId epoch members)).1 := by
  unfold isLater at h
  split at h
  · rename_i state hstate
    have hlt := of_decide_eq_true h
    refine ⟨state.currentEpoch, hlt, ?_⟩
    simp only [handle, DeliveryService.putGroupState, hstate, ne_eq, UInt64.ne_of_lt hlt,
      not_false_eq_true, ite_true]
  · cases h

theorem UpdatesSettled.step (h : UpdatesSettled worker groupId epoch world)
    (hguard : losesUpdate worker groupId epoch world action = false) :
    UpdatesSettled worker groupId epoch (world.step urls action) := by
  refine ⟨h.kept.step urls action, ?_⟩
  rintro job members hjob ⟨id, text, hmem⟩
  by_cases hold : Event.concluded id job (.putGroupState groupId epoch members) (.error text) ∈
      world.log.events
  · exact (h.puts job members hjob ⟨id, text, hold⟩).mono fun _ => mem_step_of_mem h.kept
  · obtain ⟨fate, order, hfails, hserved⟩ := fails_of_failed h.kept hmem hold
    simp only [losesUpdate, hfails, hjob, beq_self_eq_true, Bool.true_and, Bool.not_eq_eq_eq_not,
      Bool.not_false, Bool.and_eq_true, decide_eq_true_eq] at hguard
    obtain ⟨hanswered, hlater⟩ := hguard
    exact ⟨id, job, members, _, true, hjob, hserved hanswered, .inr (superseded_of_isLater hlater)⟩

end Step

section Runs

variable {worker groupId : String} {epoch : Epoch} {urls : Urls} {start : World M}
  {schedule : List Action}

/-- A welcome whose request was processed has been in the inbox of its recipient. -/
theorem welcomeStored_of_served (hstart : Kept start) (hempty : start.log.events = []) {id : Nat}
    {job : Job} {recipient : String} {body : Bytes} {response : Response} {heard : Bool}
    (h : Event.served id job (.publishWelcome recipient body) response heard ∈
      (execute (step urls) start schedule).log.events) :
    WelcomeStored urls start schedule recipient body := by
  induction schedule using reverseRecOn with
  | nil =>
    rw [execute_nil, hempty] at h
    cases h
  | append_singleton schedule action ih =>
    rw [execute_append] at h
    rcases served_step (kept_execute hstart) h with hold | ⟨order, hsends, -⟩
    · obtain ⟨part, hpart, hmem⟩ := ih hold
      exact ⟨part, hpart.trans (prefix_append _ _), hmem⟩
    · refine ⟨_, prefix_refl _, ?_⟩
      rw [execute_append, execute_cons, execute_nil, welcomes, servers_step, serversAfter, hsends]
      simp [stores_handle.2,
        DeliveryService.publishWelcome]

theorem updatesSettled_execute (hstart : UpdatesSettled worker groupId epoch start)
    (hrun : Guarded (step urls) (fun world action =>
      losesUpdate worker groupId epoch world action = false) start schedule) :
    UpdatesSettled worker groupId epoch (execute (step urls) start schedule) :=
  hrun.invariant (fun _ _ h => h.step) hstart

theorem UpdatesSettled.init (worker groupId : String) (epoch : Epoch) (mode : CommitDeliveryMode)
    (crypto : String → Option M.Crypto) :
    UpdatesSettled worker groupId epoch (init mode crypto : World M) := by
  refine ⟨.init mode crypto, ?_⟩
  rintro job members hjob ⟨id, text, hmem⟩
  cases hmem

/-- In every run in which no welcome of the worker's commit into the epoch fails and its group
state update for the epoch fails only by being superseded, the effects of the commit are kept. -/
theorem effects_kept (worker groupId : String) (epoch : Epoch) (urls : Urls)
    (mode : CommitDeliveryMode) (crypto : String → Option M.Crypto) (schedule : List Action)
    (hwelcomes : ∀ merged ∈ (execute (step urls) (init mode crypto) schedule).log.events,
      ∀ event ∈ (execute (step urls) (init mode crypto) schedule).log.events,
        isLostWelcome worker groupId epoch merged event = false)
    (hrun : Guarded (step urls) (fun world action =>
      losesUpdate worker groupId epoch world action = false) (init mode crypto) schedule) :
    EffectsKept worker groupId epoch urls (init mode crypto) schedule := by
  rintro earlier action later job envelope message rfl hanswered hbefore rfl - added welcome hmerged
  have hsettled := updatesSettled_execute (.init job.worker groupId epoch mode crypto)
    ((guarded_append ..).mp hrun).1
  obtain ⟨_, _, _, -, hfinishes, -⟩ :=
    (finishes_of_answered hsettled.kept hanswered).resolve_left hbefore
  have hlater {event : Event}
      (h : event ∈ (execute (step urls) (init mode crypto) earlier).log.events) :
      event ∈ (execute (step urls) (init mode crypto)
        (earlier ++ action :: later)).log.events := by
    rw [execute_append]
    exact mem_execute_of_mem hsettled.kept _ h
  rcases hfinishes.1.accounted groupId epoch added welcome hmerged with
    ⟨job', recipient, hrecipient, body, hbody, hjob, id, text, hfailed⟩ |
    ⟨hstored, job', members, hjob, hput⟩
  · have hlost := hwelcomes _ (hlater hmerged) _ (hlater hfailed)
    simp [isLostWelcome, hjob, hrecipient, Option.mem_def.mp hbody] at hlost
  · constructor
    · intro recipient hrecipient
      obtain ⟨body, hbody, _, -, id, response, hserved, -⟩ := hstored recipient hrecipient
      exact ⟨body, hbody, welcomeStored_of_served (.init mode crypto) rfl hserved⟩
    · rcases hput with hheard | hfailed
      · exact hheard.putGroupState_settled hsettled.kept.sound.genuine hjob
      · exact hsettled.puts job' members hjob hfailed

end Runs

/-- Alice's welcome and her group state update are stored. -/
def followedUp : List Action :=
  Symbolic.addBob ++ [.attempt "alice" 0 .answered [] 0, .attempt "alice" 0 .answered [] 0,
    .proceed "alice"]

/-- Some execution of the command was answered with success. -/
def succeeded (envelope : Envelope) (events : List Event) : Bool :=
  events.any fun
    | .answered _ envelope' (.ok _) => envelope' == envelope
    | _ => false

set_option maxRecDepth 8000 in
theorem effects_kept_followedUp :
    succeeded ⟨.receiveCommit, some 1⟩ (Symbolic.record ["alice", "bob"] followedUp).events = true ∧
      EffectsKept "alice" "00" 1 Symbolic.urls
        (init .perRecipient (Symbolic.crypto ["alice", "bob"])) followedUp :=
  ⟨by decide, effects_kept "alice" "00" 1 Symbolic.urls .perRecipient
    (Symbolic.crypto ["alice", "bob"]) followedUp (by decide) (by decide)⟩

/-- Alice's welcome fails after the merge; the redelivered commit counts as applied. -/
def lostWelcome : List Action :=
  Symbolic.addBob.dropLast ++
    [.attempt "alice" 0 (.lost .never false "connection refused") [] 0, .proceed "alice",
      .start "alice" ⟨.receiveCommit, some 1⟩, .attempt "alice" 0 .answered [] 0,
      .attempt "alice" 0 .answered [] 0, .proceed "alice"]

set_option maxRecDepth 8000 in
/-- Alice's command for epoch 1 is answered with success although bob never had a welcome. -/
theorem effects_lost_lostWelcome :
    ¬EffectsKept "alice" "00" 1 Symbolic.urls
      (init .perRecipient (Symbolic.crypto ["alice", "bob"])) lostWelcome := by
  intro h
  obtain ⟨hwelcomes, -⟩ := h lostWelcome.dropLast (.proceed "alice") [] ⟨"alice", 4⟩
    ⟨.receiveCommit, some 1⟩ ("commit delivery already applied; " ++
      "delivery_id=00:1:alice:alice group=00 epoch=1 sender=alice stale_acked=1") rfl
    (by decide) (by decide) rfl (.inl ⟨rfl, rfl⟩) ["bob"]
    (some [1, 0, 0, 97, 108, 105, 99, 101, 0, 98, 111, 98, 0]) (by decide)
  obtain ⟨body, -, part, hpart, hstored⟩ := hwelcomes "bob" (mem_singleton_self _)
  have hnone : ∀ part ∈ lostWelcome.dropLast.inits, (execute (step Symbolic.urls)
      (init .perRecipient (Symbolic.crypto ["alice", "bob"])) part).welcomes "bob" = [] := by
    decide
  rw [hnone part ((mem_inits ..).mpr hpart)] at hstored
  cases hstored

end MessagingBench.Worker
