import MessagingBench.Worker.Protocol

/-!
# A worker's slot between commands

Between two commands a worker's slot is in order: the client has its name, a pending
welcome has its recipients, and every own commit it merged has been followed up by
its welcomes and a group state update, or one of its welcomes failed. The client operations keep
the part of this that is about the client.
-/

namespace MessagingBench.Worker

open Delivery

variable {M : Mls}

section Facts

variable {worker groupId : String} {log log' : Log Event} {job : Job} {request : Request}
  {epoch : Epoch}

theorem Heard.mono {reply : Reply} (h : Heard log job request reply)
    (hmem : ∀ event ∈ log.events, event ∈ log'.events) : Heard log' job request reply := by
  obtain ⟨id, response, hserved, hreply, hconcluded⟩ := h
  exact ⟨id, response, hmem _ hserved, hreply, hmem _ hconcluded⟩

theorem Failed.mono (h : Failed log job request)
    (hmem : ∀ event ∈ log.events, event ∈ log'.events) : Failed log' job request := by
  obtain ⟨id, text, hconcluded⟩ := h
  exact ⟨id, text, hmem _ hconcluded⟩

/-- Storing a welcome is never answered with a conflict. -/
theorem Heard.publishWelcome_done {recipient : String} {body : Bytes} {reply : Reply}
    (h : Heard log job (.publishWelcome recipient body) reply) (hgenuine : Genuine log) :
    reply = .done := by
  obtain ⟨id, response, hserved, hreply, -⟩ := h
  obtain ⟨order, servers, rfl⟩ := hgenuine _ _ _ _ _ hserved
  simpa [handle, ok, Request.retryDecision, Request.reply, eq_comm] using hreply

/-- A group state update that ends with a result was accepted. -/
theorem Heard.putGroupState_done {members : List String} {reply : Reply}
    (h : Heard log job (.putGroupState groupId epoch members) reply) : reply = .done := by
  obtain ⟨id, response, -, hreply, -⟩ := h
  unfold Request.retryDecision at hreply
  split at hreply
  · simpa [Request.reply, eq_comm] using hreply
  · simp only [Request.allowsConflict, Bool.false_eq_true, false_and, ite_false] at hreply
    split at hreply <;> cases hreply

variable (log) in
/-- Some welcome of a worker's commit could not be stored. -/
def WelcomeFailed (worker : String) (added : List String) (welcome : Option Bytes) : Prop :=
  ∃ job, ∃ recipient ∈ added, ∃ body ∈ welcome, job.worker = worker ∧
    Failed log job (.publishWelcome recipient body)

variable (log) in
/-- The request to store a welcome was answered with success. -/
def WelcomeHeard (worker recipient : String) (body : Bytes) : Prop :=
  ∃ job, job.worker = worker ∧ Heard log job (.publishWelcome recipient body) .done

variable (log) in
/-- A group state update of a worker for an epoch has ended. -/
def PutEnded (worker groupId : String) (epoch : Epoch) : Prop :=
  ∃ job members, job.worker = worker ∧
    (Heard log job (.putGroupState groupId epoch members) .done ∨
      Failed log job (.putGroupState groupId epoch members))

variable (log) in
/-- An own commit that was merged has been followed up. -/
def FollowedUp (worker groupId : String) (epoch : Epoch) (added : List String)
    (welcome : Option Bytes) : Prop :=
  WelcomeFailed log worker added welcome ∨
    (∀ recipient ∈ added, ∃ body ∈ welcome, WelcomeHeard log worker recipient body) ∧
      PutEnded log worker groupId epoch

variable (log) in
/-- All own commits of a worker have been followed up. -/
def Accounted (worker : String) : Prop :=
  ∀ groupId epoch added welcome, Event.merged worker groupId epoch added welcome ∈ log.events →
    FollowedUp log worker groupId epoch added welcome

theorem FollowedUp.mono {added : List String}
    {welcome : Option Bytes} (h : FollowedUp log worker groupId epoch added welcome)
    (hmem : ∀ event ∈ log.events, event ∈ log'.events) :
    FollowedUp log' worker groupId epoch added welcome := by
  rcases h with ⟨job, recipient, hrecipient, body, hbody, hjob, hfailed⟩ |
    ⟨hwelcomes, job, members, hjob, hput⟩
  · exact .inl ⟨job, recipient, hrecipient, body, hbody, hjob, hfailed.mono hmem⟩
  · refine Or.inr ⟨?_, job, members, hjob, ?_⟩
    · intro recipient hrecipient
      obtain ⟨body, hbody, job, hjob, hheard⟩ := hwelcomes recipient hrecipient
      exact ⟨body, hbody, job, hjob, hheard.mono hmem⟩
    · exact hput.imp (fun h => h.mono hmem) (fun h => h.mono hmem)

theorem Accounted.mono (h : Accounted log worker)
    (hmem : ∀ event ∈ log.events, event ∈ log'.events)
    (hmerged : ∀ groupId epoch added welcome,
      Event.merged worker groupId epoch added welcome ∈ log'.events →
      Event.merged worker groupId epoch added welcome ∈ log.events) : Accounted log' worker :=
  fun groupId epoch added welcome hmem' =>
    (h groupId epoch added welcome (hmerged _ _ _ _ hmem')).mono hmem

theorem Accounted.grows (h : Accounted log worker) (hgrows : Grows worker log log') :
    Accounted log' worker :=
  h.mono (fun _ => hgrows.mem) fun _ _ _ _ => hgrows.mem_owned rfl

theorem Accounted.record {event : Event} (h : Accounted log worker)
    (hevent : ∀ groupId epoch added welcome, event ≠ .merged worker groupId epoch added welcome) :
    Accounted (log.record event) worker := by
  refine h.mono (fun _ => List.mem_append_left _) ?_
  intro groupId epoch added welcome hmem
  rcases List.mem_append.mp hmem with hmem | hmem
  · exact hmem
  · exact absurd (List.mem_singleton.mp hmem).symm (hevent groupId epoch added welcome)

end Facts

namespace Client

/-- A welcome is pending whenever its recipients are. -/
def Paired (client : Client M) : Prop :=
  client.pendingWelcomeBytes = none → client.pendingWelcomeRecipients = []

/-- The client keeps its name and its pending welcome keeps its recipients. -/
def Evolves (client client' : Client M) : Prop :=
  client'.name = client.name ∧ (client.Paired → client'.Paired)

variable (client : Client M) (seed : Nat)

theorem evolves_createGroup : client.Evolves (client.createGroup seed).2 := by
  unfold createGroup
  split <;> exact ⟨rfl, id⟩

theorem evolves_generateKeyPackage : client.Evolves (client.generateKeyPackage seed).2 := ⟨rfl, id⟩

theorem evolves_addMembers (keyPackages : List Bytes) (names : List String) (seed : Nat) :
    client.Evolves (client.addMembers keyPackages names seed).2 := by
  unfold addMembers
  split
  · exact ⟨rfl, id⟩
  · split
    · exact ⟨rfl, id⟩
    · split
      · exact ⟨rfl, id⟩
      · exact ⟨rfl, fun _ hnone => by cases hnone⟩

theorem evolves_removeMembers (targets : List String) (seed : Nat) :
    client.Evolves (client.removeMembers targets seed).2 := by
  unfold removeMembers
  split
  · exact ⟨rfl, id⟩
  · split
    · exact ⟨rfl, id⟩
    · split
      · exact ⟨rfl, id⟩
      · exact ⟨rfl, fun _ _ => rfl⟩

theorem evolves_selfUpdate : client.Evolves (client.selfUpdate seed).2 := by
  unfold selfUpdate
  split
  · exact ⟨rfl, id⟩
  · split
    · exact ⟨rfl, id⟩
    · exact ⟨rfl, fun _ _ => rfl⟩

theorem evolves_rollbackPendingCommit : client.Evolves client.rollbackPendingCommit.2 := by
  unfold rollbackPendingCommit
  split
  · exact ⟨rfl, id⟩
  · split
    · exact ⟨rfl, id⟩
    · exact ⟨rfl, fun _ _ => rfl⟩

theorem evolves_joinFromWelcome (welcome : Bytes) :
    client.Evolves (client.joinFromWelcome welcome).2 := by
  unfold joinFromWelcome
  simp only
  split
  · exact ⟨rfl, id⟩
  · split
    · exact ⟨rfl, fun _ _ => rfl⟩
    · exact ⟨rfl, fun _ _ => rfl⟩

theorem evolves_sendApplicationMessage (plaintext : Bytes) (seed : Nat) :
    client.Evolves (client.sendApplicationMessage plaintext seed).2 := by
  unfold sendApplicationMessage
  split <;> exact ⟨rfl, id⟩

theorem evolves_receiveApplicationMessage (message : Bytes) :
    client.Evolves (client.receiveApplicationMessage message).2 := by
  unfold receiveApplicationMessage
  split <;> exact ⟨rfl, id⟩

theorem evolves_cleanupIfRemoved : client.Evolves (client.cleanupIfRemoved seed).2 := by
  unfold cleanupIfRemoved fresh
  split
  · exact ⟨rfl, id⟩
  · split
    · exact ⟨rfl, id⟩
    · cases M.fresh client.name seed with
      | error message => exact ⟨rfl, id⟩
      | ok crypto => exact ⟨rfl, fun _ _ => rfl⟩

theorem evolves_receiveCommit (commitBytes : Bytes) (seed : Nat) :
    client.Evolves (client.receiveCommit commitBytes seed).2 := by
  unfold receiveCommit
  split
  · exact ⟨rfl, id⟩
  split
  · split
    · exact ⟨rfl, id⟩
    rename_i crypto group' _
    have hcleared := evolves_cleanupIfRemoved
      ({ client with crypto := crypto, group := some group' }.clearPendingLocalState) seed
    split
    all_goals
      rename_i hcleanup
      rw [hcleanup] at hcleared
      exact ⟨hcleared.1, fun _ => hcleared.2 fun _ => rfl⟩
  · split
    · exact ⟨rfl, id⟩
    rename_i crypto group' _
    have hkept := evolves_cleanupIfRemoved
      { client with crypto := crypto, group := some group' } seed
    split
    all_goals
      rename_i hcleanup
      rw [hcleanup] at hkept
      exact hkept

theorem receiveCommit_paired {commitBytes : Bytes} {seed : Nat} {removed : Bool}
    {recipients : List String} {welcome : Option Bytes} (hpaired : client.Paired)
    (h : (client.receiveCommit commitBytes seed).1 =
      .ok (.ownCommitAccepted removed recipients welcome)) :
    welcome = none → recipients = [] := by
  unfold receiveCommit at h
  split at h
  · cases h
  split at h
  · split at h
    · cases h
    split at h
    · cases h
    · cases h
      exact hpaired
  · split at h
    · cases h
    · split at h <;> cases h

end Client

/-- The slot of a worker between two commands. -/
structure SlotOk (worker : String) (log : Log Event) (slot : Slot M) : Prop where
  name : slot.client.name = worker
  paired : slot.client.Paired
  accounted : Accounted log worker

namespace SlotOk

variable {worker : String} {log log' : Log Event} {slot : Slot M}

theorem grows (h : SlotOk worker log slot) (hgrows : Grows worker log log') :
    SlotOk worker log' slot := ⟨h.name, h.paired, h.accounted.grows hgrows⟩

theorem evolves {client : Client M} (h : SlotOk worker log slot)
    (hclient : slot.client.Evolves client) (intent : Option PendingIntent) :
    SlotOk worker log ⟨client, intent⟩ :=
  ⟨hclient.1.trans h.name, hclient.2 h.paired, h.accounted⟩

end SlotOk

end MessagingBench.Worker
