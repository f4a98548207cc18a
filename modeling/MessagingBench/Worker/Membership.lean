import MessagingBench.Worker.Records
import MessagingBench.Worker.Symbolic

/-!
# The recipients of an accepted commit

The delivery service addresses a commit to the member list of the last group state update it
accepted; members put the list they are in after they have applied a commit. As long as no
commit is accepted between a change of the membership and the next accepted update, a commit
is addressed to exactly the members of its epoch.
-/

namespace MessagingBench.Worker

open World List Delivery

variable {M : Mls} (roster : String → Epoch → List String)

/-- Every accepted commit is addressed to the members of its epoch. -/
def AddressedToMembers (log : Log Event) : Prop :=
  ∀ commit, Event.accepted commit ∈ log.events →
    commit.members = roster commit.groupId commit.epoch

/-- The client of a worker has the member list of its group and epoch. -/
def agrees (world : World M) (worker : String) : Bool :=
  match (world.workers worker).bind shows with
  | none => true
  | some slot =>
    match slot.client.groupIdHex, slot.client.currentEpoch, slot.client.memberNames with
    | .ok groupId, .ok epoch, .ok members => members == roster groupId epoch
    | _, _, _ => true

/-- Clients at the same epoch of a group have the same member list: the client that
takes a step has the group's list of its epoch afterwards. -/
def keepsRoster (urls : Urls) (world : World M)
    (action : Action) : Bool :=
  action.actor.all (agrees roster (world.step urls action))

/-- How an event changes whether the member list of a group is outdated. -/
def outdates (groupId : String) (outdated : Bool) :
    Event → Bool
  | .accepted commit =>
    if commit.groupId = groupId then
      outdated || (roster groupId (commit.epoch + 1) != roster groupId commit.epoch)
    else outdated
  | .served _ _ (.putGroupState groupId' _ _) response _ =>
    if groupId' = groupId ∧ response.status = 200 then false else outdated
  | _ => outdated

/-- A commit that changes the members was accepted since the last accepted update. -/
def outdated (groupId : String) (events : List Event) :
    Bool :=
  events.foldl (outdates roster groupId) false

/-- A commit is accepted in this step while the member list of its group is outdated. -/
def acceptsOutdated (world : World M) (action : Action) :
    Bool :=
  match world.sends action with
  | some ⟨_, _, .publishGroupCommit groupId _ epoch _, _, _⟩ =>
    (world.servers.ds.acceptCommit groupId epoch).isOk && outdated roster groupId world.log.events
  | _ => false

/-- A group state update names the members of its epoch. -/
def PutOk (request : Request) : Prop :=
  ∀ groupId epoch members, request = .putGroupState groupId epoch members →
    members = roster groupId epoch

/-- The member lists in requests and at the delivery service are those of their epochs. -/
structure Rosters (roster : String → Epoch → List String) (world : World M) : Prop where
  kept : Kept world
  agree : ∀ worker, agrees roster world worker = true
  waiting : ∀ worker job pending, Waits world worker job pending →
    ∀ call ∈ pending, PutOk roster call.request
  inFlight : ∀ request ∈ world.inFlight, PutOk roster request.request
  groups : ∀ groupId state, world.servers.ds.groups groupId = some state →
    outdated roster groupId world.log.events = false →
    state.members = roster groupId state.currentEpoch
  accepted : AddressedToMembers roster world.log

/-- The group table behind the endpoints. -/
theorem groups_handle (order : List String) (servers : Servers) (request : Request) :
    (handle order servers request).2.ds.groups =
      match request with
      | .putGroupState groupId epoch members =>
        (servers.ds.putGroupState groupId epoch members).2.groups
      | .publishGroupCommit groupId _ epoch _ =>
        match servers.ds.acceptCommit groupId epoch with
        | .ok (_, accepted) => accepted.groups
        | .error _ => servers.ds.groups
      | _ => servers.ds.groups := by
  rw [ds_handle]
  cases request with
  | publishGroupCommit groupId sender epoch body =>
    exact next_groups order servers.ds (.publishGroupCommit groupId sender epoch body)
  | ackCommit recipient deliveryId =>
    exact next_groups order servers.ds (.ackCommit recipient deliveryId)
  | fetchWelcome recipient =>
    simp only [DeliveryService.fetchWelcome]
    split <;> rfl
  | putGroupState | fetchKeyPackage | publishKeyPackage | fetchPendingCommit | fetchPendingCommits |
    publishWelcome | publishApplicationMessage | fetchPendingApplicationMessage |
    ackApplicationMessage => rfl

section Groups

variable {roster : String → Epoch → List String} {groupId : String}

theorem outdated_append (events events' : List Event) :
    outdated roster groupId (events ++ events') =
      events'.foldl (outdates roster groupId) (outdated roster groupId events) :=
  foldl_append ..

/-- Ends of calls and notes say nothing about member lists. -/
theorem outdated_notes {world : World M} {action : Action} {log' : Log Event} {flag : Bool}
    {notes : List Event}
    (hnotes : ∀ event ∈ notes, event ∈ world.ended action ∨ Noted world log' event) :
    notes.foldl (outdates roster groupId) flag = flag := by
  induction notes with
  | nil => rfl
  | cons event notes ih =>
    have hsame : outdates roster groupId flag event = flag := by
      rcases hnotes event mem_cons_self with hended | hnoted
      · obtain ⟨_, _, _, _, rfl⟩ := concluded_of_mem_ended hended
        rfl
      · cases hnoted with
        | observed _ hmay =>
          cases event with
          | created | rolledBack | merged | concluded | answered => rfl
          | served | accepted => exact hmay.elim
        | answered => rfl
    rw [foldl_cons, hsame]
    exact ih fun event hmem => hnotes event (mem_cons_of_mem _ hmem)

theorem groups_putGroupState {ds : DeliveryService} {groupId : String} {epoch : Epoch}
    {members : List String} :
    (∃ state, (ds.putGroupState groupId epoch members).1 = .ok () ∧
      (ds.putGroupState groupId epoch members).2.groups =
        Function.update ds.groups groupId (some state) ∧ state.members = members ∧
        state.currentEpoch = epoch) ∨
      (∃ message, (ds.putGroupState groupId epoch members).1 = .error message) ∧
        (ds.putGroupState groupId epoch members).2.groups = ds.groups := by
  unfold DeliveryService.putGroupState
  split
  · split
    · exact .inr ⟨⟨_, rfl⟩, rfl⟩
    · rename_i hepoch
      exact .inl ⟨_, rfl, rfl, rfl, (not_not.mp hepoch).symm⟩
  · exact .inl ⟨_, rfl, rfl, rfl, rfl⟩

variable {servers : Servers} {order : List String} {events : List Event} {call : Nat} {job : Job}
  {heard : Bool} {state : GroupState} {epoch : Epoch}

section

variable (hbefore : ∀ state, servers.ds.groups groupId = some state →
  outdated roster groupId events = false → state.members = roster groupId state.currentEpoch)
include hbefore

/-- A processed group state update leaves an up-to-date list. -/
theorem groups_put {groupId' : String} {members : List String}
    (hput : members = roster groupId' epoch)
    (hgroup : (servers.ds.putGroupState groupId' epoch members).2.groups groupId = some state)
    (hcurrent : outdated roster groupId (events ++ [.served call job
      (.putGroupState groupId' epoch members)
      (handle order servers (.putGroupState groupId' epoch members)).1 heard]) = false) :
    state.members = roster groupId state.currentEpoch := by
  rw [outdated_append] at hcurrent
  simp only [foldl_cons, foldl_nil, outdates] at hcurrent
  rcases groups_putGroupState with
    ⟨state', hok, hgroups, hmembers, hepoch⟩ | ⟨⟨message, herror⟩, hgroups⟩
  · rw [hgroups] at hgroup
    by_cases heq : groupId = groupId'
    · subst heq
      rw [Function.update_self, Option.some.injEq] at hgroup
      subst hgroup
      rw [hmembers, hepoch]
      exact hput
    · rw [Function.update_of_ne heq] at hgroup
      simp only [Ne.symm heq, false_and, ite_false] at hcurrent
      exact hbefore state hgroup hcurrent
  · rw [hgroups] at hgroup
    have hstatus : (handle order servers (.putGroupState groupId' epoch members)).1.status ≠ 200 := by
      simp only [handle]
      split
      · rename_i heq
        rw [heq] at herror
        cases herror
      · simp [conflict]
    simp only [hstatus, and_false, ite_false] at hcurrent
    exact hbefore state hgroup hcurrent

/-- An accepted commit leaves an up-to-date list if it changes no members. -/
theorem groups_post {groupId' sender : String} {body : Bytes}
    (hgroup : (handle order servers (.publishGroupCommit groupId' sender epoch body)).2.ds.groups
      groupId = some state)
    (hcurrent : outdated roster groupId (events ++
      (effects servers (.publishGroupCommit groupId' sender epoch body) ++
        [.served call job (.publishGroupCommit groupId' sender epoch body)
          (handle order servers (.publishGroupCommit groupId' sender epoch body)).1 heard])) =
            false) :
    state.members = roster groupId state.currentEpoch := by
  simp only [groups_handle] at hgroup
  rw [outdated_append, foldl_append] at hcurrent
  simp only [effects] at hcurrent
  cases haccept : servers.ds.acceptCommit groupId' epoch with
  | error message =>
    rw [haccept] at hgroup hcurrent
    exact hbefore state hgroup hcurrent
  | ok result =>
    obtain ⟨members, accepted⟩ := result
    rw [haccept] at hgroup hcurrent
    obtain ⟨state', hstate', hepoch, -, haccepted⟩ := DeliveryService.acceptCommit_eq_ok haccept
    simp only [haccepted] at hgroup
    simp only [foldl_cons, foldl_nil, outdates] at hcurrent
    by_cases heq : groupId = groupId'
    · subst heq
      rw [Function.update_self, Option.some.injEq] at hgroup
      subst hgroup
      simp only [ite_true, Bool.or_eq_false_iff, bne_eq_false_iff_eq] at hcurrent
      obtain ⟨hcurrent, hsame⟩ := hcurrent
      have hmembers := hbefore state' hstate' hcurrent
      simp only
      rw [hmembers, ← hepoch, hsame]
    · rw [Function.update_of_ne heq] at hgroup
      simp only [Ne.symm heq, ite_false] at hcurrent
      exact hbefore state hgroup hcurrent

/-- What a processed request leaves of an up-to-date list. -/
theorem groups_processed {request : Request} (hput : PutOk roster request)
    (hgroup : (handle order servers request).2.ds.groups groupId = some state)
    (hcurrent : outdated roster groupId (events ++ (effects servers request ++
      [.served call job request (handle order servers request).1 heard])) = false) :
    state.members = roster groupId state.currentEpoch := by
  cases request with
  | putGroupState groupId' epoch members =>
    rw [groups_handle] at hgroup
    exact groups_put hbefore (hput groupId' epoch members rfl) hgroup hcurrent
  | publishGroupCommit groupId' sender epoch body => exact groups_post hbefore hgroup hcurrent
  | publishKeyPackage | fetchKeyPackage | fetchPendingCommit | ackCommit | fetchPendingCommits |
    publishWelcome | fetchWelcome | publishApplicationMessage | fetchPendingApplicationMessage |
    ackApplicationMessage =>
    rw [groups_handle] at hgroup
    refine hbefore state hgroup ?_
    rw [outdated_append] at hcurrent
    exact hcurrent

end

end Groups

section Step

variable {roster : String → Epoch → List String} {world : World M} {urls : Urls} {action : Action}

/-- The client of a worker that has just issued a group state update has its list. -/
theorem PutOk.of_issues {worker : String} {job : Job} {pending : List Call} {call : Call}
    (hissues : Issues world worker job pending) (hagrees : agrees roster world worker = true)
    (hcall : call ∈ pending) : PutOk roster call.request := by
  intro groupId epoch members hrequest
  obtain ⟨activity, state, hworker, hshows, hmay⟩ := hissues
  have hput := hmay call hcall
  unfold mayCall at hput
  rw [hrequest] at hput
  obtain ⟨hgroupId, hepoch, hmembers⟩ := hput
  simp only [agrees, hworker, Option.bind_some, hshows, hgroupId, hepoch, hmembers,
    beq_iff_eq] at hagrees
  exact hagrees

theorem Rosters.putOk (h : Rosters roster world) {sending : Sending}
    (hsends : world.sends action = some sending) : PutOk roster sending.request := by
  rcases sends_origin hsends with
    ⟨run, -, -, hrequest⟩ | ⟨request, hmem, -, -, hrequest⟩
  · rw [hrequest]
    exact h.waiting _ _ _ run.waits run.call (run.mem_pending h.kept)
  · rw [← hrequest]
    exact h.inFlight request hmem

/-- A step in which no commit meets an outdated list keeps the member lists right. -/
theorem Rosters.step (h : Rosters roster world) (hroster : keepsRoster roster urls world action = true)
    (hcurrent : acceptsOutdated roster world action = false) :
    Rosters roster (world.step urls action) := by
  have hkept := h.kept.step urls action
  have hagree : ∀ worker, agrees roster (world.step urls action) worker = true := by
    intro worker
    by_cases hactor : action.actor = some worker
    · simpa [keepsRoster, hactor] using hroster
    · have hsame : agrees roster (world.step urls action) worker = agrees roster world worker := by
        simp only [agrees, workers_step hactor]
      rw [hsame]
      exact h.agree worker
  refine ⟨hkept, hagree, ?_, ?_, ?_, ?_⟩
  · intro worker job pending hwaits call hcall
    rcases waits_step urls action h.kept hwaits with hissues | ⟨hbefore, -⟩
    · exact .of_issues hissues (hagree worker) hcall
    · exact h.waiting worker job pending hbefore call hcall
  · intro request hmem
    rcases inFlight_step urls action request hmem with hmem | ⟨run, rfl⟩
    · exact h.inFlight request hmem
    · exact h.waiting _ _ _ run.waits run.call (run.mem_pending h.kept)
  · intro groupId state hgroup hfresh
    obtain ⟨notes, hnotes, hnoted⟩ := log_step urls action h.kept
    have hafter : ∀ event ∈ world.ended action ++ notes, event ∈ world.ended action ∨
        Noted world (world.step urls action).log event :=
      fun event hmem => (mem_append.mp hmem).imp_right (hnoted event)
    rw [hnotes, ← append_assoc, outdated_append, outdated_notes hafter] at hfresh
    rw [servers_step] at hgroup
    unfold serversAfter at hgroup
    unfold processed at hfresh
    cases hsends : world.sends action with
    | none =>
      simp only [hsends, append_nil] at hgroup hfresh
      exact h.groups groupId state hgroup hfresh
    | some sending =>
      simp only [hsends] at hgroup hfresh
      exact groups_processed (h.groups groupId) (h.putOk hsends) hgroup hfresh
  · intro commit hmem
    rcases mem_step h.kept hmem with hmem | hmem | hmem | hmem
    · exact h.accepted commit hmem
    · obtain ⟨⟨id, job, request, order, heard⟩, ds, hsends, hrequest, haccept⟩ :=
        accepted_processed hmem
      simp only at hrequest
      subst hrequest
      simp only [acceptsOutdated, hsends, haccept, Except.isOk, Except.toBool, Bool.true_and]
        at hcurrent
      obtain ⟨state, hstate, hepoch, hmembers, -⟩ := DeliveryService.acceptCommit_eq_ok haccept
      rw [hmembers, hepoch]
      exact h.groups commit.groupId state hstate hcurrent
    · obtain ⟨_, _, _, _, heq⟩ := concluded_of_mem_ended hmem
      cases heq
    · cases hmem with
      | observed _ hmay => exact hmay.elim

end Step

theorem Rosters.init (roster : String → Epoch → List String) (mode : CommitDeliveryMode)
    (crypto : String → Option M.Crypto) : Rosters roster (init mode crypto : World M) := by
  refine ⟨.init mode crypto, ?_, ?_, ?_, ?_, ?_⟩
  · intro worker
    simp only [agrees, World.init]
    cases crypto worker with
    | none => rfl
    | some key => rfl
  · rintro worker job pending ⟨envelope, state, next, calls, hbusy⟩
    simp [World.init] at hbusy
  · intro request hmem
    cases hmem
  · intro groupId state hgroup
    cases hgroup
  · intro commit hmem
    cases hmem

/-- In every run in which clients agree on the members of each epoch and no commit is
accepted while the service's list is outdated, every accepted commit is addressed to
the members of its epoch. -/
theorem accepted_addressedToMembers (roster : String → Epoch → List String) (urls : Urls)
    (mode : CommitDeliveryMode) (crypto : String → Option M.Crypto) (schedule : List Action)
    (hrun : Guarded (step urls) (fun world action =>
      keepsRoster roster urls world action = true ∧ acceptsOutdated roster world action = false)
      (init mode crypto) schedule) :
    AddressedToMembers roster (execute (step urls) (init mode crypto) schedule).log :=
  (hrun.invariant (fun _ _ h hguard => h.step hguard.1 hguard.2)
    (Rosters.init roster mode crypto)).accepted

/-- A group that alice creates and extends by bob. -/
def aliceThenBob (_ : String) (epoch : Epoch) : List String :=
  if epoch = 0 then ["alice"] else ["alice", "bob"]

/-- Bob joins and publishes an update. -/
def bobUpdates : List Action :=
  [.start "bob" ⟨.joinFromWelcome, none⟩, .attempt "bob" 0 .answered [] 0, .proceed "bob",
    .start "bob" ⟨.selfUpdate, none⟩, .attempt "bob" 0 .answered [] 0, .proceed "bob"]

/-- Alice puts the new group state before bob joins. -/
def putFirst : List Action := Symbolic.addBob ++ .attempt "alice" 0 .answered [] 0 :: bobUpdates

set_option maxRecDepth 8000 in
theorem accepted_addressedToMembers_putFirst :
    Event.accepted ⟨"00", "bob", 1, ["alice", "bob"],
        [1, 1, 1, 1, 0, 1, 0, 97, 108, 105, 99, 101, 0, 98, 111, 98, 0]⟩ ∈
        (Symbolic.record ["alice", "bob"] putFirst).events ∧
      AddressedToMembers aliceThenBob (Symbolic.record ["alice", "bob"] putFirst) :=
  ⟨by decide, accepted_addressedToMembers aliceThenBob Symbolic.urls .perRecipient
    (Symbolic.crypto ["alice", "bob"]) putFirst (by decide)⟩

/-- Bob joins through the welcome before alice puts the new group state. -/
def welcomeFirst : List Action := Symbolic.addBob ++ bobUpdates

set_option maxRecDepth 8000 in
/-- Bob's commit for epoch 1 is addressed to alice only, although all clients agree on
the members of every epoch. -/
theorem accepted_outdated_welcomeFirst :
    Guarded (step Symbolic.urls) (fun world action =>
        keepsRoster aliceThenBob Symbolic.urls world action = true)
        (init .perRecipient (Symbolic.crypto ["alice", "bob"])) welcomeFirst ∧
      ¬AddressedToMembers aliceThenBob (Symbolic.record ["alice", "bob"] welcomeFirst) := by
  refine ⟨by decide, ?_⟩
  intro h
  have hcommit := h ⟨"00", "bob", 1, ["alice"],
    [1, 1, 1, 1, 0, 1, 0, 97, 108, 105, 99, 101, 0, 98, 111, 98, 0]⟩ (by decide)
  exact absurd hcommit (by decide)

end MessagingBench.Worker
