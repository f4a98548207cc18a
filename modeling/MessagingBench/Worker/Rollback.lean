import MessagingBench.Worker.Records
import MessagingBench.Worker.Symbolic

/-!
# Rolling back a commit

A worker that hears a conflict discards its pending commit. The delivery service
decides each post by its epoch alone, so a retried post of a commit that was accepted
before is answered with a conflict. As long as no post is accepted whose response is
lost while its call is not given up, a discarded commit was never accepted.
-/

namespace MessagingBench.Worker

open Delivery

variable {M : Mls}

/-- No accepted commit of the group carries the bytes of a commit that was rolled back. -/
def RolledBackUnaccepted (log : Log Event) : Prop :=
  ∀ worker groupId epoch commitBytes,
    Event.rolledBack worker groupId epoch commitBytes ∈ log.events →
    ∀ commit, Event.accepted commit ∈ log.events → commit.groupId = groupId →
      commit.commitBytes ≠ commitBytes

/-- A call with the request has failed, so that it is not sent again. -/
def givenUp (request : Request) (events : List Event) : Bool :=
  events.any fun
    | .concluded _ _ request' (.error _) => request' == request
    | _ => false

theorem concluded_of_givenUp {request : Request} {events : List Event}
    (h : givenUp request events = true) :
    ∃ id job text, Event.concluded id job request (.error text) ∈ events := by
  obtain ⟨event, hmem, hevent⟩ := List.any_eq_true.mp h
  split at hevent
  · exact ⟨_, _, _, beq_iff_eq.mp hevent ▸ hmem⟩
  · cases hevent

/-- The delivery service accepts a commit in this step, but the response is lost, and the call
is not given up. -/
def losesAcceptance (world : World M) (action : Action) : Bool :=
  match world.sends action with
  | some ⟨_, _, .publishGroupCommit groupId sender epoch commitBytes, _, false⟩ =>
    (world.servers.ds.acceptCommit groupId epoch).isOk &&
      !givenUp (.publishGroupCommit groupId sender epoch commitBytes)
        (world.log.events ++ world.ended action)
  | _ => false

/-- Every commit is posted by one call, and what is known from the end of that call. -/
structure PostedOnce (world : World M) : Prop where
  kept : Kept world
  waiting : ∀ worker job pending, Waits world worker job pending → ∀ call ∈ pending,
    ∀ groupId sender epoch commitBytes,
      call.request = .publishGroupCommit groupId sender epoch commitBytes →
      sender = worker ∧ pending = [call] ∧ ∀ id job' groupId' sender' epoch' result,
        Event.concluded id job' (.publishGroupCommit groupId' sender' epoch' commitBytes) result ∉
          world.log.events
  agree : ∀ id job groupId sender epoch id' job' groupId' sender' epoch' commitBytes result result',
    Event.concluded id job (.publishGroupCommit groupId sender epoch commitBytes) result ∈
      world.log.events →
    Event.concluded id' job' (.publishGroupCommit groupId' sender' epoch' commitBytes) result' ∈
      world.log.events → result = result'
  rolledBack : ∀ worker groupId epoch commitBytes,
    Event.rolledBack worker groupId epoch commitBytes ∈ world.log.events →
    ∃ id job message, Event.concluded id job
      (.publishGroupCommit groupId worker epoch commitBytes) (.ok (.conflict message)) ∈
        world.log.events
  accepted : ∀ commit, Event.accepted commit ∈ world.log.events → ∃ id job epoch result,
    Event.concluded id job
      (.publishGroupCommit commit.groupId commit.sender epoch commit.commitBytes) result ∈
        world.log.events ∧ ∀ message, result ≠ .ok (.conflict message)

theorem PostedOnce.unaccepted {world : World M} (h : PostedOnce world) :
    RolledBackUnaccepted world.log := by
  rintro worker groupId epoch commitBytes hrolled commit haccepted - rfl
  obtain ⟨id, job, message, hconflict⟩ := h.rolledBack _ _ _ _ hrolled
  obtain ⟨id', job', epoch', result, hended, hother⟩ := h.accepted commit haccepted
  exact hother message (h.agree _ _ _ _ _ _ _ _ _ _ _ _ _ hended hconflict)

section Step

variable {world : World M} {urls : Urls} {action : Action} {epoch : Epoch}

/-- A step ends at most one call, in one way. -/
theorem concluded_new_unique (hkept : Kept world) {id id' : Nat} {job job' : Job}
    {request request' : Request} {result result' : Except String Reply}
    (h : Event.concluded id job request result ∈ (world.step urls action).log.events)
    (hold : Event.concluded id job request result ∉ world.log.events)
    (h' : Event.concluded id' job' request' result' ∈ (world.step urls action).log.events)
    (hold' : Event.concluded id' job' request' result' ∉ world.log.events) : result = result' := by
  obtain ⟨run, _, _, _, rfl, rfl, rfl, rfl, hends⟩ := (concluded_step hkept h).resolve_left hold
  obtain ⟨run', _, _, _, haction, rfl, rfl, rfl, hends'⟩ :=
    (concluded_step hkept h').resolve_left hold'
  obtain ⟨hworker, hindex, rfl, rfl, rfl⟩ := Action.attempt.inj haction
  cases run.unique run' hworker hindex
  exact Option.some.inj (hends.symm.trans hends')

/-- An accepted post is answered with success. -/
theorem retryDecision_accepted {servers : Servers} {order : List String} {groupId sender : String}
    {body : Bytes} {members : List String} {ds : DeliveryService}
    (h : servers.ds.acceptCommit groupId epoch = .ok (members, ds)) :
    (Request.publishGroupCommit groupId sender epoch body).retryDecision
      (handle order servers (.publishGroupCommit groupId sender epoch body)).1 = .success .done := by
  have hpublish : (servers.ds.publishGroupCommit groupId sender epoch body).1 = .ok () := by
    unfold DeliveryService.publishGroupCommit
    rw [h]
    simp only
    split <;> rfl
  unfold handle
  simp only
  split
  · rfl
  · rename_i heq
    rw [heq] at hpublish
    cases hpublish

variable {seedOf : Bytes → Nat}

theorem PostedOnce.waiting_step (h : PostedOnce world) (hfresh : M.FreshCommits seedOf)
    {worker : String} {job : Job} {pending : List Call} {call : Call} {groupId sender : String}
    {commitBytes : Bytes}
    (hwaits : Waits (world.step urls action) worker job pending) (hcall : call ∈ pending)
    (hrequest : call.request = .publishGroupCommit groupId sender epoch commitBytes) :
    sender = worker ∧ pending = [call] ∧ ∀ id job' groupId' sender' epoch' result,
      Event.concluded id job' (.publishGroupCommit groupId' sender' epoch' commitBytes) result ∉
        (world.step urls action).log.events := by
  have hkept' := h.kept.step urls action
  rcases waits_step urls action h.kept hwaits with ⟨_, state, _, _, hmay⟩ | ⟨hbefore, hopen⟩
  · have hpost := hmay call hcall
    unfold mayCall at hpost
    rw [hrequest] at hpost
    obtain ⟨hsender, hsingle, -, hunposted⟩ := hpost
    exact ⟨hsender.trans (hwaits.job_worker hkept'), hsingle, hunposted seedOf hfresh⟩
  · obtain ⟨rfl, rfl, hunposted⟩ := h.waiting worker job pending hbefore call hcall _ _ _ _ hrequest
    refine ⟨rfl, rfl, ?_⟩
    intro id job' groupId' sender' epoch' result hmem
    rcases concluded_step h.kept hmem with hold | ⟨run, _, _, _, _, rfl, rfl, hrequest', -⟩
    · exact hunposted _ _ _ _ _ _ hold
    -- the post that ends is by the same worker, because only one worker created the commit
    obtain ⟨-, -, -, -, hposts⟩ := run.ok h.kept
    have hmem' := run.mem_pending h.kept
    obtain ⟨rfl, -, -⟩ := h.waiting _ _ _ run.waits run.call hmem' _ _ _ _ hrequest'.symm
    obtain ⟨_, _, _, _, hbusy⟩ := hbefore
    obtain ⟨-, -, -, -, hposts'⟩ := h.kept.workers _ _ hbusy
    have hcreated := hposts run.call hmem' _ _ _ _ hrequest'.symm
    have hcreated' := hposts' call hcall _ _ _ _ hrequest
    have hnodup := (h.kept.sound.distinct seedOf hfresh).2
    obtain ⟨hworker, -, -⟩ := created_unique hnodup hcreated hcreated'
    rw [← hworker] at hbusy
    obtain ⟨hjob, -⟩ := Activity.busy.inj (Option.some.inj (run.busy.symm.trans hbusy))
    rw [hjob] at hmem
    rcases hopen _ _ _ hmem with hold | ⟨-, hne⟩
    · exact hunposted _ _ _ _ _ _ hold
    · exact hne call rfl

/-- A step in which no acceptance is lost keeps what is known about posts. -/
theorem PostedOnce.step (h : PostedOnce world) (hfresh : M.FreshCommits seedOf)
    (hheard : losesAcceptance world action = false) : PostedOnce (world.step urls action) := by
  have hcross {id id' : Nat} {job job' : Job} {groupId groupId' sender sender' : String}
      {epoch epoch' : Epoch} {commitBytes : Bytes} {result result' : Except String Reply}
      (hmem : Event.concluded id job (.publishGroupCommit groupId sender epoch commitBytes) result ∈
        world.log.events)
      (hmem' : Event.concluded id' job' (.publishGroupCommit groupId' sender' epoch' commitBytes)
        result' ∈ (world.step urls action).log.events) :
      Event.concluded id' job' (.publishGroupCommit groupId' sender' epoch' commitBytes) result' ∈
        world.log.events := by
    rcases concluded_step h.kept hmem' with hold' | ⟨run, _, _, _, _, rfl, rfl, hrequest, -⟩
    · exact hold'
    · obtain ⟨-, -, hunposted⟩ := h.waiting _ _ _ run.waits run.call (run.mem_pending h.kept) _ _ _ _
        hrequest.symm
      exact absurd hmem (hunposted _ _ _ _ _ _)
  refine ⟨h.kept.step urls action, ?_, ?_, ?_, ?_⟩
  · intro worker job pending hwaits call hcall groupId sender epoch commitBytes hrequest
    exact h.waiting_step hfresh hwaits hcall hrequest
  · intro id job groupId sender epoch id' job' groupId' sender' epoch' commitBytes result result'
      hmem hmem'
    by_cases hbefore : Event.concluded id job
        (.publishGroupCommit groupId sender epoch commitBytes) result ∈ world.log.events
    · exact h.agree _ _ _ _ _ _ _ _ _ _ _ _ _ hbefore (hcross hbefore hmem')
    · have hbefore' : Event.concluded id' job'
          (.publishGroupCommit groupId' sender' epoch' commitBytes) result' ∉ world.log.events :=
        fun hbefore' => hbefore (hcross hbefore' hmem)
      exact concluded_new_unique h.kept hmem hbefore hmem' hbefore'
  · intro worker groupId epoch commitBytes hmem
    rcases mem_step h.kept hmem with hmem | hmem | hmem | hmem
    · obtain ⟨id, job, message, hconcluded⟩ := h.rolledBack _ _ _ _ hmem
      exact ⟨id, job, message, mem_step_of_mem h.kept hconcluded⟩
    · cases (neutral_processed world action world.log 0).owner _ hmem
    · obtain ⟨_, _, _, _, heq⟩ := concluded_of_mem_ended hmem
      cases heq
    · cases hmem with
      | @observed job _ before hbefore hmay =>
        obtain ⟨-, -, message, id, response, -, -, hconcluded⟩ := hmay
        exact ⟨id, job, message, hbefore _ hconcluded⟩
  · intro commit hmem
    rcases mem_step h.kept hmem with hmem | hmem | hmem | hmem
    · obtain ⟨id, job, epoch, result, hconcluded, hother⟩ := h.accepted commit hmem
      exact ⟨id, job, epoch, result, mem_step_of_mem h.kept hconcluded, hother⟩
    · obtain ⟨⟨id, job, request, order, heard⟩, ds, hsends, hrequest, haccept⟩ :=
        accepted_processed hmem
      simp only at hrequest
      subst hrequest
      cases heard with
      | false =>
        simp only [losesAcceptance, hsends, haccept, Except.isOk, Except.toBool, Bool.true_and,
          Bool.not_eq_false'] at hheard
        obtain ⟨id, job, text, hmem⟩ := concluded_of_givenUp hheard
        refine ⟨id, job, commit.epoch, .error text, ?_, nofun⟩
        exact (List.mem_append.mp hmem).elim (mem_step_of_mem h.kept) (mem_step_of_ended h.kept)
      | true =>
        exact ⟨id, job, commit.epoch, .ok .done, World.concluded_of_heard urls action h.kept hsends
          rfl (retryDecision_accepted haccept), nofun⟩
    · obtain ⟨_, _, _, _, heq⟩ := concluded_of_mem_ended hmem
      cases heq
    · cases hmem with
      | observed _ hmay => exact hmay.elim

end Step

theorem PostedOnce.init (mode : CommitDeliveryMode) (crypto : String → Option M.Crypto) :
    PostedOnce (World.init mode crypto : World M) := by
  refine ⟨.init mode crypto, ?_, ?_, ?_, ?_⟩
  · rintro worker job pending ⟨envelope, state, next, calls, hbusy⟩
    simp [World.init] at hbusy
  · intro _ _ _ _ _ _ _ _ _ _ _ _ _ hmem
    cases hmem
  · intro _ _ _ _ hmem
    cases hmem
  · intro _ hmem
    cases hmem

/-- In every run in which no accepted post loses its response before its call is given up, a
worker rolls back only commits that were never accepted. -/
theorem rolledBack_unaccepted {seedOf : Bytes → Nat} (hfresh : M.FreshCommits seedOf) (urls : Urls)
    (mode : CommitDeliveryMode) (crypto : String → Option M.Crypto) (schedule : List Action)
    (hrun : Guarded (World.step urls) (fun world action => losesAcceptance world action = false)
      (World.init mode crypto) schedule) :
    RolledBackUnaccepted (execute (World.step urls) (World.init mode crypto) schedule).log :=
  (hrun.invariant (fun _ _ h => h.step hfresh) (PostedOnce.init mode crypto)).unaccepted

/-- The registration of the group is lost for good, so the post is a conflict. -/
def unknownGroup : List Action :=
  [.start "alice" ⟨.createGroup, none⟩,
    .attempt "alice" 0 (.lost .never false "connection refused") [] 0, .proceed "alice",
    .start "alice" ⟨.selfUpdate, none⟩, .attempt "alice" 0 .answered [] 0, .proceed "alice"]

set_option maxRecDepth 4000 in
theorem rolledBack_unaccepted_unknownGroup :
    Event.rolledBack "alice" "00" 0 [1, 0, 0, 97, 108, 105, 99, 101, 0] ∈
        (Symbolic.record ["alice"] unknownGroup).events ∧
      RolledBackUnaccepted (Symbolic.record ["alice"] unknownGroup) :=
  ⟨by decide, rolledBack_unaccepted Symbolic.freshCommits Symbolic.urls .perRecipient
    (Symbolic.crypto ["alice"]) unknownGroup (by decide)⟩

/-- The response to an accepted post is lost; the retry is answered with a conflict. -/
def lostAcceptance : List Action :=
  [.start "alice" ⟨.createGroup, none⟩, .attempt "alice" 0 .answered [] 0, .proceed "alice",
    .start "alice" ⟨.selfUpdate, none⟩, .attempt "alice" 0 (.lost .now true "timeout") [] 0,
    .attempt "alice" 0 .answered [] 0, .proceed "alice"]

set_option maxRecDepth 4000 in
/-- A worker discards a commit that the delivery service accepted. -/
theorem rolledBack_accepted_lostAcceptance :
    ¬RolledBackUnaccepted (Symbolic.record ["alice"] lostAcceptance) := by
  intro h
  refine h "alice" "00" 0 [1, 0, 0, 97, 108, 105, 99, 101, 0] (by decide)
    ⟨"00", "alice", 0, ["alice"], [1, 0, 0, 97, 108, 105, 99, 101, 0]⟩ (by decide) rfl rfl

end MessagingBench.Worker
