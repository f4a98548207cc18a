import MessagingBench.Worker.Records
import MessagingBench.Worker.Symbolic

/-!
# Sending an application message

The relay gives every post it processes a fresh number and queues the message again,
while a worker repeats a post whose response is lost. As long as no post is processed
whose response is lost, a send that reports success has put exactly one copy into the
inbox of every listed recipient.
-/

namespace MessagingBench.Worker

open World List Relay
open Delivery (Bytes Epoch CommitDeliveryMode)

variable {M : Mls}

/-- The copies of a message in the inbox of a recipient. -/
def World.copies (world : World M) (message : Bytes) (recipient : String) : Nat :=
  (world.servers.relay.inboxQueue recipient).countP (·.messageBytes == message)

/-- The copies of a message that the requests of a job put into the inbox of a recipient in the
course of a run. -/
def copiesPut (urls : Urls) (job : Job) (message : Bytes) (recipient : String) :
    World M → List Action → Nat
  | _, [] => 0
  | world, action :: schedule =>
    (if (world.sends action).any (·.job == job) then
      (world.step urls action).copies message recipient - world.copies message recipient
    else 0) + copiesPut urls job message recipient (world.step urls action) schedule

/-- Every send that is answered with success in a step of the run has put one copy of its
encrypted text into the inbox of each member of its client's group other than the sender,
and none into any other. -/
def SentOnce (urls : Urls) (start : World M) (schedule : List Action) : Prop :=
  ∀ earlier action later job envelope text answer, schedule = earlier ++ action :: later →
    Event.answered job envelope (.ok answer) ∈
      ((execute (step urls) start earlier).step urls action).log.events →
    Event.answered job envelope (.ok answer) ∉ (execute (step urls) start earlier).log.events →
    envelope.command = .sendApplicationMessage text →
    ∃ slot calls members message,
      (execute (step urls) start earlier).workers job.worker =
        some (.busy job envelope (.done (.ok (.finished answer), slot)) calls) ∧
      slot.client.memberNames = .ok members ∧ slot.client.Encrypted text message ∧
      ∀ recipient, copiesPut urls job message recipient start schedule =
        if recipient ∈ members ∧ recipient ≠ job.worker then 1 else 0

/-- A post to the relay is processed in this step, but the response is lost. -/
def losesRelay (world : World M) (action : Action) : Bool :=
  match world.sends action with
  | some ⟨_, _, .publishApplicationMessage _ _ recipients _, _, false⟩ =>
    (parseRecipientsHeader (joinRecipients recipients)).isOk
  | _ => false

/-- The recipients of a post to the relay are distinct names that survive the header. -/
def listsNames (world : World M) (action : Action) : Bool :=
  match world.sends action with
  | some ⟨_, _, .publishApplicationMessage _ _ recipients _, _, _⟩ =>
    decide (recipients.Nodup ∧ ∀ name ∈ recipients, HeaderName name)
  | _ => true

/-- What a job learns to have been queued: the message of a post that succeeded. -/
def Event.postedBy (job : Job) : Event → Option (Bytes × List String)
  | .concluded _ job' (.publishApplicationMessage _ _ recipients message) (.ok _) =>
    if job' = job then some (message, recipients.filter (· != job.worker)) else none
  | _ => none

def posts (events : List Event) (job : Job) : List (Bytes × List String) :=
  events.filterMap (Event.postedBy job)

/-- The copies of a message for a recipient among posts. -/
def posted (message : Bytes) (recipient : String) (posts : List (Bytes × List String)) : Nat :=
  (posts.map fun post => if post.1 = message then post.2.count recipient else 0).sum

/-- Jobs post to the relay once, to recipients that they list once. -/
structure SendsSound (world : World M) : Prop where
  kept : Kept world
  waiting : ∀ worker job pending, Waits world worker job pending → ∀ call ∈ pending,
    ∀ groupId sender recipients message,
      call.request = .publishApplicationMessage groupId sender recipients message →
      sender = worker ∧ pending = [call] ∧ posts world.log.events job = []
  single : ∀ job, (posts world.log.events job).length ≤ 1
  listed : ∀ id job groupId sender recipients message reply,
    Event.concluded id job (.publishApplicationMessage groupId sender recipients message)
      (.ok reply) ∈ world.log.events → recipients.Nodup

variable {recipients : List String} {groupId sender : String} {message : Bytes} {reply : Reply}

section Lists

variable {events : List Event} {job : Job}

theorem posts_append (events events' : List Event) (job : Job) :
    posts (events ++ events') job = posts events job ++ posts events' job :=
  filterMap_append

theorem mem_posts {id : Nat} (h : Event.concluded id job
      (.publishApplicationMessage groupId sender recipients message) (.ok reply) ∈ events) :
    (message, recipients.filter (· != job.worker)) ∈ posts events job :=
  mem_filterMap.mpr ⟨_, h, by simp [Event.postedBy]⟩

theorem posts_eq_nil (h : ∀ id request result, Event.concluded id job request result ∈ events →
    ∀ groupId sender recipients message reply,
      request = .publishApplicationMessage groupId sender recipients message →
      result ≠ .ok reply) : posts events job = [] := by
  refine filterMap_eq_nil_iff.mpr ?_
  intro event hmem
  unfold Event.postedBy
  split
  · split
    · rename_i heq
      subst heq
      exact absurd rfl (h _ _ _ hmem _ _ _ _ _ rfl)
    · rfl
  · rfl

theorem count_listed (hnodup : recipients.Nodup) (worker recipient : String) :
    (recipients.filter (· != worker)).count recipient =
      if recipient ∈ recipients ∧ recipient ≠ worker then 1 else 0 := by
  rw [(hnodup.filter _).count]
  simp

end Lists

/-- A job that has learned of a post knows of no other. -/
theorem SendsSound.posts_eq {world : World M} (h : SendsSound world) {id : Nat} {job : Job}
    (hconcluded : Event.concluded id job
      (.publishApplicationMessage groupId sender recipients message) (.ok reply) ∈
        world.log.events) :
    posts world.log.events job = [(message, recipients.filter (· != job.worker))] := by
  have hmem := mem_posts hconcluded
  obtain ⟨post, hpost⟩ := length_eq_one_iff.mp
    (le_antisymm (h.single job) (length_pos_of_mem hmem))
  rw [hpost] at hmem ⊢
  rw [mem_singleton.mp hmem]

section Requests

variable {servers : Servers} {order : List String} {call : Nat} {job job' : Job} {heard : Bool}

/-- Any other request than a post that is accepted puts nothing into an inbox. -/
theorem inboxQueue_sublist {request : Request}
    (h : ∀ groupId sender recipients message,
      request = .publishApplicationMessage groupId sender recipients message →
      ∃ text, parseRecipientsHeader (joinRecipients recipients) = .error text)
    {recipient : String} :
    ((handle order servers request).2.relay.inboxQueue recipient).Sublist
      (servers.relay.inboxQueue recipient) := by
  cases request with
  | publishApplicationMessage groupId sender recipients message =>
    obtain ⟨text, htext⟩ := h groupId sender recipients message rfl
    simp [handle, htext]
  | ackApplicationMessage owner messageId =>
    have hrelay : (handle order servers (.ackApplicationMessage owner messageId)).2.relay =
        (servers.relay.ackApplicationMessage owner messageId).2 := by
      simp only [handle]
      split <;> rename_i heq <;> rw [heq]
    rw [hrelay, MessageRelay.inboxQueue_ackApplicationMessage]
    split
    · exact filter_sublist
    · exact .refl _
  | publishKeyPackage | fetchPendingCommits | publishWelcome => exact .refl _
  | fetchKeyPackage | putGroupState | publishGroupCommit | fetchPendingCommit | ackCommit |
    fetchWelcome | fetchPendingApplicationMessage =>
    simp only [handle]
    split <;> exact .refl _

/-- A post that is accepted puts a copy into the inbox of each recipient but the sender. -/
theorem copies_post (order : List String) (servers : Servers)
    (hnames : ∀ name ∈ recipients, HeaderName name) (hne : recipients ≠ [])
    (groupId sender : String) (message content : Bytes) (recipient : String) :
    ((handle order servers (.publishApplicationMessage groupId sender recipients
        message)).2.relay.inboxQueue recipient).countP (·.messageBytes == content) =
      (servers.relay.inboxQueue recipient).countP (·.messageBytes == content) +
        if message = content then (recipients.filter (· != sender)).count recipient else 0 := by
  have hempty : recipients.isEmpty = false := by simpa using hne
  simp only [handle, parseRecipientsHeader_join hne hnames,
    MessageRelay.publishGroupApplicationMessage, hempty, Bool.false_eq_true, ite_false,
    MessageRelay.inboxQueue, Inboxes.queue_pushAll, countP_append, countP_replicate]
  simp [applicationEnvelope]

theorem retryDecision_post (hnames : ∀ name ∈ recipients, HeaderName name) (hne : recipients ≠ []) :
    (Request.publishApplicationMessage groupId sender recipients message).retryDecision
      (handle order servers (.publishApplicationMessage groupId sender recipients message)).1 =
        .success .done := by
  simp [handle, parseRecipientsHeader_join hne hnames,
    MessageRelay.publishGroupApplicationMessage, hne, ok, Request.retryDecision, Request.reply]

/-- A post without recipients is rejected. -/
theorem retryDecision_empty :
    (Request.publishApplicationMessage groupId sender [] message).retryDecision
      (handle order servers (.publishApplicationMessage groupId sender [] message)).1 ≠
        .success reply := by
  simp [handle, joinRecipients, parseRecipientsHeader, trim, badRequest,
    Request.retryDecision, Request.allowsConflict, isTransientStatus]

end Requests

section Step

variable {world : World M} {urls : Urls} {action : Action} {job : Job}

/-- A job learns of a post only from a response that arrives and reports success. -/
theorem posts_ended_eq_nil
    (h : ∀ sending, world.sends action = some sending → sending.heard = true →
      ∀ groupId sender recipients message reply,
        sending.request = .publishApplicationMessage groupId sender recipients message →
        sending.request.retryDecision (handle sending.order world.servers sending.request).1 ≠
          .success reply) : posts (world.ended action) job = [] := by
  refine posts_eq_nil ?_
  rintro id request result hmem groupId sender recipients message reply hrequest rfl
  obtain ⟨order, hsends, hreply⟩ := heard_of_ended hmem
  exact h _ hsends rfl groupId sender recipients message reply hrequest hreply

/-- A post to the relay whose response arrives. -/
theorem copies_post_heard {call : Nat} {job' : Job} {groupId : String} {order : List String}
    (hsends : world.sends action = some ⟨call, job',
      .publishApplicationMessage groupId job'.worker recipients message, order, true⟩)
    (hnames : ∀ name ∈ recipients, HeaderName name) (content : Bytes) (recipient : String) :
    (if job' = job then (world.step urls action).copies content recipient -
        world.copies content recipient else 0) =
      posted content recipient (posts (world.ended action) job) := by
  by_cases hne : recipients = []
  · subst hne
    rw [posts_ended_eq_nil]
    · have hsame : (world.step urls action).copies content recipient =
          world.copies content recipient := by
        simp [copies, servers_step, serversAfter, hsends, handle, joinRecipients,
          parseRecipientsHeader, trim]
      simp [hsame, posted]
    · intro sending heq _ groupId' sender' recipients' message' reply _
      rw [hsends] at heq
      cases heq
      exact retryDecision_empty
  · rw [ended_of_heard action hsends rfl (retryDecision_post hnames hne)]
    have hcopies := copies_post order world.servers hnames hne groupId job'.worker message content
      recipient
    by_cases heq : job' = job
    · subst heq
      simp [posts, Event.postedBy, posted, copies, servers_step, serversAfter, hsends,
        hcopies]
    · simp [posts, Event.postedBy, heq, posted]

/-- What a step puts into an inbox for a job is what the job learns to have posted. -/
theorem SendsSound.copies_step (h : SendsSound world) (hlost : losesRelay world action = false)
    (hnames : listsNames world action = true) (job : Job) (message : Bytes) (recipient : String) :
    (if (world.sends action).any (·.job == job) then
        (world.step urls action).copies message recipient - world.copies message recipient
      else 0) = posted message recipient (posts (world.ended action) job) := by
  cases hsends : world.sends action with
  | none =>
    rw [posts_ended_eq_nil]
    · simp [posted]
    · intro sending heq
      rw [hsends] at heq
      cases heq
  | some sending =>
    by_cases hpost : sending.heard = true ∧ ∃ groupId sender recipients message,
        sending.request = .publishApplicationMessage groupId sender recipients message
    · obtain ⟨hheard, groupId, sender, recipients, body, hrequest⟩ := hpost
      obtain ⟨run, -, -, heq⟩ := sends_heard action hsends hheard
      have hworker := (run.ok h.kept).1
      obtain ⟨id, job', request, order, heard⟩ := sending
      obtain ⟨rfl, rfl, hcall, -⟩ := Sending.mk.inj heq
      obtain ⟨rfl, -, -⟩ := h.waiting _ _ _ run.waits run.call (run.mem_pending h.kept) _ _ _ _
        (hcall.symm.trans hrequest)
      simp only at hheard hrequest
      subst hheard hrequest
      rw [← hworker] at hsends
      simp only [listsNames, hsends, decide_eq_true_eq] at hnames
      simpa using copies_post_heard hsends hnames.2 message recipient
    · have hnone : (world.step urls action).copies message recipient ≤
          world.copies message recipient := by
        unfold copies
        rw [servers_step, serversAfter, hsends]
        refine (inboxQueue_sublist ?_).countP_le
        intro groupId sender recipients message hrequest
        obtain ⟨id, job', request, order, heard⟩ := sending
        simp only at hrequest hpost
        subst hrequest
        cases heard with
        | true => exact absurd ⟨rfl, groupId, sender, recipients, message, rfl⟩ hpost
        | false =>
          simp only [losesRelay, hsends] at hlost
          cases hparse : parseRecipientsHeader (joinRecipients recipients) with
          | error text => exact ⟨text, rfl⟩
          | ok parsed =>
            rw [hparse] at hlost
            cases hlost
      rw [posts_ended_eq_nil]
      · simp [posted, Nat.sub_eq_zero_of_le hnone]
      · intro sending' heq hheard groupId sender recipients message reply hrequest
        rw [hsends] at heq
        cases heq
        exact absurd ⟨hheard, groupId, sender, recipients, message, hrequest⟩ hpost

theorem posts_notes {log' : Log Event} {notes : List Event}
    (hnotes : ∀ event ∈ notes, Noted world log' event) : posts notes job = [] := by
  refine filterMap_eq_nil_iff.mpr ?_
  intro event hmem
  cases hnotes event hmem with
  | observed _ hmay =>
    cases event with
    | concluded => exact hmay.elim
    | served | accepted | created | rolledBack | merged | answered => rfl
  | answered => rfl

theorem posts_processed : posts (world.processed action) job = [] :=
  posts_eq_nil fun _ _ _ hmem => absurd hmem concluded_not_mem_processed

theorem posts_step (hkept : Kept world) (job : Job) :
    posts (world.step urls action).log.events job =
      posts world.log.events job ++ posts (world.ended action) job := by
  obtain ⟨notes, hnotes, hnoted⟩ := log_step urls action hkept
  rw [hnotes, posts_append, posts_append, posts_append, posts_processed, posts_notes hnoted]
  simp

theorem SendsSound.waiting_step (h : SendsSound world) {worker : String}
    {pending : List Call} (hwaits : Waits (world.step urls action) worker job pending) {call : Call}
    (hcall : call ∈ pending)
    (hrequest : call.request = .publishApplicationMessage groupId sender recipients message) :
    sender = worker ∧ pending = [call] ∧ posts (world.step urls action).log.events job = [] := by
  have hworker := hwaits.job_worker (h.kept.step urls action)
  rcases waits_step urls action h.kept hwaits with ⟨_, state, _, _, hissued⟩ | ⟨hbefore, hopen⟩
  · have hmay := hissued call hcall
    simp only [mayCall, hrequest] at hmay
    obtain ⟨hsender, hpending, hunanswered⟩ := hmay
    refine ⟨hsender.trans hworker, hpending, posts_eq_nil ?_⟩
    intro id request result hmem
    exact absurd hmem (hunanswered id request result)
  · obtain ⟨hsender, hpending, hposts⟩ := h.waiting worker job pending hbefore call hcall _ _ _ _
      hrequest
    refine ⟨hsender, hpending, posts_eq_nil ?_⟩
    rintro id request result hmem groupId' sender' recipients' message' reply rfl rfl
    rcases hopen id _ _ hmem with hold | ⟨-, hne⟩
    · exact not_mem_nil (hposts ▸ mem_posts hold)
    · exact hne call hpending

/-- A job that learns of a post in a step has not learned of another one before. -/
theorem SendsSound.single_step (h : SendsSound world) (job : Job) :
    (posts (world.step urls action).log.events job).length ≤ 1 := by
  rw [posts_step h.kept]
  by_cases hnil : posts (world.ended action) job = []
  · rw [hnil, append_nil]
    exact h.single job
  obtain ⟨post, hpost⟩ := exists_mem_of_ne_nil _ hnil
  obtain ⟨event, hevent, hposted⟩ := mem_filterMap.mp hpost
  unfold Event.postedBy at hposted
  split at hposted
  · rename_i id job' groupId sender recipients message reply
    split at hposted
    · rename_i heq
      subst heq
      obtain ⟨order, hsends, hreply⟩ := heard_of_ended hevent
      obtain ⟨run, -, -, heq⟩ := sends_heard action hsends rfl
      obtain ⟨rfl, rfl, hcall, -⟩ := Sending.mk.inj heq
      obtain ⟨-, -, hnone⟩ := h.waiting _ _ _ run.waits run.call (run.mem_pending h.kept) _ _ _ _
        hcall.symm
      rw [hnone, ended_of_heard action hsends rfl hreply]
      exact length_filterMap_le _ _
    · cases hposted
  · cases hposted

theorem SendsSound.listed_step (h : SendsSound world) (hnames : listsNames world action = true)
    {id : Nat} (hmem : Event.concluded id job
      (.publishApplicationMessage groupId sender recipients message) (.ok reply) ∈
        (world.step urls action).log.events) : recipients.Nodup := by
  rcases mem_step h.kept hmem with hold | hnew | hnew | hnew
  · exact h.listed _ _ _ _ _ _ _ hold
  · exact absurd hnew concluded_not_mem_processed
  · obtain ⟨order, hsends, -⟩ := heard_of_ended hnew
    simp only [listsNames, hsends, decide_eq_true_eq] at hnames
    exact hnames.1
  · cases hnew with
    | observed _ hmay => exact hmay.elim

theorem SendsSound.step (h : SendsSound world)
    (hnames : listsNames world action = true) : SendsSound (world.step urls action) where
  kept := h.kept.step urls action
  waiting _ _ _ hwaits _ hcall _ _ _ _ hrequest := h.waiting_step hwaits hcall hrequest
  single := h.single_step
  listed _ _ _ _ _ _ _ hmem := h.listed_step hnames hmem

end Step

theorem SendsSound.init (mode : CommitDeliveryMode) (crypto : String → Option M.Crypto) :
    SendsSound (init mode crypto : World M) := by
  refine ⟨.init mode crypto, ?_, fun _ => Nat.zero_le _, ?_⟩
  · rintro worker job pending ⟨envelope, state, next, calls, hbusy⟩
    simp [World.init] at hbusy
  · intro id job groupId sender recipients message reply hmem
    cases hmem

section Runs

variable {urls : Urls} {start : World M} {schedule : List Action}

theorem posted_append (message : Bytes) (recipient : String)
    (posts posts' : List (Bytes × List String)) : posted message recipient (posts ++ posts') =
      posted message recipient posts + posted message recipient posts' := by
  simp [posted]

section

variable (hstart : SendsSound start) (hrun : Guarded (step urls) (fun world action =>
  losesRelay world action = false ∧ listsNames world action = true) start schedule)
include hstart hrun

theorem sendsSound_execute : SendsSound (execute (step urls) start schedule) :=
  hrun.invariant (fun _ _ h hguard => h.step hguard.2) hstart

/-- What a run puts into an inbox for a job is what the job has learned in it. -/
theorem copies_execute (job : Job) (message : Bytes) (recipient : String) :
    posted message recipient (posts start.log.events job) +
        copiesPut urls job message recipient start schedule =
      posted message recipient (posts (execute (step urls) start schedule).log.events job) := by
  induction schedule generalizing start with
  | nil => rfl
  | cons action schedule ih =>
    obtain ⟨⟨hlost, hnames⟩, hrest⟩ := hrun
    have hposts : posts (start.step urls action).log.events job = _ := posts_step hstart.kept job
    rw [copiesPut, hstart.copies_step hlost hnames, ← Nat.add_assoc, ← posted_append, ← hposts]
    exact ih (hstart.step hnames) hrest

end

/-- In every run in which no post to the relay is processed whose response is lost and every
post lists distinct names, a successful send has put exactly one copy of its text into the
inbox of every member of its group other than the sender. -/
theorem sent_once (urls : Urls) (mode : CommitDeliveryMode) (crypto : String → Option M.Crypto)
    (schedule : List Action) (hrun : Guarded (step urls) (fun world action =>
      losesRelay world action = false ∧ listsNames world action = true)
      (init mode crypto) schedule) :
    SentOnce urls (init mode crypto) schedule := by
  rintro earlier action later job envelope text answer rfl hanswered hbefore hcommand
  have hearlier := sendsSound_execute (.init mode crypto) ((guarded_append ..).mp hrun).1
  obtain ⟨_, slot, calls, hbusy, hfinishes, hresult⟩ :=
    (finishes_of_answered hearlier.kept hanswered).resolve_left hbefore
  obtain rfl := hresult answer rfl
  obtain ⟨-, groupId, members, message, reply, hmembers, hmessage, id, response, -, -, hconcluded⟩ :=
    hfinishes.2 text hcommand _ rfl
  refine ⟨slot, calls, members, message, hbusy, hmembers, hmessage, fun recipient => ?_⟩
  have hsound := sendsSound_execute (.init mode crypto) hrun
  have hmem : Event.concluded id job (.publishApplicationMessage groupId job.worker
      (members.filter (· != job.worker)) message) (.ok reply) ∈
        (execute (step urls) (World.init mode crypto)
          (earlier ++ action :: later)).log.events := by
    rw [execute_append]
    exact mem_execute_of_mem hearlier.kept _ hconcluded
  have hcopies := copies_execute (.init mode crypto) hrun job message recipient
  have hnone : posts (World.init mode crypto : World M).log.events job = [] := rfl
  have hlisted := count_listed (hsound.listed _ _ _ _ _ _ _ hmem) job.worker recipient
  rw [hsound.posts_eq hmem, hnone] at hcopies
  simp only [posted, map_nil, sum_nil, Nat.zero_add, map_cons, ite_true, sum_singleton, hlisted,
    mem_filter, bne_iff_ne, ne_eq, and_assoc, and_self] at hcopies
  exact hcopies

end Runs

/-- Alice, in a group with bob, sends a message; the attempts of her post end as given. -/
def sendHi (fates : List Fate) : List Action :=
  Symbolic.addBob ++ [.attempt "alice" 0 .answered [] 0, .attempt "alice" 0 .answered [] 0,
    .proceed "alice", .start "alice" ⟨.sendApplicationMessage "hi", none⟩] ++
      fates.map (fun fate => .attempt "alice" 0 fate [] 0) ++ [.proceed "alice"]

set_option maxRecDepth 8000 in
theorem sent_once_secondAttempt :
    copiesPut Symbolic.urls ⟨"alice", 4⟩ [104, 105] "bob"
        (init .perRecipient (Symbolic.crypto ["alice", "bob"]))
        (sendHi [.lost .never true "refused", .answered]) = 1 ∧
      SentOnce Symbolic.urls (init .perRecipient (Symbolic.crypto ["alice", "bob"]))
        (sendHi [.lost .never true "refused", .answered]) :=
  ⟨by decide, sent_once Symbolic.urls .perRecipient (Symbolic.crypto ["alice", "bob"])
    (sendHi [.lost .never true "refused", .answered]) (by decide)⟩

set_option maxRecDepth 8000 in
/-- The first attempt is processed, but its response times out: bob gets the message of
one successful send twice. -/
theorem sent_twice_lostResponse :
    ¬SentOnce Symbolic.urls (init .perRecipient (Symbolic.crypto ["alice", "bob"]))
      (sendHi [.lost .now true "timeout", .answered]) := by
  intro h
  obtain ⟨slot, _, _, message, -, -, ⟨client, seed, hmessage⟩, hcopies⟩ :=
    h (sendHi [.lost .now true "timeout", .answered]).dropLast (.proceed "alice") []
      ⟨"alice", 4⟩ ⟨.sendApplicationMessage "hi", none⟩ "hi" "application message broadcast to group"
      rfl (by decide) (by decide) rfl
  obtain rfl : [104, 105] = message := by
    unfold Client.sendApplicationMessage at hmessage
    split at hmessage
    · cases hmessage
    · exact Except.ok.inj (congrArg Prod.fst hmessage)
  have htwice : copiesPut Symbolic.urls ⟨"alice", 4⟩ [104, 105] "bob"
      (init .perRecipient (Symbolic.crypto ["alice", "bob"]))
      (sendHi [.lost .now true "timeout", .answered]) = 2 := by
    decide
  have honce := hcopies "bob"
  rw [htwice] at honce
  split at honce <;> cases honce

end MessagingBench.Worker
