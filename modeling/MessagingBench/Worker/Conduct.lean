import MessagingBench.Worker.Upkeep

/-!
# The command code keeps the contract

Command code that only issues plain calls leaves the slot in order by composition.
The code around commits, group states and messages is walked through step by step.
-/

namespace MessagingBench.Worker

open List Delivery

variable {M : Mls} {α β : Type} {job : Job}

section Rules

variable {C : Contract (signature M)} {slot : Slot M} {log : Log Event}

@[simp] theorem sat_getClient {post : Log Event → Except String (Client M) → Slot M → Prop} :
    (getClient : Task M _).Sat C post slot log ↔ post log (.ok slot.client) slot := Iff.rfl

@[simp] theorem sat_onClient {f : Client M → Except String α × Client M}
    {post : Log Event → Except String α → Slot M → Prop} :
    (onClient f : Task M _).Sat C post slot log ↔
      post log (f slot.client).1 { slot with client := (f slot.client).2 } := Iff.rfl

end Rules

theorem Client.view_cases (client : Client M) :
    (client.groupIdHex = .error notInGroup) ∨
      ∃ groupId epoch members, client.groupIdHex = .ok groupId ∧
        client.currentEpoch = .ok epoch ∧ client.memberNames = .ok members := by
  unfold groupIdHex currentEpoch memberNames requireGroup
  cases client.group with
  | none => exact .inl rfl
  | some group => exact .inr ⟨_, _, _, rfl, rfl, rfl⟩

/-- The code keeps the contract of a job and leaves the slot in order. -/
def Keeps (job : Job) (x : Task M α) : Prop :=
  ∀ slot log, Sound M log → SlotOk job.worker log slot →
    x.Sat (contract M job) (fun log' _ slot' => Sound M log' ∧ SlotOk job.worker log' slot') slot log

variable {calls : List Call} {call : Call} {log : Log Event}

namespace Keeps

theorem pure (a : α) : Keeps job (Pure.pure a : Task M α) := fun _ _ hsound hslot => ⟨hsound, hslot⟩

theorem fail (message : String) : Keeps job (Work.fail message : Task M α) :=
  fun _ _ hsound hslot => ⟨hsound, hslot⟩

theorem lift (result : Except String α) : Keeps job (Work.lift result : Task M α) :=
  fun _ _ hsound hslot => ⟨hsound, hslot⟩

theorem get : Keeps job (Work.get : Task M (Slot M)) := fun _ _ hsound hslot => ⟨hsound, hslot⟩

theorem draw : Keeps job (Work.draw : Task M Nat) := fun _ log hsound hslot =>
  ⟨hsound.advance, hslot.grows (.advance (.refl log))⟩

variable {x : Task M α}

theorem bind {f : α → Task M β} (hx : Keeps job x) (hf : ∀ a, Keeps job (f a)) :
    Keeps job (x >>= f) := by
  intro slot log hsound hslot
  rw [Work.sat_bind]
  refine (hx slot log hsound hslot).imp ?_
  intro log' r slot' h
  cases r with
  | ok a => exact hf a slot' log' h.1 h.2
  | error message => exact h

theorem attempt (hx : Keeps job x) : Keeps job (Work.attempt x) := by
  intro slot log hsound hslot
  rw [Work.sat_attempt]
  exact hx slot log hsound hslot

theorem awaitAll (hcalls : ∀ call ∈ calls, ∀ log slot, mayCall M log job slot calls call) :
    Keeps job (Work.awaitAll calls : Task M _) := by
  intro slot log hsound hslot
  rw [Work.sat_awaitAll]
  refine ⟨fun call hmem => hcalls call hmem log slot, ?_⟩
  intro log' hgrows hsound' replies _
  exact ⟨hsound', hslot.grows hgrows⟩

theorem getClient : Keeps job (Worker.getClient : Task M (Client M)) := .bind .get fun _ => .pure _

theorem setIntent (intent : Option PendingIntent) :
    Keeps job (Worker.setIntent intent : Task M Unit) := by
  intro slot log hsound hslot
  exact ⟨hsound, hslot.evolves ⟨rfl, id⟩ intent⟩

theorem onClient {f : Client M → Except String α × Client M}
    (hf : ∀ client : Client M, client.Evolves (f client).2) : Keeps job (Worker.onClient f) := by
  intro slot log hsound hslot
  exact ⟨hsound, hslot.evolves (hf slot.client) _⟩

theorem request (hcall : ∀ log slot, mayCall M log job slot [call] call) :
    Keeps job (Worker.request call : Task M Reply) := by
  refine .bind (.awaitAll ?_) ?_
  · intro call' hmem log slot
    obtain rfl := mem_singleton.mp hmem
    exact hcall log slot
  · intro result
    match result with
    | .ok (reply :: _) => exact .pure _
    | .ok [] | .error failure => exact .fail _

end Keeps

/-- Walking through a join of calls. -/
theorem sat_join {slot : Slot M} {f : Except CallFailure (List Reply) → Task M α}
    {post : Log Event → Except String α → Slot M → Prop}
    (hissue : ∀ call ∈ calls, mayCall M log job slot calls call)
    (hok : ∀ log' replies, Grows job.worker log log' → Sound M log' →
      Forall₂ (fun call reply => Heard log' job call.request reply) calls replies →
      (f (.ok replies)).Sat (contract M job) post slot log')
    (herror : ∀ log' failure call, Grows job.worker log log' → Sound M log' → call ∈ calls →
      failure.request = call.request → Failed log' job call.request →
      (f (.error failure)).Sat (contract M job) post slot log') :
    (Work.awaitAll calls >>= f : Task M α).Sat (contract M job) post slot log := by
  rw [Work.sat_bind, Work.sat_awaitAll]
  refine ⟨hissue, ?_⟩
  intro log' hgrows hsound result hanswer
  cases result with
  | ok replies => exact hok log' replies hgrows hsound hanswer
  | error failure =>
    obtain ⟨call, hmem, hrequest, hfailed⟩ := hanswer
    exact herror log' failure call hgrows hsound hmem hrequest hfailed

/-- Walking through a single call. -/
theorem sat_request {slot : Slot M}
    {post : Log Event → Except String Reply → Slot M → Prop}
    (hissue : mayCall M log job slot [call] call)
    (hok : ∀ log' reply, Grows job.worker log log' → Sound M log' →
      Heard log' job call.request reply → post log' (.ok reply) slot)
    (herror : ∀ log' text, Grows job.worker log log' → Sound M log' →
      Failed log' job call.request → post log' (.error text) slot) :
    (request call : Task M Reply).Sat (contract M job) post slot log := by
  refine sat_join ?_ ?_ ?_
  · intro call' hmem
    obtain rfl := mem_singleton.mp hmem
    exact hissue
  · intro log' replies hgrows hsound hheard
    cases hheard with
    | cons hheard htail =>
      cases htail
      exact hok log' _ hgrows hsound hheard
  · intro log' failure call' hgrows hsound hmem _ hfailed
    obtain rfl := mem_singleton.mp hmem
    exact herror log' failure.text hgrows hsound hfailed

section GroupState

variable {slot : Slot M} {log : Log Event} (urls : Urls)

theorem updateDsGroupState_sat (hsound : Sound M log) :
    (updateDsGroupState urls).Sat (contract M job) (fun log' _ slot' =>
      Sound M log' ∧ Grows job.worker log log' ∧ slot' = slot ∧
        ∀ groupId epoch, slot.client.groupIdHex = .ok groupId →
          slot.client.currentEpoch = .ok epoch → PutEnded log' job.worker groupId epoch)
      slot log := by
  unfold updateDsGroupState
  simp only [Work.sat_bind, sat_getClient, Work.sat_lift]
  rcases slot.client.view_cases with hnone | ⟨groupId, epoch, members, hgroupId, hepoch, hmembers⟩
  · simp only [hnone]
    exact ⟨hsound, .refl log, trivial, fun _ _ h => by cases h⟩
  simp only [hgroupId, hepoch, hmembers, Work.sat_attempt, Except.ok.injEq]
  have hended {log' : Log Event} (h : PutEnded log' job.worker groupId epoch) :
      ∀ groupId' epoch', groupId = groupId' → epoch = epoch' →
        PutEnded log' job.worker groupId' epoch' := by
    rintro _ _ rfl rfl
    exact h
  refine sat_request ?_ ?_ ?_
  · exact ⟨hgroupId, hepoch, hmembers⟩
  · intro log' reply hgrows hsound' hheard
    obtain rfl := hheard.putGroupState_done
    exact ⟨hsound', hgrows, rfl, hended ⟨job, members, rfl, .inl hheard⟩⟩
  · intro log' text hgrows hsound' hfailed
    simp only
    split
    all_goals exact ⟨hsound', hgrows, rfl, hended ⟨job, members, rfl, .inr hfailed⟩⟩

theorem Keeps.updateDsGroupState : Keeps job (Worker.updateDsGroupState urls : Task M Unit) := by
  intro slot log hsound hslot
  refine (updateDsGroupState_sat urls hsound).imp ?_
  rintro log' r slot' ⟨hsound', hgrows, rfl, -⟩
  exact ⟨hsound', hslot.grows hgrows⟩

end GroupState

section Commits

variable {slot : Slot M} {log : Log Event} (urls : Urls)

theorem SlotOk.record_created {worker : String} (h : SlotOk worker log slot) (groupId : String)
    (epoch : Epoch) (commitBytes : Bytes) :
    SlotOk worker (log.record (.created worker groupId epoch commitBytes)) slot :=
  ⟨h.name, h.paired, h.accounted.record fun _ _ _ _ heq => by cases heq⟩

theorem SlotOk.record_rolledBack {worker : String} (h : SlotOk worker log slot) (groupId : String)
    (epoch : Epoch) (commitBytes : Bytes) :
    SlotOk worker (log.record (.rolledBack worker groupId epoch commitBytes)) slot :=
  ⟨h.name, h.paired, h.accounted.record fun _ _ _ _ heq => by cases heq⟩

theorem Sound.newCommit {commitBytes : Bytes} (hsound : Sound M log)
    (hseed : ∀ seedOf, M.FreshCommits seedOf → seedOf commitBytes = log.draws) :
    NewCommit M log.advance commitBytes := by
  intro seedOf hfresh
  rw [hseed seedOf hfresh]
  exact ⟨Nat.lt_succ_self _, (hsound.distinct seedOf hfresh).1⟩

variable {seedOf : Bytes → Nat} {client : Client M} {commit : Bytes} {seed : Nat}

theorem Client.addMembers_seed {keyPackages : List Bytes} {names : List String}
    (h : (client.addMembers keyPackages names seed).1 = .ok commit) (hfresh : M.FreshCommits seedOf)
    : seedOf commit = seed := by
  unfold addMembers at h
  split at h
  · cases h
  split at h
  · cases h
  split at h
  · cases h
  · rename_i hadd
    cases h
    exact hfresh.addMembers _ _ _ _ _ _ (congrArg Prod.fst hadd)

theorem Client.removeMembers_seed {targets : List String}
    (h : (client.removeMembers targets seed).1 = .ok commit) (hfresh : M.FreshCommits seedOf) :
    seedOf commit = seed := by
  unfold removeMembers at h
  split at h
  · cases h
  split at h
  · cases h
  split at h
  · cases h
  · rename_i hremove
    cases h
    exact hfresh.removeMembers _ _ _ _ _ (congrArg Prod.fst hremove)

theorem Client.selfUpdate_seed (h : (client.selfUpdate seed).1 = .ok commit)
    (hfresh : M.FreshCommits seedOf) : seedOf commit = seed := by
  unfold selfUpdate at h
  split at h
  · cases h
  split at h
  · cases h
  · rename_i hupdate
    cases h
    exact hfresh.selfUpdate _ _ _ _ (congrArg Prod.fst hupdate)

variable (intent : PendingIntent)

theorem createCommit_sat (hsound : Sound M log) (hslot : SlotOk job.worker log slot) :
    (createCommit intent).Sat (contract M job) (fun log' r slot' =>
      (Sound M log' ∧ SlotOk job.worker log' slot') ∧
        ∀ commitBytes, r = .ok commitBytes → NewCommit M log' commitBytes) slot log := by
  have hadvance : SlotOk job.worker log.advance slot := hslot.grows (.advance (.refl log))
  unfold createCommit
  simp only [Work.sat_bind, Work.sat_draw]
  cases intent with
  | addMembers members keyPackages =>
    refine ⟨⟨hsound.advance, hadvance.evolves (slot.client.evolves_addMembers _ _ _) _⟩, ?_⟩
    exact fun commitBytes h => hsound.newCommit fun _ => Client.addMembers_seed h
  | removeMembers members =>
    refine ⟨⟨hsound.advance, hadvance.evolves (slot.client.evolves_removeMembers _ _) _⟩, ?_⟩
    exact fun commitBytes h => hsound.newCommit fun _ => Client.removeMembers_seed h
  | selfUpdate =>
    refine ⟨⟨hsound.advance, hadvance.evolves (slot.client.evolves_selfUpdate _) _⟩, ?_⟩
    exact fun commitBytes h => hsound.newCommit fun _ => Client.selfUpdate_seed h

theorem publishEpochChange_sat {commitBytes : Bytes} (hsound : Sound M log)
    (hslot : SlotOk job.worker log slot) (hnew : NewCommit M log commitBytes) :
    (publishEpochChange urls commitBytes).Sat (contract M job) (fun log' r slot' =>
      (Sound M log' ∧ SlotOk job.worker log' slot') ∧
        ∀ message, r = .ok (.conflict message) → ∃ groupId epoch,
          slot'.client.groupIdHex = .ok groupId ∧ slot'.client.currentEpoch = .ok epoch ∧
          Event.created job.worker groupId epoch commitBytes ∈ log'.events ∧
          Heard log' job (.publishGroupCommit groupId job.worker epoch commitBytes)
            (.conflict message)) slot log := by
  unfold publishEpochChange
  simp only [Work.sat_bind, sat_getClient, Work.sat_lift, Work.sat_note]
  rcases slot.client.view_cases with hnone | ⟨groupId, epoch, members, hgroupId, hepoch, -⟩
  · simp only [hnone]
    exact ⟨⟨hsound, hslot⟩, fun _ h => by cases h⟩
  simp only [hgroupId, hepoch, hslot.name]
  have hmay : mayRecord M log job (.created job.worker groupId epoch commitBytes) := ⟨rfl, hnew⟩
  have hcreated := hslot.record_created groupId epoch commitBytes
  refine ⟨hmay, sat_request ?_ ?_ ?_⟩
  · exact ⟨rfl, rfl, mem_append_right _ (mem_singleton_self _), hsound.unposted hnew⟩
  · intro log' reply hgrows hsound' hheard
    have hkept := hcreated.grows hgrows
    have hmem := hgrows.mem (mem_append_right log.events (mem_singleton_self _))
    cases reply with
    | conflict message =>
      refine ⟨⟨hsound', hkept⟩, ?_⟩
      rintro _ ⟨⟩
      exact ⟨groupId, epoch, hgroupId, hepoch, hmem, hheard⟩
    | done | bytes | delivery | commits | message =>
      exact ⟨⟨hsound', hkept⟩, fun _ h => by cases h⟩
  · intro log' text hgrows hsound' _
    exact ⟨⟨hsound', hcreated.grows hgrows⟩, fun _ h => by cases h⟩

theorem Keeps.tryStartIntent :
    Keeps job (Worker.tryStartIntent urls intent : Task M DsPostResult) := by
  intro slot log hsound hslot
  unfold Worker.tryStartIntent
  rw [Work.sat_bind]
  refine (createCommit_sat intent hsound hslot).imp ?_
  rintro log' (message | commitBytes) slot' ⟨⟨hsound', hslot'⟩, hnew⟩
  · exact ⟨hsound', hslot'⟩
  simp only [Work.sat_bind]
  refine (publishEpochChange_sat urls hsound' hslot' (hnew _ rfl)).imp ?_
  rintro log'' (message | result) slot'' ⟨⟨hsound'', hslot''⟩, hconflict⟩
  · exact ⟨hsound'', hslot''⟩
  cases result with
  | ok => exact ⟨hsound'', hslot''⟩
  | conflict message =>
    obtain ⟨groupId, epoch, hgroupId, hepoch, hcreated, hheard⟩ := hconflict _ rfl
    have hmay : mayRecord M log'' job (.rolledBack job.worker groupId epoch commitBytes) :=
      ⟨rfl, hcreated, message, hheard⟩
    unfold rollback
    simp only [Work.sat_bind, sat_getClient, Work.sat_lift, Work.sat_note, hgroupId, hepoch,
      hslot''.name, sat_onClient]
    have hkept := (hslot''.record_rolledBack groupId epoch commitBytes).evolves
      slot''.client.evolves_rollbackPendingCommit slot''.queuedIntent
    refine ⟨hmay, ?_⟩
    cases slot''.client.rollbackPendingCommit.1 <;> exact ⟨hsound''.record hmay, hkept⟩

theorem Keeps.maybeRetryPendingIntent :
    Keeps job (Worker.maybeRetryPendingIntent urls : Task M (Option String)) := by
  refine .bind .get fun slot => ?_
  cases slot.queuedIntent with
  | none => exact .pure _
  | some intent =>
    refine .bind (.tryStartIntent urls intent) fun result => ?_
    cases result <;> exact .bind (.setIntent _) fun _ => .pure _

end Commits

section Merging

variable {slot : Slot M} {log log : Log Event} (urls : Urls)

theorem replies_forM_ok {replies : List Reply}
    (hdone : ∀ call ∈ calls, ∀ reply, Heard log job call.request reply → reply = .done)
    (hheard : Forall₂ (fun call reply => Heard log job call.request reply) calls replies) :
    replies.forM unexpectedConflict = .ok () := by
  induction hheard with
  | nil => rfl
  | cons hhead _ ih =>
    obtain rfl := hdone _ mem_cons_self _ hhead
    exact ih fun call hmem => hdone call (mem_cons_of_mem _ hmem)

theorem mem_heard {replies : List Reply}
    (hheard : Forall₂ (fun call reply => Heard log job call.request reply) calls replies)
    (hmem : call ∈ calls) : ∃ reply, Heard log job call.request reply := by
  induction hheard with
  | nil => cases hmem
  | cons hhead _ ih =>
    rcases mem_cons.mp hmem with rfl | hmem
    · exact ⟨_, hhead⟩
    · exact ih hmem

variable {welcome : Option Bytes} {recipients : List String}

theorem publishWelcomes_sat (hsound : Sound M log) (hpaired : welcome = none → recipients = []) :
    (publishWelcomes urls recipients welcome).Sat (contract M job) (fun log' r slot' =>
      Sound M log' ∧ Grows job.worker log log' ∧ slot' = slot ∧
        match r with
        | .ok _ => ∀ recipient ∈ recipients, ∃ body ∈ welcome,
            WelcomeHeard log' job.worker recipient body
        | .error _ => WelcomeFailed log' job.worker recipients welcome) slot log := by
  cases welcome with
  | none =>
    refine ⟨hsound, .refl log, rfl, ?_⟩
    simp [hpaired rfl]
  | some body =>
    have hdone {log' : Log Event} (hsound' : Sound M log') : ∀ call ∈ recipients.map fun recipient =>
        welcomeCall urls slot.client.name recipient body,
        ∀ reply, Heard log' job call.request reply → reply = .done := by
      intro call hmem reply hheard
      obtain ⟨recipient, _, rfl⟩ := mem_map.mp hmem
      exact hheard.publishWelcome_done hsound'.genuine
    unfold publishWelcomes
    rw [Work.sat_bind, sat_getClient]
    refine sat_join ?_ ?_ ?_
    · intro call hmem
      obtain ⟨recipient, _, rfl⟩ := mem_map.mp hmem
      exact trivial
    · intro log' replies hgrows hsound' hheard
      simp only [Work.sat_lift, replies_forM_ok (hdone hsound') hheard]
      refine ⟨hsound', hgrows, trivial, ?_⟩
      intro recipient hrecipient
      have hcall : welcomeCall urls slot.client.name recipient body ∈ recipients.map fun recipient =>
        welcomeCall urls slot.client.name recipient body := mem_map_of_mem hrecipient
      obtain ⟨reply, hreply⟩ := mem_heard hheard hcall
      obtain rfl := hdone hsound' _ hcall reply hreply
      exact ⟨body, rfl, job, rfl, hreply⟩
    · intro log' failure call hgrows hsound' hmem _ hfailed
      obtain ⟨recipient, hrecipient, rfl⟩ := mem_map.mp hmem
      exact ⟨hsound', hgrows, rfl, job, recipient, hrecipient, body, rfl, rfl, hfailed⟩

theorem Accounted.merged {worker groupId : String} {epoch : Epoch} {added : List String}
    {log' : Log Event} (h : Accounted log worker)
    (hgrows : Grows worker (log.record (.merged worker groupId epoch added welcome)) log')
    (hfollowed : FollowedUp log' worker groupId epoch added welcome) : Accounted log' worker := by
  intro groupId' epoch' added' welcome' hmem
  have hold : ∀ event ∈ log.events, event ∈ log'.events :=
    fun event hevent => hgrows.mem (mem_append_left _ hevent)
  rcases mem_append.mp (hgrows.mem_owned rfl hmem) with hmem | hmem
  · exact (h groupId' epoch' added' welcome' hmem).mono hold
  · cases mem_singleton.mp hmem
    exact hfollowed

theorem followUp_sat (hsound : Sound M log)
    (hslot : SlotOk job.worker log slot) (hpaired : welcome = none → recipients = []) :
    (followUp urls recipients welcome).Sat (contract M job) (fun log' _ slot' =>
      Sound M log' ∧ SlotOk job.worker log' slot') slot log := by
  unfold followUp observeMerge
  simp only [Work.sat_bind, sat_getClient, Work.sat_lift, Work.sat_note]
  rcases slot.client.view_cases with hnone | ⟨groupId, epoch, members, hgroupId, hepoch, -⟩
  · simp only [hnone]
    exact ⟨hsound, hslot⟩
  simp only [hgroupId, hepoch, hslot.name]
  have hmay : mayRecord M log job (.merged job.worker groupId epoch recipients welcome) := rfl
  refine ⟨hmay, (publishWelcomes_sat urls (hsound.record hmay) hpaired).imp ?_⟩
  rintro log' (message | ⟨⟩) slot' ⟨hsound', hgrows, rfl, hwelcomes⟩
  · exact ⟨hsound', hslot.name, hslot.paired, hslot.accounted.merged hgrows (.inl hwelcomes)⟩
  refine (updateDsGroupState_sat urls hsound').imp ?_
  rintro log'' r slot'' ⟨hsound'', hgrows', rfl, hput⟩
  have hstored : ∀ recipient ∈ recipients, ∃ body ∈ welcome,
      WelcomeHeard log'' job.worker recipient body := by
    intro recipient hrecipient
    obtain ⟨body, hbody, job', hjob, hheard⟩ := hwelcomes recipient hrecipient
    exact ⟨body, hbody, job', hjob, hheard.mono fun _ => hgrows'.mem⟩
  have haccounted : Accounted log'' job.worker := hslot.accounted.merged (hgrows.trans hgrows')
    (.inr ⟨hstored, hput groupId epoch hgroupId hepoch⟩)
  cases r <;> exact ⟨hsound'', hslot.name, hslot.paired, haccounted⟩

theorem Keeps.applyCommitBytes (commitBytes : Bytes) :
    Keeps job (Worker.applyCommitBytes urls commitBytes : Task M String) := by
  refine .bind .draw fun seed => ?_
  intro slot log hsound hslot
  simp only [Work.sat_bind, sat_onClient]
  have hkept : SlotOk job.worker log
      { slot with client := (slot.client.receiveCommit commitBytes seed).2 } :=
    hslot.evolves (slot.client.evolves_receiveCommit commitBytes seed) _
  cases houtcome : (slot.client.receiveCommit commitBytes seed).1 with
  | error message => exact ⟨hsound, hkept⟩
  | ok outcome =>
    cases outcome with
    | externalCommitApplied removed =>
      cases removed with
      | true => exact Keeps.bind (.setIntent none) (fun _ => .pure _) _ log hsound hkept
      | false =>
        refine Keeps.bind (.updateDsGroupState urls) (fun _ => ?_) _ log hsound hkept
        refine .bind (.maybeRetryPendingIntent urls) fun result => ?_
        cases result <;> exact .pure _
    | ownCommitAccepted removed recipients welcome =>
      cases removed with
      | true => exact Keeps.bind (.setIntent none) (fun _ => .pure _) _ log hsound hkept
      | false =>
        exact followUp_sat urls hsound hkept
          (slot.client.receiveCommit_paired hslot.paired houtcome)

end Merging

section Receiving

variable (urls : Urls)

theorem Keeps.receives : Receives (M := M) fun _ x => Keeps job x where
  lift := .lift
  getClient := .getClient
  bind := .bind
  attempt := .attempt
  receive call hcall := by
    refine .request fun log slot => ?_
    cases hrequest : call.request <;> simp_all [Request.receives, mayCall]

theorem Keeps.receiveCommitDelivery (expectedEpoch : Option Epoch) (staleAcked processed : Nat) :
    Keeps job (Worker.receiveCommitDelivery urls expectedEpoch staleAcked processed :
      Task M Outcome) :=
  Keeps.receives.receiveCommitDelivery (.applyCommitBytes urls) expectedEpoch staleAcked processed

theorem Keeps.ackApplicationMessageBestEffort (relayUrl messageId : String) :
    Keeps job (Worker.ackApplicationMessageBestEffort relayUrl messageId : Task M Unit) :=
  .bind .getClient fun _ => .bind (.attempt (.request fun _ _ => trivial)) fun _ => .pure _

theorem Keeps.fetchPendingApplicationMessage :
    Keeps job (Worker.fetchPendingApplicationMessage urls : Task M _) := by
  refine .bind .getClient fun client => .bind (.request fun _ _ => trivial) fun reply => ?_
  cases reply with
  | message message => exact .pure _
  | done | conflict | bytes | commits | delivery => exact .fail _

theorem Keeps.receiveApplicationDelivery :
    Keeps job (Worker.receiveApplicationDelivery urls : Task M String) := by
  refine .bind (.fetchPendingApplicationMessage urls) fun delivery => ?_
  cases hexDecode delivery.messageHex with
  | none => exact .fail _
  | some messageBytes =>
    refine .bind (.attempt (.onClient fun client =>
      client.evolves_receiveApplicationMessage messageBytes)) fun result => ?_
    cases result with
    | ok plaintext => exact .bind (.ackApplicationMessageBestEffort _ _) fun _ => .pure _
    | error text =>
      simp only [afterDecryption]
      split
      · exact .bind (.ackApplicationMessageBestEffort _ _) fun _ => .pure _
      · exact .fail _

end Receiving

section Pending

variable (urls : Urls)

theorem Keeps.fetchWelcome : Keeps job (Worker.fetchWelcome urls : Task M Bytes) :=
  .bind .getClient fun _ => .bind (.request fun _ _ => trivial) fun _ => .lift _

theorem Keeps.pendingWelcomesPhase (progress : PendingProgress) :
    Keeps job (Worker.pendingWelcomesPhase urls progress : Task M PendingProgress) := by
  refine .bind (.attempt (.fetchWelcome urls)) fun result => ?_
  cases result with
  | ok welcomeBytes =>
    exact .bind (.onClient fun client => client.evolves_joinFromWelcome welcomeBytes)
      fun _ => .pure _
  | error text =>
    simp only
    split
    · exact .pure _
    · exact .pure _

end Pending

section Handling

variable {slot : Slot M} {log : Log Event} (urls : Urls)

theorem fetchKeyPackages_sat {members : List String} (hslot : SlotOk job.worker log slot)
    (hfirst : Unanswered log job) :
    (fetchKeyPackages urls members).Sat (contract M job) (fun log' _ slot' =>
      Sound M log' ∧ SlotOk job.worker log' slot') slot log := by
  unfold fetchKeyPackages
  rw [Work.sat_bind, sat_getClient]
  refine sat_join ?_ ?_ ?_
  · intro call hmem
    obtain ⟨member, _, rfl⟩ := mem_map.mp hmem
    exact hfirst
  · intro log' replies hgrows hsound' _
    exact ⟨hsound', hslot.grows hgrows⟩
  · intro log' failure call hgrows hsound' _ _ _
    exact ⟨hsound', hslot.grows hgrows⟩

theorem Keeps.startOrQueue (intent : PendingIntent) (published lost : String) :
    Keeps job (Worker.startOrQueue urls intent published lost : Task M Outcome) := by
  refine .bind (.tryStartIntent urls intent) fun result => ?_
  cases result with
  | ok => exact .pure _
  | conflict message => exact .bind (.setIntent _) fun _ => .pure _

/-- A client has just encrypted a text. -/
def Client.Encrypted (client : Client M) (text : String) (body : Bytes) : Prop :=
  ∃ (before : Client M) (seed : Nat),
    before.sendApplicationMessage (utf8Bytes text) seed = (.ok body, client)

/-- How a send ends: in failure, or after the relay answered its only post. -/
theorem sendApplicationMessage_sat {text : String} (hslot : SlotOk job.worker log slot)
    (hfirst : Unanswered log job) :
    (sendApplicationMessage urls text).Sat (contract M job) (fun log' r slot' =>
      SlotOk job.worker log' slot' ∧ ∀ outcome, r = .ok outcome →
        (∃ message, outcome = .finished message) ∧ ∃ groupId members body reply,
          slot'.client.memberNames = .ok members ∧ slot'.client.Encrypted text body ∧
          Heard log' job (.publishApplicationMessage groupId job.worker
            (members.filter (· != job.worker)) body) reply)
      slot log := by
  have hadvance : SlotOk job.worker log.advance slot := hslot.grows (.advance (.refl log))
  have hkept (client : Client M) (hclient : slot.client.Evolves client) :
      SlotOk job.worker log.advance ⟨client, slot.queuedIntent⟩ := hadvance.evolves hclient _
  have hevolves := slot.client.evolves_sendApplicationMessage (utf8Bytes text) log.draws
  unfold sendApplicationMessage
  simp only [Work.sat_bind, Work.sat_draw, sat_onClient, sat_getClient, Work.sat_lift]
  cases hsent : slot.client.sendApplicationMessage (utf8Bytes text) log.draws with
  | mk sent client =>
  rw [hsent] at hevolves
  cases sent with
  | error message => exact ⟨hkept _ hevolves, fun _ h => by cases h⟩
  | ok body =>
    have hslot' := hkept client hevolves
    simp only
    rcases client.view_cases with hnone | ⟨groupId, epoch, members, hgroupId, -, hmembers⟩
    · simp only [hnone]
      exact ⟨hslot', fun _ h => by cases h⟩
    simp only [hgroupId, hmembers]
    refine sat_request ?_ ?_ ?_
    · exact ⟨hslot'.name, rfl, hfirst⟩
    · intro log' reply hgrows _ hheard
      refine ⟨hslot'.grows hgrows, ?_⟩
      rintro outcome ⟨⟩
      have hname : client.name = job.worker := hslot'.name
      simp only [hname] at hheard
      exact ⟨⟨_, rfl⟩, groupId, members, body, reply, hmembers, ⟨_, _, hsent⟩, hheard⟩
    · intro log' message hgrows _ _
      exact ⟨hslot'.grows hgrows, fun _ h => by cases h⟩

/-- How a job ends. -/
def Finishes (job : Job) (envelope : Envelope) (log : Log Event) (result : Except String Outcome)
    (slot : Slot M) : Prop :=
  SlotOk job.worker log slot ∧ ∀ text, envelope.command = .sendApplicationMessage text →
    ∀ outcome, result = .ok outcome → (∃ message, outcome = .finished message) ∧
      ∃ groupId members body reply,
        slot.client.memberNames = .ok members ∧ slot.client.Encrypted text body ∧
        Heard log job (.publishApplicationMessage groupId job.worker
          (members.filter (· != job.worker)) body) reply

theorem Keeps.finishes {x : Task M Outcome} {envelope : Envelope} (hx : Keeps job x)
    (hcommand : ∀ text, envelope.command ≠ .sendApplicationMessage text) (hsound : Sound M log)
    (hslot : SlotOk job.worker log slot) :
    x.Sat (contract M job) (Finishes job envelope) slot log :=
  (hx slot log hsound hslot).imp fun _ _ _ h =>
    ⟨h.2, fun text heq => absurd heq (hcommand text)⟩

/-- The code of every command keeps the contract. -/
theorem handleCommand_sat {envelope : Envelope} (hsound : Sound M log)
    (hslot : SlotOk job.worker log slot) (hfirst : Unanswered log job) :
    (handleCommand urls envelope).Sat (contract M job) (Finishes job envelope) slot log := by
  obtain ⟨command, expectedEpoch⟩ := envelope
  cases command with
  | createGroup =>
    refine Keeps.finishes ?_ (by simp) hsound hslot
    refine .bind .draw fun seed => .bind (.onClient fun client => client.evolves_createGroup seed) ?_
    exact fun _ => .bind (.updateDsGroupState urls) fun _ => .pure _
  | generateKeyPackage =>
    refine Keeps.finishes ?_ (by simp) hsound hslot
    refine .bind .draw fun seed => .bind (.onClient fun client =>
      client.evolves_generateKeyPackage seed) fun _ => .bind .getClient fun client => ?_
    exact .bind (.request fun _ _ => trivial) fun _ => .bind (.lift _) fun _ => .pure _
  | addMembers members =>
    unfold handleCommand
    simp only [Work.sat_bind]
    refine (fetchKeyPackages_sat urls hslot hfirst).imp ?_
    rintro log' (message | keyPackages) slot' ⟨hsound', hslot'⟩
    · exact ⟨hslot', fun _ h => by cases h⟩
    · exact (Keeps.startOrQueue urls _ _ _).finishes (by simp) hsound' hslot'
  | joinFromWelcome =>
    refine Keeps.finishes ?_ (by simp) hsound hslot
    refine .bind (.fetchWelcome urls) fun welcome => .bind (.onClient fun client =>
      client.evolves_joinFromWelcome welcome) fun _ => ?_
    exact .bind .getClient fun client => .pure _
  | sendApplicationMessage text =>
    refine (sendApplicationMessage_sat urls hslot hfirst).imp ?_
    rintro _ _ _ h
    refine ⟨h.1, ?_⟩
    rintro _ ⟨⟩
    exact h.2
  | receiveApplicationMessage =>
    refine Keeps.finishes ?_ (by simp) hsound hslot
    exact .bind (.receiveApplicationDelivery urls) fun _ => .pure _
  | selfUpdate | removeMembers members =>
    exact (Keeps.startOrQueue urls _ _ _).finishes (by simp) hsound hslot
  | receiveCommit =>
    exact (Keeps.receiveCommitDelivery urls _ _ _).finishes (by simp) hsound hslot
  | processPending kinds maxMessages expectedEpoch' =>
    refine Keeps.finishes ?_ (by simp) hsound hslot
    exact .bind (Keeps.receives.processPending (.applyCommitBytes urls)
      (.pendingWelcomesPhase urls) (.receiveApplicationDelivery urls) _ _ _) fun _ => .pure _
  | showGroupState =>
    refine Keeps.finishes ?_ (by simp) hsound hslot
    refine .bind .getClient fun client => .bind (.lift _) fun _ => ?_
    exact .bind (.lift _) fun _ => .bind (.lift _) fun _ => .pure _

end Handling

end MessagingBench.Worker
