import MessagingBench.Worker.Steps

/-!
# What a worker guarantees and relies on

The contract of a worker that executes a job. While it waits, nobody else records its
observations. It posts a commit once, after creating it, and discards it only after a
conflict was heard; a group state it puts is the one it is in; key packages are fetched and
application messages posted only as the first call of a job.
-/

namespace MessagingBench.Worker

open List Delivery

/-- The worker that recorded an observation of its own. -/
def Event.owner : Event → Option String
  | .created worker _ _ _ => some worker
  | .rolledBack worker _ _ _ => some worker
  | .merged worker _ _ _ _ => some worker
  | _ => none

/-- The commit whose creation was observed. -/
def Event.newCommit : Event → Option Bytes
  | .created _ _ _ commitBytes => some commitBytes
  | _ => none

/-- The record was extended, but not by observations of the worker. -/
structure Grows (worker : String) (log log' : Log Event) : Prop where
  draws : log.draws ≤ log'.draws
  events : ∃ new, log'.events = log.events ++ new ∧ ∀ event ∈ new, event.owner ≠ some worker

variable {commitBytes : Bytes} {event : Event} {log : Log Event} {epoch : Epoch}

namespace Grows

variable {worker : String} {log log' log'' : Log Event}

theorem refl (log : Log Event) : Grows worker log log :=
  ⟨le_refl _, [], (append_nil _).symm, by simp⟩

theorem trans (h : Grows worker log log') (h' : Grows worker log' log'') :
    Grows worker log log'' := by
  obtain ⟨hdraws, new, hnew, howner⟩ := h
  obtain ⟨hdraws', new', hnew', howner'⟩ := h'
  refine ⟨hdraws.trans hdraws', new ++ new', ?_, ?_⟩
  · rw [hnew', hnew, append_assoc]
  · intro event hmem
    rcases mem_append.mp hmem with hmem | hmem
    · exact howner event hmem
    · exact howner' event hmem

theorem record (h : Grows worker log log') (howner : event.owner ≠ some worker) :
    Grows worker log (log'.record event) :=
  h.trans ⟨le_refl _, [event], rfl, by simpa using howner⟩

theorem advance (h : Grows worker log log') : Grows worker log log'.advance :=
  h.trans ⟨Nat.le_succ _, [], (append_nil _).symm, by simp⟩

theorem mem (h : Grows worker log log') (hmem : event ∈ log.events) : event ∈ log'.events := by
  obtain ⟨new, hnew, _⟩ := h.events
  rw [hnew]
  exact mem_append_left _ hmem

theorem mem_owned (h : Grows worker log log') (howner : event.owner = some worker)
    (hmem : event ∈ log'.events) : event ∈ log.events := by
  obtain ⟨new, hnew, hforeign⟩ := h.events
  rw [hnew] at hmem
  rcases mem_append.mp hmem with hmem | hmem
  · exact hmem
  · exact absurd howner (hforeign event hmem)

end Grows

section Facts

variable (log : Log Event)

/-- A call of a job ended with the reply of a response that arrived. -/
def Heard (job : Job) (request : Request) (reply : Reply) : Prop :=
  ∃ id response, Event.served id job request response true ∈ log.events ∧
    request.retryDecision response = .success reply ∧
    Event.concluded id job request (.ok reply) ∈ log.events

/-- A call of a job ended in failure. -/
def Failed (job : Job) (request : Request) : Prop :=
  ∃ id text, Event.concluded id job request (.error text) ∈ log.events

/-- No call of a job has ended. -/
def Unanswered (job : Job) : Prop :=
  ∀ id request result, Event.concluded id job request result ∉ log.events

/-- How a join of calls ended. -/
def Answered (job : Job) (calls : List Call) : Except CallFailure (List Reply) → Prop
  | .ok replies => Forall₂ (fun call reply => Heard log job call.request reply) calls replies
  | .error failure => ∃ call ∈ calls, failure.request = call.request ∧ Failed log job call.request

/-- Every response was computed by the services. -/
def Genuine : Prop :=
  ∀ id job request response heard, Event.served id job request response heard ∈ log.events →
    ∃ order servers, response = (handle order servers request).1

def created : List Bytes := log.events.filterMap Event.newCommit

end Facts

theorem mem_created :
    commitBytes ∈ created log ↔
      ∃ worker groupId epoch, Event.created worker groupId epoch commitBytes ∈ log.events := by
  unfold created
  rw [mem_filterMap]
  constructor
  · rintro ⟨event, hmem, hevent⟩
    cases event <;> simp only [Event.newCommit, reduceCtorEq, Option.some.injEq] at hevent
    subst hevent
    exact ⟨_, _, _, hmem⟩
  · rintro ⟨worker, groupId, epoch, hmem⟩
    exact ⟨_, hmem, rfl⟩

theorem created_append {events : List Event} :
    created { log with events := log.events ++ events } =
      created log ++ created ⟨events, log.draws⟩ := filterMap_append

theorem created_unique (h : (created log).Nodup)
    {worker worker' groupId groupId' :
    String} {epoch' : Epoch}
    (hmem : Event.created worker groupId epoch commitBytes ∈ log.events)
    (hmem' : Event.created worker' groupId' epoch' commitBytes ∈ log.events) :
    worker = worker' ∧ groupId = groupId' ∧ epoch = epoch' := by
  unfold created at h
  obtain ⟨before, after, hsplit⟩ := append_of_mem hmem
  rw [hsplit, filterMap_append] at h
  simp only [filterMap_cons, Event.newCommit] at h
  rw [nodup_middle] at h
  rw [hsplit, mem_append, mem_cons] at hmem'
  have hother : Event.created worker' groupId' epoch' commitBytes ∉ before ++ after := by
    intro hother
    refine (nodup_cons.mp h).1 ?_
    rw [← filterMap_append]
    exact mem_filterMap.mpr ⟨_, hother, rfl⟩
  rcases hmem' with hmem' | hmem' | hmem'
  · exact absurd (mem_append_left _ hmem') hother
  · cases hmem'
    exact ⟨rfl, rfl, rfl⟩
  · exact absurd (mem_append_right _ hmem') hother

/-- Commits made from different randomness differ: the bytes of a commit determine
the seed it was made from. -/
structure Mls.FreshCommits (M : Mls) (seedOf : Bytes → Nat) : Prop where
  addMembers : ∀ crypto group keyPackages seed commit welcome,
    (M.addMembers crypto group keyPackages seed).1 = .ok (commit, welcome) → seedOf commit = seed
  removeMembers : ∀ crypto group positions seed commit,
    (M.removeMembers crypto group positions seed).1 = .ok commit → seedOf commit = seed
  selfUpdate : ∀ crypto group seed commit,
    (M.selfUpdate crypto group seed).1 = .ok commit → seedOf commit = seed

section Contracts

variable (M : Mls) (log : Log Event)

/-- No created commit comes from randomness that is still to be drawn, and no two
share their bytes. -/
def Distinct : Prop :=
  ∀ seedOf, M.FreshCommits seedOf →
    (∀ commitBytes ∈ created log, seedOf commitBytes < log.draws) ∧ (created log).Nodup

/-- A commit made from the last draw. -/
def NewCommit (commitBytes : Bytes) : Prop :=
  ∀ seedOf, M.FreshCommits seedOf → seedOf commitBytes < log.draws ∧
    ∀ earlier ∈ created log, seedOf earlier < seedOf commitBytes

/-- A commit whose post has ended was created before. -/
def PostsCreated : Prop :=
  ∀ id job groupId sender epoch commitBytes result,
    Event.concluded id job (.publishGroupCommit groupId sender epoch commitBytes) result ∈
      log.events → Event.created sender groupId epoch commitBytes ∈ log.events

/-- No post of the commit has ended. -/
def Unposted (commitBytes : Bytes) : Prop :=
  ∀ seedOf, M.FreshCommits seedOf → ∀ id job groupId sender epoch result,
    Event.concluded id job (.publishGroupCommit groupId sender epoch commitBytes) result ∉ log.events

/-- The record of a run in which the services answer genuinely and commits are new. -/
structure Sound : Prop where
  genuine : Genuine log
  distinct : Distinct M log
  postsCreated : PostsCreated log

/-- The observations a worker may record. -/
def mayRecord (job : Job) : Event → Prop
  | .created worker _ _ commitBytes => worker = job.worker ∧ NewCommit M log commitBytes
  | .rolledBack worker groupId epoch commitBytes => worker = job.worker ∧
      Event.created worker groupId epoch commitBytes ∈ log.events ∧
      ∃ message, Heard log job (.publishGroupCommit groupId worker epoch commitBytes)
        (.conflict message)
  | .merged worker _ _ _ _ => worker = job.worker
  | _ => False

/-- The calls a worker may issue. -/
def mayCall (job : Job) (slot : Slot M) (calls : List Call) (call : Call) : Prop :=
  match call.request with
  | .publishGroupCommit groupId sender epoch commitBytes =>
    sender = job.worker ∧ calls = [call] ∧
      Event.created sender groupId epoch commitBytes ∈ log.events ∧ Unposted M log commitBytes
  | .putGroupState groupId epoch members =>
    slot.client.groupIdHex = .ok groupId ∧ slot.client.currentEpoch = .ok epoch ∧
      slot.client.memberNames = .ok members
  | .fetchKeyPackage _ => Unanswered log job
  | .publishApplicationMessage _ sender _ _ =>
    sender = job.worker ∧ calls = [call] ∧ Unanswered log job
  | _ => True

end Contracts

variable {M : Mls}

theorem Distinct.of_created_eq {log' : Log Event} (h : Distinct M log)
    (hdraws : log.draws ≤ log'.draws) (hcreated : created log' = created log) :
    Distinct M log' := by
  intro seedOf hfresh
  obtain ⟨hdrawn, hnodup⟩ := h seedOf hfresh
  rw [hcreated]
  exact ⟨fun commitBytes hmem => (hdrawn commitBytes hmem).trans_le hdraws, hnodup⟩

theorem Distinct.created {worker groupId : String}
    (h : Distinct M log) (hnew : NewCommit M log commitBytes) :
    Distinct M (log.record (.created worker groupId epoch commitBytes)) := by
  intro seedOf hfresh
  obtain ⟨hdrawn, hnodup⟩ := h seedOf hfresh
  obtain ⟨hlt, hearlier⟩ := hnew seedOf hfresh
  have hcreated : Worker.created (log.record (.created worker groupId epoch commitBytes)) =
    Worker.created log ++ [commitBytes] := created_append
  rw [hcreated]
  constructor
  · intro earlier hmem
    rcases mem_append.mp hmem with hmem | hmem
    · exact hdrawn earlier hmem
    · obtain rfl := mem_singleton.mp hmem
      exact hlt
  · refine nodup_append.mpr ⟨hnodup, nodup_singleton _, ?_⟩
    rintro earlier hmem last hlast rfl
    obtain rfl := mem_singleton.mp hlast
    exact lt_irrefl _ (hearlier earlier hmem)

theorem Sound.record {job : Job} (h : Sound M log)
    (hmay : mayRecord M log job event) : Sound M (log.record event) := by
  refine ⟨?_, ?_, ?_⟩
  · intro id job' request response heard hmem
    rcases mem_append.mp hmem with hmem | hmem
    · exact h.genuine id job' request response heard hmem
    · obtain rfl := mem_singleton.mp hmem
      exact hmay.elim
  · cases event with
    | created worker groupId epoch commitBytes => exact h.distinct.created hmay.2
    | rolledBack worker groupId epoch commitBytes
    | merged worker groupId epoch added welcome =>
      exact h.distinct.of_created_eq (le_refl _) (created_append.trans (append_nil _))
    | served | accepted | concluded | answered => exact hmay.elim
  · intro id job' groupId sender epoch commitBytes result hmem
    rcases mem_append.mp hmem with hmem | hmem
    · exact mem_append_left _ (h.postsCreated _ _ _ _ _ _ _ hmem)
    · obtain rfl := mem_singleton.mp hmem
      exact hmay.elim

theorem Sound.advance (h : Sound M log) : Sound M log.advance :=
  ⟨h.genuine, h.distinct.of_created_eq (Nat.le_succ _) rfl, h.postsCreated⟩

/-- No post of a new commit has ended. -/
theorem Sound.unposted {worker groupId : String} (h : Sound M log)
    (hnew : NewCommit M log commitBytes) :
    Unposted M (log.record (.created worker groupId epoch commitBytes)) commitBytes := by
  intro seedOf hfresh id job groupId' sender epoch' result hmem
  rcases mem_append.mp hmem with hmem | hmem
  · have hcreated := h.postsCreated _ _ _ _ _ _ _ hmem
    exact lt_irrefl _ ((hnew seedOf hfresh).2 commitBytes (mem_created.mpr ⟨_, _, _, hcreated⟩))
  · cases mem_singleton.mp hmem

/-- The contract of a worker that executes a job. -/
def contract (M : Mls) (job : Job) : Contract (signature M) where
  inv := Sound M
  rely := Grows job.worker
  issue log slot calls := ∀ call ∈ calls, mayCall M log job slot calls call
  emit log event := mayRecord M log job event
  answer log calls result := Answered log job calls result
  rely_refl := .refl
  rely_trans := .trans
  inv_emit := .record
  inv_draw := .advance
  answer_nil _ := .nil

end MessagingBench.Worker
