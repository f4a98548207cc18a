import MessagingBench.Core.InOrder
import MessagingBench.Delivery.Feeds
import Mathlib.Data.List.Enum

/-!
# Concurrent publishers

A publication is not atomic: the epoch advances under the group lock, and the
delivery is enqueued later, under the lock of each inbox or of the log. Between the
two any other publisher and any recipient may run. A schedule here interleaves the
locked sections of all publishers with the fetches and acknowledgements of all
recipients.
-/

namespace MessagingBench.Delivery

open List

def AcceptedCommit.delivery (commit : AcceptedCommit) (recipient : String) :
    PendingCommitDelivery :=
  (commit.record recipient).pending

def AcceptedCommit.logEntry (commit : AcceptedCommit) : GroupLogCommit :=
  ⟨commit.epoch + 1, commit.sender, commit.members, commit.commitBytes⟩

namespace DeliveryService

/-- The `n`-th locked section of a publisher after acceptance, if there is one: the
push for the `n`-th member, or the only append. -/
def enqueueSection (ds : DeliveryService) (commit : AcceptedCommit) (n : Nat) :
    Option DeliveryService :=
  match ds.deliveryMode with
  | .perRecipient => commit.members[n]?.map fun recipient =>
      ds.pushCommit commit.groupId commit.sender commit.epoch commit.commitBytes recipient
  | .groupLog =>
    if n = 0 then
      some (ds.appendCommit commit.groupId commit.sender commit.epoch commit.commitBytes
        commit.members)
    else none

/-- The deliveries of a group that a recipient could still be handed, oldest first. -/
def queued (ds : DeliveryService) (recipient groupId : String) : List PendingCommitDelivery :=
  match ds.deliveryMode with
  | .perRecipient =>
    ((ds.commitInboxQueue recipient).filter (·.groupId == groupId)).map
      CommitDeliveryRecord.pending
  | .groupLog =>
    ((logOf ds groupId).filter (pendingInLog recipient (ds.commitCursor recipient groupId))).map
      (GroupLogCommit.delivery groupId recipient)

end DeliveryService

/-- The section `n` of a publisher enqueues its commit for this member. -/
def reaches (mode : CommitDeliveryMode) (commit : AcceptedCommit) (n : Nat) (recipient : String) :
    Bool :=
  match mode with
  | .perRecipient => commit.members[n]? == some recipient
  | .groupLog => n == 0 && commit.members.contains recipient

/-- One of the first `n` sections of a publisher enqueued its commit for this member. -/
def enqueuedFor (mode : CommitDeliveryMode) (commit : AcceptedCommit) (n : Nat)
    (recipient : String) : Bool :=
  match mode with
  | .perRecipient => (commit.members.take n).contains recipient
  | .groupLog => decide (0 < n) && commit.members.contains recipient

/-- The service with all its publishers and recipients. -/
structure Interleaved where
  service : DeliveryService
  /-- Every accepted commit, in the order of acceptance. -/
  accepted : List AcceptedCommit
  /-- How many sections the publisher of the `i`-th accepted commit has completed. -/
  sections : Nat → Nat
  /-- The delivery a recipient has fetched and not yet acknowledged. -/
  fetched : String → Option PendingCommitDelivery
  /-- The deliveries a recipient has fetched and acknowledged, in order. -/
  obtained : String → List PendingCommitDelivery

namespace Interleaved

/-- The atomic steps; a walk over the log carries its iteration order. -/
inductive Action
  | putGroupState (groupId : String) (epoch : Epoch) (members : List String)
  | accept (groupId sender : String) (epoch : Epoch) (commitBytes : Bytes)
  | enqueue (publisher : Nat)
  | fetch (order : List String) (recipient : String)
  | ack (order : List String) (recipient : String)

def start (mode : CommitDeliveryMode) : Interleaved :=
  ⟨.withDeliveryMode mode, [], fun _ => 0, fun _ => none, fun _ => []⟩

variable (s : Interleaved)

/-- The publisher `i` has completed a section that left the given service. -/
def completeSection (i : Nat) (service : DeliveryService) : Interleaved :=
  { s with service := service, sections := Function.update s.sections i (s.sections i + 1) }

def step : Action → Interleaved
  | .putGroupState groupId epoch members =>
    { s with service := (s.service.putGroupState groupId epoch members).2 }
  | .accept groupId sender epoch commitBytes =>
    match s.service.acceptCommit groupId epoch with
    | .error _ => s
    | .ok (members, service) =>
      { s with
        service := service
        accepted := s.accepted ++ [⟨groupId, sender, epoch, members, commitBytes⟩] }
  | .enqueue i =>
    match s.accepted[i]?.bind fun commit => s.service.enqueueSection commit (s.sections i) with
    | none => s
    | some service => s.completeSection i service
  | .fetch order r =>
    { s with fetched := Function.update s.fetched r (s.service.fetchPendingCommitDelivery order r) }
  | .ack order r =>
    match s.fetched r with
    | none => s
    | some delivery =>
      { s with
        service := (s.service.ackCommit order r delivery.id).2
        fetched := Function.update s.fetched r none
        obtained := Function.update s.obtained r (s.obtained r ++ [delivery]) }

/-- The accepted commits of a group addressed to a recipient, with their publishers. -/
def view (r g : String) : List (AcceptedCommit × Nat) :=
  s.accepted.zipIdx.filter fun x => x.1.groupId == g && x.1.members.contains r

/-- The commit of this publisher has been enqueued for the recipient. -/
def isEnqueued (r : String) (x : AcceptedCommit × Nat) : Bool :=
  enqueuedFor s.service.deliveryMode x.1 (s.sections x.2) r

/-- The deliveries of a group that a recipient is owed over the whole run. -/
def addressed (r g : String) : List PendingCommitDelivery :=
  (s.accepted.filter fun c => c.groupId == g && c.members.contains r).map (·.delivery r)

/-- The deliveries of a group that a recipient has obtained. -/
def obtainedIn (r g : String) : List PendingCommitDelivery :=
  (s.obtained r).filter (·.groupId == g)

/-- A walk over the log meets every group that has one. -/
def Complete (order : List String) : Prop :=
  ∀ c ∈ s.accepted, logOf s.service c.groupId ≠ [] → c.groupId ∈ order

/-- Publishers enqueue for each recipient in the order of acceptance and once, no
group is advanced beyond the largest epoch, and an acknowledged identifier belongs to
one group only. -/
def InAcceptanceOrder : Action → Prop
  | .accept groupId _ epoch _ =>
    ¬(epoch = maxEpoch ∧ epochOf s.service groupId = some maxEpoch)
  | .enqueue i =>
    ∀ c ∈ s.accepted[i]?, ∀ r ∈ c.members,
      reaches s.service.deliveryMode c (s.sections i) r = true →
        s.isEnqueued r (c, i) = false ∧
        ∀ x ∈ s.view r c.groupId, x.2 < i → s.isEnqueued r x = true
  | .ack _ r =>
    ∀ d ∈ s.fetched r, ∀ c ∈ s.accepted, r ∈ c.members → c.groupId ≠ d.groupId →
      (c.delivery r).id ≠ d.id
  | _ => True

/-- The walk of an acknowledgement meets every group that has a log. -/
def Walks : Action → Prop
  | .ack order _ => s.Complete order
  | _ => True

instance (s : Interleaved) (order : List String) : Decidable (s.Complete order) :=
  inferInstanceAs (Decidable (∀ c ∈ s.accepted, logOf s.service c.groupId ≠ [] →
    c.groupId ∈ order))

instance (s : Interleaved) (a : Action) : Decidable (s.InAcceptanceOrder a) :=
  match a with
  | .accept groupId _ epoch _ =>
    inferInstanceAs (Decidable (¬(epoch = maxEpoch ∧ epochOf s.service groupId = some maxEpoch)))
  | .enqueue i =>
    inferInstanceAs (Decidable (∀ c ∈ s.accepted[i]?, ∀ r ∈ c.members,
      reaches s.service.deliveryMode c (s.sections i) r = true →
        s.isEnqueued r (c, i) = false ∧
        ∀ x ∈ s.view r c.groupId, x.2 < i → s.isEnqueued r x = true))
  | .ack _ r =>
    inferInstanceAs (Decidable (∀ d ∈ s.fetched r, ∀ c ∈ s.accepted, r ∈ c.members →
      c.groupId ≠ d.groupId → (c.delivery r).id ≠ d.id))
  | .putGroupState _ _ _ => isTrue trivial
  | .fetch _ _ => isTrue trivial

instance (s : Interleaved) (a : Action) : Decidable (s.Walks a) :=
  match a with
  | .ack order _ => inferInstanceAs (Decidable (s.Complete order))
  | .putGroupState _ _ _ => isTrue trivial
  | .accept _ _ _ _ => isTrue trivial
  | .enqueue _ => isTrue trivial
  | .fetch _ _ => isTrue trivial


theorem mem_view {s : Interleaved} {r g : String} {x : AcceptedCommit × Nat} :
    x ∈ s.view r g ↔ s.accepted[x.2]? = some x.1 ∧ x.1.groupId = g ∧ r ∈ x.1.members := by
  simp [view, mem_zipIdx_iff_getElem?]

theorem view_pairwise (s : Interleaved) (r g : String) :
    (s.view r g).Pairwise fun x y => x.2 < y.2 := by
  refine Pairwise.sublist filter_sublist ?_
  rw [← pairwise_map (f := Prod.snd) (R := (· < ·)), zipIdx_map_snd]
  exact pairwise_lt_range'

theorem view_map_fst (s : Interleaved) (r g : String) :
    (s.view r g).map Prod.fst =
      s.accepted.filter fun c => c.groupId == g && c.members.contains r := by
  have h : s.accepted = s.accepted.zipIdx.map Prod.fst := by simp
  conv_rhs => rw [h, filter_map]
  rfl

theorem view_append (s : Interleaved) (ds : DeliveryService) (c : AcceptedCommit) (r g : String) :
    ({ s with service := ds, accepted := s.accepted ++ [c] } : Interleaved).view r g =
      s.view r g ++ [(c, s.accepted.length)].filter
        fun x => x.1.groupId == g && x.1.members.contains r := by
  simp [view, zipIdx_append]

theorem addressed_eq (s : Interleaved) (r g : String) :
    s.addressed r g = (s.view r g).map fun x => x.1.delivery r := by
  rw [addressed, ← view_map_fst, map_map]
  rfl

end Interleaved

section Sections

variable {ds ds' : DeliveryService} {commit : AcceptedCommit} {n : Nat}

theorem mem_of_reaches {mode : CommitDeliveryMode} {r : String}
    (h : reaches mode commit n r = true) : r ∈ commit.members := by
  cases mode with
  | perRecipient => exact mem_of_getElem? (beq_iff_eq.mp h)
  | groupLog => simpa using (Bool.and_eq_true_iff.mp h).2

/-- A section adds exactly the recipients it reaches. -/
theorem enqueuedFor_succ (h : ds.enqueueSection commit n = some ds') (r : String) :
    enqueuedFor ds.deliveryMode commit (n + 1) r =
      (enqueuedFor ds.deliveryMode commit n r || reaches ds.deliveryMode commit n r) := by
  simp only [DeliveryService.enqueueSection] at h
  cases hmode : ds.deliveryMode with
  | perRecipient =>
    rw [Bool.eq_iff_iff]
    simp [enqueuedFor, reaches, take_add_one]
  | groupLog =>
    simp only [hmode] at h
    split at h
    · rename_i hn
      simp [enqueuedFor, reaches, hn]
    · cases h

theorem enqueuedFor_zero (mode : CommitDeliveryMode) (commit : AcceptedCommit) (r : String) :
    enqueuedFor mode commit 0 r = false := by
  cases mode <;> simp [enqueuedFor]

/-- A section changes inboxes and logs only. -/
theorem enqueueSection_frame (h : ds.enqueueSection commit n = some ds') :
    ds'.deliveryMode = ds.deliveryMode ∧ ds'.groups = ds.groups ∧
      ds'.commitCursors = ds.commitCursors := by
  simp only [DeliveryService.enqueueSection] at h
  split at h
  · obtain ⟨r, _, rfl⟩ := Option.map_eq_some_iff.mp h
    exact ⟨rfl, rfl, rfl⟩
  · split at h
    · cases h
      exact ⟨rfl, rfl, rfl⟩
    · cases h

theorem logOf_enqueueSection (hmode : ds.deliveryMode = .groupLog)
    (h : ds.enqueueSection commit n = some ds') (g : String) :
    logOf ds' g = logOf ds g ++ (if commit.groupId = g then [commit.logEntry] else []) := by
  simp only [DeliveryService.enqueueSection, hmode] at h
  split at h
  · cases h
    by_cases hg : commit.groupId = g
    · subst hg
      simp [logOf, DeliveryService.appendCommit, AcceptedCommit.logEntry]
    · simp [logOf, DeliveryService.appendCommit, hg, Function.update_of_ne (Ne.symm hg)]
  · cases h

theorem logEntry_delivery (commit : AcceptedCommit) (r : String) :
    commit.logEntry.delivery commit.groupId r = commit.delivery r := rfl

/-- A section queues its commit for the recipients it reaches, behind everything
already queued. -/
theorem queued_enqueueSection (h : ds.enqueueSection commit n = some ds') {r g : String}
    (hcursor : ds.deliveryMode = .groupLog → commit.groupId = g → r ∈ commit.members →
      ds.commitCursor r g < commit.epoch + 1) :
    ds'.queued r g = ds.queued r g ++
      (if reaches ds.deliveryMode commit n r = true ∧ commit.groupId = g then
        [commit.delivery r] else []) := by
  obtain ⟨hmode', _, hcursors⟩ := enqueueSection_frame h
  cases hmode : ds.deliveryMode with
  | perRecipient =>
    simp only [DeliveryService.enqueueSection, hmode] at h
    obtain ⟨recipient, hget, rfl⟩ := Option.map_eq_some_iff.mp h
    simp only [DeliveryService.queued, hmode, reaches, hget,
      DeliveryService.commitInboxQueue, DeliveryService.pushCommit, Inboxes.queue_push,
      filter_append, map_append]
    congr 1
    by_cases hr : r = recipient
    · subst hr
      by_cases hg : commit.groupId = g
      · simp [hg, DeliveryService.deliveryRecord, AcceptedCommit.delivery, AcceptedCommit.record]
      · simp [hg, DeliveryService.deliveryRecord]
    · simp [hr, Ne.symm hr]
  | groupLog =>
    have hsame : ds'.commitCursor r g = ds.commitCursor r g := by
      rw [DeliveryService.commitCursor, hcursors]
      rfl
    have hn : n = 0 := by
      simp only [DeliveryService.enqueueSection, hmode] at h
      by_contra hn
      simp [hn] at h
    simp only [DeliveryService.queued, hmode', hmode, hsame, logOf_enqueueSection hmode h g,
      filter_append, map_append]
    congr 1
    by_cases hg : commit.groupId = g
    · by_cases hr : r ∈ commit.members
      · have hp := pendingInLog_iff (c := commit.logEntry).mpr ⟨hcursor hmode hg hr, hr⟩
        subst hg
        simp [reaches, hn, hr, hp, logEntry_delivery]
      · have hp : DeliveryService.pendingInLog r (ds.commitCursor r g) commit.logEntry = false := by
          rw [Bool.eq_false_iff]
          exact fun hp => hr (pendingInLog_iff.mp hp).2
        simp [reaches, hn, hg, hr, hp]
    · simp [hg]

end Sections

namespace Interleaved

/-- Without interference the sections of a publisher are the push loop. -/
theorem execute_enqueue_perRecipient {s : Interleaved} {i : Nat} {c : AcceptedCommit}
    (hget : s.accepted[i]? = some c) (hmode : s.service.deliveryMode = .perRecipient) (n : Nat) :
    (execute step s (replicate n (.enqueue i))).service =
      ((c.members.drop (s.sections i)).take n).foldl
        (fun ds r => ds.pushCommit c.groupId c.sender c.epoch c.commitBytes r) s.service := by
  induction n generalizing s with
  | zero => simp
  | succ n ih =>
    rw [replicate_succ, execute_cons]
    cases hmember : c.members[s.sections i]? with
    | none =>
      have hstep : s.step (.enqueue i) = s := by
        simp [step, hget, DeliveryService.enqueueSection, hmode, hmember]
      have hdrop : c.members.drop (s.sections i) = [] :=
        drop_eq_nil_iff.mpr (List.getElem?_eq_none_iff.mp hmember)
      rw [hstep, ih hget hmode, hdrop]
      simp
    | some r =>
      have hstep : s.step (.enqueue i) = s.completeSection i
          (s.service.pushCommit c.groupId c.sender c.epoch c.commitBytes r) := by
        simp [step, hget, DeliveryService.enqueueSection, hmode, hmember]
      have hdrop : c.members.drop (s.sections i) = r :: c.members.drop (s.sections i + 1) := by
        obtain ⟨hlt, rfl⟩ := List.getElem?_eq_some_iff.mp hmember
        exact drop_eq_getElem_cons hlt
      have hrest := ih (s := s.completeSection i
        (s.service.pushCommit c.groupId c.sender c.epoch c.commitBytes r)) hget hmode
      rw [hstep, hrest, hdrop]
      simp [completeSection]

/-- The sections of a publication after its acceptance: one for each recipient, or one for the
log, or none if the commit is refused. -/
def sectionCount (ds : DeliveryService) (groupId : String) (epoch : Epoch) : Nat :=
  match ds.acceptCommit groupId epoch, ds.deliveryMode with
  | .error _, _ => 0
  | .ok result, .perRecipient => result.1.length
  | .ok _, .groupLog => 1

/-- Without interference a publisher that runs all its sections publishes as the sequential
service does. -/
theorem execute_publish {s : Interleaved} (hfresh : s.sections s.accepted.length = 0)
    (groupId sender : String) (epoch : Epoch) (commitBytes : Bytes) :
    (execute step s (.accept groupId sender epoch commitBytes :: replicate
      (sectionCount s.service groupId epoch) (.enqueue s.accepted.length))).service =
        (s.service.publishGroupCommit groupId sender epoch commitBytes).2 := by
  simp only [execute_cons, step, DeliveryService.publishGroupCommit, sectionCount]
  cases hacc : s.service.acceptCommit groupId epoch with
  | error message => rfl
  | ok result =>
    obtain ⟨state, _, _, _, hds⟩ := DeliveryService.acceptCommit_eq_ok hacc
    have hmode : result.2.deliveryMode = s.service.deliveryMode := by rw [hds]
    cases hcase : s.service.deliveryMode with
    | perRecipient =>
      rw [execute_enqueue_perRecipient (c := ⟨groupId, sender, epoch, result.1, commitBytes⟩)
        (by simp) (hmode.trans hcase)]
      simp [hfresh]
    | groupLog =>
      simp [step, DeliveryService.enqueueSection, hmode.trans hcase, hfresh, completeSection]

theorem execute_publish_registered :
    let s := (start .perRecipient).step (.putGroupState "67" 0 ["alice", "bob", "carol"])
    (execute step s (.accept "67" "bob" 0 [1] :: replicate 3 (.enqueue 0))).service =
      (s.service.publishGroupCommit "67" "bob" 0 [1]).2 :=
  execute_publish rfl "67" "bob" 0 [1]

end Interleaved

end MessagingBench.Delivery
