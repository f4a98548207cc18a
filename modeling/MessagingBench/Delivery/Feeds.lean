import MessagingBench.Delivery.Runs

/-!
# Commit feeds: what both delivery modes implement

For one group the service owes every recipient a feed: the accepted commits addressed to it
and not yet acknowledged, oldest first. Per-recipient inboxes simulate it unconditionally,
the shared log as long as recipients only acknowledge what they were handed and no epoch
wraps around.
-/

namespace MessagingBench.Delivery

open List DeliveryService Function

/-- The abstract state of one group's deliveries. -/
structure Feeds where
  /-- Registered epoch and member list. -/
  group : Option GroupState
  /-- Accepted commits still owed to a recipient, oldest first. -/
  pending : String → List GroupLogCommit
  /-- Identifiers of the deliveries a recipient has been handed so far. -/
  fetched : String → List String

/-- The identifier of a log commit for a recipient. -/
def GroupLogCommit.deliveryId (groupId recipient : String) (commit : GroupLogCommit) : String :=
  commitDeliveryId groupId commit.epoch commit.sender recipient

/-- A log commit as the pending endpoint reports it. -/
def GroupLogCommit.delivery (groupId recipient : String) (commit : GroupLogCommit) :
    PendingCommitDelivery where
  id := commit.deliveryId groupId recipient
  groupId := groupId
  epoch := commit.epoch
  sender := commit.sender
  commitHex := hexEncode commit.commitBytes

namespace Feeds

/-- Nothing registered, nothing owed. -/
def empty : Feeds := ⟨none, fun _ => [], fun _ => []⟩

/-- Hand the oldest owed commit to a recipient. -/
def hand (groupId : String) (feeds : Feeds) (r : String) : Feeds :=
  { feeds with
    fetched := update feeds.fetched r (feeds.fetched r ++
      ((feeds.pending r).head?.map (GroupLogCommit.deliveryId groupId r)).toList) }

/-- One operation on the group `groupId`. -/
def step (groupId : String) (feeds : Feeds) : Operation → Feeds
  | .putGroupState _ epoch members =>
    match feeds.group with
    | none => { feeds with group := some ⟨epoch, members⟩ }
    | some state =>
      if epoch = state.currentEpoch then
        { feeds with group := some { state with members := members } }
      else feeds
  | .publishGroupCommit _ sender epoch commitBytes =>
    match feeds.group with
    | none => feeds
    | some state =>
      if epoch = state.currentEpoch then
        { feeds with
          group := some { state with currentEpoch := state.currentEpoch + 1 }
          pending := fun r => feeds.pending r ++ (if r ∈ state.members then
            [⟨epoch + 1, sender, state.members, commitBytes⟩] else []) }
      else feeds
  | .fetchCommit r => feeds.hand groupId r
  | .fetchPendingCommitDelivery r => feeds.hand groupId r
  | .ackCommit r deliveryId =>
    { feeds with
      pending := update feeds.pending r
        ((feeds.pending r).filter fun c => c.deliveryId groupId r != deliveryId) }

def reply (groupId : String) (feeds : Feeds) : Operation → Option Reply
  | .fetchCommit r => some (.bytes ((feeds.pending r).head?.map (·.commitBytes)))
  | .fetchPendingCommitDelivery r =>
    some (.delivery ((feeds.pending r).head?.map (GroupLogCommit.delivery groupId r)))
  | _ => none

end Feeds

/-- A service together with the identifiers it has handed out. -/
structure Session where
  service : DeliveryService
  fetched : String → List String

namespace Session

def start (mode : CommitDeliveryMode) : Session := ⟨.withDeliveryMode mode, fun _ => []⟩

/-- The recipient that an operation hands a delivery to. -/
def reader : Operation → Option String
  | .fetchCommit r => some r
  | .fetchPendingCommitDelivery r => some r
  | _ => none

/-- Execute one operation and remember what a reading operation handed out. -/
def step (order : List String) (s : Session) (op : Operation) : Session where
  service := next order s.service op
  fetched := match reader op with
    | none => s.fetched
    | some r => update s.fetched r (s.fetched r ++
        ((s.service.fetchPendingCommitDelivery order r).map (·.id)).toList)

/-- The reply of a reading operation. -/
def reply (order : List String) (s : Session) (op : Operation) : Option Reply :=
  if op.isFetch then some (perform order s.service op).1 else none

end Session

/-- The operations of a run on the group `groupId` in which recipients acknowledge
only deliveries they were handed, such as the most recent one. -/
def Disciplined (groupId : String) (fetched : String → List String) : Operation → Prop
  | .putGroupState g _ _ => g = groupId
  | .publishGroupCommit g _ _ _ => g = groupId
  | .ackCommit r deliveryId => deliveryId ∈ fetched r
  | _ => True

instance (groupId : String) (fetched : String → List String) (op : Operation) :
    Decidable (Disciplined groupId fetched op) :=
  match op with
  | .putGroupState g _ _ => inferInstanceAs (Decidable (g = groupId))
  | .publishGroupCommit g _ _ _ => inferInstanceAs (Decidable (g = groupId))
  | .ackCommit r deliveryId => inferInstanceAs (Decidable (deliveryId ∈ fetched r))
  | .fetchCommit _ => isTrue trivial
  | .fetchPendingCommitDelivery _ => isTrue trivial

/-- The operation does not advance a group beyond the largest epoch. -/
def WrapFree (group : Option GroupState) : Operation → Prop
  | .publishGroupCommit _ _ epoch _ =>
    ¬(epoch = maxEpoch ∧ group.map (·.currentEpoch) = some maxEpoch)
  | _ => True

instance (group : Option GroupState) (op : Operation) : Decidable (WrapFree group op) :=
  match op with
  | .publishGroupCommit _ _ epoch _ =>
    inferInstanceAs (Decidable (¬(epoch = maxEpoch ∧
      group.map (·.currentEpoch) = some maxEpoch)))
  | .putGroupState _ _ _ => isTrue trivial
  | .ackCommit _ _ => isTrue trivial
  | .fetchCommit _ => isTrue trivial
  | .fetchPendingCommitDelivery _ => isTrue trivial

/-- Within one group the identifier determines the epoch, whatever characters the
names contain. -/
theorem deliveryId_epoch {groupId r : String} {c c' : GroupLogCommit}
    (h : c.deliveryId groupId r = c'.deliveryId groupId r) : c.epoch = c'.epoch := by
  have hl := congrArg String.toList h
  simp only [GroupLogCommit.deliveryId, commitDeliveryId, String.toList_append,
    append_assoc] at hl
  have hrest := append_cancel_left hl
  change ':' :: (c.epoch.toNat.repr.toList ++ ':' :: (c.sender.toList ++ ':' :: r.toList)) =
    ':' :: (c'.epoch.toNat.repr.toList ++ ':' :: (c'.sender.toList ++ ':' :: r.toList)) at hrest
  obtain ⟨hee, _⟩ := append_cons_injective (not_mem_repr (by decide))
    (not_mem_repr (by decide)) (cons.inj hrest).2
  exact UInt64.toNat_inj.mp (repr_injective (String.toList_inj.mp hee))

variable (ds : DeliveryService)

/-- Registering through the service and in the abstract model gives the same group. -/
theorem putGroupState_group (feeds : Feeds) (groupId g : String)
    (epoch : Epoch) (members : List String) (h : ds.groups groupId = feeds.group) :
    (ds.putGroupState groupId epoch members).2.groups groupId =
      (feeds.step groupId (.putGroupState g epoch members)).group := by
  simp only [putGroupState, Feeds.step, h]
  cases hg : feeds.group with
  | none => simp
  | some state =>
    by_cases he : epoch = state.currentEpoch
    · simp [he]
    · simp [he, h, hg]

/-- A registration touches nothing but the group table. -/
theorem putGroupState_frame (groupId : String) (epoch : Epoch) (members : List String) : ∃ groups,
      (ds.putGroupState groupId epoch members).2 = { ds with groups := groups } := by
  simp only [putGroupState]
  split
  · split
    · exact ⟨ds.groups, rfl⟩
    · exact ⟨_, rfl⟩
  · exact ⟨_, rfl⟩

variable {groupId : String} {feeds : Feeds} {s : Session} {ds : DeliveryService} {epoch : Epoch}

theorem Feeds.step_publish_error (h : ds.groups groupId = feeds.group) {message : String}
    (hacc : ds.acceptCommit groupId epoch = .error message) (g sender : String)
    (commitBytes : Bytes) :
    feeds.step groupId (.publishGroupCommit g sender epoch commitBytes) = feeds := by
  simp only [acceptCommit, h] at hacc
  simp only [Feeds.step]
  cases hg : feeds.group with
  | none => rfl
  | some state =>
    simp only [hg] at hacc
    split at hacc
    · rename_i hne
      simp [hne]
    · cases hacc

theorem Feeds.step_publish_ok {ds accepted : DeliveryService} (h : ds.groups groupId = feeds.group)
    {members : List String} (hacc : ds.acceptCommit groupId epoch = .ok (members, accepted))
    (g sender : String) (commitBytes : Bytes) :
    feeds.group = some ⟨epoch, members⟩ ∧ accepted = { ds with
      groups := update ds.groups groupId (some ⟨epoch + 1, members⟩) } ∧
      feeds.step groupId (.publishGroupCommit g sender epoch commitBytes) = { feeds with
        group := some ⟨epoch + 1, members⟩
        pending := fun r => feeds.pending r ++ (if r ∈ members then
          [⟨epoch + 1, sender, members, commitBytes⟩] else []) } := by
  obtain ⟨state, hst, rfl, rfl, hds⟩ := acceptCommit_eq_ok hacc
  have hgroup : feeds.group = some state := h.symm.trans hst
  exact ⟨hgroup, hds, by simp only [Feeds.step, hgroup, ite_true]⟩

/-- A registration changes no feed and hands out nothing. -/
theorem Feeds.step_put_frame (feeds : Feeds) (groupId g : String) (epoch : Epoch)
    (members : List String) : ∃ group,
      feeds.step groupId (.putGroupState g epoch members) = { feeds with group := group } := by
  simp only [Feeds.step]
  split
  · exact ⟨_, rfl⟩
  · split
    · exact ⟨_, rfl⟩
    · exact ⟨feeds.group, rfl⟩

section Inboxes

/-- The queue entry of a log commit. -/
def GroupLogCommit.record (groupId recipient : String) (commit : GroupLogCommit) :
    CommitDeliveryRecord where
  id := commit.deliveryId groupId recipient
  groupId := groupId
  epoch := commit.epoch
  sender := commit.sender
  commitBytes := commit.commitBytes

/-- An owed commit is queued once per occurrence of the recipient in its list. -/
def copies (groupId recipient : String) (commit : GroupLogCommit) : List CommitDeliveryRecord :=
  replicate (commit.recipients.count recipient) (commit.record groupId recipient)

/-- A per-recipient service holds exactly the owed commits in its inboxes. -/
structure InboxRel (groupId : String) (s : Session) (feeds : Feeds) : Prop where
  mode : s.service.deliveryMode = .perRecipient
  group : s.service.groups groupId = feeds.group
  queue : ∀ r, s.service.commitInboxQueue r = (feeds.pending r).flatMap (copies groupId r)
  addressed : ∀ r, ∀ c ∈ feeds.pending r, r ∈ c.recipients
  fetched : s.fetched = feeds.fetched

theorem peekCommitInbox_eq (ds : DeliveryService) (r : String) :
    ds.peekCommitInbox r = (ds.commitInboxQueue r).head? := by
  cases h : ds.commitInboxes r <;>
    simp [peekCommitInbox, commitInboxQueue, Inboxes.queue, h]

theorem head?_flatMap_copies {groupId r : String} {commits : List GroupLogCommit}
    (h : ∀ c ∈ commits, r ∈ c.recipients) :
    (commits.flatMap (copies groupId r)).head? =
      commits.head?.map (GroupLogCommit.record groupId r) := by
  cases commits with
  | nil => rfl
  | cons c commits =>
    have hpos : c.recipients.count r ≠ 0 :=
      Nat.pos_iff_ne_zero.mp (count_pos_iff.mpr (h c mem_cons_self))
    obtain ⟨n, hn⟩ := Nat.exists_eq_succ_of_ne_zero hpos
    simp [copies, hn, replicate_succ]

/-- Acknowledging in the inbox removes all copies of the acknowledged commits. -/
theorem filter_flatMap_copies (groupId r deliveryId : String) (commits : List GroupLogCommit) :
    (commits.flatMap (copies groupId r)).filter (fun d => d.id != deliveryId) =
      (commits.filter fun c => c.deliveryId groupId r != deliveryId).flatMap (copies groupId r) := by
  induction commits with
  | nil => rfl
  | cons c commits ih =>
    rw [flatMap_cons, filter_append, ih]
    by_cases hid : c.deliveryId groupId r = deliveryId
    · simp [copies, GroupLogCommit.record, hid]
    · simp [copies, GroupLogCommit.record, hid]

/-- The pending endpoint of a per-recipient service returns the head of the feed. -/
theorem InboxRel.fetch (h : InboxRel groupId s feeds) (order : List String) (r : String) :
    s.service.fetchNextPendingCommit order r =
      (feeds.pending r).head?.map (GroupLogCommit.record groupId r) := by
  rw [fetchNextPendingCommit, h.mode]
  simp only [peekCommitInbox_eq, h.queue, head?_flatMap_copies (h.addressed r)]

/-- Per-recipient inboxes simulate the feeds under every operation on the group. -/
theorem InboxRel.step (h : InboxRel groupId s feeds) (order : List String) {op : Operation}
    (hop : Disciplined groupId feeds.fetched op) :
    InboxRel groupId (s.step order op) (feeds.step groupId op) := by
  have hmode : (s.step order op).service.deliveryMode = .perRecipient :=
    (next_deliveryMode order s.service op).trans h.mode
  have hqueue := fun r => next_commitInboxQueue order h.mode op r
  have hgroups := next_groups order s.service op
  cases op with
  | putGroupState g epoch members =>
    obtain rfl : g = groupId := hop
    obtain ⟨group, hframe⟩ := feeds.step_put_frame g g epoch members
    have hgroup := putGroupState_group s.service feeds g g epoch members h.group
    rw [hframe] at hgroup ⊢
    exact ⟨hmode, (congrFun hgroups g).trans hgroup, fun r => (hqueue r).trans (h.queue r),
      h.addressed, h.fetched⟩
  | publishGroupCommit g sender epoch commitBytes =>
    obtain rfl : g = groupId := hop
    simp only [observe] at hqueue
    cases hacc : s.service.acceptCommit g epoch with
    | error message =>
      simp only [hacc] at hqueue hgroups
      rw [Feeds.step_publish_error h.group hacc]
      exact ⟨hmode, (congrFun hgroups g).trans h.group, fun r => (hqueue r).trans (h.queue r),
        h.addressed, h.fetched⟩
    | ok result =>
      obtain ⟨hgroup, hds, hstep⟩ := Feeds.step_publish_ok h.group hacc g sender commitBytes
      simp only [hacc] at hqueue hgroups
      rw [hstep]
      refine ⟨hmode, (congrFun hgroups g).trans (by simp [hds]), fun r => ?_, fun r c hc => ?_,
        h.fetched⟩
      · refine (hqueue r).trans ?_
        rw [h.queue r]
        by_cases hr : r ∈ result.1
        · simp [hr, copies, AcceptedCommit.record, deliveryRecord,
            GroupLogCommit.record, GroupLogCommit.deliveryId]
        · simp [hr, count_eq_zero_of_not_mem hr]
      · rcases mem_append.mp hc with hc | hc
        · exact h.addressed r c hc
        · split at hc
          · rename_i hr
            rw [mem_singleton.mp hc]
            exact hr
          · cases hc
  | fetchCommit r | fetchPendingCommitDelivery r =>
    refine ⟨hmode, h.group, h.queue, h.addressed, ?_⟩
    simp only [Session.step, Session.reader, Feeds.step, Feeds.hand, h.fetched,
      fetchPendingCommitDelivery, h.fetch order r, Option.map_map]
    rfl
  | ackCommit recipient deliveryId =>
    simp only [observe] at hqueue
    refine ⟨hmode, (congrFun hgroups groupId).trans h.group, fun r => ?_, fun r c hc => ?_, h.fetched⟩
    · refine (hqueue r).trans ?_
      rw [h.queue r]
      by_cases hr : recipient = r
      · subst hr
        simp [Feeds.step, filter_flatMap_copies]
      · simp [Feeds.step, hr, update_of_ne (Ne.symm hr)]
    · by_cases hr : r = recipient
      · subst hr
        simp only [Feeds.step, update_self] at hc
        exact h.addressed r c (mem_filter.mp hc).1
      · simp only [Feeds.step, update_of_ne hr] at hc
        exact h.addressed r c hc

end Inboxes

section GroupLog

/-- The log of a group; an absent log is empty. -/
def logOf (ds : DeliveryService) (groupId : String) : List GroupLogCommit :=
  (ds.groupCommitLog groupId).getD []

variable {order : List String} {c : GroupLogCommit} {r : String}

theorem pendingInLog_iff {afterEpoch : Epoch} :
    pendingInLog r afterEpoch c = true ↔
      afterEpoch < c.epoch ∧ r ∈ c.recipients := by
  simp [pendingInLog, UInt64.not_le]

/-- A group-log service owes what its log holds beyond a recipient's cursor. -/
structure LogState (groupId : String) (ds : DeliveryService) (group : Option GroupState)
    (pending : String → List GroupLogCommit) : Prop where
  mode : ds.deliveryMode = .groupLog
  group_eq : ds.groups groupId = group
  other : ∀ g, g ≠ groupId → logOf ds g = []
  sorted : (logOf ds groupId).Pairwise fun c c' => c.epoch < c'.epoch
  bound : ∀ c ∈ logOf ds groupId, ∃ state, group = some state ∧ c.epoch ≤ state.currentEpoch
  cursor : ∀ r, ds.commitCursor r groupId = 0 ∨
    ∃ c ∈ logOf ds groupId, ds.commitCursor r groupId = c.epoch
  pending_eq : ∀ r, (logOf ds groupId).filter
    (pendingInLog r (ds.commitCursor r groupId)) = pending r

/-- A delivery handed to `r` is acknowledged already or is still the oldest owed one. -/
def Settled (groupId : String) (ds : DeliveryService) (pending : List GroupLogCommit)
    (r deliveryId : String) : Prop :=
  ∃ c ∈ logOf ds groupId, r ∈ c.recipients ∧ c.deliveryId groupId r = deliveryId ∧
    (c.epoch ≤ ds.commitCursor r groupId ∨ pending.head? = some c)

structure LogRel (groupId : String) (s : Session) (feeds : Feeds) : Prop where
  state : LogState groupId s.service feeds.group feeds.pending
  fetched : s.fetched = feeds.fetched
  handed : ∀ r, ∀ deliveryId ∈ feeds.fetched r,
    Settled groupId s.service (feeds.pending r) r deliveryId

/-- With a single non-empty log the walk selects that log's first pending commit. -/
theorem foldl_selectCommit (hother : ∀ g, g ≠ groupId → logOf ds g = []) {r : String}
    {order : List String} {selected : Option (String × GroupLogCommit)}
    (hsel : selected = none ∨ selected = ((logOf ds groupId).find?
      (pendingInLog r (ds.commitCursor r groupId))).map (groupId, ·)) :
    order.foldl (ds.selectCommit r) selected =
      if groupId ∈ order then ((logOf ds groupId).find?
        (pendingInLog r (ds.commitCursor r groupId))).map (groupId, ·)
      else selected := by
  induction order generalizing selected with
  | nil => simp
  | cons g order ih =>
    rw [foldl_cons]
    by_cases hg : g = groupId
    · subst hg
      have hstep : ds.selectCommit r selected g = ((logOf ds g).find?
          (pendingInLog r (ds.commitCursor r g))).map (g, ·) := by
        simp only [selectCommit, logOf] at hsel ⊢
        cases hfind : ((ds.groupCommitLog g).getD []).find?
            (pendingInLog r (ds.commitCursor r g)) with
        | none => simpa [hfind] using hsel
        | some c => rcases hsel with rfl | rfl <;> simp [hfind]
      rw [hstep, ih (.inr rfl)]
      simp
    · have hlog := hother g hg
      have hstep : ds.selectCommit r selected g = selected := by
        simp only [logOf] at hlog
        simp [selectCommit, hlog]
      rw [hstep, ih hsel]
      simp [Ne.symm hg]

theorem LogRel.fetch (h : LogRel groupId s feeds) (horder : groupId ∈ order) (r : String) :
    s.service.fetchNextPendingCommit order r =
      (feeds.pending r).head?.map (GroupLogCommit.record groupId r) := by
  rw [fetchNextPendingCommit, h.state.mode]
  simp only [fetchGroupLogCommitCompat]
  rw [foldl_selectCommit h.state.other (.inl rfl), ← head?_filter,
    h.state.pending_eq]
  simp only [horder, ite_true, Option.map_map]
  rfl

/-- A registration keeps the epoch of a registered group. -/
theorem Feeds.step_put_epoch {state : GroupState} (h : feeds.group = some state)
    (groupId g : String) (epoch : Epoch) (members : List String) : ∃ state',
      (feeds.step groupId (.putGroupState g epoch members)).group = some state' ∧
        state'.currentEpoch = state.currentEpoch := by
  by_cases he : epoch = state.currentEpoch
  · exact ⟨{ state with members := members }, by simp [Feeds.step, h, he], rfl⟩
  · exact ⟨state, by simp [Feeds.step, h, he], rfl⟩

theorem LogRel.put (h : LogRel groupId s feeds) (order : List String) (epoch : Epoch)
    (members : List String) :
    LogRel groupId (s.step order (.putGroupState groupId epoch members))
      (feeds.step groupId (.putGroupState groupId epoch members)) := by
  obtain ⟨groups, hframe⟩ := putGroupState_frame s.service groupId epoch members
  have hservice : (s.step order (.putGroupState groupId epoch members)).service =
      { s.service with groups := groups } := hframe
  have hgroup := putGroupState_group s.service feeds groupId groupId epoch members h.state.group_eq
  have hepoch : ∀ state, feeds.group = some state → _ := fun state hst =>
    Feeds.step_put_epoch hst groupId groupId epoch members
  obtain ⟨group, hfeeds⟩ := feeds.step_put_frame groupId groupId epoch members
  rw [hframe] at hgroup
  rw [hfeeds] at hgroup hepoch ⊢
  have hbound : ∀ c ∈ logOf s.service groupId, ∃ state, group = some state ∧
      c.epoch ≤ state.currentEpoch := by
    intro c hc
    obtain ⟨state, hst, hle⟩ := h.state.bound c hc
    obtain ⟨state', hst', he⟩ := hepoch state hst
    exact ⟨state', hst', he ▸ hle⟩
  refine ⟨?_, h.fetched, ?_⟩
  · rw [hservice]
    exact ⟨h.state.mode, hgroup, h.state.other, h.state.sorted, hbound, h.state.cursor,
      h.state.pending_eq⟩
  · rw [hservice]
    exact h.handed

theorem LogRel.hand (h : LogRel groupId s feeds) (horder : groupId ∈ order) {op : Operation}
    (hreader : Session.reader op = some r) (hnext : next order s.service op = s.service) :
    LogRel groupId (s.step order op) (feeds.hand groupId r) := by
  have hservice : (s.step order op).service = s.service := hnext
  refine ⟨hservice ▸ h.state, ?_, ?_⟩
  · simp only [Session.step, hreader, Feeds.hand, h.fetched,
      fetchPendingCommitDelivery, h.fetch horder r, Option.map_map]
    rfl
  · rw [hservice]
    intro r' deliveryId hid
    by_cases hr : r' = r
    · subst hr
      simp only [Feeds.hand, update_self, mem_append] at hid
      rcases hid with hid | hid
      · exact h.handed r' deliveryId hid
      · obtain ⟨c, hhead, hcid⟩ := Option.map_eq_some_iff.mp (Option.mem_toList.mp hid)
        have hmem : c ∈ (logOf s.service groupId).filter
            (pendingInLog r' (s.service.commitCursor r' groupId)) := by
          rw [h.state.pending_eq]
          exact mem_of_mem_head? hhead
        obtain ⟨hlog, hpend⟩ := mem_filter.mp hmem
        exact ⟨c, hlog, (pendingInLog_iff.mp hpend).2, hcid, .inr hhead⟩
    · simp only [Feeds.hand, update_of_ne hr] at hid
      exact h.handed r' deliveryId hid

/-- Publishing appends above everything logged so far, as long as the epoch does not wrap. -/
theorem LogRel.publish (h : LogRel groupId s feeds) (order : List String) (sender : String)
    (epoch : Epoch) (commitBytes : Bytes)
    (hwrap : WrapFree feeds.group (.publishGroupCommit groupId sender epoch commitBytes)) :
    LogRel groupId (s.step order (.publishGroupCommit groupId sender epoch commitBytes))
      (feeds.step groupId (.publishGroupCommit groupId sender epoch commitBytes)) := by
  cases hacc : s.service.acceptCommit groupId epoch with
  | error message =>
    have hsame : s.step order (.publishGroupCommit groupId sender epoch commitBytes) = s := by
      simp only [Session.step, Session.reader, next, perform, publishGroupCommit,
        hacc, Prod.map_snd, id]
    rwa [Feeds.step_publish_error h.state.group_eq hacc, hsame]
  | ok result =>
    obtain ⟨hgroup, hds, hstep⟩ :=
      Feeds.step_publish_ok h.state.group_eq hacc groupId sender commitBytes
    have hne : epoch ≠ maxEpoch := by
      rintro rfl
      exact hwrap ⟨rfl, by simp [hgroup]⟩
    have hlt : epoch < epoch + 1 := UInt64.lt_add_one hne
    have hnew : ∀ c ∈ logOf s.service groupId, c.epoch < epoch + 1 := by
      intro c hc
      obtain ⟨state, hst, hle⟩ := h.state.bound c hc
      rw [hgroup] at hst
      cases hst
      exact UInt64.lt_of_le_of_lt hle hlt
    have hcursor : ∀ r, s.service.commitCursor r groupId < epoch + 1 := by
      intro r
      rcases h.state.cursor r with hz | ⟨c, hc, he⟩
      · rw [hz]
        exact UInt64.lt_of_le_of_lt (UInt64.zero_le) hlt
      · rw [he]
        exact hnew c hc
    let published := result.2.appendCommit groupId sender epoch commitBytes result.1
    have hpublished : s.step order (.publishGroupCommit groupId sender epoch commitBytes) =
        ⟨published, s.fetched⟩ := by
      simp only [Session.step, Session.reader, next, perform, publishGroupCommit,
        hacc, h.state.mode, published, Prod.map_snd, id]
    have hlog : logOf published groupId =
        logOf s.service groupId ++ [⟨epoch + 1, sender, result.1, commitBytes⟩] := by
      simp [published, hds, logOf, appendCommit]
    have hsame : ∀ r, published.commitCursor r groupId = s.service.commitCursor r groupId := by
      simp [published, hds, commitCursor, appendCommit]
    rw [hstep, hpublished]
    refine ⟨⟨?_, ?_, fun g hg => ?_, ?_, ?_, fun r => ?_, fun r => ?_⟩, h.fetched,
      fun r deliveryId hid => ?_⟩
    · simpa [published, hds, appendCommit] using h.state.mode
    · simp [published, hds, appendCommit]
    · simpa [published, hds, logOf, appendCommit, update_of_ne hg] using h.state.other g hg
    · rw [hlog, pairwise_append]
      refine ⟨h.state.sorted, pairwise_singleton _ _, fun c hc c' hc' => ?_⟩
      rw [mem_singleton.mp hc']
      exact hnew c hc
    · rw [hlog]
      refine fun c hc => ⟨_, rfl, ?_⟩
      rcases mem_append.mp hc with hc | hc
      · exact UInt64.le_of_lt (hnew c hc)
      · rw [mem_singleton.mp hc]
        exact UInt64.le_refl _
    · rw [hsame, hlog]
      exact (h.state.cursor r).imp_right (.imp fun _ => .imp_left (mem_append_left _))
    · rw [hsame, hlog, filter_append, h.state.pending_eq]
      congr 1
      by_cases hr : r ∈ result.1
      · have hp := pendingInLog_iff (c := ⟨epoch + 1, sender, result.1, commitBytes⟩).mpr
          ⟨hcursor r, hr⟩
        simp [hp, hr]
      · have hp : pendingInLog r (s.service.commitCursor r groupId)
            ⟨epoch + 1, sender, result.1, commitBytes⟩ = false := by
          rw [Bool.eq_false_iff]
          exact fun hp => hr (pendingInLog_iff.mp hp).2
        simp [hp, hr]
    · obtain ⟨c, hc, hr, hcid, hstate⟩ := h.handed r deliveryId hid
      refine ⟨c, hlog ▸ mem_append_left _ hc, hr, hcid, hsame r ▸ hstate.imp_right fun hhead => ?_⟩
      rw [head?_append, hhead]
      rfl

/-- Which log commit an acknowledged identifier finds: one with the same epoch. -/
theorem ackedInLog_of_mem {groupId r : String} (hc : c ∈ logOf ds groupId) (hr : r ∈ c.recipients) :
    ∃ found, ds.ackedInLog r (c.deliveryId groupId r) groupId = some found ∧
      found.epoch = c.epoch := by
  have hsome : (ds.ackedInLog r (c.deliveryId groupId r) groupId).isSome := by
    simp only [ackedInLog, find?_isSome]
    exact ⟨c, hc, by simp [hr, GroupLogCommit.deliveryId]⟩
  obtain ⟨found, hfound⟩ := Option.isSome_iff_exists.mp hsome
  refine ⟨found, hfound, ?_⟩
  have hp := find?_some hfound
  simp only [Bool.and_eq_true, beq_iff_eq] at hp
  exact deliveryId_epoch hp.2

/-- An identifier that occurs in one log only is acknowledged in that log. -/
theorem findSome?_ackedInLog {groupId r deliveryId : String}
    (hother : ∀ g, g ≠ groupId → ds.ackedInLog r deliveryId g = none) (horder : groupId ∈ order)
    {found : GroupLogCommit} (hfound : ds.ackedInLog r deliveryId groupId = some found) :
    (order.findSome? fun g => (ds.ackedInLog r deliveryId g).map (g, ·)) =
      some (groupId, found) := by
  induction order with
  | nil => cases horder
  | cons g order ih =>
    rw [findSome?_cons]
    by_cases hg : g = groupId
    · subst hg
      simp [hfound]
    · rw [hother g hg]
      exact ih ((mem_cons.mp horder).resolve_left (Ne.symm hg))

theorem epoch_max (a b : Epoch) : max a b = if a ≤ b then b else a := rfl

/-- A raised cursor keeps the pending commits beyond it. -/
theorem filter_pendingInLog {log : List GroupLogCommit} {cursor epoch : Epoch} (h : cursor ≤ epoch)
    : log.filter (pendingInLog r epoch) =
      (log.filter (pendingInLog r cursor)).filter
        fun c => decide (epoch < c.epoch) := by
  rw [filter_filter]
  apply filter_congr
  intro c _
  rw [Bool.eq_iff_iff]
  simp only [Bool.and_eq_true, decide_eq_true_eq, pendingInLog_iff]
  grind

/-- Acknowledging an owed head moves the cursor past it, acknowledging an older
delivery again moves nothing; either way the log agrees with the filtered feed. -/
theorem filter_after_ack (groupId : String) {log pending : List GroupLogCommit} {cursor : Epoch}
    (hsorted : log.Pairwise fun c c' => c.epoch < c'.epoch)
    (hpending : log.filter (pendingInLog r cursor) = pending)
    (hc : c.epoch ≤ cursor ∨ pending.head? = some c) :
    log.filter (pendingInLog r (max cursor c.epoch)) =
      pending.filter (fun d => d.deliveryId groupId r != c.deliveryId groupId r) := by
  have hafter : ∀ d ∈ pending, cursor < d.epoch := by
    intro d hd
    rw [← hpending] at hd
    exact (pendingInLog_iff.mp (mem_filter.mp hd).2).1
  rcases hc with hle | hhead
  · have hmax : max cursor c.epoch = cursor := by grind [epoch_max]
    rw [hmax, hpending, eq_comm, filter_eq_self]
    intro d hd
    have hlt := hafter d hd
    rw [bne_iff_ne]
    intro hid
    have he := deliveryId_epoch hid
    grind
  · obtain ⟨rest, rfl⟩ := head?_eq_some_iff.mp hhead
    have hlt := hafter c mem_cons_self
    have hmax : max cursor c.epoch = c.epoch := by grind [epoch_max]
    have hrest : ∀ d ∈ rest, c.epoch < d.epoch := by
      have hsub := hsorted.sublist (filter_sublist (p :=
        pendingInLog r cursor))
      rw [hpending] at hsub
      exact (pairwise_cons.mp hsub).1
    rw [hmax, filter_pendingInLog (UInt64.le_of_lt hlt), hpending, filter_cons_of_neg (by simp),
      filter_cons_of_neg (by simp)]
    apply filter_congr
    intro d hd
    have hd' := hrest d hd
    have hne : d.deliveryId groupId r ≠ c.deliveryId groupId r := by
      intro hid
      have he := deliveryId_epoch hid
      grind
    simp [hd', hne]

/-- Acknowledging a delivery that was handed out keeps log and feed in step. -/
theorem LogRel.ack (h : LogRel groupId s feeds) (horder : groupId ∈ order) {r deliveryId : String}
    (hid : deliveryId ∈ feeds.fetched r) :
    LogRel groupId (s.step order (.ackCommit r deliveryId))
      (feeds.step groupId (.ackCommit r deliveryId)) := by
  obtain ⟨c, hc, hr, rfl, hsettled⟩ := h.handed r deliveryId hid
  obtain ⟨found, hfound, hepoch⟩ := ackedInLog_of_mem hc hr
  have hother : ∀ g, g ≠ groupId →
      s.service.ackedInLog r (c.deliveryId groupId r) g = none := by
    intro g hg
    have hlog := h.state.other g hg
    simp only [logOf] at hlog
    simp [ackedInLog, hlog]
  let acked := { s.service with
    commitCursors := update s.service.commitCursors (r, groupId)
      (some (max (s.service.commitCursor r groupId) c.epoch)) }
  have hacked : s.step order (.ackCommit r (c.deliveryId groupId r)) = ⟨acked, s.fetched⟩ := by
    simp only [Session.step, Session.reader, next, perform, ackCommit, h.state.mode,
      ackGroupLogCommitCompat, findSome?_ackedInLog hother horder hfound, hepoch, Prod.map_snd, id,
      acked]
  have hself : acked.commitCursor r groupId = max (s.service.commitCursor r groupId) c.epoch := by
    simp [acked, commitCursor]
  have hothers : ∀ r', r' ≠ r →
      acked.commitCursor r' groupId = s.service.commitCursor r' groupId := by
    intro r' hne
    simp [acked, commitCursor, hne]
  have hmono : s.service.commitCursor r groupId ≤ max (s.service.commitCursor r groupId) c.epoch := by
    grind [epoch_max]
  rw [hacked]
  refine ⟨⟨h.state.mode, h.state.group_eq, h.state.other, h.state.sorted, h.state.bound,
    fun r' => ?_, fun r' => ?_⟩, h.fetched, fun r' id' hid' => ?_⟩
  · by_cases hne : r' = r
    · subst hne
      rw [hself, epoch_max]
      split
      · exact .inr ⟨c, hc, rfl⟩
      · exact h.state.cursor r'
    · rw [hothers r' hne]
      exact h.state.cursor r'
  · by_cases hne : r' = r
    · subst hne
      rw [hself]
      refine (filter_after_ack groupId h.state.sorted (h.state.pending_eq r') hsettled).trans ?_
      simp [Feeds.step]
    · rw [hothers r' hne]
      refine (h.state.pending_eq r').trans ?_
      simp [Feeds.step, update_of_ne hne]
  · obtain ⟨d, hd, hdr, hdid, hdset⟩ := h.handed r' id' hid'
    refine ⟨d, hd, hdr, hdid, ?_⟩
    by_cases hne : r' = r
    · subst hne
      rw [hself]
      rcases hdset with hle | hhead
      · exact .inl (UInt64.le_trans hle hmono)
      rcases hsettled with hold | hfront
      · have hsame := filter_after_ack groupId h.state.sorted (h.state.pending_eq r')
          (.inl hold)
        have hmax : max (s.service.commitCursor r' groupId) c.epoch =
            s.service.commitCursor r' groupId := by grind [epoch_max]
        rw [hmax, h.state.pending_eq] at hsame
        refine Or.inr ?_
        simp only [Feeds.step, update_self]
        rw [← hsame]
        exact hhead
      · obtain rfl : c = d := Option.some.inj (hfront.symm.trans hhead)
        exact .inl (by grind [epoch_max])
    · rw [hothers r' hne]
      simpa [Feeds.step, update_of_ne hne] using hdset

end GroupLog

end MessagingBench.Delivery
