import MessagingBench.Delivery.Feeds

/-!
# Agreement of the two delivery modes

Both modes simulate the same feeds, so a run on one group returns the same
deliveries from a per-recipient service and from a group-log service. The single
exception is a commit accepted at the largest epoch: its delivery epoch wraps to
zero, which lies behind every cursor of the log but not behind an inbox.
-/

namespace MessagingBench.Delivery

variable {order : List String} {groupId : String} {feeds : Feeds} {s : Session}

/-- The shared log simulates the feeds under admitted operations. -/
theorem LogRel.step (h : LogRel groupId s feeds) (horder : groupId ∈ order) {op : Operation}
    (hop : Disciplined groupId feeds.fetched op) (hwrap : WrapFree feeds.group op) :
    LogRel groupId (s.step order op) (feeds.step groupId op) := by
  cases op with
  | putGroupState g epoch members =>
    obtain rfl : g = groupId := hop
    exact h.put order epoch members
  | publishGroupCommit g sender epoch commitBytes =>
    obtain rfl : g = groupId := hop
    exact h.publish order sender epoch commitBytes hwrap
  | fetchCommit r | fetchPendingCommitDelivery r => exact h.hand horder rfl rfl
  | ackCommit r deliveryId => exact h.ack horder hop

theorem inboxRel_start {groupId : String} : InboxRel groupId (.start .perRecipient) Feeds.empty :=
  ⟨rfl, rfl, fun _ => rfl, fun _ _ hc => (List.not_mem_nil hc).elim, rfl⟩

theorem logRel_start {groupId : String} : LogRel groupId (.start .groupLog) Feeds.empty := by
  refine ⟨⟨rfl, rfl, fun _ _ => rfl, List.Pairwise.nil, ?_, fun _ => .inl rfl, fun _ => rfl⟩,
    rfl, ?_⟩
  · exact fun c hc => (List.not_mem_nil hc).elim
  · exact fun r deliveryId hid => (List.not_mem_nil hid).elim

theorem reply_eq_of_fetch
    (h : ∀ r, s.service.fetchNextPendingCommit order r =
      (feeds.pending r).head?.map (GroupLogCommit.record groupId r)) (op : Operation) :
    s.reply order op = feeds.reply groupId op := by
  cases op with
  | fetchCommit r =>
    simp only [Session.reply, Operation.isFetch, ite_true, perform, Feeds.reply,
      DeliveryService.fetchCommit, h, Option.map_map]
    rfl
  | fetchPendingCommitDelivery r =>
    simp only [Session.reply, Operation.isFetch, ite_true, perform, Feeds.reply,
      DeliveryService.fetchPendingCommitDelivery, h, Option.map_map]
    rfl
  | _ => rfl

def readReplies (mode : CommitDeliveryMode) (order : List String) (ops : List Operation) :
    List Reply :=
  outputs (Session.step order) (Session.reply order) (.start mode) ops

/-- Both modes return the same deliveries in every run on one group whose
acknowledgements name handed out deliveries and whose epochs do not wrap. -/
theorem modes_agree (groupId : String) (order : List String) (horder : groupId ∈ order)
    (ops : List Operation)
    (hrun : Guarded (Session.step order)
      (fun s op => Disciplined groupId s.fetched op ∧ WrapFree (s.service.groups groupId) op)
      (.start .perRecipient) ops) :
    readReplies .perRecipient order ops = readReplies .groupLog order ops := by
  have hstep : ∀ s feeds op, InboxRel groupId s feeds →
      (Disciplined groupId s.fetched op ∧ WrapFree (s.service.groups groupId) op) →
      InboxRel groupId (s.step order op) (feeds.step groupId op) :=
    fun s feeds op h hop => h.step order (h.fetched ▸ hop.1)
  have hinbox : readReplies .perRecipient order ops =
      outputs (Feeds.step groupId) (Feeds.reply groupId) Feeds.empty ops :=
    hrun.outputs_eq hstep (fun s feeds op h _ => reply_eq_of_fetch (h.fetch order) op)
      inboxRel_start
  have hfeeds : Guarded (Feeds.step groupId)
      (fun feeds op => Disciplined groupId feeds.fetched op ∧ WrapFree feeds.group op)
      Feeds.empty ops := by
    refine hrun.transfer hstep (fun s feeds op h hop => ?_) inboxRel_start
    rw [h.fetched, h.group] at hop
    exact hop
  have hlogStep : ∀ feeds s op, LogRel groupId s feeds →
      (Disciplined groupId feeds.fetched op ∧ WrapFree feeds.group op) →
      LogRel groupId (s.step order op) (feeds.step groupId op) :=
    fun feeds s op h hop => h.step horder hop.1 hop.2
  have hlog : outputs (Feeds.step groupId) (Feeds.reply groupId) Feeds.empty ops =
      readReplies .groupLog order ops :=
    hfeeds.outputs_eq hlogStep
      (fun feeds s op h _ => (reply_eq_of_fetch (h.fetch horder) op).symm) logRel_start
  exact hinbox.trans hlog

/-- A member is removed from the list, misses a commit, rejoins and continues. -/
def leaveAndRejoin : List Operation :=
  [.putGroupState "67" 0 ["alice", "bob"], .publishGroupCommit "67" "alice" 0 [1],
    .fetchPendingCommitDelivery "bob", .ackCommit "bob" "67:1:alice:bob",
    .putGroupState "67" 1 ["alice"], .publishGroupCommit "67" "alice" 1 [2],
    .putGroupState "67" 2 ["alice", "bob"], .publishGroupCommit "67" "alice" 2 [3],
    .fetchPendingCommitDelivery "bob", .ackCommit "bob" "67:3:alice:bob", .fetchCommit "bob",
    .fetchCommit "alice"]

theorem modes_agree_leaveAndRejoin :
    readReplies .groupLog ["67"] leaveAndRejoin =
      [.delivery (some ⟨"67:1:alice:bob", "67", 1, "alice", "01"⟩),
        .delivery (some ⟨"67:3:alice:bob", "67", 3, "alice", "03"⟩), .bytes none,
        .bytes (some [1])] := by
  rw [← modes_agree "67" ["67"] (by decide) leaveAndRejoin (by decide)]
  decide

/-- The first commit of a group registered at the largest epoch. -/
def wrappedCommit : List Operation :=
  [.putGroupState "67" maxEpoch ["alice"], .publishGroupCommit "67" "alice" maxEpoch [1],
    .fetchPendingCommitDelivery "alice"]

/-- The inbox delivers the wrapped commit under epoch zero, the log never does. -/
theorem modes_disagree_wrappedCommit :
    Guarded (Session.step ["67"]) (fun s op => Disciplined "67" s.fetched op)
      (.start .perRecipient) wrappedCommit ∧
    readReplies .perRecipient ["67"] wrappedCommit =
      [.delivery (some ⟨"67:0:alice:alice", "67", 0, "alice", "01"⟩)] ∧
    readReplies .groupLog ["67"] wrappedCommit = [.delivery none] ∧
    readReplies .perRecipient ["67"] wrappedCommit ≠
      readReplies .groupLog ["67"] wrappedCommit := by
  decide

end MessagingBench.Delivery
