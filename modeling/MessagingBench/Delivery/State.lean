import MessagingBench.Core.Inboxes
import MessagingBench.Core.Text
import Mathlib.Data.List.Sort

/-!
# The delivery service

State and operations of `delivery_service.rs`. A hash map is a partial function; whoever
walks over the group log is given the iteration order, as a hash map promises none. Epochs
are machine words: `epoch + 1` wraps, as in the shipped release build.

A commit publication is cut at its locks: `acceptCommit` is the section under the group
lock, `pushCommit` and `appendCommit` are those under the inbox and log locks.
-/

namespace MessagingBench.Delivery

abbrev Bytes := List UInt8
abbrev Epoch := UInt64

structure GroupState where
  currentEpoch : Epoch
  members : List String
  deriving DecidableEq, Repr

inductive CommitDeliveryMode
  | perRecipient
  | groupLog
  deriving DecidableEq, Repr

structure GroupLogCommit where
  epoch : Epoch
  sender : String
  recipients : List String
  commitBytes : Bytes
  deriving DecidableEq, Repr

structure CommitDeliveryRecord where
  id : String
  groupId : String
  epoch : Epoch
  sender : String
  commitBytes : Bytes
  deriving DecidableEq, Repr

/-- A commit delivery as the pending endpoint reports it. -/
structure PendingCommitDelivery where
  id : String
  groupId : String
  epoch : Epoch
  sender : String
  commitHex : String
  deriving DecidableEq, Repr

/-- A queued record as the pending endpoint reports it. -/
def CommitDeliveryRecord.pending (delivery : CommitDeliveryRecord) : PendingCommitDelivery where
  id := delivery.id
  groupId := delivery.groupId
  epoch := delivery.epoch
  sender := delivery.sender
  commitHex := hexEncode delivery.commitBytes

/-- A log commit as the state-based pending endpoint reports it. -/
structure PendingCommit where
  groupId : String
  epoch : Epoch
  sender : String
  commitHex : String
  deriving DecidableEq, Repr

/-- The service state; request metrics are not part of the model. -/
structure DeliveryService where
  keyPackages : String → Option Bytes
  commitInboxes : Inboxes String CommitDeliveryRecord
  commitCursors : String × String → Option Epoch
  groupCommitLog : String → Option (List GroupLogCommit)
  welcomeInboxes : String → Option (List Bytes)
  ratchetTreeInboxes : String → Option (List Bytes)
  groups : String → Option GroupState
  deliveryMode : CommitDeliveryMode

namespace DeliveryService

/-- The empty service of the given delivery mode. -/
def withDeliveryMode (mode : CommitDeliveryMode) : DeliveryService where
  keyPackages _ := none
  commitInboxes _ := none
  commitCursors _ := none
  groupCommitLog _ := none
  welcomeInboxes _ := none
  ratchetTreeInboxes _ := none
  groups _ := none
  deliveryMode := mode

end DeliveryService

/-- The identifier under which a recipient acknowledges a commit. -/
def commitDeliveryId (groupId : String) (epoch : Epoch) (sender recipient : String) : String :=
  groupId ++ ":" ++ epoch.toNat.repr ++ ":" ++ sender ++ ":" ++ recipient

namespace DeliveryService

variable (ds : DeliveryService)

def publishKeyPackage (owner : String) (keyPackageBytes : Bytes) : DeliveryService :=
  { ds with keyPackages := Function.update ds.keyPackages owner (some keyPackageBytes) }

def fetchKeyPackage (owner : String) : Option Bytes × DeliveryService :=
  (ds.keyPackages owner, { ds with keyPackages := Function.update ds.keyPackages owner none })

variable (groupId : String)

/-- The conflict text of a group state update for another epoch. -/
def groupStateMismatch (expected got : Epoch) : String :=
  "Group state update mismatch for group '" ++ groupId ++ "': expected epoch " ++
    expected.toNat.repr ++ ", got " ++ got.toNat.repr

/-- Register a group, or replace the member list of the current epoch. -/
def putGroupState (epoch : Epoch) (members : List String) :
    Except String Unit × DeliveryService :=
  match ds.groups groupId with
  | some state =>
    if epoch ≠ state.currentEpoch then
      (.error (groupStateMismatch groupId state.currentEpoch epoch), ds)
    else
      (.ok (), { ds with
        groups := Function.update ds.groups groupId (some { state with members := members }) })
  | none =>
    (.ok (), { ds with
      groups := Function.update ds.groups groupId (some ⟨epoch, members⟩) })

/-- The section of `publishGroupCommit` under the group lock: check the epoch,
copy the member list and advance the epoch. -/
def acceptCommit (epoch : Epoch) :
    Except String (List String × DeliveryService) :=
  match ds.groups groupId with
  | none => .error ("Unknown group_id '" ++ groupId ++ "'")
  | some state =>
    if epoch ≠ state.currentEpoch then
      .error ("Commit epoch mismatch for group '" ++ groupId ++ "': expected " ++
        state.currentEpoch.toNat.repr ++ ", got " ++ epoch.toNat.repr)
    else
      .ok (state.members, { ds with
        groups := Function.update ds.groups groupId
          (some { state with currentEpoch := state.currentEpoch + 1 }) })

/-- The queue of a recipient; an absent queue is created empty on first use. -/
def commitInboxQueue (recipient : String) : List CommitDeliveryRecord :=
  ds.commitInboxes.queue recipient

/-- The record queued for a recipient of the commit posted for `epoch`. -/
def deliveryRecord (sender : String) (epoch : Epoch) (commitBytes : Bytes)
    (recipient : String) : CommitDeliveryRecord where
  id := commitDeliveryId groupId (epoch + 1) sender recipient
  groupId := groupId
  epoch := epoch + 1
  sender := sender
  commitBytes := commitBytes

/-- One locked push of `publishGroupCommit` in per-recipient mode. -/
def pushCommit (sender : String) (epoch : Epoch) (commitBytes : Bytes)
    (recipient : String) : DeliveryService :=
  { ds with
    commitInboxes :=
      ds.commitInboxes.push (deliveryRecord groupId sender epoch commitBytes) recipient }

/-- The locked append of `publishGroupCommit` in group-log mode. -/
def appendCommit (sender : String) (epoch : Epoch) (commitBytes : Bytes)
    (recipients : List String) : DeliveryService :=
  { ds with
    groupCommitLog := Function.update ds.groupCommitLog groupId (some
      ((ds.groupCommitLog groupId).getD [] ++ [⟨epoch + 1, sender, recipients, commitBytes⟩])) }

/-- Publish a commit: accept it, then enqueue it for the members it was accepted for. -/
def publishGroupCommit (sender : String) (epoch : Epoch) (commitBytes : Bytes) :
    Except String Unit × DeliveryService :=
  match ds.acceptCommit groupId epoch with
  | .error message => (.error message, ds)
  | .ok (recipients, accepted) =>
    match ds.deliveryMode with
    | .perRecipient =>
      (.ok (), recipients.foldl
        (fun s recipient => s.pushCommit groupId sender epoch commitBytes recipient) accepted)
    | .groupLog =>
      (.ok (), accepted.appendCommit groupId sender epoch commitBytes recipients)

/-- The oldest queued delivery, left in the queue. -/
def peekCommitInbox (recipient : String) : Option CommitDeliveryRecord :=
  (ds.commitInboxes recipient).bind List.head?

/-- The cursor of a recipient in a group; an absent cursor reads as zero. -/
def commitCursor (recipient groupId : String) : Epoch :=
  (ds.commitCursors (recipient, groupId)).getD 0

/-- A log commit that is addressed to the recipient and lies after the cursor. -/
def pendingInLog (recipient : String) (afterEpoch : Epoch) (commit : GroupLogCommit) : Bool :=
  !(decide (commit.epoch ≤ afterEpoch) || !commit.recipients.any (· == recipient))

/-- One group of the log walk: its first pending commit replaces the selection
if there is none yet or if its epoch is smaller. -/
def selectCommit (recipient : String) (selected : Option (String × GroupLogCommit))
    (groupId : String) : Option (String × GroupLogCommit) :=
  match ((ds.groupCommitLog groupId).getD []).find?
      (pendingInLog recipient (ds.commitCursor recipient groupId)) with
  | none => selected
  | some commit =>
    match selected with
    | none => some (groupId, commit)
    | some current => if commit.epoch < current.2.epoch then some (groupId, commit) else selected

variable (order : List String)

/-- The next commit of a recipient computed from the shared log, walking over
the groups in the given order. -/
def fetchGroupLogCommitCompat (recipient : String) :
    Option CommitDeliveryRecord :=
  (order.foldl (ds.selectCommit recipient) none).map fun (groupId, commit) =>
    { id := commitDeliveryId groupId commit.epoch commit.sender recipient
      groupId := groupId
      epoch := commit.epoch
      sender := commit.sender
      commitBytes := commit.commitBytes }

def fetchNextPendingCommit (recipient : String) :
    Option CommitDeliveryRecord :=
  match ds.deliveryMode with
  | .perRecipient => ds.peekCommitInbox recipient
  | .groupLog => ds.fetchGroupLogCommitCompat order recipient

def fetchCommit (recipient : String) : Option Bytes :=
  (ds.fetchNextPendingCommit order recipient).map (·.commitBytes)

def fetchPendingCommitDelivery (recipient : String) :
    Option PendingCommitDelivery :=
  (ds.fetchNextPendingCommit order recipient).map CommitDeliveryRecord.pending

/-- The log commit of one group that carries the acknowledged identifier. -/
def ackedInLog (recipient deliveryId groupId : String) : Option GroupLogCommit :=
  ((ds.groupCommitLog groupId).getD []).find? fun commit =>
    commit.recipients.any (· == recipient) &&
      commitDeliveryId groupId commit.epoch commit.sender recipient == deliveryId

/-- Acknowledge in the log: the first matching commit raises the cursor. -/
def ackGroupLogCommitCompat (recipient deliveryId : String) :
    Bool × DeliveryService :=
  match order.findSome? fun groupId =>
      (ds.ackedInLog recipient deliveryId groupId).map (groupId, ·) with
  | none => (false, ds)
  | some (groupId, commit) =>
    (true, { ds with
      commitCursors := Function.update ds.commitCursors (recipient, groupId)
        (some (max (ds.commitCursor recipient groupId) commit.epoch)) })

/-- Acknowledge a delivery: drop every queued record with the identifier, or
advance the log cursor. -/
def ackCommit (recipient deliveryId : String) : Bool × DeliveryService :=
  match ds.deliveryMode with
  | .perRecipient =>
    match ds.commitInboxes recipient with
    | none => (false, ds)
    | some queue =>
      let kept := queue.filter fun delivery => delivery.id != deliveryId
      (queue.length != kept.length,
        { ds with commitInboxes := Function.update ds.commitInboxes recipient (some kept) })
  | .groupLog => ds.ackGroupLogCommitCompat order recipient deliveryId

/-- Order of the state-based pending endpoint: by epoch, then by group. -/
def pendingCommitLe (left right : PendingCommit) : Bool :=
  left.epoch < right.epoch || (left.epoch == right.epoch && decide (left.groupId ≤ right.groupId))

/-- All log commits addressed to a client after an epoch, over all groups. -/
def fetchPendingCommits (client : String) (afterEpoch : Epoch) :
    List PendingCommit :=
  (order.flatMap fun groupId =>
    (((ds.groupCommitLog groupId).getD []).filter (pendingInLog client afterEpoch)).map fun commit =>
      { groupId := groupId
        epoch := commit.epoch
        sender := commit.sender
        commitHex := hexEncode commit.commitBytes }).insertionSort
    fun left right => pendingCommitLe left right = true

def publishWelcome (recipient : String) (welcomeBytes : Bytes) : DeliveryService :=
  { ds with
    welcomeInboxes := Function.update ds.welcomeInboxes recipient
      (some ((ds.welcomeInboxes recipient).getD [] ++ [welcomeBytes])) }

def fetchWelcome (recipient : String) : Option Bytes × DeliveryService :=
  match ds.welcomeInboxes recipient with
  | none => (none, ds)
  | some queue =>
    (queue.head?, { ds with
      welcomeInboxes := Function.update ds.welcomeInboxes recipient (some queue.tail) })

/-- The only way to accept: the group exists, the epoch is current, the list is
copied and the epoch advances. -/
theorem acceptCommit_eq_ok {ds accepted : DeliveryService} {groupId : String} {epoch : Epoch}
    {members : List String} (h : ds.acceptCommit groupId epoch = .ok (members, accepted)) :
    ∃ state, ds.groups groupId = some state ∧ epoch = state.currentEpoch ∧
      members = state.members ∧ accepted = { ds with
        groups := Function.update ds.groups groupId
          (some { state with currentEpoch := state.currentEpoch + 1 }) } := by
  unfold acceptCommit at h
  cases hg : ds.groups groupId with
  | none => simp [hg] at h
  | some state =>
    simp only [hg] at h
    split at h
    · exact absurd h (by simp)
    · rename_i he
      obtain ⟨rfl, rfl⟩ := Prod.mk.inj (Except.ok.inj h)
      exact ⟨state, rfl, not_not.mp he, rfl, rfl⟩

/-- The push loop adds one record per occurrence of a recipient in the member list. -/
theorem foldl_pushCommit (ds : DeliveryService) (groupId sender : String) (epoch : Epoch)
    (commitBytes : Bytes) (recipients : List String) :
    recipients.foldl (fun s recipient => s.pushCommit groupId sender epoch commitBytes recipient)
      ds = { ds with
        commitInboxes :=
          ds.commitInboxes.pushAll (deliveryRecord groupId sender epoch commitBytes) recipients } := by
  induction recipients generalizing ds with
  | nil => rfl
  | cons recipient recipients ih => exact ih _

end DeliveryService

/-- A delivery identifier determines group and epoch when the group has no colon;
with the recipient known it also determines the sender. -/
theorem commitDeliveryId_injective {g g' s s' r : String} {e e' : Epoch} (hg : ':' ∉ g.toList)
    (hg' : ':' ∉ g'.toList) (h : commitDeliveryId g e s r = commitDeliveryId g' e' s' r) :
    g = g' ∧ e = e' ∧ s = s' := by
  have hl := congrArg String.toList h
  simp only [commitDeliveryId, String.toList_append, List.append_assoc] at hl
  change g.toList ++ ':' :: (e.toNat.repr.toList ++ ':' :: (s.toList ++ ':' :: r.toList)) =
    g'.toList ++ ':' :: (e'.toNat.repr.toList ++ ':' :: (s'.toList ++ ':' :: r.toList)) at hl
  obtain ⟨hgg, hrest⟩ := append_cons_injective hg hg' hl
  obtain ⟨hee, hsr⟩ := append_cons_injective (not_mem_repr (by decide))
    (not_mem_repr (by decide)) hrest
  have hs := List.append_cancel_right hsr
  refine ⟨String.toList_inj.mp hgg, ?_, String.toList_inj.mp hs⟩
  exact UInt64.toNat_inj.mp (repr_injective (String.toList_inj.mp hee))

end MessagingBench.Delivery
