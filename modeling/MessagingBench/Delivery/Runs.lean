import MessagingBench.Core.Run
import MessagingBench.Delivery.State
import Mathlib.Data.List.Nodup
import Mathlib.Tactic.Ring

/-!
# Sequential runs of the delivery service

Operations executed one at a time, with the history of accepted commits and
acknowledgements that a run leaves behind. In per-recipient mode the inbox of a
recipient is a function of this history alone: the accepted commits addressed to
it, in order, without those acknowledged after they were queued.
-/

namespace MessagingBench.Delivery

open List DeliveryService Function

/-- The commit operations of the service, one constructor per entry point. -/
inductive Operation
  | putGroupState (groupId : String) (epoch : Epoch) (members : List String)
  | publishGroupCommit (groupId sender : String) (epoch : Epoch) (commitBytes : Bytes)
  | fetchCommit (recipient : String)
  | fetchPendingCommitDelivery (recipient : String)
  | ackCommit (recipient deliveryId : String)
  deriving DecidableEq, Repr

/-- What an operation returns to its caller. -/
inductive Reply
  | done (result : Except String Unit)
  | bytes (commit : Option Bytes)
  | delivery (pending : Option PendingCommitDelivery)
  | acked (removed : Bool)
  deriving DecidableEq

/-- Execute one operation; `order` is the iteration order over the group log. -/
def perform (order : List String) (ds : DeliveryService) : Operation → Reply × DeliveryService
  | .putGroupState groupId epoch members =>
    ((ds.putGroupState groupId epoch members).map Reply.done id)
  | .publishGroupCommit groupId sender epoch commitBytes =>
    ((ds.publishGroupCommit groupId sender epoch commitBytes).map Reply.done id)
  | .fetchCommit recipient => (.bytes (ds.fetchCommit order recipient), ds)
  | .fetchPendingCommitDelivery recipient =>
    (.delivery (ds.fetchPendingCommitDelivery order recipient), ds)
  | .ackCommit recipient deliveryId => (ds.ackCommit order recipient deliveryId).map Reply.acked id

def next (order : List String) (ds : DeliveryService) (op : Operation) : DeliveryService :=
  (perform order ds op).2

/-- A commit accepted for `epoch`, with the member list it was addressed to. -/
structure AcceptedCommit where
  groupId : String
  sender : String
  epoch : Epoch
  members : List String
  commitBytes : Bytes
  deriving DecidableEq, Repr

namespace AcceptedCommit

def record (commit : AcceptedCommit) (recipient : String) : CommitDeliveryRecord :=
  deliveryRecord commit.groupId commit.sender commit.epoch commit.commitBytes
    recipient

end AcceptedCommit

/-- The observable history of a run. -/
inductive Event
  | accepted (commit : AcceptedCommit)
  | acked (recipient deliveryId : String)
  deriving DecidableEq, Repr

/-- The history entry of one operation: acceptance is decided by the source's own check. -/
def observe (ds : DeliveryService) : Operation → Option Event
  | .publishGroupCommit groupId sender epoch commitBytes =>
    match ds.acceptCommit groupId epoch with
    | .ok (members, _) => some (.accepted ⟨groupId, sender, epoch, members, commitBytes⟩)
    | .error _ => none
  | .ackCommit recipient deliveryId => some (.acked recipient deliveryId)
  | _ => none

/-- The history of a run from a given state. -/
def history (order : List String) (ds : DeliveryService) : List Operation → List Event
  | [] => []
  | op :: ops => (observe ds op).toList ++ history order (next order ds op) ops

/-- The inbox a history prescribes for a recipient: each accepted commit once per
occurrence in its member list, unless its identifier is acknowledged later. -/
def expectedInbox (recipient : String) : List Event → List CommitDeliveryRecord
  | [] => []
  | .accepted commit :: later =>
    (if Event.acked recipient (commit.record recipient).id ∈ later then []
      else replicate (commit.members.count recipient) (commit.record recipient)) ++
      expectedInbox recipient later
  | .acked _ _ :: later => expectedInbox recipient later

/-- The delivery epochs of the accepted commits of a group, in acceptance order. -/
def acceptedEpochs (groupId : String) (events : List Event) : List Nat :=
  events.filterMap fun
    | .accepted commit => if commit.groupId = groupId then some (commit.epoch + 1).toNat else none
    | .acked _ _ => none

def firstPut (groupId : String) (ops : List Operation) : Option Epoch :=
  ops.findSome? fun
    | .putGroupState g epoch _ => if g = groupId then some epoch else none
    | _ => none

/-- Group identifiers named by an operation. -/
def Operation.groupId? : Operation → Option String
  | .putGroupState groupId _ _ => some groupId
  | .publishGroupCommit groupId _ _ _ => some groupId
  | _ => none

def Operation.epoch? : Operation → Option Epoch
  | .putGroupState _ epoch _ => some epoch
  | .publishGroupCommit _ _ epoch _ => some epoch
  | _ => none

/-- The two reading operations. -/
def Operation.isFetch : Operation → Bool
  | .fetchCommit _ => true
  | .fetchPendingCommitDelivery _ => true
  | _ => false

/-- The largest machine epoch. -/
def maxEpoch : Epoch := 18446744073709551615

variable {ds : DeliveryService} {groupId : String} {ops : List Operation} {epoch : Epoch}
  {commit : AcceptedCommit} {events : List Event}

theorem toNat_succ (h : epoch < maxEpoch) : (epoch + 1).toNat = epoch.toNat + 1 := by
  have hn : epoch.toNat < 18446744073709551615 := UInt64.lt_iff_toNat_lt.mp h
  rw [UInt64.toNat_add]
  have h1 : (1 : UInt64).toNat = 1 := rfl
  rw [h1]
  omega

variable (order : List String)

theorem next_deliveryMode (ds : DeliveryService) (op : Operation) :
    (next order ds op).deliveryMode = ds.deliveryMode := by
  cases op with
  | putGroupState groupId epoch members =>
    simp only [next, perform, putGroupState, Prod.map_snd, id]
    split
    · split <;> rfl
    · rfl
  | publishGroupCommit groupId sender epoch commitBytes =>
    simp only [next, perform, publishGroupCommit, Prod.map_snd, id]
    cases hacc : ds.acceptCommit groupId epoch with
    | error message => rfl
    | ok result =>
      obtain ⟨state, _, _, _, hds⟩ := acceptCommit_eq_ok hacc
      cases hm : ds.deliveryMode with
      | perRecipient =>
        simp only [foldl_pushCommit]
        rw [hds]
        exact hm
      | groupLog => simp only [appendCommit, hds, hm]
  | fetchCommit recipient => rfl
  | fetchPendingCommitDelivery recipient => rfl
  | ackCommit recipient deliveryId =>
    simp only [next, perform, ackCommit, Prod.map_snd, id]
    cases hm : ds.deliveryMode with
    | perRecipient => cases hq : ds.commitInboxes recipient <;> simp only [hm]
    | groupLog =>
      simp only [ackGroupLogCommitCompat]
      split <;> simp only [hm]

/-- The queue after one operation in per-recipient mode: an accepted commit is
appended once per occurrence, an acknowledgement filters, all else is inert. -/
theorem next_commitInboxQueue (hmode : ds.deliveryMode = .perRecipient)
    (op : Operation) (r : String) :
    (next order ds op).commitInboxQueue r =
      match observe ds op with
      | some (.accepted commit) =>
        ds.commitInboxQueue r ++ replicate (commit.members.count r) (commit.record r)
      | some (.acked recipient deliveryId) =>
        if recipient = r then (ds.commitInboxQueue r).filter (fun d => d.id != deliveryId)
        else ds.commitInboxQueue r
      | none => ds.commitInboxQueue r := by
  cases op with
  | putGroupState groupId epoch members =>
    simp only [next, perform, observe, putGroupState, Prod.map_snd, id]
    split
    · split <;> rfl
    · rfl
  | publishGroupCommit groupId sender epoch commitBytes =>
    simp only [next, perform, observe, publishGroupCommit, Prod.map_snd, id, hmode]
    cases hacc : ds.acceptCommit groupId epoch with
    | error message => rfl
    | ok result =>
      obtain ⟨state, _, _, _, hds⟩ := acceptCommit_eq_ok hacc
      simp only [foldl_pushCommit, commitInboxQueue, Inboxes.queue_pushAll, AcceptedCommit.record]
      rw [hds]
  | fetchCommit recipient => rfl
  | fetchPendingCommitDelivery recipient => rfl
  | ackCommit recipient deliveryId =>
    simp only [next, perform, observe, ackCommit, Prod.map_snd, id, hmode]
    cases hq : ds.commitInboxes recipient with
    | none =>
      by_cases hr : recipient = r
      · subst hr
        simp [commitInboxQueue, Inboxes.queue, hq]
      · simp [hr]
    | some queue =>
      simp only [eq_comm (a := recipient)]
      exact Inboxes.queue_update_filter _ hq

/-- Whole-run form of the queue equation: what was queued before the run survives
unless the run acknowledges it, followed by the inbox the history prescribes. -/
theorem execute_commitInboxQueue (hmode : ds.deliveryMode = .perRecipient)
    (ops : List Operation) (r : String) :
    (execute (next order) ds ops).commitInboxQueue r =
      (ds.commitInboxQueue r).filter
        (fun d => decide (Event.acked r d.id ∉ history order ds ops)) ++
        expectedInbox r (history order ds ops) := by
  induction ops generalizing ds with
  | nil => simp [history, expectedInbox]
  | cons op ops ih =>
    have hnext := next_commitInboxQueue order hmode op r
    have hhist : history order ds (op :: ops) =
        (observe ds op).toList ++ history order (next order ds op) ops := rfl
    rw [execute_cons, ih ((next_deliveryMode order ds op).trans hmode)]
    cases hobs : observe ds op with
    | none =>
      rw [hobs] at hnext hhist
      simp only [hnext, hhist, Option.toList_none, nil_append]
    | some event =>
      rw [hobs] at hnext hhist
      simp only [hnext, hhist]
      cases event with
      | accepted commit =>
        by_cases hack : Event.acked r (commit.record r).id ∈ history order (next order ds op) ops
        · simp [expectedInbox, hack, filter_append]
        · simp [expectedInbox, hack, filter_append]
      | acked recipient deliveryId =>
        by_cases hr : recipient = r
        · subst hr
          simp only [ite_true, filter_filter, Option.toList_some, singleton_append,
            expectedInbox, mem_cons, Event.acked.injEq, true_and, not_or]
          congr 1
          apply filter_congr
          intro d _
          by_cases hd : d.id = deliveryId <;> simp [hd]
        · simp [expectedInbox, hr, Ne.symm hr]

/-- The group table is changed by registrations and acceptances only, in both modes. -/
theorem next_groups (ds : DeliveryService) (op : Operation) :
    (next order ds op).groups =
      match op with
      | .putGroupState groupId epoch members => (ds.putGroupState groupId epoch members).2.groups
      | .publishGroupCommit groupId _ epoch _ =>
        match ds.acceptCommit groupId epoch with
        | .ok (_, accepted) => accepted.groups
        | .error _ => ds.groups
      | _ => ds.groups := by
  cases op with
  | putGroupState groupId epoch members => rfl
  | publishGroupCommit groupId sender epoch commitBytes =>
    simp only [next, perform, publishGroupCommit, Prod.map_snd, id]
    cases hacc : ds.acceptCommit groupId epoch with
    | error message => rfl
    | ok result =>
      cases hm : ds.deliveryMode with
      | perRecipient =>
        simp only [foldl_pushCommit]
      | groupLog => rfl
  | fetchCommit recipient => rfl
  | fetchPendingCommitDelivery recipient => rfl
  | ackCommit recipient deliveryId =>
    simp only [next, perform, ackCommit, Prod.map_snd, id]
    cases hm : ds.deliveryMode with
    | perRecipient => cases hq : ds.commitInboxes recipient <;> rfl
    | groupLog =>
      simp only [ackGroupLogCommitCompat]
      split <;> rfl

/-- The epoch of a registered group, if it is registered. -/
def epochOf (ds : DeliveryService) (groupId : String) : Option Epoch :=
  (ds.groups groupId).map (·.currentEpoch)

/-- A registered group moves only by an accepted commit for its current epoch. -/
theorem next_epochOf (h : epochOf ds groupId = some epoch) (op : Operation) :
    (∃ commit, observe ds op = some (.accepted commit) ∧ commit.groupId = groupId ∧
      commit.epoch = epoch ∧ epochOf (next order ds op) groupId = some (epoch + 1)) ∨
    (acceptedEpochs groupId (observe ds op).toList = [] ∧
      epochOf (next order ds op) groupId = some epoch) := by
  obtain ⟨state, hstate, rfl⟩ := Option.map_eq_some_iff.mp h
  simp only [epochOf, next_groups]
  cases op with
  | putGroupState g e members =>
    refine Or.inr ⟨rfl, ?_⟩
    by_cases hg : g = groupId
    · subst hg
      simp only [putGroupState, hstate]
      split <;> simp [hstate]
    · simp only [putGroupState]
      split
      · split <;> simp [hstate, update_of_ne (Ne.symm hg)]
      · simp [hstate, update_of_ne (Ne.symm hg)]
  | publishGroupCommit g sender e commitBytes =>
    simp only [observe]
    cases hacc : ds.acceptCommit g e with
    | error message => exact .inr ⟨rfl, by simp [hstate]⟩
    | ok result =>
      obtain ⟨st, hst, he, _, hds⟩ := acceptCommit_eq_ok hacc
      by_cases hg : g = groupId
      · subst hg
        rw [hstate] at hst
        cases hst
        exact .inl ⟨_, rfl, rfl, he, by simp [hds]⟩
      · refine Or.inr ⟨by simp [acceptedEpochs, hg], ?_⟩
        simp [hds, update_of_ne (Ne.symm hg), hstate]
  | fetchCommit recipient | fetchPendingCommitDelivery recipient
  | ackCommit recipient deliveryId => exact .inr ⟨rfl, h⟩

/-- An unknown group accepts nothing, and its first registration fixes its epoch. -/
theorem next_epochOf_none (h : epochOf ds groupId = none) (op : Operation) :
    acceptedEpochs groupId (observe ds op).toList = [] ∧
      epochOf (next order ds op) groupId = firstPut groupId [op] := by
  have hnone : ds.groups groupId = none := Option.map_eq_none_iff.mp h
  simp only [epochOf, next_groups]
  cases op with
  | putGroupState g e members =>
    refine ⟨rfl, ?_⟩
    by_cases hg : g = groupId
    · subst hg
      simp [putGroupState, hnone, firstPut]
    · simp only [putGroupState]
      split
      · split <;> simp [hnone, update_of_ne (Ne.symm hg), firstPut, hg]
      · simp [hnone, update_of_ne (Ne.symm hg), firstPut, hg]
  | publishGroupCommit g sender e commitBytes =>
    simp only [observe]
    cases hacc : ds.acceptCommit g e with
    | error message => exact ⟨rfl, by simp [hnone, firstPut]⟩
    | ok result =>
      obtain ⟨st, hst, _, _, hds⟩ := acceptCommit_eq_ok hacc
      have hg : g ≠ groupId := by
        rintro rfl
        rw [hnone] at hst
        cases hst
      refine ⟨by simp [acceptedEpochs, hg], ?_⟩
      simp [hds, update_of_ne (Ne.symm hg), hnone, firstPut]
  | fetchCommit recipient | fetchPendingCommitDelivery recipient
  | ackCommit recipient deliveryId => exact ⟨rfl, by simp [hnone, firstPut]⟩

theorem acceptedEpochs_append (groupId : String) (before after : List Event) :
    acceptedEpochs groupId (before ++ after) =
      acceptedEpochs groupId before ++ acceptedEpochs groupId after :=
  filterMap_append

/-- From a registered group on, accepted commits carry consecutive epochs. -/
theorem acceptedEpochs_registered (h : epochOf ds groupId = some epoch)
    (hops : ∀ op ∈ ops, ∀ e ∈ op.epoch?, e < maxEpoch) :
    acceptedEpochs groupId (history order ds ops) =
      range' (epoch.toNat + 1) (acceptedEpochs groupId (history order ds ops)).length := by
  induction ops generalizing ds epoch with
  | nil => rfl
  | cons op ops ih =>
    have hrest : ∀ op' ∈ ops, ∀ e ∈ op'.epoch?, e < maxEpoch :=
      fun op' hop' => hops op' (mem_cons_of_mem _ hop')
    simp only [history, acceptedEpochs_append]
    rcases next_epochOf order h op with ⟨commit, hobs, hg, he, hnext⟩ | ⟨hnone, hnext⟩
    · have hlt : epoch < maxEpoch := by
        cases op with
        | publishGroupCommit g sender e commitBytes =>
          have hop := hops _ mem_cons_self e rfl
          simp only [observe] at hobs
          split at hobs
          · cases hobs
            exact he ▸ hop
          · cases hobs
        | _ => cases hobs
      have hhead : acceptedEpochs groupId (observe ds op).toList = [epoch.toNat + 1] := by
        simp only [hobs, Option.toList_some, acceptedEpochs, filterMap_cons, hg, he, ite_true,
          filterMap_nil, toNat_succ hlt]
      have htail := ih hnext hrest
      rw [toNat_succ hlt] at htail
      rw [hhead, singleton_append, length_cons, range'_succ, ← htail]
    · rw [hnone, nil_append]
      exact ih hnext hrest

/-- From an unknown group on, the epochs start right after the first registration. -/
theorem acceptedEpochs_unknown (h : epochOf ds groupId = none)
    (hops : ∀ op ∈ ops, ∀ e ∈ op.epoch?, e < maxEpoch) :
    acceptedEpochs groupId (history order ds ops) =
      match firstPut groupId ops with
      | none => []
      | some epoch =>
        range' (epoch.toNat + 1) (acceptedEpochs groupId (history order ds ops)).length := by
  induction ops generalizing ds with
  | nil => rfl
  | cons op ops ih =>
    have hrest : ∀ op' ∈ ops, ∀ e ∈ op'.epoch?, e < maxEpoch :=
      fun op' hop' => hops op' (mem_cons_of_mem _ hop')
    obtain ⟨hhead, hnext⟩ := next_epochOf_none order h op
    have hfirst : firstPut groupId (op :: ops) =
        (firstPut groupId [op]).or (firstPut groupId ops) := by
      rw [firstPut, findSome?_cons, firstPut, findSome?_cons]
      split <;> simp_all [firstPut]
    simp only [history, acceptedEpochs_append, hhead, nil_append, hfirst]
    cases hput : firstPut groupId [op] with
    | none =>
      rw [hput] at hnext
      simpa using ih hnext hrest
    | some epoch =>
      rw [hput] at hnext
      simpa using acceptedEpochs_registered order hnext hrest

theorem mem_acceptedEpochs (h : Event.accepted commit ∈ events) :
    (commit.epoch + 1).toNat ∈ acceptedEpochs commit.groupId events :=
  mem_filterMap.mpr ⟨_, h, by simp⟩

theorem accepted_unique (hnodup : (acceptedEpochs groupId events).Nodup)
    {c c' : AcceptedCommit} (hc : Event.accepted c ∈ events) (hc' : Event.accepted c' ∈ events)
    (hg : c.groupId = groupId) (hg' : c'.groupId = groupId) (he : c.epoch = c'.epoch) : c = c' := by
  induction events with
  | nil => cases hc
  | cons event events ih =>
    have hcons : acceptedEpochs groupId (event :: events) =
        acceptedEpochs groupId [event] ++ acceptedEpochs groupId events :=
      acceptedEpochs_append groupId [event] events
    rw [hcons] at hnodup
    obtain ⟨_, htail, hdisj⟩ := nodup_append.mp hnodup
    have hclash : ∀ {a b : AcceptedCommit}, event = .accepted a → Event.accepted b ∈ events →
        a.groupId = groupId → b.groupId = groupId → a.epoch = b.epoch → False := by
      intro a b ha hb hag hbg hab
      refine hdisj (a.epoch + 1).toNat (by simp [ha, acceptedEpochs, hag]) (b.epoch + 1).toNat ?_ ?_
      · rw [← hbg]
        exact mem_acceptedEpochs hb
      · rw [hab]
    rcases mem_cons.mp hc with h1 | h1 <;> rcases mem_cons.mp hc' with h2 | h2
    · exact Event.accepted.inj (h1.trans h2.symm)
    · exact (hclash h1.symm h2 hg hg' he).elim
    · exact (hclash h2.symm h1 hg' hg he.symm).elim
    · exact ih htail h1 h2

theorem accepted_mem_history {order : List String}
    (h : Event.accepted commit ∈ history order ds ops) :
    .publishGroupCommit commit.groupId commit.sender commit.epoch commit.commitBytes ∈ ops := by
  induction ops generalizing ds with
  | nil => cases h
  | cons op ops ih =>
    rcases mem_append.mp h with hhead | htail
    · have hobs : observe ds op = some (.accepted commit) := Option.mem_toList.mp hhead
      cases op with
      | publishGroupCommit g sender e commitBytes =>
        simp only [observe] at hobs
        split at hobs
        · cases hobs
          exact mem_cons_self
        · cases hobs
      | _ => cases hobs
    · exact mem_cons_of_mem _ (ih htail)

/-- The reading operations change nothing, in any state. -/
theorem fetch_unchanged (ds : DeliveryService) (op : Operation)
    (h : op.isFetch) : (perform order ds op).2 = ds := by
  cases op <;> first | rfl | cases h

/-- A rejected registration or publication leaves the whole state as it was. -/
theorem rejected_unchanged (ds : DeliveryService) (op : Operation) (message : String)
    (h : (perform order ds op).1 = .done (.error message)) : (perform order ds op).2 = ds := by
  cases op with
  | putGroupState g e members =>
    simp only [perform, putGroupState, Prod.map_snd, Prod.map_fst, id] at h ⊢
    split at h
    · split at h
      · rename_i hne
        simp only [hne, ite_true, ne_eq, not_false_eq_true]
      · cases h
    · cases h
  | publishGroupCommit g sender e commitBytes =>
    simp only [perform, publishGroupCommit, Prod.map_snd, Prod.map_fst, id] at h ⊢
    cases hacc : ds.acceptCommit g e with
    | error m => rfl
    | ok result =>
      simp only [hacc] at h
      split at h <;> cases h
  | fetchCommit recipient => rfl
  | fetchPendingCommitDelivery recipient => rfl
  | ackCommit recipient deliveryId => cases h

/-- Whole-run behaviour of the service in per-recipient mode. -/
theorem perRecipient_run_exact (order : List String) (ops : List Operation)
    (hids : ∀ op ∈ ops, ∀ g ∈ op.groupId?, ':' ∉ g.toList)
    (hepochs : ∀ op ∈ ops, ∀ e ∈ op.epoch?, e < maxEpoch) :
    let start := withDeliveryMode .perRecipient
    let events := history order start ops
    (∀ r, (execute (next order) start ops).commitInboxQueue r = expectedInbox r events) ∧
    (∀ c c' r, Event.accepted c ∈ events → Event.accepted c' ∈ events →
      (c.record r).id = (c'.record r).id → c = c') ∧
    (∀ g, acceptedEpochs g events =
      match firstPut g ops with
      | none => []
      | some e0 => range' (e0.toNat + 1) (acceptedEpochs g events).length) ∧
    (∀ ds op, op.isFetch → (perform order ds op).2 = ds) ∧
    (∀ ds op message, (perform order ds op).1 = .done (.error message) →
      (perform order ds op).2 = ds) := by
  intro start events
  have hconsecutive : ∀ g, acceptedEpochs g events =
      match firstPut g ops with
      | none => []
      | some e0 => range' (e0.toNat + 1) (acceptedEpochs g events).length :=
    fun g => acceptedEpochs_unknown order rfl hepochs
  refine ⟨?_, ?_, hconsecutive, ?_, ?_⟩
  · intro r
    exact execute_commitInboxQueue order rfl ops r
  · intro c c' r hc hc' hid
    have hg : ':' ∉ c.groupId.toList := hids _ (accepted_mem_history hc) _ rfl
    have hg' : ':' ∉ c'.groupId.toList := hids _ (accepted_mem_history hc') _ rfl
    obtain ⟨hgg, hee, _⟩ := commitDeliveryId_injective hg hg' hid
    have hnodup : (acceptedEpochs c.groupId events).Nodup := by
      rw [hconsecutive c.groupId]
      split
      · exact nodup_nil
      · exact nodup_range'
    exact accepted_unique hnodup hc hc' rfl hgg.symm (by simpa using hee)
  · exact fetch_unchanged order
  · exact rejected_unchanged order

/-- Two commits of one group: the first is acknowledged by one recipient only. -/
def acknowledgedFirst : List Operation :=
  [.putGroupState "6731" 0 ["alice", "bob"], .publishGroupCommit "6731" "alice" 0 [1],
    .fetchPendingCommitDelivery "alice", .ackCommit "alice" "6731:1:alice:alice",
    .publishGroupCommit "6731" "bob" 0 [3], .publishGroupCommit "6731" "bob" 1 [2]]

theorem perRecipient_run_exact_acknowledgedFirst :
    (execute (next []) (.withDeliveryMode .perRecipient) acknowledgedFirst).commitInboxQueue "alice" =
      [⟨"6731:2:bob:alice", "6731", 2, "bob", [2]⟩] := by
  have hepochs : ∀ op ∈ acknowledgedFirst, ∀ e ∈ op.epoch?, e < maxEpoch := by
    simp [acknowledgedFirst, Operation.epoch?, maxEpoch]
  rw [(perRecipient_run_exact [] acknowledgedFirst (by decide) hepochs).1 "alice"]
  decide

end MessagingBench.Delivery
