import MessagingBench.Core.Run
import MessagingBench.Relay.State

/-!
# What the relay keeps for each recipient

The relay knows messages by ids, texts that are put together from unrestricted fields. The
ledger of a run knows them by their publication: which publish operation was accepted as
the how manieth, and which acknowledgements came after it. The queue of a recipient is
what the ledger says, and within one queue an id belongs to one publication only.
-/

namespace MessagingBench.Relay

open List Delivery

section Operations

inductive Operation
  | publish (groupId sender : String) (recipients : List String) (messageBytes : Bytes)
  | fetch (recipient : String)
  | ack (recipient messageId : String)
  deriving DecidableEq, Repr

def MessageRelay.step (relay : MessageRelay) : Operation → MessageRelay
  | .publish groupId sender recipients messageBytes =>
    (relay.publishGroupApplicationMessage groupId sender recipients messageBytes).2
  | .fetch _ => relay
  | .ack recipient messageId => (relay.ackApplicationMessage recipient messageId).2

/-- An accepted publish operation with its number. -/
structure Publication where
  seq : Nat
  groupId : String
  sender : String
  recipients : List String
  messageBytes : Bytes
  deriving DecidableEq, Repr

namespace Publication

variable (publication : Publication)

def idFor (recipient : String) : String :=
  applicationMessageId publication.groupId publication.sender (UInt64.ofNat publication.seq)
    recipient

def envelopeFor (recipient : String) : RelayEnvelope :=
  ⟨publication.idFor recipient, publication.groupId, publication.sender, publication.messageBytes⟩

/-- A sender receives nothing; a recipient that is listed repeatedly receives several copies. -/
def copies (recipient : String) : Nat :=
  if recipient = publication.sender then 0 else publication.recipients.count recipient

def copiesFor (recipient : String) : List RelayEnvelope :=
  replicate (publication.copies recipient) (publication.envelopeFor recipient)

end Publication

/-- The publications of a run, numbered from `seq` on. -/
def publications : Nat → List Operation → List Publication
  | _, [] => []
  | seq, .publish groupId sender recipients messageBytes :: operations =>
    if recipients.isEmpty then publications seq operations
    else ⟨seq, groupId, sender, recipients, messageBytes⟩ :: publications (seq + 1) operations
  | seq, .fetch _ :: operations => publications seq operations
  | seq, .ack _ _ :: operations => publications seq operations

/-- The publications to a recipient that it has not acknowledged afterwards. -/
def unacked (recipient : String) : Nat → List Operation → List Publication
  | _, [] => []
  | seq, .publish groupId sender recipients messageBytes :: operations =>
    if recipients.isEmpty then unacked recipient seq operations
    else
      let publication : Publication := ⟨seq, groupId, sender, recipients, messageBytes⟩
      if 0 < publication.copies recipient ∧
          Operation.ack recipient (publication.idFor recipient) ∉ operations then
        publication :: unacked recipient (seq + 1) operations
      else unacked recipient (seq + 1) operations
  | seq, .fetch _ :: operations => unacked recipient seq operations
  | seq, .ack _ _ :: operations => unacked recipient seq operations

end Operations

variable {recipient : String} {seq : Nat}

section Ids

theorem Publication.idFor_eq_iff {p q : Publication} (hp : p.seq < 2 ^ 64) (hq : q.seq < 2 ^ 64)
    (hsame : p.seq = q.seq → p = q) : p.idFor recipient = q.idFor recipient ↔ p.seq = q.seq := by
  constructor
  · intro h
    have hseq := congrArg UInt64.toNat (applicationMessageId_seq h)
    rwa [UInt64.toNat_ofNat_of_lt' hp, UInt64.toNat_ofNat_of_lt' hq] at hseq
  · intro h
    rw [hsame h]

end Ids

section Queues

variable {relay : MessageRelay} {recipients : List String} {messageBytes : Bytes}

theorem inboxQueue_publish (hseq : relay.nextMessageId = UInt64.ofNat seq) {groupId sender : String}
    (hne : recipients.isEmpty = false) (recipient : String) :
    (relay.step (.publish groupId sender recipients messageBytes)).inboxQueue recipient =
      relay.inboxQueue recipient ++
        Publication.copiesFor ⟨seq, groupId, sender, recipients, messageBytes⟩ recipient := by
  have hcount : (recipients.filter (· != sender)).count recipient =
      if recipient = sender then 0 else recipients.count recipient := by
    split
    · rename_i heq
      simp [heq, count_eq_zero]
    · rename_i hother
      exact count_filter (by simpa using hother)
  simp only [MessageRelay.step, MessageRelay.publishGroupApplicationMessage, hne,
    Bool.false_eq_true, if_false, MessageRelay.inboxQueue, Inboxes.queue_pushAll, hseq, hcount]
  rfl

theorem nextMessageId_publish {groupId sender : String} (hne : recipients.isEmpty = false) :
    (relay.step (.publish groupId sender recipients messageBytes)).nextMessageId =
      relay.nextMessageId + 1 := by
  simp only [MessageRelay.step, MessageRelay.publishGroupApplicationMessage, hne,
    Bool.false_eq_true, if_false]

theorem nextMessageId_ack (relay : MessageRelay) (acking messageId : String) :
    (relay.step (.ack acking messageId)).nextMessageId = relay.nextMessageId := by
  simp only [MessageRelay.step, MessageRelay.ackApplicationMessage]
  split <;> rfl

/-- Copies of one message are acknowledged together. -/
theorem Publication.filter_copiesFor (publication : Publication) (recipient : String)
    (keeps : String → Bool) :
    (publication.copiesFor recipient).filter (fun envelope => keeps envelope.id) =
      if keeps (publication.idFor recipient) = true then publication.copiesFor recipient else [] := by
  unfold copiesFor
  rw [filter_replicate]
  rfl

/-- The queue of a recipient after a run: what was queued before and has not been acknowledged,
and the publications of the run that have not been acknowledged. -/
theorem inboxQueue_execute (recipient : String) (operations : List Operation)
    (hseq : relay.nextMessageId = UInt64.ofNat seq) :
    (execute MessageRelay.step relay operations).inboxQueue recipient =
      (relay.inboxQueue recipient).filter
          (fun envelope => decide (Operation.ack recipient envelope.id ∉ operations)) ++
        (unacked recipient seq operations).flatMap (·.copiesFor recipient) := by
  induction operations generalizing relay seq with
  | nil => simp [unacked]
  | cons operation operations ih =>
    rw [execute_cons]
    cases operation with
    | fetch other =>
      have hsame : (relay.step (.fetch other)).nextMessageId = UInt64.ofNat seq := hseq
      rw [ih hsame]
      simp [MessageRelay.step, unacked]
    | ack acking messageId =>
      rw [ih ((nextMessageId_ack relay acking messageId).trans hseq), MessageRelay.step,
        MessageRelay.inboxQueue_ackApplicationMessage, unacked]
      congr 1
      split
      · rename_i heq
        subst heq
        rw [filter_filter]
        refine filter_congr fun envelope _ => ?_
        by_cases hid : envelope.id = messageId <;> simp [hid]
      · rename_i hne
        refine filter_congr fun envelope _ => ?_
        simp [hne]
    | publish groupId sender recipients messageBytes =>
      cases hempty : recipients.isEmpty with
      | true =>
        have hsame : relay.step (.publish groupId sender recipients messageBytes) = relay := by
          simp [MessageRelay.step, MessageRelay.publishGroupApplicationMessage, hempty]
        rw [hsame, ih hseq, unacked, if_pos hempty]
        simp
      | false =>
        have hnext : (relay.step (.publish groupId sender recipients messageBytes)).nextMessageId =
            UInt64.ofNat (seq + 1) := by
          rw [nextMessageId_publish hempty, hseq]
          simp
        rw [ih hnext, inboxQueue_publish hseq hempty, filter_append, append_assoc,
          unacked, if_neg (by simp [hempty])]
        congr 1
        · refine filter_congr fun envelope _ => ?_
          simp
        · rw [Publication.filter_copiesFor _ _
            (fun id => decide (Operation.ack recipient id ∉ operations))]
          by_cases hacked : Operation.ack recipient
              (Publication.idFor ⟨seq, groupId, sender, recipients, messageBytes⟩ recipient) ∈
                operations
          · simp [hacked]
          · by_cases hcopies : 0 < Publication.copies
                ⟨seq, groupId, sender, recipients, messageBytes⟩ recipient
            · simp [hacked, hcopies]
            · have hnone : Publication.copies
                  ⟨seq, groupId, sender, recipients, messageBytes⟩ recipient = 0 := by omega
              simp [hacked, hnone, Publication.copiesFor]

end Queues

section Numbers

variable {operations : List Operation} {publication : Publication}

theorem seq_mem_publications (h : publication ∈ publications seq operations) :
    seq ≤ publication.seq ∧ publication.seq < seq + (publications seq operations).length := by
  induction operations generalizing seq with
  | nil => simp [publications] at h
  | cons operation operations ih =>
    cases operation with
    | fetch other => exact ih h
    | ack acking messageId => exact ih h
    | publish groupId sender recipients messageBytes =>
      rw [publications] at h ⊢
      split at h
      · rename_i hempty
        rw [if_pos hempty]
        exact ih h
      · rename_i hempty
        rw [if_neg hempty, length_cons]
        rcases mem_cons.mp h with rfl | h
        · exact ⟨Nat.le_refl seq, by simp⟩
        · have hrest := ih h
          omega

/-- A number belongs to one publication. -/
theorem publications_seq_inj {p q : Publication} (hp : p ∈ publications seq operations)
    (hq : q ∈ publications seq operations) (h : p.seq = q.seq) : p = q := by
  induction operations generalizing seq with
  | nil => simp [publications] at hp
  | cons operation operations ih =>
    cases operation with
    | fetch other | ack acking messageId => exact ih hp hq
    | publish groupId sender recipients messageBytes =>
      rw [publications] at hp hq
      split at hp
      · rename_i hempty
        rw [if_pos hempty] at hq
        exact ih hp hq
      · rename_i hempty
        rw [if_neg hempty] at hq
        rcases mem_cons.mp hp with rfl | hp <;> rcases mem_cons.mp hq with rfl | hq
        · rfl
        · have hlater := (seq_mem_publications hq).1
          simp only at h
          omega
        · have hlater := (seq_mem_publications hp).1
          simp only at h
          omega
        · exact ih hp hq

theorem mem_unacked (h : publication ∈ unacked recipient seq operations) :
    publication ∈ publications seq operations ∧ 0 < publication.copies recipient := by
  induction operations generalizing seq with
  | nil => simp [unacked] at h
  | cons operation operations ih =>
    cases operation with
    | fetch other => exact ih h
    | ack acking messageId => exact ih h
    | publish groupId sender recipients messageBytes =>
      rw [unacked] at h
      rw [publications]
      split at h
      · rename_i hempty
        rw [if_pos hempty]
        exact ih h
      · rename_i hempty
        rw [if_neg hempty]
        simp only at h
        split at h
        · rename_i hkept
          rcases mem_cons.mp h with rfl | h
          · exact ⟨mem_cons_self, hkept.1⟩
          · exact ⟨mem_cons_of_mem _ (ih h).1, (ih h).2⟩
        · exact ⟨mem_cons_of_mem _ (ih h).1, (ih h).2⟩

end Numbers

section Runs

/-- The record of a publication that its recipient fetches. -/
def Publication.pendingFor (publication : Publication) (recipient : String) :
    PendingApplicationMessage :=
  ⟨publication.idFor recipient, publication.groupId, publication.sender,
    hexEncode publication.messageBytes⟩

variable {kept : List Publication}

theorem head?_flatMap_copiesFor (h : ∀ publication ∈ kept, 0 < publication.copies recipient) :
    (kept.flatMap (·.copiesFor recipient)).head? = kept.head?.map (·.envelopeFor recipient) := by
  cases kept with
  | nil => rfl
  | cons publication kept =>
    obtain ⟨count, hcount⟩ := Nat.exists_eq_succ_of_ne_zero
      (Nat.pos_iff_ne_zero.mp (h publication mem_cons_self))
    simp [Publication.copiesFor, hcount, replicate_succ]

theorem fetchPendingApplicationMessage_eq (relay : MessageRelay) (recipient : String) :
    relay.fetchPendingApplicationMessage recipient =
      (relay.inboxQueue recipient).head?.map fun envelope =>
        ⟨envelope.id, envelope.groupId, envelope.sender, hexEncode envelope.messageBytes⟩ := by
  unfold MessageRelay.fetchPendingApplicationMessage MessageRelay.inboxQueue Inboxes.queue
  cases relay.applicationInboxes recipient <;> rfl

theorem inboxQueue_run {operations : List Operation} {recipient : String} :
    (execute MessageRelay.step MessageRelay.new operations).inboxQueue recipient =
      (unacked recipient 1 operations).flatMap (·.copiesFor recipient) := by
  have hnew : MessageRelay.new.nextMessageId = UInt64.ofNat 1 := rfl
  rw [inboxQueue_execute recipient operations hnew]
  simp [MessageRelay.new, MessageRelay.inboxQueue, Inboxes.queue]

/-- Acknowledging a publication takes its copies out of a queue and nothing else. -/
theorem filter_flatMap_copiesFor {p : Publication}
    (h : ∀ q ∈ kept, q.idFor recipient = p.idFor recipient ↔ q.seq = p.seq) :
    (kept.flatMap (·.copiesFor recipient)).filter
        (fun envelope => envelope.id != p.idFor recipient) =
      (kept.filter (·.seq != p.seq)).flatMap (·.copiesFor recipient) := by
  induction kept with
  | nil => rfl
  | cons q kept ih =>
    have hrest := ih fun q' hq' => h q' (mem_cons_of_mem _ hq')
    have hcopies := q.filter_copiesFor recipient (fun id => id != p.idFor recipient)
    rw [flatMap_cons, filter_append, hrest, hcopies]
    by_cases hseq : q.seq = p.seq
    · have hid := (h q mem_cons_self).mpr hseq
      simp [hseq, hid]
    · have hid : q.idFor recipient ≠ p.idFor recipient :=
        fun heq => hseq ((h q mem_cons_self).mp heq)
      simp [hseq, hid]

/-- After every run with fewer publications than there are numbers, the queue of a recipient
holds the publications to it that it has not acknowledged, in order. A fetch reports the
oldest of them and changes nothing, and the id of a publication takes exactly that
publication out of the queue of the recipient that acknowledges it. -/
theorem relay_keeps_unacked (operations : List Operation)
    (hroom : (publications 1 operations).length < 2 ^ 64) (recipient : String) :
    let relay := execute MessageRelay.step MessageRelay.new operations
    relay.inboxQueue recipient =
        (unacked recipient 1 operations).flatMap (·.copiesFor recipient) ∧
      relay.fetchPendingApplicationMessage recipient =
        (unacked recipient 1 operations).head?.map (·.pendingFor recipient) ∧
      relay.step (.fetch recipient) = relay ∧
      ∀ p ∈ publications 1 operations,
        (relay.step (.ack recipient (p.idFor recipient))).inboxQueue recipient =
            ((unacked recipient 1 operations).filter (·.seq != p.seq)).flatMap
              (·.copiesFor recipient) ∧
          ∀ other, other ≠ recipient →
            (relay.step (.ack recipient (p.idFor recipient))).inboxQueue other =
              relay.inboxQueue other := by
  intro relay
  have hqueue : relay.inboxQueue recipient = _ := inboxQueue_run
  refine ⟨hqueue, ?_, rfl, fun p hp => ⟨?_, fun other hother => ?_⟩⟩
  · rw [fetchPendingApplicationMessage_eq, hqueue,
      head?_flatMap_copiesFor fun publication hmem => (mem_unacked hmem).2, Option.map_map]
    rfl
  · rw [MessageRelay.step, MessageRelay.inboxQueue_ackApplicationMessage, if_pos rfl, hqueue]
    refine filter_flatMap_copiesFor fun q hq => ?_
    have hmem := (mem_unacked hq).1
    have hlt {publication : Publication} (h : publication ∈ publications 1 operations) :
        publication.seq < 2 ^ 64 := by
      have hseq := seq_mem_publications h
      omega
    exact Publication.idFor_eq_iff (hlt hmem) (hlt hp) (publications_seq_inj hmem hp)
  · rw [MessageRelay.step, MessageRelay.inboxQueue_ackApplicationMessage, if_neg hother]

/-- Bob's two messages have senders that contain the separator, and one of them is listed
twice. -/
theorem relay_keeps_unacked_separators :
    let operations := [Operation.publish "g" "s:1" ["b", "b"] [7], .publish "g:s" "1" ["b"] [8]]
    let relay := execute MessageRelay.step MessageRelay.new operations
    (relay.inboxQueue "b").length = 3 ∧
      (relay.step (.ack "b" "g:s:1:1:b")).inboxQueue "b" =
        ((unacked "b" 1 operations).filter (·.seq != 1)).flatMap (·.copiesFor "b") := by
  intro operations relay
  have hkeeps := relay_keeps_unacked operations (by decide) "b"
  refine ⟨?_, (hkeeps.2.2.2 ⟨1, "g", "s:1", ["b", "b"], [7]⟩ (by decide)).1⟩
  rw [hkeeps.1]
  decide

end Runs

end MessagingBench.Relay
