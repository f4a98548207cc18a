import MessagingBench.Delivery.State

/-!
# The message relay

State and operations of `message_relay.rs` together with the recipient header of its
HTTP endpoint. A published message receives a fresh sequence number and is queued for
every listed recipient except the sender; it stays queued until it is acknowledged.
-/

namespace MessagingBench.Relay

open List Delivery

structure RelayEnvelope where
  id : String
  groupId : String
  sender : String
  messageBytes : Bytes
  deriving DecidableEq, Repr

/-- A queued message as the pending endpoint reports it. -/
structure PendingApplicationMessage where
  id : String
  groupId : String
  sender : String
  messageHex : String
  deriving DecidableEq, Repr

/-- The relay state; request metrics are not part of the model. -/
structure MessageRelay where
  applicationInboxes : Inboxes String RelayEnvelope
  nextMessageId : UInt64

def applicationMessageId (groupId sender : String) (seq : UInt64) (recipient : String) : String :=
  groupId ++ ":" ++ sender ++ ":" ++ seq.toNat.repr ++ ":" ++ recipient

/-- Two ids for one recipient tell their sequence numbers apart, whatever characters the group
and the sender consist of. -/
theorem applicationMessageId_seq {groupId groupId' sender sender' recipient : String}
    {seq seq' : UInt64} (h : applicationMessageId groupId sender seq recipient =
      applicationMessageId groupId' sender' seq' recipient) : seq = seq' := by
  have hchars (groupId sender : String) (seq : UInt64) :
      (applicationMessageId groupId sender seq recipient).toList =
        (groupId.toList ++ ':' :: sender.toList) ++
          ':' :: (seq.toNat.repr.toList ++ ':' :: recipient.toList) := by
    have hsep : ":".toList = [':'] := rfl
    simp [applicationMessageId, hsep]
  have heq := congrArg String.toList h
  rw [hchars, hchars] at heq
  exact UInt64.toNat_inj.mp (repr_eq_of_append (by decide) heq)

/-- What is queued for a recipient of a message. -/
def applicationEnvelope (groupId sender : String) (seq : UInt64) (messageBytes : Bytes)
    (recipient : String) : RelayEnvelope :=
  ⟨applicationMessageId groupId sender seq recipient, groupId, sender, messageBytes⟩

namespace MessageRelay

def new : MessageRelay := ⟨fun _ => none, 1⟩

variable (relay : MessageRelay)

/-- The queue of a recipient; an absent queue is created empty on first use. -/
def inboxQueue (recipient : String) : List RelayEnvelope :=
  relay.applicationInboxes.queue recipient

/-- The loop over the recipients passes over the sender. -/
def publishGroupApplicationMessage (groupId sender : String) (recipients : List String)
    (messageBytes : Bytes) : Except String Unit × MessageRelay :=
  if recipients.isEmpty then
    (.error "No recipients were provided to the message relay", relay)
  else
    (.ok (),
      { applicationInboxes := relay.applicationInboxes.pushAll
          (applicationEnvelope groupId sender relay.nextMessageId messageBytes)
          (recipients.filter (· != sender))
        nextMessageId := relay.nextMessageId + 1 })

/-- The oldest queued message, left in the queue. -/
def fetchPendingApplicationMessage (recipient : String) : Option PendingApplicationMessage :=
  ((relay.applicationInboxes recipient).bind head?).map fun envelope =>
    { id := envelope.id
      groupId := envelope.groupId
      sender := envelope.sender
      messageHex := hexEncode envelope.messageBytes }

def ackApplicationMessage (recipient messageId : String) : Bool × MessageRelay :=
  match relay.applicationInboxes recipient with
  | none => (false, relay)
  | some queue =>
    let kept := queue.filter fun envelope => envelope.id != messageId
    (queue.length != kept.length,
      { relay with
        applicationInboxes := Function.update relay.applicationInboxes recipient (some kept) })

theorem inboxQueue_ackApplicationMessage (recipient messageId r : String) :
    (relay.ackApplicationMessage recipient messageId).2.inboxQueue r =
      if r = recipient then (relay.inboxQueue r).filter fun envelope => envelope.id != messageId
      else relay.inboxQueue r := by
  unfold ackApplicationMessage
  cases hqueue : relay.applicationInboxes recipient with
  | none => by_cases hr : r = recipient <;> simp [inboxQueue, Inboxes.queue, hr, hqueue]
  | some queue => exact Inboxes.queue_update_filter _ hqueue

end MessageRelay

/-- The value of the recipient header. -/
def joinRecipients (recipients : List String) : List Char :=
  [','].intercalate (recipients.map String.toList)

/-- A character of a header value that the server can read as text. -/
def isHeaderText (c : Char) : Bool :=
  c == '\t' || (decide (32 ≤ c.toNat) && decide (c.toNat < 127))

def trim (part : List Char) : List Char :=
  ((part.dropWhile Char.isWhitespace).reverse.dropWhile Char.isWhitespace).reverse

def parseRecipientsHeader (raw : List Char) : Except String (List String) :=
  if raw.all isHeaderText then
    let recipients := (((raw.splitOn ',').map trim).filter (· ≠ [])).map String.ofList
    if recipients.isEmpty then .error "x-recipients header did not contain any recipients"
    else .ok recipients
  else .error "x-recipients header is not valid UTF-8"

/-- A name that survives the header: readable, without a comma, and neither empty nor
surrounded by blanks. -/
def HeaderName (name : String) : Prop :=
  name.toList.all isHeaderText = true ∧ ',' ∉ name.toList ∧ trim name.toList = name.toList ∧
    name.toList ≠ []

instance (name : String) : Decidable (HeaderName name) :=
  inferInstanceAs (Decidable (_ ∧ _ ∧ _ ∧ _))

variable {names : List String}

theorem all_joinRecipients (h : ∀ name ∈ names, HeaderName name) :
    (joinRecipients names).all isHeaderText = true := by
  rw [all_eq_true]
  intro c hc
  induction names with
  | nil => simp [joinRecipients] at hc
  | cons name names ih =>
    have hhead := all_eq_true.mp (h name mem_cons_self).1
    cases names with
    | nil =>
      simp only [joinRecipients, map_cons, map_nil, intercalate_singleton] at hc
      exact hhead c hc
    | cons name' names =>
      simp only [joinRecipients, map_cons, intercalate_cons_cons, mem_append,
        mem_singleton] at hc ih
      rcases hc with (hc | rfl) | hc
      · exact hhead c hc
      · rfl
      · exact ih (fun name hname => h name (mem_cons_of_mem _ hname)) hc

theorem parseRecipientsHeader_join (hne : names ≠ []) (h : ∀ name ∈ names, HeaderName name) :
    parseRecipientsHeader (joinRecipients names) = .ok names := by
  have hsplit : (joinRecipients names).splitOn ',' = names.map String.toList := by
    apply splitOn_intercalate (α := Char)
    · intro part hpart
      obtain ⟨name, hname, rfl⟩ := mem_map.mp hpart
      exact (h name hname).2.1
    · simpa using hne
  have htrim : (names.map String.toList).map trim = names.map String.toList := by
    rw [map_map]
    apply map_congr_left
    intro name hname
    exact (h name hname).2.2.1
  have hkeep : (names.map String.toList).filter (fun part => decide (part ≠ [])) =
      names.map String.toList := by
    rw [filter_eq_self]
    intro part hpart
    obtain ⟨name, hname, rfl⟩ := mem_map.mp hpart
    exact decide_eq_true (h name hname).2.2.2
  have hback : (names.map String.toList).map String.ofList = names := by
    rw [map_map]
    simp
  simp only [parseRecipientsHeader, all_joinRecipients h, hsplit, htrim, ite_true]
  rw [hkeep, hback]
  simp [hne]

end MessagingBench.Relay
