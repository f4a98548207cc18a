import MessagingBench.Core.History
import MessagingBench.Core.Segments
import MessagingBench.Worker.Commands

/-!
# What a receive of an MLS worker tells

Receives of application messages by one client, whatever the relay answers. Between two
of them the client may do anything else. The history of the client is the list of its
waiting points: a fetch that brought a message is followed by its decryption, and an
acknowledgement is a call of its own.
-/

namespace MessagingBench.Worker

open List Delivery
open Program (Exchange)
open Relay

variable {M : Mls} (urls : Urls)

/-- A message that a client fetches opens in its hands. -/
def Client.opens (client : Client M) (delivery : PendingApplicationMessage) : Bool :=
  match hexDecode delivery.messageHex with
  | none => false
  | some messageBytes => (client.receiveApplicationMessage messageBytes).1.isOk

/-- The code takes a delivery for one that was processed before. -/
def Client.judgesProcessed (client : Client M) (delivery : PendingApplicationMessage) : Bool :=
  match hexDecode delivery.messageHex with
  | none => false
  | some messageBytes =>
    match (client.receiveApplicationMessage messageBytes).1 with
    | .ok _ => false
    | .error text => looksLikeDuplicateApplicationReceive text

/-- At this point of the run the client fetched a message and decrypted it. -/
def Decrypts (exchange : Exchange (signature M)) (delivery : PendingApplicationMessage) : Prop :=
  (∃ call recipient, exchange.calls = [call] ∧
    call.request = .fetchPendingApplicationMessage recipient) ∧
  (∃ rest, exchange.outcome = .ok (.message delivery :: rest)) ∧
  exchange.shown.client.opens delivery = true

/-- Only messages that were decrypted are acknowledged. -/
def ackTruthful (before : List (Exchange (signature M))) (exchange : Exchange (signature M)) :
    Prop :=
  ∀ call ∈ exchange.calls, ∀ recipient messageId,
    call.request = .ackApplicationMessage recipient messageId →
      ∃ earlier ∈ before, ∃ delivery, delivery.id = messageId ∧ Decrypts earlier delivery

structure ReceiverState (M : Mls) where
  slot : Slot M
  history : List (Exchange (signature M))

inductive ReceiverAction (M : Mls)
  | receive (outcomes : Nat → Except CallFailure (List Reply)) (draws : Nat → Nat)
  | other (slot : Slot M)

def receiverStep (s : ReceiverState M) : ReceiverAction M → ReceiverState M
  | .receive outcomes draws =>
    let run := (receiveApplicationDelivery urls s.slot).play outcomes draws 0
    ⟨run.2.2, s.history ++ run.1⟩
  | .other slot => { s with slot := slot }

/-- What is taken for processed was decrypted before. -/
def ReceiverAdmitted (s : ReceiverState M) : ReceiverAction M → Prop
  | .receive outcomes _ => ∀ delivery rest, outcomes 0 = .ok (.message delivery :: rest) →
      s.slot.client.judgesProcessed delivery = true →
        ∃ earlier ∈ s.history, Decrypts earlier delivery
  | .other _ => True

section Exchanges

variable (outcomes : Nat → Except CallFailure (List Reply)) (draws : Nat → Nat)

/-- The result of a call that was waited for alone. -/
def soleReply : Except CallFailure (List Reply) → Except String Reply
  | .ok (reply :: _) => .ok reply
  | .ok [] => .error "no reply"
  | .error failure => .error failure.text

theorem request_eq (call : Call) (slot : Slot M) :
    (request call : Task M Reply) slot =
      .await slot [call] fun outcome => .done (soleReply outcome, slot) := by
  refine congrArg (Program.await (S := signature M) slot [call]) (funext fun outcome => ?_)
  cases outcome with
  | error failure => rfl
  | ok replies => cases replies <;> rfl

/-- An acknowledgement is the only waiting point before the answer. -/
theorem play_ack {relayUrl messageId text : String} {slot : Slot M} {n : Nat} :
    ∃ ack : Call, ack.request = .ackApplicationMessage slot.client.name messageId ∧
      (((do
        ackApplicationMessageBestEffort relayUrl messageId
        pure text : Task M String) slot).play outcomes draws n).1 =
          [⟨slot, [ack], outcomes n⟩] := by
  refine ⟨⟨"relay.ack_application_message", slot.client.name,
      relayUrl ++ "/application-message/" ++ slot.client.name ++ "/ack/" ++ messageId,
      .ackApplicationMessage slot.client.name messageId⟩, rfl, ?_⟩
  simp only [bind, ackApplicationMessageBestEffort, getClient, Work.get, request_eq, Work.attempt,
    Program.bind, Work.andThen, Program.play, pure]

theorem play_afterDecryption (delivery : PendingApplicationMessage) (result : Except String Bytes)
    (slot : Slot M) (n : Nat) :
    ((afterDecryption urls delivery result slot).play outcomes draws n).1 = [] ∨
      ((∃ plaintext, result = .ok plaintext) ∨
        ∃ text, result = .error text ∧ looksLikeDuplicateApplicationReceive text = true) ∧
      ∃ ack : Call, ack.request = .ackApplicationMessage slot.client.name delivery.id ∧
        ((afterDecryption urls delivery result slot).play outcomes draws n).1 =
          [⟨slot, [ack], outcomes n⟩] := by
  cases result with
  | ok plaintext =>
    exact .inr ⟨.inl ⟨plaintext, rfl⟩,
      play_ack outcomes draws⟩
  | error text =>
    unfold afterDecryption
    by_cases hduplicate : looksLikeDuplicateApplicationReceive text = true
    · simp only [hduplicate, ite_true]
      exact .inr ⟨.inr ⟨text, rfl, hduplicate⟩,
        play_ack outcomes draws⟩
    · simp only [hduplicate]
      exact .inl rfl

theorem play_fetched {delivery : PendingApplicationMessage} {rest : List Reply} (slot : Slot M)
    (houtcome : outcomes 0 = .ok (.message delivery :: rest)) :
    ((receiveApplicationDelivery urls slot).play outcomes draws 0).1.tail =
      match hexDecode delivery.messageHex with
      | none => []
      | some messageBytes =>
        ((afterDecryption urls delivery (slot.client.receiveApplicationMessage messageBytes).1
          { slot with client := (slot.client.receiveApplicationMessage messageBytes).2 }).play
            outcomes draws 1).1 := by
  unfold receiveApplicationDelivery
  simp only [bind, fetchPendingApplicationMessage, getClient, Work.get, request_eq,
    Program.bind, Work.andThen, Program.play, pure, houtcome, soleReply, tail_cons]
  cases hexDecode delivery.messageHex <;> rfl

/-- A receive that fetched nothing ends. -/
theorem play_unfetched (slot : Slot M)
    (houtcome : ∀ delivery rest, outcomes 0 ≠ .ok (.message delivery :: rest)) :
    ((receiveApplicationDelivery urls slot).play outcomes draws 0).1.tail = [] := by
  unfold receiveApplicationDelivery
  simp only [bind, fetchPendingApplicationMessage, getClient, Work.get, request_eq,
    Program.bind, Work.andThen, Program.play, pure, tail_cons]
  cases hreplies : outcomes 0 with
  | error failure => rfl
  | ok replies =>
    cases replies with
    | nil => rfl
    | cons reply rest =>
      cases reply with
      | message delivery => exact absurd hreplies (houtcome delivery rest)
      | done | conflict | bytes | delivery | commits => rfl

/-- The waiting points of a receive: a fetch, and an acknowledgement if the fetched message
was decrypted or is taken for processed. -/
theorem receiveApplicationDelivery_exchanges (slot : Slot M) :
    ∃ call, call.request = .fetchPendingApplicationMessage slot.client.name ∧
      ∃ acks, ((receiveApplicationDelivery urls slot).play outcomes draws 0).1 =
          ⟨slot, [call], outcomes 0⟩ :: acks ∧
        (acks = [] ∨ ∃ delivery rest ack, ∃ slot' : Slot M,
          outcomes 0 = .ok (.message delivery :: rest) ∧
          (slot.client.opens delivery = true ∨ slot.client.judgesProcessed delivery = true) ∧
          ack.request = .ackApplicationMessage slot'.client.name delivery.id ∧
          acks = [⟨slot', [ack], outcomes 1⟩]) := by
  refine ⟨⟨"relay.fetch_pending_application_message", slot.client.name,
      urls.relayBase ++ "/application-message/" ++ slot.client.name ++ "/pending",
      .fetchPendingApplicationMessage slot.client.name⟩, rfl, _, rfl, ?_⟩
  by_cases hfetched : ∃ delivery rest, outcomes 0 = .ok (.message delivery :: rest)
  · obtain ⟨delivery, rest, houtcome⟩ := hfetched
    have htail := play_fetched urls outcomes draws slot houtcome
    cases hhex : hexDecode delivery.messageHex with
    | none =>
      rw [hhex] at htail
      exact .inl htail
    | some messageBytes =>
      rw [hhex] at htail
      rcases play_afterDecryption urls outcomes draws delivery
        (slot.client.receiveApplicationMessage messageBytes).1
        { slot with client := (slot.client.receiveApplicationMessage messageBytes).2 } 1 with
        hnone | ⟨hresult, ack, hack, hone⟩
      · exact .inl (htail.trans hnone)
      · refine Or.inr ⟨delivery, rest, ack, _, houtcome, ?_, hack, htail.trans hone⟩
        unfold Client.opens Client.judgesProcessed
        rw [hhex]
        rcases hresult with ⟨plaintext, hok⟩ | ⟨text, herror, hduplicate⟩
        · exact .inl (congrArg Except.isOk hok)
        · refine Or.inr ?_
          dsimp only
          rw [herror]
          exact hduplicate
  · exact .inl (play_unfetched urls outcomes draws slot
      fun delivery rest houtcome => hfetched ⟨delivery, rest, houtcome⟩)

end Exchanges

section Runs

/-- The client has acknowledged only messages it had decrypted. -/
def ReceiverState.Truthful (s : ReceiverState M) : Prop := Warranted ackTruthful s.history

theorem ReceiverState.Truthful.step {s : ReceiverState M} (h : s.Truthful)
    (action : ReceiverAction M) (hadmitted : ReceiverAdmitted s action) :
    (receiverStep urls s action).Truthful := by
  cases action with
  | other slot => exact h
  | receive outcomes draws =>
    obtain ⟨call, hcall, acks, hrun, hacks⟩ :=
      receiveApplicationDelivery_exchanges urls outcomes draws s.slot
    have hfetch : Warranted ackTruthful (s.history ++ [⟨s.slot, [call], outcomes 0⟩]) := by
      refine h.concat fun call' hmem recipient messageId hrequest => ?_
      rw [mem_singleton.mp hmem, hcall] at hrequest
      cases hrequest
    have hhistory : (receiverStep urls s (.receive outcomes draws)).history =
        s.history ++ [⟨s.slot, [call], outcomes 0⟩] ++ acks := by
      rw [append_assoc, singleton_append, ← hrun]
      rfl
    unfold ReceiverState.Truthful
    rw [hhistory]
    rcases hacks with rfl | ⟨delivery, rest, ack, slot', houtcome, hopened, hack, rfl⟩
    · rwa [append_nil]
    · refine hfetch.concat fun call' hmem recipient messageId hrequest => ?_
      rw [mem_singleton.mp hmem, hack] at hrequest
      cases hrequest
      rcases hopened with hopens | hprocessed
      · exact ⟨⟨s.slot, [call], outcomes 0⟩, by simp, delivery, rfl, ⟨call, _, rfl, hcall⟩,
          ⟨rest, houtcome⟩, hopens⟩
      · obtain ⟨earlier, hearlier, hdecrypts⟩ := hadmitted delivery rest houtcome hprocessed
        exact ⟨earlier, mem_append_left _ hearlier, delivery, rfl, hdecrypts⟩

theorem truthful_execute {slot : Slot M} {schedule : List (ReceiverAction M)}
    (hrun : Guarded (receiverStep urls) ReceiverAdmitted ⟨slot, []⟩ schedule) :
    (execute (receiverStep urls) ⟨slot, []⟩ schedule).Truthful :=
  hrun.invariant (fun _ action h => h.step urls action) .nil

end Runs

end MessagingBench.Worker
