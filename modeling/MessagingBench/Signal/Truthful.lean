import MessagingBench.Signal.Receive
import MessagingBench.Worker.Symbolic
import MessagingBench.Worker.Truthful

/-!
# What a receive of a Signal worker tells

A receive is truthful if the worker acknowledges only messages it has decrypted, and if
every good answer to a request for a sender and a length stands for a message of its own.
The relay contributes that an acknowledged message never comes back: what is queued later
carries a later sequence number.
-/

namespace MessagingBench.Signal

open List Routine

variable {L : LibSignal}

section Relay

/-- The sequence numbers a request takes at most. -/
def RelayRequest.publications : RelayRequest → Nat
  | .publish _ _ _ _ => 1
  | _ => 0

/-- The id of a message for a recipient with a sequence number in the given range. -/
def IdWithin (low high : Nat) (recipient id : String) : Prop :=
  ∃ conversationId sender, ∃ seq : UInt64,
    id = pairwiseMessageId conversationId sender seq recipient ∧ low ≤ seq.toNat ∧ seq.toNat < high

theorem IdWithin.ne {low mid high : Nat} {recipient id id' : String}
    (h : IdWithin low mid recipient id) (h' : IdWithin mid high recipient id') : id ≠ id' := by
  obtain ⟨_, _, seq, rfl, -, hseq⟩ := h
  obtain ⟨_, _, seq', rfl, hseq', -⟩ := h'
  intro heq
  rw [Relay.applicationMessageId_seq heq] at hseq
  omega

theorem IdWithin.mono {low low' high high' : Nat} {recipient id : String}
    (h : IdWithin low high recipient id) (hlow : low' ≤ low) (hhigh : high ≤ high') :
    IdWithin low' high' recipient id := by
  obtain ⟨conversationId, sender, seq, rfl, hl, hh⟩ := h
  exact ⟨conversationId, sender, seq, rfl, hlow.trans hl, hh.trans_le hhigh⟩

namespace MessageRelay

/-- What becomes of a relay whose sequence numbers are not used up. -/
structure Later (relay relay' : MessageRelay) : Prop where
  counter : relay.nextMessageId.toNat ≤ relay'.nextMessageId.toNat
  inbox : ∀ recipient, ∀ envelope ∈ relay'.inboxQueue recipient,
    envelope ∈ relay.inboxQueue recipient ∨
      IdWithin relay.nextMessageId.toNat relay'.nextMessageId.toNat recipient envelope.id

theorem Later.refl (relay : MessageRelay) : Later relay relay :=
  ⟨le_refl _, fun _ _ h => .inl h⟩

theorem Later.trans {relay₁ relay₂ relay₃ : MessageRelay} (h : Later relay₁ relay₂)
    (h' : Later relay₂ relay₃) : Later relay₁ relay₃ := by
  refine ⟨h.counter.trans h'.counter, fun recipient envelope hmem => ?_⟩
  rcases h'.inbox recipient envelope hmem with hmem | hid
  · rcases h.inbox recipient envelope hmem with hmem | hid
    · exact .inl hmem
    · exact .inr (hid.mono (le_refl _) h'.counter)
  · exact .inr (hid.mono h.counter (le_refl _))

/-- A later relay that took no more sequence numbers than this. -/
def LaterBy (relay : MessageRelay) (count : Nat) (relay' : MessageRelay) : Prop :=
  Later relay relay' ∧ relay'.nextMessageId.toNat ≤ relay.nextMessageId.toNat + count

variable (relay : MessageRelay)

theorem later_publish (conversationId sender : String) (recipients : List String)
    (body : Delivery.Bytes) (hroom : relay.nextMessageId.toNat + 1 < 2 ^ 64) :
    relay.LaterBy 1 (relay.publishPairwiseMessage conversationId sender recipients body).2 := by
  unfold publishPairwiseMessage
  split
  · exact ⟨.refl relay, Nat.le_succ _⟩
  have hnext : (relay.nextMessageId + 1).toNat = relay.nextMessageId.toNat + 1 := by
    rw [UInt64.toNat_add, UInt64.toNat_one, Nat.mod_eq_of_lt hroom]
  refine ⟨⟨?_, fun recipient envelope hmem => ?_⟩, ?_⟩
  · simp only [hnext, Nat.le_succ]
  · simp only [inboxQueue, Inboxes.queue_pushAll] at hmem
    rcases mem_append.mp hmem with hmem | hmem
    · exact .inl hmem
    · rw [(mem_replicate.mp hmem).2]
      refine Or.inr ⟨conversationId, sender, relay.nextMessageId, rfl, le_refl _, ?_⟩
      simp only [hnext, Nat.lt_succ_self]
  · simp only [hnext, le_refl]

theorem later_ack (recipient messageId : String) :
    Later relay (relay.ackMessage recipient messageId).2 ∧
      (relay.ackMessage recipient messageId).2.nextMessageId = relay.nextMessageId := by
  have hnext : (relay.ackMessage recipient messageId).2.nextMessageId = relay.nextMessageId := by
    unfold ackMessage
    split <;> rfl
  refine ⟨⟨(congrArg UInt64.toNat hnext).ge, fun r envelope hmem => .inl ?_⟩, hnext⟩
  rw [inboxQueue_ackMessage] at hmem
  split at hmem
  · exact (mem_filter.mp hmem).1
  · exact hmem

theorem later_handle (request : RelayRequest)
    (hroom : relay.nextMessageId.toNat + request.publications < 2 ^ 64) :
    relay.LaterBy request.publications (relay.handle request).2 := by
  cases request with
  | publish conversationId sender recipients body =>
    simp only [handle]
    split
    · exact ⟨.refl relay, Nat.le_succ _⟩
    · rename_i parsed _
      have hlater := relay.later_publish conversationId sender parsed body hroom
      split <;> rename_i heq <;> rw [heq] at hlater <;> exact hlater
  | fetchPending recipient sender =>
    simp only [handle]
    split <;> exact ⟨.refl relay, Nat.le_add_right _ _⟩
  | ack recipient messageId =>
    obtain ⟨hlater, hnext⟩ := relay.later_ack recipient messageId
    have hle := (congrArg UInt64.toNat hnext).le
    simp only [handle]
    split <;> rename_i heq <;> rw [heq] at hlater hle <;> exact ⟨hlater, hle⟩

/-- The sequence numbers that requests take at most. -/
def published (requests : List RelayRequest) : Nat :=
  (requests.map RelayRequest.publications).sum

theorem later_process (requests : List RelayRequest)
    (hroom : relay.nextMessageId.toNat + published requests < 2 ^ 64) :
    relay.LaterBy (published requests) (relay.process requests) := by
  induction requests generalizing relay with
  | nil => exact ⟨.refl relay, le_refl _⟩
  | cons request requests ih =>
    have hsum : published (request :: requests) = request.publications + published requests := by
      simp [published]
    rw [hsum] at hroom ⊢
    obtain ⟨hfirst, hnext⟩ := relay.later_handle request (by omega)
    obtain ⟨hrest, hlast⟩ := ih (relay.handle request).2 (by omega)
    exact ⟨hfirst.trans hrest, by
      change ((relay.handle request).2.process requests).nextMessageId.toNat ≤ _
      omega⟩

end MessageRelay

end Relay

section Helpers

/-- The sequence numbers that the attempts to come take at most. -/
def upcoming (attempts : List Attempt) : Nat :=
  (attempts.map fun attempt => MessageRelay.published attempt.others).sum

/-- The relay has sequence numbers for everything that is to come. -/
def WorkerState.Room (s : WorkerState L) : Prop :=
  s.relay.nextMessageId.toNat + upcoming s.attempts < 2 ^ 64

instance WorkerState.decidableRoom (s : WorkerState L) : Decidable s.Room :=
  inferInstanceAs (Decidable (_ < _))

/-- What a request that publishes nothing does to a worker's state. -/
structure Exchanged (s s' : WorkerState L) : Prop where
  room : s'.Room
  later : s.relay.Later s'.relay
  participant : s'.participant = s.participant
  history : s'.history = s.history

/-- Requests that publish nothing only let the relay go on. -/
def exchanging : Frame (WorkerState L) where
  rel s s' := s.Room → Exchanged s s'
  refl _ hroom := ⟨hroom, .refl _, rfl, rfl⟩
  trans h h' hroom :=
    have first := h hroom
    have second := h' first.room
    ⟨second.room, first.later.trans second.later, second.participant.trans first.participant,
      second.history.trans first.history⟩

theorem Attempt.send_later (attempt : Attempt) (relay : MessageRelay) (request : RelayRequest)
    (hquiet : request.publications = 0)
    (hroom : relay.nextMessageId.toNat + MessageRelay.published attempt.others < 2 ^ 64) :
    relay.LaterBy (MessageRelay.published attempt.others) (attempt.send relay request).2 := by
  obtain ⟨hothers, hnext⟩ := relay.later_process attempt.others hroom
  obtain ⟨hown, hlast⟩ := (relay.process attempt.others).later_handle request (by omega)
  have hbound : ((relay.process attempt.others).handle request).2.nextMessageId.toNat ≤
      relay.nextMessageId.toNat + MessageRelay.published attempt.others := by omega
  unfold Attempt.send
  dsimp only
  split
  iterate 2 exact ⟨hothers.trans hown, hbound⟩
  exact ⟨hothers, hnext⟩

theorem within_transmit {request : RelayRequest} (hquiet : request.publications = 0) :
    Within exchanging (transmit request : Handler L _) := by
  intro s hroom
  have hsplit : upcoming s.attempts = MessageRelay.published
      (s.attempts.headD .undisturbed).others + upcoming s.attempts.tail := by
    cases s.attempts with
    | nil => rfl
    | cons attempt attempts => simp [upcoming]
  have hroom' := hroom
  unfold WorkerState.Room at hroom'
  obtain ⟨hlater, hnext⟩ := (s.attempts.headD .undisturbed).send_later s.relay request hquiet
    (by omega)
  refine ⟨?_, hlater, rfl, rfl⟩
  unfold WorkerState.Room
  simp only [transmit, apply_apply]
  omega

variable {call : RelayCall}

theorem within_retryTransientHttp (hquiet : call.request.publications = 0)
    (left : Nat) : Within exchanging (retryTransientHttp call left : Handler L _) := by
  induction left with
  | zero => exact .fail _
  | succ left ih =>
    refine .bind (within_transmit hquiet) fun sent => ?_
    obtain ⟨decision, elapsedMs⟩ := sent
    cases decision with
    | success body => exact .pure body
    | fatal cause => exact .fail _
    | transient cause =>
      dsimp only
      split
      · exact .fail _
      · exact ih

theorem within_relayGetPendingMessage (relayUrl recipient : String) (sender : Option String) :
    Within exchanging (relayGetPendingMessage relayUrl recipient sender : Handler L _) := by
  refine .bind (within_retryTransientHttp rfl _) fun body => ?_
  cases body with
  | message message => exact .pure message
  | text content => exact .fail _

theorem within_relayAckMessage (relayUrl recipient messageId : String) :
    Within exchanging (relayAckMessage relayUrl recipient messageId : Handler L _) :=
  .bind (within_retryTransientHttp rfl _) fun _ => .pure ()

/-- A request that ends well was processed last of all. -/
theorem retryTransientHttp_ok {left : Nat} {s s' : WorkerState L}
    {body : RelayBody} (h : retryTransientHttp call left s = (.ok body, s')) :
    ∃ relay : MessageRelay, s'.relay = (relay.handle call.request).2 ∧
      call.request.retryDecision (relay.handle call.request).1 = .success body := by
  induction left generalizing s with
  | zero => cases h
  | succ left ih =>
    obtain ⟨⟨decision, elapsedMs⟩, s₁, htransmit, hrest⟩ := bind_ok h
    have hsent := congrArg Prod.fst htransmit
    simp only [transmit, apply_apply, Except.ok.injEq, Prod.mk.injEq] at hsent
    have hrelay : ((s.attempts.headD .undisturbed).send s.relay call.request).2 = s₁.relay :=
      congrArg (fun x => x.2.relay) htransmit
    cases decision with
    | success answer =>
      obtain ⟨rfl, rfl⟩ := pure_ok hrest
      refine ⟨s.relay.process (s.attempts.headD .undisturbed).others, ?_⟩
      rw [← hrelay]
      have hdecision := hsent.1
      unfold Attempt.send at hdecision ⊢
      dsimp only at hdecision ⊢
      split at hdecision
      · exact ⟨rfl, hdecision⟩
      · split at hdecision <;> cases hdecision
      · split at hdecision <;> cases hdecision
    | fatal cause => cases hrest
    | transient cause =>
      dsimp only at hrest
      split at hrest
      · cases hrest
      · exact ih hrest

theorem relayGetPendingMessage_ok {relayUrl recipient : String} {sender : Option String}
    {s s' : WorkerState L} {message : PendingMessage}
    (h : relayGetPendingMessage relayUrl recipient sender s = (.ok message, s')) :
    ∃ envelope ∈ s'.relay.inboxQueue recipient, message = envelope.pending ∧
      sender.all (envelope.sender == ·) = true := by
  obtain ⟨body, s₁, hretry, hrest⟩ := bind_ok h
  obtain ⟨relay, hrelay, hdecision⟩ := retryTransientHttp_ok hretry
  cases body with
  | text content => cases hrest
  | message message' =>
    obtain ⟨rfl, rfl⟩ := pure_ok hrest
    simp only [MessageRelay.handle, MessageRelay.fetchPendingMessageRecord_eq] at hrelay hdecision
    split at hdecision
    · rename_i envelope hfind
      rw [hfind] at hrelay
      rw [hrelay]
      cases hdecision
      exact ⟨envelope, mem_of_find?_eq_some hfind, rfl,
        find?_some (p := fun e : RelayEnvelope => sender.all (e.sender == ·)) hfind⟩
    · cases hdecision

/-- An acknowledged message is no longer queued. -/
theorem relayAckMessage_ok {relayUrl recipient messageId : String} {s s' : WorkerState L}
    (h : relayAckMessage relayUrl recipient messageId s = (.ok (), s')) :
    ∀ envelope ∈ s'.relay.inboxQueue recipient, envelope.id ≠ messageId := by
  obtain ⟨body, s₁, hretry, hrest⟩ := bind_ok h
  obtain ⟨-, rfl⟩ := pure_ok hrest
  obtain ⟨relay, hrelay, -⟩ := retryTransientHttp_ok hretry
  have hack : (relay.handle (.ack recipient messageId)).2 =
      (relay.ackMessage recipient messageId).2 := by
    simp only [MessageRelay.handle]
    split <;> rename_i heq <;> rw [heq]
  intro envelope hmem
  rw [hrelay, hack, MessageRelay.inboxQueue_ackMessage, if_pos rfl] at hmem
  exact bne_iff_ne.mp (mem_filter.mp hmem).2

end Helpers

variable {s : WorkerState L}

section Receives

/-- A delivery was decrypted, to the length that is asked for. -/
def Earned (history : List Event) (expected : Option Nat) (delivery : PendingMessage) : Prop :=
  ∃ plaintextBytes, Event.decrypted delivery plaintextBytes ∈ history ∧
    ∀ length, expected = some length → plaintextBytes = length

/-- What an observation says about the ones before it. -/
def truthful (before : List Event) : Event → Prop
  | .decrypted _ _ => True
  | .acked message => ∃ plaintextBytes, Event.decrypted message plaintextBytes ∈ before
  | .answered sender expected message =>
    (∀ name, sender = some name → message.sender = name) ∧
      (∀ length, expected = some length → Event.decrypted message length ∈ before) ∧
      ∀ sender' expected' message', Event.answered sender' expected' message' ∈ before →
        message'.id ≠ message.id

/-- The inbox of the worker holds numbered messages, of which none was answered for, and the
history is truthful. -/
structure Faithful (s : WorkerState L) : Prop where
  numbered : ∀ envelope ∈ s.relay.inboxQueue s.participant.name,
    IdWithin 0 s.relay.nextMessageId.toNat s.participant.name envelope.id
  settled : ∀ sender expected message, Event.answered sender expected message ∈ s.history →
    IdWithin 0 s.relay.nextMessageId.toNat s.participant.name message.id ∧
      ∀ envelope ∈ s.relay.inboxQueue s.participant.name, envelope.id ≠ message.id
  truthful : Warranted truthful s.history

/-- The relay goes on, and nothing that was answered for comes back. -/
theorem Faithful.later {s s' : WorkerState L} (h : Faithful s) (hlater : s.relay.Later s'.relay)
    (hname : s'.participant.name = s.participant.name) (hhistory : s'.history = s.history) :
    Faithful s' := by
  refine ⟨?_, ?_, hhistory ▸ h.truthful⟩
  · rw [hname]
    intro envelope hmem
    rcases hlater.inbox _ envelope hmem with hmem | hid
    · exact (h.numbered envelope hmem).mono (le_refl _) hlater.counter
    · exact hid.mono (Nat.zero_le _) (le_refl _)
  · rw [hname, hhistory]
    intro sender expected message hanswered
    obtain ⟨hwithin, hgone⟩ := h.settled sender expected message hanswered
    refine ⟨hwithin.mono (le_refl _) hlater.counter, fun envelope hmem => ?_⟩
    rcases hlater.inbox _ envelope hmem with hmem | hid
    · exact hgone envelope hmem
    · exact (hwithin.ne hid).symm

theorem Faithful.exchanged {s s' : WorkerState L} (h : Faithful s) (hs : Exchanged s s') :
    Faithful s' :=
  h.later hs.later (congrArg _ hs.participant) hs.history

theorem Faithful.observe (h : Faithful s) {event : Event} (hevent : Signal.truthful s.history event)
    (hopen : ∀ sender expected message, event ≠ .answered sender expected message) :
    Faithful { s with history := s.history ++ [event] } := by
  refine ⟨h.numbered, fun sender expected message hmem => ?_, h.truthful.concat hevent⟩
  rcases mem_append.mp hmem with hmem | hmem
  · exact h.settled sender expected message hmem
  · exact absurd (mem_singleton.mp hmem).symm (hopen sender expected message)

variable {relayUrl : String} {sender : Option String} {expected : Option Nat}

section Delivery

variable {envelope : RelayEnvelope} (h : Faithful s) (hroom : s.Room)
  (hmem : envelope ∈ s.relay.inboxQueue s.participant.name)
  (hsender : sender.all (envelope.sender == ·) = true)

include h hroom hmem hsender

/-- Acknowledging a message that is queued and was decrypted as asked for. -/
theorem Faithful.acknowledge (hearned : Earned s.history expected envelope.pending)
    (text : String) : Faithful
      (Signal.acknowledge relayUrl sender expected envelope.pending text s).2 := by
  obtain ⟨plaintextBytes, hdecrypted, hlength⟩ := hearned
  set s₁ : WorkerState L := { s with history := s.history ++ [.acked envelope.pending] } with hs₁
  have hfaithful₁ : Faithful s₁ := h.observe ⟨plaintextBytes, hdecrypted⟩ (by simp)
  have hexchanged := within_relayAckMessage relayUrl s.participant.name envelope.id s₁ hroom
  change Faithful (andThen _ (relayAckMessage relayUrl s.participant.name envelope.id s₁)).2
  rcases hack : relayAckMessage relayUrl s.participant.name envelope.id s₁ with ⟨result, s₂⟩
  rw [hack] at hexchanged
  have hfaithful₂ := hfaithful₁.exchanged hexchanged
  cases result with
  | error text => exact hfaithful₂
  | ok done =>
    have hgone := relayAckMessage_ok hack
    have hname : s₂.participant.name = s.participant.name := congrArg _ hexchanged.participant
    have hhistory : s₂.history = s.history ++ [.acked envelope.pending] := hexchanged.history
    have hwithin := (h.numbered envelope hmem).mono (le_refl 0) hexchanged.later.counter
    refine ⟨hfaithful₂.numbered, fun sender' expected' message' hmem' => ?_,
      hfaithful₂.truthful.concat ⟨?_, ?_, ?_⟩⟩
    · rcases mem_append.mp hmem' with hmem' | hmem'
      · exact hfaithful₂.settled sender' expected' message' hmem'
      · cases mem_singleton.mp hmem'
        exact ⟨hname ▸ hwithin, hname ▸ hgone⟩
    · rintro name rfl
      exact beq_iff_eq.mp hsender
    · rintro length rfl
      rw [hhistory, ← hlength length rfl]
      exact mem_append_left _ hdecrypted
    · intro sender' expected' message' hmem'
      rw [hhistory] at hmem'
      rcases mem_append.mp hmem' with hmem' | hmem'
      · exact ((h.settled sender' expected' message' hmem').2 envelope hmem).symm
      · cases mem_singleton.mp hmem'

theorem Faithful.acceptPlaintext (plaintext : Delivery.Bytes) : Faithful
    (Signal.acceptPlaintext relayUrl sender expected envelope.pending plaintext s).2 := by
  set s₁ : WorkerState L :=
    { s with history := s.history ++ [.decrypted envelope.pending plaintext.length] } with hs₁
  have hfaithful₁ : Faithful s₁ := h.observe trivial (by simp)
  change Faithful ((if expected.all (plaintext.length == ·) then
    Signal.acknowledge relayUrl sender expected envelope.pending _ else fail _) s₁).2
  split
  · rename_i hall
    refine hfaithful₁.acknowledge hroom hmem hsender ⟨plaintext.length, by simp [hs₁], ?_⟩ _
    rintro length rfl
    exact beq_iff_eq.mp hall
  · exact hfaithful₁

theorem Faithful.processDelivery (htrusted : judgedProcessed s.participant envelope.pending = true →
      Earned s.history expected envelope.pending) :
    Faithful (Signal.processDelivery relayUrl sender expected envelope.pending s).2 := by
  have hasked : sender.all (envelope.pending.sender == ·) = true := hsender
  unfold Signal.processDelivery
  rw [if_pos hasked]
  unfold judgedProcessed at htrusted
  cases hhex : hexDecode envelope.pending.messageHex with
  | none => exact h
  | some messageBytes =>
    rw [hhex] at htrusted
    dsimp only at htrusted ⊢
    unfold openDelivery
    cases hparse : (ciphertextFromBytes messageBytes : Except String L.CiphertextMessage) with
    | error text =>
      rw [hparse] at htrusted
      exact h.acknowledge hroom hmem hsender (htrusted rfl) _
    | ok ciphertext =>
      rw [hparse] at htrusted
      dsimp only at htrusted ⊢
      have hopened : Faithful { s with
          participant := (s.participant.decryptMessage envelope.pending.sender ciphertext).2 } :=
        h.later (.refl _) rfl rfl
      rcases hdecrypt : s.participant.decryptMessage envelope.pending.sender ciphertext with
        ⟨result, participant⟩
      simp only [bind_apply, attempt_apply, onParticipant, hdecrypt, andThen_ok]
      have hname : participant.name = s.participant.name :=
        (congrArg (fun x => x.2.name) hdecrypt).symm
      rw [hdecrypt] at htrusted hopened
      have hmem' : envelope ∈ s.relay.inboxQueue participant.name := hname ▸ hmem
      cases result with
      | ok plaintext => exact hopened.acceptPlaintext hroom hmem' hsender plaintext
      | error text =>
        dsimp only at htrusted ⊢
        split
        · rename_i hduplicate
          exact hopened.acknowledge hroom hmem' hsender (htrusted hduplicate) _
        · exact hopened

end Delivery

/-- What is taken for processed was decrypted as asked for. -/
def Trusted (relayUrl : String) (sender : Option String) (expected : Option Nat)
    (s : WorkerState L) : Prop :=
  ∀ delivery s', relayGetPendingMessage relayUrl s.participant.name sender s = (.ok delivery, s') →
    judgedProcessed s.participant delivery = true → Earned s.history expected delivery

theorem Faithful.receiveMessageDelivery (h : Faithful s) (hroom : s.Room)
    (htrusted : Trusted relayUrl sender expected s) :
    Faithful (Signal.receiveMessageDelivery relayUrl sender expected s).2 := by
  change Faithful (andThen (Signal.processDelivery relayUrl sender expected)
    (relayGetPendingMessage relayUrl s.participant.name sender s)).2
  have hexchanged := within_relayGetPendingMessage relayUrl s.participant.name sender s hroom
  rcases hget : relayGetPendingMessage relayUrl s.participant.name sender s with ⟨result, s₁⟩
  rw [hget] at hexchanged
  have hfaithful₁ := h.exchanged hexchanged
  cases result with
  | error text => exact hfaithful₁
  | ok delivery =>
    obtain ⟨envelope, hmem, rfl, hsender⟩ := relayGetPendingMessage_ok hget
    refine hfaithful₁.processDelivery hexchanged.room ?_ hsender ?_
    · rw [hexchanged.participant]
      exact hmem
    · rw [hexchanged.participant, hexchanged.history]
      exact htrusted _ _ hget

end Receives

section Runs

variable (relayUrl : String) {participant : SignalParticipant L} {attempts : List Attempt}

/-- What happens to a worker: it receives, or it does something else with its stores while
the relay goes on. -/
inductive ReceiveAction (L : LibSignal)
  | decryptMessage (sender : String) (expectedPlaintextBytes : Option Nat)
  /-- One round of `process_pending`. -/
  | pendingRound
  | other (store : L.Store) (requests : List RelayRequest)

def receiveStep (s : WorkerState L) : ReceiveAction L → WorkerState L
  | .decryptMessage sender expected => (decryptMessage relayUrl sender expected s).2
  | .pendingRound => (receiveMessageDelivery relayUrl none none s).2
  | .other store requests =>
    { s with
      participant := { s.participant with store := store }
      relay := s.relay.process requests }

/-- The relay does not run out of sequence numbers, and what is taken for processed was
decrypted as asked for. -/
def ReceiveAdmitted (s : WorkerState L) : ReceiveAction L → Prop
  | .decryptMessage sender expected =>
    s.Room ∧ Trusted relayUrl (expected.map fun _ => sender) expected s
  | .pendingRound => s.Room ∧ Trusted relayUrl none none s
  | .other _ requests =>
    s.relay.nextMessageId.toNat + MessageRelay.published requests < 2 ^ 64

/-- A worker at a relay on which nothing was published yet. -/
def WorkerState.init (participant : SignalParticipant L) (attempts : List Attempt) :
    WorkerState L := ⟨participant, .new, attempts, []⟩

theorem faithful_init : Faithful (WorkerState.init participant attempts) :=
  ⟨fun _ hmem => (nomatch hmem), by simp [WorkerState.init], .nil⟩

theorem Faithful.step (h : Faithful s) (action : ReceiveAction L)
    (hadmitted : ReceiveAdmitted relayUrl s action) : Faithful (receiveStep relayUrl s action) := by
  cases action with
  | decryptMessage sender expected | pendingRound =>
    exact h.receiveMessageDelivery hadmitted.1 hadmitted.2
  | other store requests => exact h.later (s.relay.later_process requests hadmitted).1 rfl rfl

theorem faithful_execute
    {schedule : List (ReceiveAction L)}
    (hrun : Guarded (receiveStep relayUrl) (ReceiveAdmitted relayUrl)
      (.init participant attempts) schedule) :
    Faithful (execute (receiveStep relayUrl) (.init participant attempts) schedule) :=
  hrun.invariant (fun _ action h => h.step relayUrl action) faithful_init

end Runs

section Truth

open Delivery Worker

/-- In every run whose receives take only those messages for processed that were decrypted as
asked for, both workers acknowledge only what they have decrypted, and every good answer of
the Signal worker stands for a message of its own. -/
theorem receives_truthful {M : Mls} (relayUrl : String) (urls : Urls)
    (participant : SignalParticipant L) (attempts : List Attempt)
    (schedule : List (ReceiveAction L))
    (hsignal : Guarded (receiveStep relayUrl) (ReceiveAdmitted relayUrl)
      (.init participant attempts) schedule)
    (slot : Slot M) (mlsSchedule : List (ReceiverAction M))
    (hmls : Guarded (receiverStep urls) ReceiverAdmitted ⟨slot, []⟩ mlsSchedule) :
    Warranted truthful
        (execute (receiveStep relayUrl) (.init participant attempts) schedule).history ∧
      Warranted ackTruthful (execute (receiverStep urls) ⟨slot, []⟩ mlsSchedule).history :=
  ⟨(faithful_execute relayUrl hsignal).truthful, truthful_execute urls hmls⟩

/-- A library that answers decryptions from a script and parses all but the empty message. -/
def scripted : LibSignal where
  Store := List (Except String Bytes)
  PreKeySignalMessage := Empty
  SignalMessage := Bytes
  preKeySignalMessage _ := none
  signalMessage bytes := if bytes.isEmpty then none else some bytes
  messageDecrypt script _ _ := (script.headD (.error "no session"), script.tail)

/-- Alice before she asks for messages, with her script. -/
abbrev scriptedAlice (script : List (Except String Bytes)) : WorkerState scripted :=
  .init ⟨"alice", script⟩ []

/-- Bob sends the given bytes, and alice asks for messages of bob with the given lengths. -/
def askBob (script : List (Except String Bytes)) (bytes : Bytes) (lengths : List Nat) :
    List (ReceiveAction scripted) :=
  .other script [.publish "pair" "bob" ["alice"] bytes] ::
    lengths.map fun length => .decryptMessage "bob" (some length)

def fromBob (messageHex : String) : PendingMessage :=
  ⟨"pair:bob:1:alice", "pair", "bob", messageHex⟩

/-- Alice in a group with bob, and a message of bob for her. -/
def aliceInGroup (M : Mls) (crypto : M.Crypto) (group : M.Group) : Slot M :=
  ⟨⟨"alice", crypto, some group, none, none, []⟩, none⟩

def bobsDelivery : Relay.PendingApplicationMessage := ⟨"01:bob:1:alice", "01", "bob", "07"⟩

def bobsOutcomes : Nat → Except CallFailure (List Worker.Reply)
  | 0 => .ok [.message bobsDelivery]
  | _ => .ok [.done]

theorem askBob_admitted : Guarded (receiveStep "http://relay") (ReceiveAdmitted "http://relay")
    (scriptedAlice [.ok [1, 2]]) (askBob [.ok [1, 2]] [7] [2]) := by
  have hfetched : (relayGetPendingMessage "http://relay" "alice" (some "bob")
      (receiveStep "http://relay" (scriptedAlice [.ok [1, 2]])
        (.other [.ok [1, 2]] [.publish "pair" "bob" ["alice"] [7]]))).1 = .ok (fromBob "07") := by
    rfl
  refine ⟨show _ < _ by decide, ⟨by decide, fun delivery s' hget hjudged => ?_⟩, trivial⟩
  rw [Option.map_some] at hget
  have heq := (congrArg Prod.fst hget).symm.trans hfetched
  cases heq
  exact absurd hjudged (by decide)

theorem bobsOutcomes_admitted : Guarded (receiverStep Symbolic.urls) ReceiverAdmitted
    ⟨aliceInGroup Symbolic.mls "alice" ⟨[1], 0, ["alice", "bob"], none⟩, []⟩
    [.receive bobsOutcomes id] := by
  refine ⟨fun delivery rest houtcome hjudged => ?_, trivial⟩
  cases houtcome
  exact absurd hjudged (by decide)

theorem receives_truthful_two :
    Warranted truthful (execute (receiveStep "http://relay") (scriptedAlice [.ok [1, 2]])
        (askBob [.ok [1, 2]] [7] [2])).history ∧
      Warranted ackTruthful (execute (receiverStep Symbolic.urls)
        ⟨aliceInGroup Symbolic.mls "alice" ⟨[1], 0, ["alice", "bob"], none⟩, []⟩
        [.receive bobsOutcomes id]).history :=
  receives_truthful "http://relay" Symbolic.urls ⟨"alice", [.ok [1, 2]]⟩ []
    (askBob [.ok [1, 2]] [7] [2]) askBob_admitted _ _ bobsOutcomes_admitted

/-- A library that finds every message too far ahead. -/
def tooFarAhead : Mls :=
  { Symbolic.mls with
    processMessage := fun crypto group _ =>
      (.error "Generation is too far in the future to be processed.", crypto, group) }

/-- Alice acknowledges bytes that do not parse and answers for them; she answers for five
bytes after she has decrypted three; and an MLS client acknowledges a message whose key
generation it cannot reach. -/
theorem receives_untruthful :
    ¬Warranted truthful (execute (receiveStep "http://relay") (scriptedAlice [])
        (askBob [] [] [5])).history ∧
      ¬Warranted truthful (execute (receiveStep "http://relay")
        (scriptedAlice [.ok [1, 2, 3], .error "duplicate message"])
        (askBob [.ok [1, 2, 3], .error "duplicate message"] [7] [5, 5])).history ∧
      ¬Warranted ackTruthful (execute (receiverStep Symbolic.urls)
        ⟨aliceInGroup tooFarAhead "alice" ⟨[1], 0, ["alice", "bob"], none⟩, []⟩
        [.receive bobsOutcomes id]).history := by
  refine ⟨fun h => ?_, fun h => ?_, fun h => ?_⟩
  · obtain ⟨length, hmem⟩ := h [] (.acked (fromBob ""))
      [.answered (some "bob") (some 5) (fromBob "")] (by decide)
    cases hmem
  · have hmem := (h [.decrypted (fromBob "07") 3, .acked (fromBob "07")]
      (.answered (some "bob") (some 5) (fromBob "07")) [] (by decide +kernel)).2.1 5 rfl
    revert hmem
    decide
  · obtain ⟨earlier, hmem, delivery, -, -, ⟨rest, houtcome⟩, hopens⟩ :=
      h [_] _ [] rfl _ (mem_singleton.mpr rfl) "alice" bobsDelivery.id rfl
    obtain rfl := mem_singleton.mp hmem
    cases houtcome
    exact absurd hopens (by decide)

end Truth

end MessagingBench.Signal
