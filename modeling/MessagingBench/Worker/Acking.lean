import MessagingBench.Core.Dialogue
import MessagingBench.Worker.Intents
import MessagingBench.Worker.Symbolic

/-!
# Acknowledging commit deliveries

`receive_commit_delivery` runs here against an arbitrary delivery service. A delivery whose
epoch the client has reached is only acknowledged; any other one is applied before. Only
epochs are compared, so that deliveries of another group are acknowledged as well; as long as
none is handed out, every acknowledgement is justified. If acknowledging removes a delivery,
each round but the last one makes the inbox smaller.
-/

namespace MessagingBench.Worker

open List Delivery Program

variable {M : Mls} {σ : Type} {env : Environment (signature M) σ} {urls : Urls}

variable {slot : Slot M} {e e' : σ} {commitBytes : Bytes}

section Requests

variable (env urls) {α : Type}

/-- The waiting point of a single call. -/
def exchange (slot : Slot M) (call : Call) (e : σ) : Exchange (signature M) :=
  ⟨slot, [call], (env.answer [call] e).1⟩

/-- The result of a single call. -/
def replyOf : Except CallFailure (List Reply) → Except String Reply
  | .ok (reply :: _) => .ok reply
  | .ok [] => .error "no reply"
  | .error failure => .error failure.text

theorem converse_request (call : Call) (slot : Slot M) (e : σ) :
    (request call : Task M Reply).converse env slot e = ⟨[exchange env slot call e],
      (replyOf (env.answer [call] e).1, slot), (env.answer [call] e).2⟩ := by
  unfold request
  rw [Work.converse_bind_ok rfl, Work.converse_awaitAll_cons]
  dsimp only
  unfold exchange
  cases (env.answer [call] e).1 with
  | error failure => rfl
  | ok replies => cases replies <;> rfl

/-- Code that goes on after the reply to a call. -/
theorem converse_request_bind (call : Call) (next : Reply → Task M α) (slot : Slot M) (e : σ) :
    (request call >>= next).converse env slot e =
      match replyOf (env.answer [call] e).1 with
      | .ok reply => ((next reply).converse env slot (env.answer [call] e).2).prepend
          [exchange env slot call e]
      | .error message =>
        ⟨[exchange env slot call e], (.error message, slot), (env.answer [call] e).2⟩ := by
  have hrequest := converse_request env call slot e
  have hresult := congrArg Dialogue.result hrequest
  cases hreply : replyOf (env.answer [call] e).1 with
  | error message =>
    rw [hreply] at hresult
    rw [Work.converse_bind_error hresult, hrequest]
  | ok reply =>
    rw [hreply] at hresult
    rw [Work.converse_bind_ok hresult, hrequest]

/-- Code that goes on after an attempt, whatever became of it. -/
theorem converse_attempt_bind {β : Type} {x : Task M α} {next : Except String α → Task M β}
    {slot slot' : Slot M} {exchanges : List (Exchange (signature M))} {result : Except String α}
    (hx : x.converse env slot e = ⟨exchanges, (result, slot'), e'⟩) :
    (Work.attempt x >>= next).converse env slot e =
      ((next result).converse env slot' e').prepend exchanges := by
  have hattempt : (Work.attempt x).converse env slot e = ⟨exchanges, (.ok result, slot'), e'⟩ := by
    rw [Work.converse_attempt, hx]
  rw [Work.converse_bind_ok (congrArg Dialogue.result hattempt), hattempt]

theorem converse_getClient_bind (next : Client M → Task M α) (slot : Slot M) (e : σ) :
    (getClient >>= next).converse env slot e = (next slot.client).converse env slot e := rfl

theorem converse_onClient_bind {β : Type} (f : Client M → Except String α × Client M)
    (next : α → Task M β) (slot : Slot M) (e : σ) :
    (onClient f >>= next).converse env slot e =
      match (f slot.client).1 with
      | .ok a => (next a).converse env { slot with client := (f slot.client).2 } e
      | .error message => ⟨[], (.error message, { slot with client := (f slot.client).2 }), e⟩ := by
  have honClient : (onClient f).converse env slot e =
      ⟨[], ((f slot.client).1, { slot with client := (f slot.client).2 }), e⟩ := rfl
  have hresult := congrArg Dialogue.result honClient
  cases hf : (f slot.client).1 with
  | ok a =>
    rw [hf] at hresult
    rw [Work.converse_bind_ok hresult, honClient, Dialogue.prepend_nil]
  | error message =>
    rw [hf] at hresult
    rw [Work.converse_bind_error hresult, honClient]

/-- The first call of every round. -/
def fetchCall (name : String) : Call :=
  ⟨"fetch_pending_commit", name, urls.ds ++ "/commit/" ++ name ++ "/pending",
    .fetchPendingCommit name⟩

def ackCall (name deliveryId : String) : Call :=
  ⟨"ack_commit", name, urls.ds ++ "/commit/" ++ name ++ "/ack/" ++ deliveryId,
    .ackCommit name deliveryId⟩

def fetched (outcome : Except CallFailure (List Reply)) : Except String PendingCommitDelivery :=
  match replyOf outcome with
  | .ok (.delivery delivery) => .ok delivery
  | .ok _ => .error "error decoding response body"
  | .error message => .error message

/-- What the first call of a round hands out. -/
abbrev offered (slot : Slot M) (e : σ) : Except String PendingCommitDelivery :=
  fetched (env.answer [fetchCall urls slot.client.name] e).1

abbrev afterFetch (slot : Slot M) (e : σ) : σ := (env.answer [fetchCall urls slot.client.name] e).2

abbrev fetchExchange (slot : Slot M) (e : σ) : Exchange (signature M) :=
  exchange env slot (fetchCall urls slot.client.name) e

/-- The environment after a delivery was acknowledged. -/
abbrev afterAck (slot : Slot M) (deliveryId : String) (e : σ) : σ :=
  (env.answer [ackCall urls slot.client.name deliveryId] e).2

abbrev ackExchange (slot : Slot M) (deliveryId : String) (e : σ) : Exchange (signature M) :=
  exchange env slot (ackCall urls slot.client.name deliveryId) e

theorem converse_fetchPendingCommit (slot : Slot M) (e : σ) :
    (fetchPendingCommit urls : Task M PendingCommitDelivery).converse env slot e =
      ⟨[fetchExchange env urls slot e],
        (offered env urls slot e, slot),
        afterFetch env urls slot e⟩ := by
  refine (converse_request_bind env (fetchCall urls slot.client.name) _ slot e).trans ?_
  unfold offered fetched
  cases replyOf (env.answer [fetchCall urls slot.client.name] e).1 with
  | error message => rfl
  | ok reply => cases reply <;> rfl

/-- Acknowledging is a single call, whatever becomes of it. -/
theorem converse_ackCommitDeliveryBestEffort {deliveryId : String} {slot : Slot M} {e : σ} :
    ∃ acked, (ackCommitDeliveryBestEffort urls deliveryId : Task M Bool).converse env slot e =
      ⟨[ackExchange env urls slot deliveryId e], (.ok acked, slot),
        afterAck env urls slot deliveryId e⟩ := by
  have hattempt (next : Except String Reply → Task M Bool) :
      (Work.attempt (request (ackCall urls slot.client.name deliveryId)) >>= next).converse env slot
        e = _ := converse_attempt_bind env (converse_request env _ slot e)
  cases hreply : replyOf (env.answer [ackCall urls slot.client.name deliveryId] e).1 with
  | ok reply =>
    refine ⟨true, (hattempt _).trans ?_⟩
    rw [hreply]
    rfl
  | error message =>
    refine ⟨false, (hattempt _).trans ?_⟩
    rw [hreply]
    rfl

end Requests

section Rounds

variable (env urls)

/-- What one round of the loop can do. -/
inductive RoundCase (slot : Slot M) (e : σ) :
    Dialogue (signature M) σ (Except String Outcome × Slot M) → Prop
  /-- No delivery was handed out: the loop ends. -/
  | nothing {result : Except String Outcome} {message : String}
      (hfetched : offered env urls slot e = .error message)
      (hends : ∀ staleAcked processed, result ≠ .ok (.again staleAcked processed)) :
      RoundCase slot e ⟨[fetchExchange env urls slot e], (result, slot), afterFetch env urls slot e⟩
  /-- The epoch of the delivery was reached: it is only acknowledged. -/
  | stale {result : Except String Outcome} {delivery : PendingCommitDelivery}
      (hfetched : offered env urls slot e = .ok delivery)
      (hreached : currentEpochReached slot.client delivery.epoch = true) :
      RoundCase slot e ⟨[fetchExchange env urls slot e,
          ackExchange env urls slot delivery.id (afterFetch env urls slot e)], (result, slot),
        afterAck env urls slot delivery.id (afterFetch env urls slot e)⟩
  /-- The commit of the delivery cannot be decoded: the loop ends. -/
  | undecodable {delivery : PendingCommitDelivery} {message : String}
      (hfetched : offered env urls slot e = .ok delivery)
      (hreached : currentEpochReached slot.client delivery.epoch = false) :
      RoundCase slot e
        ⟨[fetchExchange env urls slot e], (.error message, slot), afterFetch env urls slot e⟩
  /-- The commit cannot be applied: the loop ends. -/
  | failed {delivery : PendingCommitDelivery} {commitBytes : Bytes} {message : String}
      {slot₁ : Slot M} {e₁ : σ} {applied : List (Exchange (signature M))}
      (hfetched : offered env urls slot e = .ok delivery)
      (hreached : currentEpochReached slot.client delivery.epoch = false)
      (hdecoded : hexDecode delivery.commitHex = some commitBytes)
      (happlied : (applyCommitBytes urls commitBytes).converse env slot (afterFetch env urls slot e) =
        ⟨applied, (.error message, slot₁), e₁⟩) :
      RoundCase slot e ⟨fetchExchange env urls slot e :: applied, (.error message, slot₁), e₁⟩
  /-- The commit is applied, then the delivery acknowledged. -/
  | applied {result : Except String Outcome} {delivery : PendingCommitDelivery}
      {commitBytes : Bytes} {text : String} {slot₁ : Slot M} {e₁ : σ}
      {applied : List (Exchange (signature M))}
      (hfetched : offered env urls slot e = .ok delivery)
      (hreached : currentEpochReached slot.client delivery.epoch = false)
      (hdecoded : hexDecode delivery.commitHex = some commitBytes)
      (happlied : (applyCommitBytes urls commitBytes).converse env slot (afterFetch env urls slot e) =
        ⟨applied, (.ok text, slot₁), e₁⟩) :
      RoundCase slot e
        ⟨fetchExchange env urls slot e :: (applied ++ [ackExchange env urls slot₁ delivery.id e₁]),
          (result, slot₁), afterAck env urls slot₁ delivery.id e₁⟩

theorem converse_ackStaleDelivery {expectedEpoch : Option Epoch} {staleAcked processed : Nat}
    {delivery : PendingCommitDelivery} {slot : Slot M} {e : σ} :
    ∃ result, (ackStaleDelivery urls expectedEpoch staleAcked processed delivery).converse env slot
        e =
      ⟨[ackExchange env urls slot delivery.id e], (result, slot),
        afterAck env urls slot delivery.id e⟩ := by
  obtain ⟨acked, hack⟩ := converse_ackCommitDeliveryBestEffort env urls
  unfold ackStaleDelivery
  rw [Work.converse_bind_ok (congrArg Dialogue.result hack), hack, converse_getClient_bind]
  cases acked <;> by_cases hexpected : expectedReached slot.client expectedEpoch = true
  · rw [if_neg Bool.false_ne_true, if_pos hexpected]
    exact ⟨_, rfl⟩
  · rw [if_neg Bool.false_ne_true, if_neg hexpected]
    exact ⟨_, rfl⟩
  · rw [if_pos rfl, if_pos hexpected]
    exact ⟨_, rfl⟩
  · rw [if_pos rfl, if_neg hexpected]
    exact ⟨_, rfl⟩

/-- A round with a delivery of an epoch that was not reached. -/
theorem converse_applyDelivery {expectedEpoch : Option Epoch} {staleAcked processed : Nat}
    {delivery : PendingCommitDelivery} {e : σ} (hfetched : offered env urls slot e = .ok delivery)
    (hreached : currentEpochReached slot.client delivery.epoch = false) :
    RoundCase env urls slot e
      (((applyDelivery urls expectedEpoch staleAcked processed delivery).converse env slot
        (afterFetch env urls slot e)).prepend
          [fetchExchange env urls slot e]) := by
  unfold applyDelivery
  cases hdecoded : hexDecode delivery.commitHex with
  | none => exact .undecodable hfetched hreached
  | some commitBytes =>
    dsimp only
    rcases happlied : (applyCommitBytes urls commitBytes).converse env slot
        (afterFetch env urls slot e) with ⟨applied, result, e₂⟩
    obtain ⟨result, slot₁⟩ := result
    cases result with
    | error message =>
      rw [Work.converse_bind_error (congrArg Dialogue.result happlied), happlied]
      exact .failed hfetched hreached hdecoded happlied
    | ok text =>
      obtain ⟨acked, hack⟩ := converse_ackCommitDeliveryBestEffort env urls
      rw [Work.converse_bind_ok (congrArg Dialogue.result happlied), happlied,
        Work.converse_bind_ok (congrArg Dialogue.result hack), hack, converse_getClient_bind]
      by_cases hagain :
          (expectedEpoch.isSome && !expectedReached slot₁.client expectedEpoch) = true
      · rw [if_pos hagain]
        exact .applied hfetched hreached hdecoded happlied
      · rw [if_neg hagain]
        exact .applied hfetched hreached hdecoded happlied

theorem round_cases (expectedEpoch : Option Epoch) (staleAcked processed : Nat) (slot : Slot M)
    (e : σ) : RoundCase env urls slot e
      ((receiveCommitDelivery urls expectedEpoch staleAcked processed).converse env slot e) := by
  unfold receiveCommitDelivery
  rw [converse_attempt_bind env (converse_fetchPendingCommit env urls slot e)]
  cases hfetched : offered env urls slot e with
  | error message =>
    dsimp only
    rw [converse_getClient_bind]
    by_cases hexpected : expectedReached slot.client expectedEpoch = true
    · rw [if_pos hexpected]
      exact .nothing hfetched (by simp)
    · rw [if_neg hexpected]
      exact .nothing hfetched (by simp)
  | ok delivery =>
    dsimp only
    rw [converse_getClient_bind]
    by_cases hreached : currentEpochReached slot.client delivery.epoch = true
    · rw [if_pos hreached]
      obtain ⟨result, hstale⟩ := converse_ackStaleDelivery env urls
      rw [hstale]
      exact .stale hfetched hreached
    · rw [if_neg hreached]
      exact converse_applyDelivery env urls hfetched (Bool.eq_false_iff.mpr hreached)

end Rounds

section Loop

variable (env urls)

/-- A round of the loop: what it started with and its dialogue. -/
structure ReceiveRound (M : Mls) (σ : Type) where
  slot : Slot M
  before : σ
  dialogue : Dialogue (signature M) σ (Except String Outcome × Slot M)

/-- A run of the loop; it has no result while it goes on. -/
structure ReceiveRun (M : Mls) (σ : Type) where
  rounds : List (ReceiveRound M σ)
  result : Option (Except String String)
  slot : Slot M
  after : σ

/-- `receive_commit_delivery` for so many rounds. -/
def receiveLoop (expectedEpoch : Option Epoch) :
    Nat → Nat → Nat → Slot M → σ → ReceiveRun M σ
  | 0, _, _, slot, e => ⟨[], none, slot, e⟩
  | rounds + 1, staleAcked, processed, slot, e =>
    let dialogue :=
      (receiveCommitDelivery urls expectedEpoch staleAcked processed).converse env slot e
    match dialogue.result with
    | (.ok (.again staleAcked' processed'), slot') =>
      let run := receiveLoop expectedEpoch rounds staleAcked' processed' slot' dialogue.after
      { run with rounds := ⟨slot, e, dialogue⟩ :: run.rounds }
    | (.ok (.finished message), slot') =>
      ⟨[⟨slot, e, dialogue⟩], some (.ok message), slot', dialogue.after⟩
    | (.error message, slot') =>
      ⟨[⟨slot, e, dialogue⟩], some (.error message), slot', dialogue.after⟩

/-- The loop goes on after a round, or ends with it. -/
theorem receiveLoop_succ (expectedEpoch : Option Epoch) (rounds staleAcked processed : Nat)
    (slot : Slot M) (e : σ) : let dialogue :=
      (receiveCommitDelivery urls expectedEpoch staleAcked processed).converse env slot e
    (∃ staleAcked' processed' slot',
      dialogue.result = (.ok (.again staleAcked' processed'), slot') ∧
        receiveLoop env urls expectedEpoch (rounds + 1) staleAcked processed slot e =
          let run := receiveLoop env urls expectedEpoch rounds staleAcked' processed' slot'
            dialogue.after
          { run with rounds := ⟨slot, e, dialogue⟩ :: run.rounds }) ∨
    ∃ result slot', receiveLoop env urls expectedEpoch (rounds + 1) staleAcked processed slot e =
      ⟨[⟨slot, e, dialogue⟩], some result, slot', dialogue.after⟩ := by
  dsimp only
  rcases hresult : ((receiveCommitDelivery urls expectedEpoch staleAcked processed).converse env slot
      e).result with ⟨result, slot'⟩
  cases result with
  | error message => exact .inr ⟨.error message, slot', by simp only [receiveLoop, hresult]⟩
  | ok outcome =>
    cases outcome with
    | finished message => exact .inr ⟨.ok message, slot', by simp only [receiveLoop, hresult]⟩
    | again staleAcked' processed' =>
      exact .inl ⟨staleAcked', processed', slot', rfl, by simp only [receiveLoop, hresult]⟩

/-- The delivery that is acknowledged by a call. -/
def ackedId (call : Call) : Option String :=
  match call.request with
  | .ackCommit _ deliveryId => some deliveryId
  | _ => none

namespace ReceiveRound

variable (round : ReceiveRound M σ)

/-- The delivery that was handed out. -/
def delivery : Option PendingCommitDelivery :=
  round.dialogue.exchanges.head?.bind fun x => (fetched x.outcome).toOption

/-- The deliveries that were acknowledged. -/
def ackedIds : List String :=
  round.dialogue.exchanges.flatMap fun x => x.calls.filterMap ackedId

end ReceiveRound

/-- An acknowledgement is justified: the commit was just applied, or it is of the client's
group and leads to an epoch the client had reached. -/
inductive Justified (round : ReceiveRound M σ) (deliveryId : String) : Prop
  | applied {delivery : PendingCommitDelivery} {commitBytes : Bytes} {text : String}
      {slot' : Slot M} {e₁ e₂ : σ} {fetch : Exchange (signature M)}
      {applied : List (Exchange (signature M))}
      (hdelivery : round.delivery = some delivery) (hid : delivery.id = deliveryId)
      (hdecoded : hexDecode delivery.commitHex = some commitBytes)
      (happlied : (applyCommitBytes urls commitBytes).converse env round.slot e₁ =
        ⟨applied, (.ok text, slot'), e₂⟩)
      (hexchanges : round.dialogue.exchanges = fetch ::
        (applied ++ [ackExchange env urls slot' deliveryId e₂]))
  | reached {delivery : PendingCommitDelivery} (hdelivery : round.delivery = some delivery)
      (hid : delivery.id = deliveryId)
      (hgroup : round.slot.client.groupIdHex = .ok delivery.groupId)
      (hreached : currentEpochReached round.slot.client delivery.epoch = true)

variable {env urls}

variable {P : Call → Prop} {call : Call}

theorem issues_request (h : P call) : Work.Issues P (request call : Task M Reply) := by
  refine .bind (.awaitAll fun other hother => ?_) fun outcome => ?_
  · rw [mem_singleton.mp hother]
    exact h
  · cases outcome with
    | error failure => exact .fail _
    | ok replies =>
      cases replies with
      | nil => exact .fail _
      | cons reply rest => exact .pure reply

theorem issues_getClient : Work.Issues P (getClient : Task M (Client M)) := fun _ => trivial

theorem issues_setIntent {intent : Option PendingIntent} :
    Work.Issues P (setIntent intent : Task M Unit) := fun _ => trivial

theorem issues_onClient {α : Type} (f : Client M → Except String α × Client M) :
    Work.Issues P (onClient f : Task M α) := fun _ => trivial

abbrev AcksNothing {α : Type} (x : Task M α) : Prop :=
  Work.Issues (fun call => ackedId call = none) x

theorem acksNothing_composes : Composes (M := M) fun _ x => AcksNothing x :=
  ⟨.lift, issues_getClient, .bind, .attempt⟩

theorem updateDsGroupState_issues : AcksNothing (updateDsGroupState urls : Task M Unit) :=
  acksNothing_composes.updateDsGroupState fun _ ⟨_, _, _, hcall⟩ =>
    issues_request (by rw [ackedId, hcall])

theorem tryStartIntent_issues (intent : PendingIntent) :
    AcksNothing (tryStartIntent urls intent : Task M DsPostResult) := by
  have hcreate : AcksNothing (createCommit intent : Task M Bytes) := by
    refine .bind .draw fun seed => ?_
    cases intent <;> exact issues_onClient _
  have hpublish (commitBytes : Bytes) : AcksNothing
      (publishEpochChange urls commitBytes : Task M DsPostResult) := by
    refine .bind issues_getClient fun client => .bind (.lift _) fun groupId =>
      .bind (.lift _) fun epoch => .bind (.note _) fun _ =>
        .bind (issues_request rfl) fun reply => ?_
    cases reply <;> exact .pure _
  have hrollback (commitBytes : Bytes) : AcksNothing (rollback commitBytes : Task M Unit) :=
    .bind issues_getClient fun client => .bind (.lift _) fun groupId =>
      .bind (.lift _) fun epoch => .bind (.note _) fun _ => issues_onClient _
  refine .bind hcreate fun commitBytes => .bind (hpublish commitBytes) fun result => ?_
  cases result with
  | ok => exact .pure _
  | conflict message => exact .bind (hrollback commitBytes) fun _ => .pure _

theorem maybeRetryPendingIntent_issues :
    AcksNothing (maybeRetryPendingIntent urls : Task M (Option String)) := by
  refine .bind .get fun slot => ?_
  cases slot.queuedIntent with
  | none => exact .pure none
  | some intent =>
    refine .bind (tryStartIntent_issues intent) fun result => ?_
    cases result with
    | _ => exact .bind issues_setIntent fun _ => .pure _

variable (urls) in
/-- Applying a commit acknowledges nothing. -/
theorem applyCommitBytes_issues (commitBytes : Bytes) :
    AcksNothing (applyCommitBytes urls commitBytes : Task M String) := by
  refine .bind .draw fun seed => .bind (issues_onClient _) fun outcome => ?_
  cases outcome with
  | externalCommitApplied selfRemoved =>
    cases selfRemoved with
    | true => exact .bind issues_setIntent fun _ => .pure _
    | false =>
      refine .bind updateDsGroupState_issues fun _ =>
        .bind maybeRetryPendingIntent_issues fun text => ?_
      cases text <;> exact .pure _
  | ownCommitAccepted selfRemoved recipients welcomeBytes =>
    cases selfRemoved with
    | true => exact .bind issues_setIntent fun _ => .pure _
    | false =>
      refine acksNothing_composes.followUp recipients welcomeBytes (fun _ => .note _)
        (fun calls hcalls => ?_) updateDsGroupState_issues
      refine .awaitAll fun call hcall => ?_
      obtain ⟨_, _, hrequest⟩ := hcalls call hcall
      rw [ackedId, hrequest]

theorem updateDsGroupState_waits : Work.Waits env (updateDsGroupState urls : Task M Unit) := by
  refine Work.waits_bind fun client => Work.waits_bind fun groupId => Work.waits_bind fun epoch =>
    Work.waits_bind fun members => .bind fun slot e => .inl ?_
  rw [Work.converse_attempt, converse_request]
  exact cons_ne_nil _ _

/-- Applying a commit takes a call, unless the client was removed. -/
theorem applyCommitBytes_at_once {slot slot' : Slot M} {text : String}
    (h : (applyCommitBytes urls commitBytes).converse env slot e =
      ⟨[], (.ok text, slot'), e'⟩) : slot'.client.group = none := by
  have hno {x : Task M String} (hx : Work.Waits env x) {slot : Slot M} {e : σ}
      (hconverse : x.converse env slot e = ⟨[], (.ok text, slot'), e'⟩) : False := by
    rcases hx slot e with hne | ⟨message, slot₁, herror⟩
    · rw [hconverse] at hne
      exact hne rfl
    · rw [hconverse] at herror
      cases herror
  unfold applyCommitBytes at h
  rw [Work.converse_bind_ok rfl, Work.converse_draw, Dialogue.prepend_nil,
    converse_onClient_bind] at h
  rcases hreceive : slot.client.receiveCommit commitBytes (env.draw e).1 with ⟨result, client⟩
  cases result with
  | error message => simp [hreceive] at h
  | ok outcome =>
    simp only [hreceive] at h
    have hremoved (hself : outcome.selfRemoved = true) : client.group = none :=
      JustRemoved.group ⟨slot.client, commitBytes, (env.draw e).1, outcome, hreceive, hself⟩
    cases outcome with
    | externalCommitApplied selfRemoved =>
      cases selfRemoved with
      | true =>
        cases h
        exact hremoved rfl
      | false => exact (hno updateDsGroupState_waits.bind h).elim
    | ownCommitAccepted selfRemoved recipients welcomeBytes =>
      cases selfRemoved with
      | true =>
        cases h
        exact hremoved rfl
      | false =>
        refine (hno ?_ h).elim
        exact Work.waits_bind fun _ => Work.waits_bind fun _ => updateDsGroupState_waits.bind

/-- A round in which nothing of another group is skipped. -/
def ReceiveRound.Fair (round : ReceiveRound M σ) : Prop :=
  ∀ delivery, round.delivery = some delivery →
    currentEpochReached round.slot.client delivery.epoch = true →
      round.slot.client.groupIdHex = .ok delivery.groupId

instance (round : ReceiveRound M σ) : Decidable round.Fair :=
  match hdelivery : round.delivery with
  | none => isTrue fun delivery hsome => absurd (hdelivery.symm.trans hsome) (by simp)
  | some delivery =>
    decidable_of_iff (currentEpochReached round.slot.client delivery.epoch = true →
      round.slot.client.groupIdHex = .ok delivery.groupId)
      ⟨fun hfair other hsome => Option.some.inj (hdelivery.symm.trans hsome) ▸ hfair,
        fun hfair => hfair delivery hdelivery⟩

theorem ackedIds_applied {applied : List (Exchange (signature M))}
    {result : Except String String × Slot M}
    (h : (applyCommitBytes urls commitBytes).converse env slot e = ⟨applied, result, e'⟩) :
    (applied.flatMap fun x => x.calls.filterMap ackedId) = [] := by
  have hexchanges : (Program.converse env (applyCommitBytes urls commitBytes slot) e).exchanges =
      applied := congrArg Dialogue.exchanges h
  have hcalls := (applyCommitBytes_issues urls commitBytes slot).converse env e
  rw [hexchanges] at hcalls
  rw [flatMap_eq_nil_iff]
  intro x hx
  rw [filterMap_eq_nil_iff]
  exact hcalls x hx

theorem currentEpochReached_group {client : Client M} {epoch : Epoch}
    (h : currentEpochReached client epoch = true) : client.group ≠ none := by
  intro hnone
  simp [currentEpochReached, Client.currentEpoch, Client.requireGroup, hnone, Except.map] at h

theorem ReceiveRound.delivery_of_fetched {delivery : PendingCommitDelivery} {e : σ}
    {rest : List (Exchange (signature M))} {result : Except String Outcome × Slot M} {after : σ}
    (h : fetched (env.answer [call] e).1 = .ok delivery) :
    (ReceiveRound.mk slot e ⟨exchange env slot call e :: rest, result, after⟩).delivery =
      some delivery := by
  simp [ReceiveRound.delivery, exchange, h, Except.toOption]

/-- In every round, exactly the deliveries that were skipped although they are of another
group are acknowledged without justification. -/
theorem justified_iff_fair {e : σ}
    {dialogue : Dialogue (signature M) σ (Except String Outcome × Slot M)}
    (hcase : RoundCase env urls slot e dialogue) :
    (∀ id ∈ (ReceiveRound.mk slot e dialogue).ackedIds, Justified env urls ⟨slot, e, dialogue⟩ id) ↔
      (ReceiveRound.mk slot e dialogue).Fair := by
  have hnew {name : String} {delivery : PendingCommitDelivery}
      {rest : List (Exchange (signature M))} {result : Except String Outcome × Slot M} {after : σ}
      (hfetched : fetched (env.answer [fetchCall urls name] e).1 = .ok delivery)
      (hreached : currentEpochReached slot.client delivery.epoch = false) :
      (ReceiveRound.mk slot e ⟨exchange env slot (fetchCall urls name) e :: rest, result,
        after⟩).Fair := by
    intro other hsome hother
    cases (ReceiveRound.delivery_of_fetched hfetched).symm.trans hsome
    rw [hreached] at hother
    cases hother
  have hfetch : (fetchExchange env urls slot e).calls.filterMap ackedId =
      [] := rfl
  cases hcase with
  | nothing hfetched hends =>
    refine iff_of_true (fun id hid => absurd hid not_mem_nil) fun delivery hsome => ?_
    simp [ReceiveRound.delivery, exchange, hfetched, Except.toOption] at hsome
  | @stale result delivery hfetched hreached =>
    change (∀ id ∈ [delivery.id], _) ↔ _
    constructor
    · intro hjustified other hsome hother
      cases (ReceiveRound.delivery_of_fetched hfetched).symm.trans hsome
      cases hjustified delivery.id mem_cons_self with
      | reached hsome hid hgroup =>
        cases (ReceiveRound.delivery_of_fetched hfetched).symm.trans hsome
        exact hgroup
      | applied hsome hid hdecoded happlied hexchanges =>
        obtain ⟨-, hrest⟩ := cons.inj hexchanges
        obtain ⟨rfl, hack⟩ := (append_eq_singleton_iff.mp hrest.symm).resolve_right (by simp)
        have hslot : _ = slot := congrArg Exchange.shown (cons.inj hack).1
        have hgroup := applyCommitBytes_at_once happlied
        simp only [exchange] at hslot
        rw [hslot] at hgroup
        exact absurd hgroup (currentEpochReached_group hreached)
    · intro hfair id hid
      rw [mem_singleton.mp hid]
      refine .reached (ReceiveRound.delivery_of_fetched hfetched) rfl ?_ hreached
      exact hfair delivery (ReceiveRound.delivery_of_fetched hfetched) hreached
  | undecodable hfetched hreached =>
    exact iff_of_true (fun id hid => absurd hid not_mem_nil) (hnew hfetched hreached)
  | failed hfetched hreached hdecoded happlied =>
    refine iff_of_true (fun id hid => ?_) (hnew hfetched hreached)
    rw [ReceiveRound.ackedIds, flatMap_cons, ackedIds_applied happlied, hfetch] at hid
    cases hid
  | @applied result delivery _ text slot₁ e₁ applied hfetched hreached hdecoded happlied =>
    refine iff_of_true (fun id hid => ?_) (hnew hfetched hreached)
    have hack : ([ackExchange env urls slot₁ delivery.id e₁].flatMap
        fun x => x.calls.filterMap ackedId) = [delivery.id] := rfl
    rw [ReceiveRound.ackedIds, flatMap_cons, flatMap_append, ackedIds_applied happlied,
      hfetch, hack, nil_append, nil_append, mem_singleton] at hid
    subst hid
    exact .applied (ReceiveRound.delivery_of_fetched hfetched) rfl hdecoded happlied rfl

end Loop

section Inbox

/-- The pending deliveries of the client behind the delivery service: they are handed out from
the inbox, acknowledging one removes it, and others may arrive at any time. -/
structure Inbox (env : Environment (signature M) σ) (pending : σ → List PendingCommitDelivery)
    (arrived : σ → Nat) : Prop where
  handed : ∀ call e delivery, fetched (env.answer [call] e).1 = .ok delivery → delivery ∈ pending e
  answered : ∀ calls e, ∃ new,
    pending (env.answer calls e).2 =
        (pending e).filter (fun delivery => !(calls.filterMap ackedId).contains delivery.id) ++
          new ∧
      arrived (env.answer calls e).2 = arrived e + new.length
  drawn : ∀ e, pending (env.draw e).2 = pending e ∧ arrived (env.draw e).2 = arrived e

variable {pending : σ → List PendingCommitDelivery} {arrived : σ → Nat}

/-- What happens to the inbox while nothing is acknowledged. -/
structure InboxGrows (pending : σ → List PendingCommitDelivery) (arrived : σ → Nat) (e e' : σ) :
    Prop where
  kept : ∀ delivery ∈ pending e, delivery ∈ pending e'
  length : (pending e').length + arrived e = (pending e).length + arrived e'
  arrived_le : arrived e ≤ arrived e'

theorem InboxGrows.trans {e₁ e₂ e₃ : σ} (h₁ : InboxGrows pending arrived e₁ e₂)
    (h₂ : InboxGrows pending arrived e₂ e₃) : InboxGrows pending arrived e₁ e₃ := by
  have hlength₁ := h₁.length
  have hlength₂ := h₂.length
  exact ⟨fun d hd => h₂.kept d (h₁.kept d hd), by omega, Nat.le_trans h₁.arrived_le h₂.arrived_le⟩

section

variable (hinbox : Inbox env pending arrived)
include hinbox

theorem Inbox.grows {calls : List Call} {e : σ} (hcalls : ∀ call ∈ calls, ackedId call = none) :
    InboxGrows pending arrived e (env.answer calls e).2 := by
  obtain ⟨new, hpending, harrived⟩ := hinbox.answered calls e
  have hnone : calls.filterMap ackedId = [] := filterMap_eq_nil_iff.mpr hcalls
  have hall : pending (env.answer calls e).2 = pending e ++ new := by
    rw [hpending, hnone]
    simp
  refine ⟨fun delivery hmem => ?_, ?_, ?_⟩
  · rw [hall]
    exact mem_append_left _ hmem
  · rw [hall, length_append]
    omega
  · omega

theorem Inbox.grows_applied
    {applied : List (Exchange (signature M))} {result : Except String String × Slot M}
    (h : (applyCommitBytes urls commitBytes).converse env slot e = ⟨applied, result, e'⟩) :
    InboxGrows pending arrived e e' := by
  have hcalls := (applyCommitBytes_issues urls commitBytes slot).converse env e
  have hafter : (Program.converse env (applyCommitBytes urls commitBytes slot) e).after = e' :=
    congrArg Dialogue.after h
  rw [← hafter]
  refine Program.converse_rel
    (P := fun calls => ∀ call ∈ calls, ackedId call = none)
    (fun e => ⟨fun _ h => h, rfl, Nat.le_refl _⟩) InboxGrows.trans (fun e => ?_)
    (fun calls e h => hinbox.grows h) hcalls
  obtain ⟨hpending, harrived⟩ := hinbox.drawn e
  exact ⟨fun d hd => by rwa [hpending], by rw [hpending, harrived], Nat.le_of_eq harrived.symm⟩

/-- Acknowledging a pending delivery makes the inbox smaller. -/
theorem Inbox.shrinks (urls : Urls) {delivery : PendingCommitDelivery} (hmem : delivery ∈ pending e)
    (hgrows : InboxGrows pending arrived e e') (name : String) :
    arrived e ≤ arrived (env.answer [ackCall urls name delivery.id] e').2 ∧
      1 + arrived e + (pending (env.answer [ackCall urls name delivery.id] e').2).length ≤
        (pending e).length + arrived (env.answer [ackCall urls name delivery.id] e').2 := by
  obtain ⟨new, hpending, harrived⟩ := hinbox.answered [ackCall urls name delivery.id] e'
  have hids : [ackCall urls name delivery.id].filterMap ackedId = [delivery.id] := rfl
  rw [hids] at hpending
  have hfewer : ((pending e').filter fun d => !([delivery.id].contains d.id)).length <
      (pending e').length := by
    refine length_filter_lt_length_iff_exists.mpr ⟨delivery, hgrows.kept delivery hmem, ?_⟩
    simp
  have hle := hgrows.arrived_le
  have hlength := hgrows.length
  rw [hpending, length_append, harrived]
  omega

/-- What a round does to the inbox: one that is handed a delivery takes it out, or is the last
one. -/
structure Inbox.Round (pending : σ → List PendingCommitDelivery) (arrived : σ → Nat)
    (round : ReceiveRound M σ) : Prop where
  arrived_le : arrived round.before ≤ arrived round.dialogue.after
  handed : round.delivery.isSome = true →
    1 + arrived round.before ≤ (pending round.before).length + arrived round.dialogue.after
  again : ∀ staleAcked processed, round.dialogue.result.1 = .ok (.again staleAcked processed) →
    round.delivery.isSome = true ∧
      1 + arrived round.before + (pending round.dialogue.after).length ≤
        (pending round.before).length + arrived round.dialogue.after

theorem Inbox.round {e : σ} {dialogue : Dialogue (signature M) σ (Except String Outcome × Slot M)}
    (hcase : RoundCase env urls slot e dialogue) :
    Inbox.Round pending arrived ⟨slot, e, dialogue⟩ := by
  have hfetch : InboxGrows pending arrived e (afterFetch env urls slot e) :=
    hinbox.grows fun call hcall => by rw [mem_singleton.mp hcall]; rfl
  have hmem {delivery : PendingCommitDelivery}
      (hfetched : offered env urls slot e = .ok delivery) :
      delivery ∈ pending e := hinbox.handed _ e delivery hfetched
  cases hcase with
  | nothing hfetched hends =>
    refine ⟨hfetch.arrived_le, fun hhanded => ?_, fun staleAcked processed hagain => ?_⟩
    · simp [ReceiveRound.delivery, exchange, hfetched, Except.toOption] at hhanded
    · exact absurd hagain (hends staleAcked processed)
  | undecodable hfetched hreached =>
    refine ⟨hfetch.arrived_le, fun _ => ?_, fun _ _ hagain => by cases hagain⟩
    exact Nat.add_le_add (length_pos_of_mem (hmem hfetched)) hfetch.arrived_le
  | failed hfetched hreached hdecoded happlied =>
    have hle := (hfetch.trans (hinbox.grows_applied happlied)).arrived_le
    refine ⟨hle, fun _ => ?_, fun _ _ hagain => by cases hagain⟩
    exact Nat.add_le_add (length_pos_of_mem (hmem hfetched)) hle
  | stale hfetched hreached =>
    obtain ⟨hle, hshrinks⟩ := hinbox.shrinks urls (hmem hfetched) hfetch slot.client.name
    exact ⟨hle, fun _ => Nat.le_of_add_right_le hshrinks, fun _ _ _ =>
      ⟨congrArg Option.isSome (ReceiveRound.delivery_of_fetched hfetched), hshrinks⟩⟩
  | @applied _ _ _ _ slot₁ _ _ hfetched hreached hdecoded happlied =>
    obtain ⟨hle, hshrinks⟩ := hinbox.shrinks urls (hmem hfetched)
      (hfetch.trans (hinbox.grows_applied happlied)) slot₁.client.name
    exact ⟨hle, fun _ => Nat.le_of_add_right_le hshrinks, fun _ _ _ =>
      ⟨congrArg Option.isSome (ReceiveRound.delivery_of_fetched hfetched), hshrinks⟩⟩

def ReceiveRun.handled (run : ReceiveRun M σ) : Nat := run.rounds.countP (·.delivery.isSome)

/-- The loop handles no more deliveries than were pending or arrived meanwhile, takes at most one
round more, and ends when it is handed none. -/
theorem receiveLoop_handled (expectedEpoch : Option Epoch)
    (rounds staleAcked processed : Nat) (slot : Slot M) (e : σ) :
    (receiveLoop env urls expectedEpoch rounds staleAcked processed slot e).handled + arrived e ≤
        (pending e).length +
          arrived (receiveLoop env urls expectedEpoch rounds staleAcked processed slot e).after ∧
      (receiveLoop env urls expectedEpoch rounds staleAcked processed slot e).rounds.length ≤
        (receiveLoop env urls expectedEpoch rounds staleAcked processed slot e).handled + 1 ∧
      ((receiveLoop env urls expectedEpoch rounds staleAcked processed slot e).result = none →
        (receiveLoop env urls expectedEpoch rounds staleAcked processed slot e).handled =
          rounds) := by
  induction rounds generalizing staleAcked processed slot e with
  | zero => exact ⟨by simp [receiveLoop, ReceiveRun.handled], Nat.zero_le _, fun _ => rfl⟩
  | succ rounds ih =>
    have hround := hinbox.round (round_cases env urls expectedEpoch staleAcked processed slot e)
    rcases receiveLoop_succ env urls expectedEpoch rounds staleAcked processed slot e with
      ⟨staleAcked', processed', slot', hresult, hrun⟩ | ⟨result, slot', hrun⟩
    · obtain ⟨hsome, hshrinks⟩ := hround.again staleAcked' processed' (by rw [hresult])
      obtain ⟨hrest, hlength, hgoes⟩ := ih staleAcked' processed' slot'
        ((receiveCommitDelivery urls expectedEpoch staleAcked processed).converse env slot e).after
      rw [hrun]
      unfold ReceiveRun.handled at *
      dsimp only at hshrinks hrest hlength hgoes ⊢
      rw [countP_cons, if_pos hsome, length_cons]
      exact ⟨by omega, by omega, fun hnone => by rw [hgoes hnone]⟩
    · rw [hrun]
      refine ⟨?_, Nat.le_add_left .., fun hnone => by cases hnone⟩
      unfold ReceiveRun.handled
      by_cases hsome : (ReceiveRound.mk slot e ((receiveCommitDelivery urls expectedEpoch staleAcked
          processed).converse env slot e)).delivery.isSome = true
      · rw [countP_cons, if_pos hsome]
        exact hround.handed hsome
      · rw [countP_cons, if_neg hsome]
        have hle := hround.arrived_le
        dsimp only [countP_nil] at hle ⊢
        omega

end

end Inbox

/-- Every round of a run is one of the loop's code. -/
theorem receiveLoop_rounds {expectedEpoch : Option Epoch} {rounds staleAcked processed : Nat}
    {e : σ} : ∀ round ∈ (receiveLoop env urls expectedEpoch rounds staleAcked
      processed slot e).rounds, RoundCase env urls round.slot round.before round.dialogue := by
  induction rounds generalizing staleAcked processed slot e with
  | zero => exact fun round hround => absurd hround not_mem_nil
  | succ rounds ih =>
    have hfirst := round_cases env urls expectedEpoch staleAcked processed slot e
    rcases receiveLoop_succ env urls expectedEpoch rounds staleAcked processed slot e with
      ⟨staleAcked', processed', slot', -, hrun⟩ | ⟨result, slot', hrun⟩
    · rw [hrun]
      intro round hround
      rcases mem_cons.mp hround with rfl | hround
      · exact hfirst
      · exact ih round hround
    · rw [hrun]
      intro round hround
      rw [mem_singleton.mp hround]
      exact hfirst

/-- Whatever the delivery service hands out and whatever becomes of the acknowledgements: every
acknowledgement of the loop is justified exactly if no delivery that is skipped, because its
epoch was reached, is of another group than the client's. If acknowledging removes a
delivery, the loop handles no more deliveries than were pending or arrived while it ran, takes
at most one round more, and is over as soon as none is handed out. -/
theorem receive_loop_acks_justified (env : Environment (signature M) σ) (urls : Urls)
    (expectedEpoch : Option Epoch) (rounds : Nat) (slot : Slot M) (e : σ) :
    ((∀ round ∈ (receiveLoop env urls expectedEpoch rounds 0 0 slot e).rounds,
        ∀ id ∈ round.ackedIds, Justified env urls round id) ↔
      ∀ round ∈ (receiveLoop env urls expectedEpoch rounds 0 0 slot e).rounds, round.Fair) ∧
    ∀ pending arrived, Inbox env pending arrived →
      (receiveLoop env urls expectedEpoch rounds 0 0 slot e).handled + arrived e ≤
          (pending e).length +
            arrived (receiveLoop env urls expectedEpoch rounds 0 0 slot e).after ∧
        (receiveLoop env urls expectedEpoch rounds 0 0 slot e).rounds.length ≤
          (receiveLoop env urls expectedEpoch rounds 0 0 slot e).handled + 1 ∧
        ((receiveLoop env urls expectedEpoch rounds 0 0 slot e).result = none →
          (receiveLoop env urls expectedEpoch rounds 0 0 slot e).handled = rounds) := by
  refine ⟨forall₂_congr fun round hround => ?_, fun pending arrived hinbox => ?_⟩
  · exact justified_iff_fair (receiveLoop_rounds round hround)
  · exact receiveLoop_handled hinbox expectedEpoch rounds 0 0 slot e

section Cases

/-- The first delivery of an inbox is handed out. -/
def inboxReply (pending : List PendingCommitDelivery) : Request → Except CallFailure (List Reply)
  | .fetchPendingCommit recipient =>
    match pending with
    | [] => .error ⟨.fetchPendingCommit recipient, "not found"⟩
    | delivery :: _ => .ok [.delivery delivery]
  | _ => .ok [.done]

/-- A delivery service with one inbox in which nothing arrives. -/
abbrev inboxEnvironment (M : Mls) : Environment (signature M) (List PendingCommitDelivery) where
  answer calls pending :=
    ((calls.head?.map fun call => inboxReply pending call.request).getD (.ok []),
      pending.filter fun delivery => !(calls.filterMap ackedId).contains delivery.id)
  draw pending := (0, pending)

theorem inboxEnvironment_inbox {M : Mls} :
    Inbox (inboxEnvironment M) (fun pending => pending) fun _ => 0 := by
  refine ⟨fun call pending delivery hfetched => ?_, fun calls pending => ⟨[], by simp, rfl⟩,
    fun _ => ⟨rfl, rfl⟩⟩
  have hreply : fetched (inboxReply pending call.request) = .ok delivery := hfetched
  cases hrequest : call.request with
  | fetchPendingCommit recipient =>
    rw [hrequest] at hreply
    cases pending with
    | nil => cases hreply
    | cons first rest =>
      cases hreply
      exact mem_cons_self
  | _ =>
    rw [hrequest] at hreply
    cases hreply

/-- A client of the group `01` in epoch 3. -/
abbrev memberSlot : Slot Symbolic.mls :=
  ⟨⟨"alice", "alice", some ⟨[1], 3, ["alice", "bob"], none⟩, none, none, []⟩, none⟩

/-- The commit that leads another group to epoch 2. -/
abbrev otherGroupDelivery : PendingCommitDelivery := ⟨"other", "02", 2, "carol", "00"⟩

/-- A delivery of another group is acknowledged without having been applied. -/
theorem other_group_acked :
    ((receiveLoop (inboxEnvironment Symbolic.mls) Symbolic.urls none 2 0 0 memberSlot
        [otherGroupDelivery]).rounds.map (·.ackedIds)) = [["other"], []] ∧
      (receiveLoop (inboxEnvironment Symbolic.mls) Symbolic.urls none 2 0 0 memberSlot
        [otherGroupDelivery]).after = [] ∧
      ¬∀ round ∈ (receiveLoop (inboxEnvironment Symbolic.mls) Symbolic.urls none 2 0 0 memberSlot
          [otherGroupDelivery]).rounds,
        ∀ id ∈ round.ackedIds,
          Justified (inboxEnvironment Symbolic.mls) Symbolic.urls round id := by
  refine ⟨by decide +kernel, by decide +kernel, fun hjustified => ?_⟩
  have hfair := (justified_iff_fair (round_cases (inboxEnvironment Symbolic.mls) Symbolic.urls none
    0 0 memberSlot [otherGroupDelivery])).mp (hjustified _ mem_cons_self)
  have hgroup := hfair otherGroupDelivery rfl (by decide +kernel)
  exact absurd hgroup (by decide +kernel)

/-- A delivery of the own group that was applied before is acknowledged, and the loop ends. -/
theorem own_group_acked :
    (∀ round ∈ (receiveLoop (inboxEnvironment Symbolic.mls) Symbolic.urls none 5 0 0 memberSlot
        [⟨"own", "01", 3, "bob", "00"⟩]).rounds,
      ∀ id ∈ round.ackedIds, Justified (inboxEnvironment Symbolic.mls) Symbolic.urls round id) ∧
    (receiveLoop (inboxEnvironment Symbolic.mls) Symbolic.urls none 5 0 0 memberSlot
      [⟨"own", "01", 3, "bob", "00"⟩]).rounds.length ≤ 2 := by
  obtain ⟨hiff, hbound⟩ := receive_loop_acks_justified (inboxEnvironment Symbolic.mls) Symbolic.urls
    none 5 memberSlot [⟨"own", "01", 3, "bob", "00"⟩]
  obtain ⟨hhandled, hrounds, -⟩ := hbound _ _ inboxEnvironment_inbox
  exact ⟨hiff.mpr (by decide +kernel), Nat.le_trans hrounds (Nat.succ_le_succ hhandled)⟩

end Cases

end MessagingBench.Worker
