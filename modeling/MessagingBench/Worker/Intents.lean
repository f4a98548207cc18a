import MessagingBench.Core.Segments
import MessagingBench.Worker.Commands

/-!
# The queued intent in the command code

How the segments of the command code treat the queued intent of a client. Code that
receives commits gives an intent up only after a retry has posted its commit, or when
the client has just applied a commit that removes it. Code that starts an intent only
ever replaces the slot after a conflict. All other code leaves it alone.
-/

namespace MessagingBench.Worker

open Delivery

variable {M : Mls} {α β : Type}

def Client.commitOf (client : Client M) (seed : Nat) : PendingIntent → Except String Bytes × Client M
  | .addMembers members keyPackageBytesList => client.addMembers keyPackageBytesList members seed
  | .removeMembers members => client.removeMembers members seed
  | .selfUpdate => client.selfUpdate seed

def CommitFor (M : Mls) (intent : PendingIntent) (commitBytes : Bytes) : Prop :=
  ∃ (client : Client M) (seed : Nat), (client.commitOf seed intent).1 = .ok commitBytes

def CommitReceiveOutcome.selfRemoved : CommitReceiveOutcome → Bool
  | .ownCommitAccepted selfRemoved _ _ => selfRemoved
  | .externalCommitApplied selfRemoved => selfRemoved

/-- The client has just applied a commit that removes it from the group. -/
def JustRemoved (client : Client M) : Prop :=
  ∃ (before : Client M) (commitBytes : Bytes) (seed : Nat) (outcome : CommitReceiveOutcome),
    before.receiveCommit commitBytes seed = (.ok outcome, client) ∧ outcome.selfRemoved = true

abbrev Entry (M : Mls) : Type := Resumption (signature M)

/-- A segment starts with the answer to the post of a commit. -/
inductive PostAnswered (entry : Entry M) (commitBytes : Bytes) (reply : Reply) : Prop
  | intro {call : Call} {groupId sender : String} {epoch : Epoch} {rest : List Reply} :
      call.request = .publishGroupCommit groupId sender epoch commitBytes →
      entry = some ([call], .ok (reply :: rest)) → PostAnswered entry commitBytes reply

/-- The post of a retry has succeeded. -/
def RetryPosted (entry : Entry M) (shown : Slot M) : Prop :=
  ∃ intent commitBytes reply, shown.queuedIntent = some intent ∧ CommitFor M intent commitBytes ∧
    PostAnswered entry commitBytes reply ∧ ∀ message, reply ≠ .conflict message

/-- What code that receives commits does to the queued intent. -/
def Tends (entry : Entry M) (shown state : Slot M) : Prop :=
  state.queuedIntent = shown.queuedIntent ∨
    state.queuedIntent = none ∧ (RetryPosted entry shown ∨ JustRemoved state.client)

/-- What code that starts an intent does to the queued intent. -/
def Queues (entry : Entry M) (shown state : Slot M) : Prop :=
  state.queuedIntent = shown.queuedIntent ∨
    ∃ commitBytes message, PostAnswered entry commitBytes (.conflict message)

variable {x : Task M α} {f : α → Task M β}

section Rules

variable {rel : Entry M → Slot M → Slot M → Prop} {entry : Entry M} {shown slot : Slot M}

@[simp] theorem segments_getClient
    {post : Entry M → Slot M → Except String (Client M) → Slot M → Prop} :
    (getClient : Task M (Client M)).Segments rel post slot entry shown ↔
      post entry shown (.ok slot.client) slot := Iff.rfl

@[simp] theorem segments_onClient {f : Client M → Except String α × Client M}
    {post : Entry M → Slot M → Except String α → Slot M → Prop} :
    (onClient f : Task M α).Segments rel post slot entry shown ↔
      post entry shown (f slot.client).1 { slot with client := (f slot.client).2 } := Iff.rfl

theorem segments_request {call : Call} (hrel : rel entry shown slot) :
    (request call : Task M Reply).Segments rel (fun entry' shown' result slot' =>
      shown' = slot ∧ slot' = slot ∧ ∀ reply, result = .ok reply →
        ∃ rest, entry' = some ([call], .ok (reply :: rest))) slot entry shown := by
  unfold request
  refine Work.segments_bind.mpr (Work.segments_awaitAll.mpr ⟨hrel, ?_⟩)
  rintro (failure | _ | ⟨reply, rest⟩)
  · simp
  · simp
  · simp

/-- Code that leaves the slot as it is, and whose last segment started there if it waited. -/
def Quiet (x : Task M α) : Prop :=
  ∀ (rel : Entry M → Slot M → Slot M → Prop) (entry : Entry M) (shown slot : Slot M),
    rel entry shown slot → (∀ entry, rel entry slot slot) →
    x.Segments rel (fun entry' shown' _ slot' => slot' = slot ∧
      (entry' = entry ∧ shown' = shown ∨ shown' = slot)) slot entry shown

namespace Quiet

theorem pure (a : α) : Quiet (Pure.pure a : Task M α) :=
  fun _ _ _ _ _ _ => ⟨rfl, .inl ⟨rfl, rfl⟩⟩

theorem fail (message : String) : Quiet (Work.fail message : Task M α) :=
  fun _ _ _ _ _ _ => ⟨rfl, .inl ⟨rfl, rfl⟩⟩

theorem lift (result : Except String α) : Quiet (Work.lift result : Task M α) :=
  fun _ _ _ _ _ _ => ⟨rfl, .inl ⟨rfl, rfl⟩⟩

theorem note (event : Event) : Quiet (Work.note event : Task M Unit) :=
  fun _ _ _ _ _ _ => ⟨rfl, .inl ⟨rfl, rfl⟩⟩

theorem getClient : Quiet (Worker.getClient : Task M (Client M)) :=
  fun _ _ _ _ _ _ => ⟨rfl, .inl ⟨rfl, rfl⟩⟩

theorem bind (hx : Quiet x) (hf : ∀ a, Quiet (f a)) : Quiet (x >>= f) := by
  intro rel entry shown slot hrel hrefl
  refine Work.segments_bind.mpr ((hx rel entry shown slot hrel hrefl).imp ?_)
  rintro entry' shown' result slot' ⟨rfl, hshown⟩
  cases result with
  | error message => exact ⟨rfl, hshown⟩
  | ok a =>
    have hrel' : rel entry' shown' slot' := by
      rcases hshown with ⟨rfl, rfl⟩ | rfl
      · exact hrel
      · exact hrefl entry'
    refine (hf a rel entry' shown' slot' hrel' hrefl).imp ?_
    rintro entry'' shown'' result slot'' ⟨rfl, ⟨rfl, rfl⟩ | rfl⟩
    · exact ⟨rfl, hshown⟩
    · exact ⟨rfl, .inr rfl⟩

theorem attempt (hx : Quiet x) : Quiet (Work.attempt x) :=
  fun rel entry shown slot hrel hrefl => Work.segments_attempt.mpr (hx rel entry shown slot hrel hrefl)

theorem awaitAll (calls : List Call) :
    Quiet (Work.awaitAll calls : Task M (Except CallFailure (List Reply))) := by
  intro rel entry shown slot hrel _
  cases calls with
  | nil => exact ⟨rfl, .inl ⟨rfl, rfl⟩⟩
  | cons call calls => exact ⟨hrel, fun _ => ⟨rfl, .inr rfl⟩⟩

theorem request (call : Call) : Quiet (Worker.request call : Task M Reply) := by
  refine .bind (.awaitAll [call]) fun result => ?_
  cases result with
  | error failure => exact .fail _
  | ok replies =>
    cases replies with
    | nil => exact .fail _
    | cons reply rest => exact .pure reply

theorem composes : Composes (M := M) fun _ x => Quiet x := ⟨.lift, .getClient, .bind, .attempt⟩

variable (urls : Urls)

theorem updateDsGroupState : Quiet (Worker.updateDsGroupState urls : Task M Unit) :=
  composes.updateDsGroupState fun _ _ => .request _

theorem ackApplicationMessageBestEffort (relayUrl messageId : String) :
    Quiet (Worker.ackApplicationMessageBestEffort relayUrl messageId : Task M Unit) :=
  .bind .getClient fun _ => .bind (.attempt (.request _)) fun _ => .pure ()

end Quiet

/-- Code that leaves the slot as it is and waits at least once. -/
def Asks (x : Task M α) : Prop :=
  ∀ (rel : Entry M → Slot M → Slot M → Prop) (entry : Entry M) (shown slot : Slot M),
    rel entry shown slot → (∀ entry, rel entry slot slot) →
    x.Segments rel (fun _ shown' _ slot' => slot' = slot ∧ shown' = slot) slot entry shown

namespace Asks

theorem request (call : Call) : Asks (Worker.request call : Task M Reply) :=
  fun _ _ _ _ hrel _ => (segments_request hrel).imp fun _ _ _ _ h => ⟨h.2.1, h.1⟩

theorem getClient_bind {f : Client M → Task M α} (hf : ∀ client, Asks (f client)) :
    Asks (getClient >>= f) :=
  fun rel entry shown slot hrel hrefl => Work.segments_bind.mpr
    (segments_getClient.mpr (hf slot.client rel entry shown slot hrel hrefl))

theorem bind (hx : Asks x) (hf : ∀ a, Quiet (f a)) : Asks (x >>= f) := by
  intro rel entry shown slot hrel hrefl
  refine Work.segments_bind.mpr ((hx rel entry shown slot hrel hrefl).imp ?_)
  rintro entry' shown' result slot' ⟨rfl, rfl⟩
  cases result with
  | error message => exact ⟨rfl, rfl⟩
  | ok a =>
    refine (hf a rel entry' shown' shown' (hrefl entry') hrefl).imp ?_
    rintro entry'' shown'' result slot'' ⟨rfl, ⟨rfl, rfl⟩ | rfl⟩
    · exact ⟨rfl, rfl⟩
    · exact ⟨rfl, rfl⟩

theorem attempt (hx : Asks x) : Asks (Work.attempt x) :=
  fun rel entry shown slot hrel hrefl =>
    Work.segments_attempt.mpr (hx rel entry shown slot hrel hrefl)

variable (urls : Urls)

theorem fetchWelcome : Asks (Worker.fetchWelcome urls : Task M Bytes) :=
  getClient_bind fun _ => .bind (.request _) fun _ => .lift _

theorem fetchPendingApplicationMessage :
    Asks (Worker.fetchPendingApplicationMessage urls : Task M Relay.PendingApplicationMessage) := by
  refine getClient_bind fun client => .bind (.request _) fun reply => ?_
  split
  · exact .pure _
  · exact .fail _

end Asks

end Rules

/-- Code that never changes the queued intent. -/
def Steady (x : Task M α) : Prop :=
  ∀ (rel : Entry M → Slot M → Slot M → Prop),
    (∀ entry shown slot, slot.queuedIntent = shown.queuedIntent → rel entry shown slot) →
    ∀ (entry : Entry M) (shown slot : Slot M), slot.queuedIntent = shown.queuedIntent →
      x.Segments rel (fun _ shown' _ slot' => slot'.queuedIntent = shown'.queuedIntent ∧
        slot'.queuedIntent = slot.queuedIntent) slot entry shown

theorem Quiet.steady (hx : Quiet x) : Steady x := by
  intro rel hrel entry shown slot hsame
  refine (hx rel entry shown slot (hrel entry shown slot hsame) fun _ => hrel _ _ _ rfl).imp ?_
  rintro entry' shown' result slot' ⟨rfl, ⟨rfl, rfl⟩ | rfl⟩
  · exact ⟨hsame, rfl⟩
  · exact ⟨rfl, rfl⟩

namespace Steady

theorem bind (hx : Steady x) (hf : ∀ a, Steady (f a)) : Steady (x >>= f) := by
  intro rel hrel entry shown slot hsame
  refine Work.segments_bind.mpr ((hx rel hrel entry shown slot hsame).imp ?_)
  rintro entry₁ shown₁ result slot₁ ⟨hsame₁, hslot₁⟩
  cases result with
  | error message => exact ⟨hsame₁, hslot₁⟩
  | ok a =>
    refine (hf a rel hrel entry₁ shown₁ slot₁ hsame₁).imp ?_
    rintro entry₂ shown₂ result slot₂ ⟨hsame₂, hslot₂⟩
    exact ⟨hsame₂, hslot₂.trans hslot₁⟩

theorem attempt (hx : Steady x) : Steady (Work.attempt x) :=
  fun rel hrel entry shown slot hsame =>
    Work.segments_attempt.mpr (hx rel hrel entry shown slot hsame)

theorem onClient (f : Client M → Except String α × Client M) : Steady (Worker.onClient f) :=
  fun _ _ _ _ _ hsame => ⟨hsame, rfl⟩

theorem draw : Steady (Work.draw : Task M Nat) := fun _ _ _ _ _ hsame _ => ⟨hsame, rfl⟩

end Steady

section Starting

variable {rel : Entry M → Slot M → Slot M → Prop} {entry : Entry M} {shown slot : Slot M}

theorem createCommit_segments (intent : PendingIntent) :
    (createCommit intent : Task M Bytes).Segments rel (fun entry' shown' result slot' =>
      entry' = entry ∧ shown' = shown ∧ slot'.queuedIntent = slot.queuedIntent ∧
        ∀ commitBytes, result = .ok commitBytes → CommitFor M intent commitBytes)
      slot entry shown := by
  unfold createCommit
  refine Work.segments_bind.mpr fun seed => ?_
  have hcommit : ∀ commitBytes, (slot.client.commitOf seed intent).1 = .ok commitBytes →
      CommitFor M intent commitBytes := fun _ h => ⟨slot.client, seed, h⟩
  cases intent <;> exact ⟨rfl, rfl, rfl, hcommit⟩

theorem rollback_segments {commitBytes : Bytes} :
    (rollback commitBytes : Task M Unit).Segments rel (fun entry' shown' _ slot' =>
      entry' = entry ∧ shown' = shown ∧ slot'.queuedIntent = slot.queuedIntent)
      slot entry shown := by
  unfold rollback
  simp only [Work.segments_bind, segments_getClient, Work.segments_lift]
  cases slot.client.groupIdHex with
  | error message => simp
  | ok groupId =>
    cases slot.client.currentEpoch with
    | error message => simp
    | ok epoch => exact ⟨rfl, rfl, rfl⟩

/-- How the post of a commit was answered, for the result read from it. -/
def PostResult (entry : Entry M) (commitBytes : Bytes) : DsPostResult → Prop
  | .ok => ∃ reply, PostAnswered entry commitBytes reply ∧ ∀ message, reply ≠ .conflict message
  | .conflict message => PostAnswered entry commitBytes (.conflict message)

variable (urls : Urls)

theorem publishEpochChange_segments {commitBytes : Bytes} (hrel : rel entry shown slot) :
    (publishEpochChange urls commitBytes : Task M DsPostResult).Segments rel
      (fun entry' shown' result slot' => slot' = slot ∧
        (entry' = entry ∧ shown' = shown ∨ shown' = slot) ∧
        ∀ answer, result = .ok answer → PostResult entry' commitBytes answer) slot entry shown := by
  unfold publishEpochChange
  simp only [Work.segments_bind, segments_getClient, Work.segments_lift]
  cases slot.client.groupIdHex with
  | error message => simp
  | ok groupId =>
    cases slot.client.currentEpoch with
    | error message => simp
    | ok epoch =>
      simp only [Work.segments_note]
      refine (segments_request hrel).imp ?_
      rintro entry' shown' result slot' ⟨rfl, rfl, hentry⟩
      cases result with
      | error message => simp
      | ok reply =>
        obtain ⟨rest, hentry⟩ := hentry reply rfl
        have hanswered : PostAnswered entry' commitBytes reply := ⟨rfl, hentry⟩
        cases reply with
        | conflict message => exact ⟨rfl, .inr rfl, fun _ h => by cases h; exact hanswered⟩
        | done | bytes | delivery | commits | message =>
          refine ⟨rfl, .inr rfl, fun _ h => ?_⟩
          cases h
          exact ⟨_, hanswered, by simp⟩

theorem tryStartIntent_segments (intent : PendingIntent)
    (hrel : ∀ entry shown slot, slot.queuedIntent = shown.queuedIntent → rel entry shown slot)
    (hsame : slot.queuedIntent = shown.queuedIntent) :
    (tryStartIntent urls intent : Task M DsPostResult).Segments rel
      (fun entry' shown' result slot' => slot'.queuedIntent = shown'.queuedIntent ∧
        slot'.queuedIntent = slot.queuedIntent ∧ ∀ answer, result = .ok answer →
          ∃ commitBytes, CommitFor M intent commitBytes ∧ PostResult entry' commitBytes answer)
      slot entry shown := by
  unfold tryStartIntent
  refine Work.segments_bind.mpr ((createCommit_segments intent).imp ?_)
  rintro entry₁ shown₁ result slot₁ ⟨rfl, rfl, hslot₁, hcommit⟩
  have hsame₁ : slot₁.queuedIntent = shown₁.queuedIntent := hslot₁.trans hsame
  cases result with
  | error message => exact ⟨hsame₁, hslot₁, fun _ h => by cases h⟩
  | ok commitBytes =>
    refine Work.segments_bind.mpr
      ((publishEpochChange_segments urls (hrel _ _ _ hsame₁)).imp ?_)
    rintro entry₂ shown₂ result slot₂ ⟨rfl, hshown, hanswer⟩
    have hsame₂ : slot₂.queuedIntent = shown₂.queuedIntent := by
      rcases hshown with ⟨-, rfl⟩ | rfl
      · exact hsame₁
      · rfl
    cases result with
    | error message => exact ⟨hsame₂, hslot₁, fun _ h => by cases h⟩
    | ok answer =>
      have hposted : ∃ commitBytes, CommitFor M intent commitBytes ∧
          PostResult entry₂ commitBytes answer :=
        ⟨commitBytes, hcommit commitBytes rfl, hanswer answer rfl⟩
      cases answer with
      | ok =>
        refine ⟨hsame₂, hslot₁, fun _ h => ?_⟩
        cases h
        exact hposted
      | conflict message =>
        refine Work.segments_bind.mpr (rollback_segments.imp ?_)
        rintro entry₃ shown₃ result slot₃ ⟨rfl, rfl, hslot₃⟩
        cases result with
        | error message => exact ⟨hslot₃.trans hsame₂, hslot₃.trans hslot₁, fun _ h => by cases h⟩
        | ok done =>
          refine ⟨hslot₃.trans hsame₂, hslot₃.trans hslot₁, fun _ h => ?_⟩
          cases h
          exact hposted

end Starting

theorem Client.cleanupIfRemoved_group {client client' : Client M} {seed : Nat}
    (h : client.cleanupIfRemoved seed = (.ok true, client')) : client'.group = none := by
  unfold cleanupIfRemoved at h
  split at h
  · cases h
  split at h
  · cases h
  split at h
  · rename_i reset hfresh
    cases h
    unfold fresh at hfresh
    cases hcrypto : M.fresh client.name seed with
    | error message => rw [hcrypto] at hfresh; cases hfresh
    | ok crypto => rw [hcrypto] at hfresh; cases hfresh; rfl
  · cases h

theorem JustRemoved.group {client : Client M} (h : JustRemoved client) : client.group = none := by
  obtain ⟨before, commitBytes, seed, outcome, hreceive, hremoved⟩ := h
  unfold Client.receiveCommit at hreceive
  split at hreceive
  · cases hreceive
  split at hreceive
  all_goals
    split at hreceive
    · cases hreceive
    split at hreceive
    · cases hreceive
    rename_i hcleanup
    cases hreceive
    obtain rfl : _ = true := hremoved
    exact Client.cleanupIfRemoved_group hcleanup

theorem Tends.same (entry : Entry M) (shown slot : Slot M)
    (h : slot.queuedIntent = shown.queuedIntent) : Tends entry shown slot := Or.inl h

/-- Code of commands that receive commits: it may follow anything such code does. -/
def Tending (x : Task M α) : Prop :=
  ∀ (entry : Entry M) (shown slot : Slot M), Tends entry shown slot →
    x.Segments Tends (fun entry' shown' _ slot' => Tends entry' shown' slot') slot entry shown

theorem Quiet.tending (hx : Quiet x) : Tending x := by
  intro entry shown slot h
  refine (hx Tends entry shown slot h fun entry => .same entry slot slot rfl).imp ?_
  rintro entry' shown' result slot' ⟨rfl, ⟨rfl, rfl⟩ | rfl⟩
  · exact h
  · exact .same _ _ _ rfl

namespace Tending

theorem bind (hx : Tending x) (hf : ∀ a, Tending (f a)) : Tending (x >>= f) := by
  intro entry shown slot h
  refine Work.segments_bind.mpr ((hx entry shown slot h).imp ?_)
  intro entry' shown' result slot' h'
  cases result with
  | error message => exact h'
  | ok a => exact hf a entry' shown' slot' h'

theorem attempt (hx : Tending x) : Tending (Work.attempt x) :=
  fun entry shown slot h => Work.segments_attempt.mpr (hx entry shown slot h)

/-- After a wait the client may change, whatever was done before. -/
theorem asks_bind (hx : Asks x) (hf : ∀ a, Steady (f a)) : Tending (x >>= f) := by
  intro entry shown slot h
  refine Work.segments_bind.mpr
    ((hx Tends entry shown slot h fun entry => .same entry slot slot rfl).imp ?_)
  rintro entry' shown' result slot' ⟨rfl, rfl⟩
  cases result with
  | error message => exact .same _ _ _ rfl
  | ok a => exact (hf a Tends Tends.same entry' shown' shown' rfl).imp fun _ _ _ _ h => .inl h.1

variable (urls : Urls)

theorem maybeRetryPendingIntent :
    Tending (Worker.maybeRetryPendingIntent urls : Task M (Option String)) := by
  intro entry shown slot h
  refine Work.segments_bind.mpr (Work.segments_get.mpr ?_)
  dsimp only
  split
  · exact h
  rename_i intent hqueued
  -- An intent in the slot has been there since the slot was last shown.
  have hsame : slot.queuedIntent = shown.queuedIntent := by
    rcases h with h | ⟨hnone, -⟩
    · exact h
    · rw [hqueued] at hnone
      cases hnone
  refine Work.segments_bind.mpr ((tryStartIntent_segments urls intent Tends.same hsame).imp ?_)
  rintro entry' shown' result slot' ⟨hsame', hslot, hposted⟩
  have hshown : shown'.queuedIntent = some intent := by rw [← hsame', hslot, hqueued]
  cases result with
  | error message => exact .inl hsame'
  | ok answer =>
    obtain ⟨commitBytes, hcommit, hanswer⟩ := hposted answer rfl
    cases answer with
    | ok =>
      obtain ⟨reply, hanswered, hreply⟩ := hanswer
      exact .inr ⟨rfl, .inl ⟨intent, commitBytes, reply, hshown, hcommit, hanswered, hreply⟩⟩
    | conflict message => exact .inl hshown.symm

/-- A client that was removed fails to apply a further commit and stays as it is. -/
theorem receiveCommit_held {entry : Entry M} {shown slot : Slot M} (h : Tends entry shown slot)
    (commitBytes : Bytes) (seed : Nat) :
    Tends entry shown { slot with client := (slot.client.receiveCommit commitBytes seed).2 } := by
  rcases h with h | ⟨hnone, hposted | hremoved⟩
  · exact .inl h
  · exact .inr ⟨hnone, .inl hposted⟩
  · have hstays : slot.client.receiveCommit commitBytes seed = (.error notInGroup, slot.client) := by
      simp only [Client.receiveCommit, hremoved.group]
    rw [hstays]
    exact .inr ⟨hnone, .inr hremoved⟩

theorem applyCommitBytes (commitBytes : Bytes) :
    Tending (Worker.applyCommitBytes urls commitBytes : Task M String) := by
  intro entry shown slot h
  refine Work.segments_bind.mpr (Work.segments_draw.mpr fun seed => ?_)
  refine Work.segments_bind.mpr (segments_onClient.mpr ?_)
  have hheld := receiveCommit_held h commitBytes seed
  rcases hreceive : slot.client.receiveCommit commitBytes seed with ⟨result, client⟩
  rw [hreceive] at hheld
  cases result with
  | error message => exact hheld
  | ok outcome =>
    have hremoved (hself : outcome.selfRemoved = true) : Tends entry shown ⟨client, none⟩ :=
      Or.inr ⟨rfl, .inr ⟨slot.client, commitBytes, seed, outcome, hreceive, hself⟩⟩
    cases outcome with
    | externalCommitApplied selfRemoved =>
      cases selfRemoved with
      | true => exact hremoved rfl
      | false =>
        refine Tending.bind (Quiet.updateDsGroupState urls).tending (fun _ =>
          .bind (.maybeRetryPendingIntent urls) fun text => ?_) entry shown _ hheld
        cases text with
        | some text | none => exact (Quiet.pure _).tending
    | ownCommitAccepted selfRemoved welcomeRecipients welcomeBytes =>
      cases selfRemoved with
      | true => exact hremoved rfl
      | false =>
        have hquiet := (Quiet.composes (M := M)).followUp welcomeRecipients welcomeBytes .note
          (fun _ _ => .awaitAll _) (.updateDsGroupState urls)
        exact hquiet.tending entry shown _ hheld

theorem receives : Receives (M := M) fun _ x => Tending x where
  lift result := (Quiet.lift result).tending
  getClient := Quiet.getClient.tending
  bind := .bind
  attempt := .attempt
  receive call _ := (Quiet.request call).tending

theorem receiveCommitDelivery (expectedEpoch : Option Epoch) (staleAcked processed : Nat) :
    Tending (Worker.receiveCommitDelivery urls expectedEpoch staleAcked processed :
      Task M Outcome) :=
  receives.receiveCommitDelivery (.applyCommitBytes urls) expectedEpoch staleAcked processed

theorem receiveApplicationDelivery :
    Tending (Worker.receiveApplicationDelivery urls : Task M String) := by
  have hack (delivery : Relay.PendingApplicationMessage) (text : String) :
      Quiet (do
        ackApplicationMessageBestEffort urls.relayBase delivery.id
        pure text : Task M String) :=
    .bind (.ackApplicationMessageBestEffort _ _) fun _ => .pure _
  refine .asks_bind (.fetchPendingApplicationMessage urls) fun delivery => ?_
  cases hexDecode delivery.messageHex with
  | none => exact (Quiet.fail _).steady
  | some messageBytes =>
    refine .bind (.attempt (.onClient _)) fun result => ?_
    cases result with
    | ok plaintext => exact (hack delivery _).steady
    | error text =>
      simp only [afterDecryption]
      split
      · exact (hack delivery _).steady
      · exact (Quiet.fail text).steady

theorem pendingWelcomesPhase (progress : PendingProgress) :
    Tending (Worker.pendingWelcomesPhase urls progress : Task M PendingProgress) := by
  refine .asks_bind (.attempt (.fetchWelcome urls)) fun result => ?_
  cases result with
  | ok welcomeBytes => exact .bind (.onClient _) fun _ => (Quiet.pure _).steady
  | error text =>
    dsimp only
    split
    · exact (Quiet.pure _).steady
    · exact (Quiet.pure _).steady

end Tending

section Commands

/-- How the answer of a queued command begins, for the commands that start an intent. -/
def Command.lostText : Command → Option String
  | .addMembers members => some ("add_members for " ++ debugList members)
  | .removeMembers members => some ("remove_members for " ++ debugList members)
  | .selfUpdate => some "self_update"
  | _ => none

/-- The intents that a command can queue. -/
def Command.intends : Command → PendingIntent → Prop
  | .addMembers members, .addMembers members' _ => members' = members
  | .removeMembers members, .removeMembers members' => members' = members
  | .selfUpdate, .selfUpdate => True
  | _, _ => False

def AnsweredQueued (command : Command) (answer : String) : Prop :=
  ∃ lost message, command.lostText = some lost ∧
    answer = lost ++ " lost the epoch race and was queued for retry: " ++ message

/-- What the code of a command does to the queued intent. -/
def Treats (command : Command) : Entry M → Slot M → Slot M → Prop :=
  match command.lostText with
  | some _ => Queues
  | none => Tends

/-- The end of a command: one that is answered as queued is the queued intent, and only
commands that start no intent go on receiving. -/
structure Closes (command : Command) (result : Except String Outcome) (slot : Slot M) : Prop where
  queued : ∀ answer, result = .ok (.finished answer) → AnsweredQueued command answer →
    ∃ intent, command.intends intent ∧ slot.queuedIntent = some intent
  receiving : ∀ staleAcked processed, result = .ok (.again staleAcked processed) →
    command.lostText = none

variable {command : Command} {x : Task M Outcome}

theorem treats_same (entry : Entry M) (shown slot : Slot M)
    (h : slot.queuedIntent = shown.queuedIntent) : Treats command entry shown slot := by
  unfold Treats
  cases command.lostText <;> exact .inl h

theorem Closes.error {message : String} {slot : Slot M} : Closes command (.error message) slot :=
  ⟨(fun _ h => nomatch h), fun _ _ h => nomatch h⟩

theorem Closes.of_none {result : Except String Outcome} {slot : Slot M}
    (hcommand : command.lostText = none) : Closes command result slot := by
  refine ⟨?_, fun _ _ _ => hcommand⟩
  rintro answer - ⟨lost, message, hlost, -⟩
  rw [hcommand] at hlost
  cases hlost

/-- The code of commands that start no intent. -/
theorem Tending.treats (hx : Tending x) (hcommand : command.lostText = none)
    (entry : Entry M) (slot : Slot M) :
    x.Segments (Treats command) (fun entry' shown' result slot' =>
      Treats command entry' shown' slot' ∧ Closes command result slot') slot entry slot := by
  have htreats : (Treats command : Entry M → Slot M → Slot M → Prop) = Tends := by
    unfold Treats
    rw [hcommand]
  rw [htreats]
  exact (hx entry slot slot (.same entry slot slot rfl)).imp fun _ _ _ _ h =>
    ⟨h, .of_none hcommand⟩

theorem Steady.treats (hx : Steady x) (hcommand : command.lostText = none)
    (entry : Entry M) (slot : Slot M) :
    x.Segments (Treats command) (fun entry' shown' result slot' =>
      Treats command entry' shown' slot' ∧ Closes command result slot') slot entry slot :=
  (hx (Treats command) treats_same entry slot slot rfl).imp fun _ _ _ _ h =>
    ⟨treats_same _ _ _ h.1, .of_none hcommand⟩

variable (urls : Urls)

theorem startOrQueue_treats {intent : PendingIntent} {published lost : String} {entry : Entry M}
    {shown slot : Slot M} (hcommand : command.lostText = some lost)
    (hintent : command.intends intent) (hpublished : ∀ message,
      published ≠ lost ++ " lost the epoch race and was queued for retry: " ++ message)
    (hsame : slot.queuedIntent = shown.queuedIntent) :
    (startOrQueue urls intent published lost : Task M Outcome).Segments (Treats command)
      (fun entry' shown' result slot' => Treats command entry' shown' slot' ∧
        Closes command result slot') slot entry shown := by
  have htreats : (Treats command : Entry M → Slot M → Slot M → Prop) = Queues := by
    unfold Treats
    rw [hcommand]
  refine Work.segments_bind.mpr
    ((tryStartIntent_segments urls intent treats_same hsame).imp ?_)
  rintro entry' shown' result slot' ⟨hsame', hslot, hposted⟩
  cases result with
  | error message => exact ⟨treats_same _ _ _ hsame', .error⟩
  | ok answer =>
    obtain ⟨commitBytes, hcommit, hanswer⟩ := hposted answer rfl
    cases answer with
    | ok =>
      refine ⟨treats_same _ _ _ hsame', ?_, fun _ _ h => by cases h⟩
      rintro answer hresult ⟨lost', message, hlost, htext⟩
      cases hresult
      cases hcommand.symm.trans hlost
      exact absurd htext (hpublished message)
    | conflict message =>
      refine ⟨?_, fun _ _ _ => ⟨intent, hintent, rfl⟩, fun _ _ h => by cases h⟩
      rw [htreats]
      exact .inr ⟨commitBytes, message, hanswer⟩

theorem fetchKeyPackages_quiet (members : List String) :
    Quiet (fetchKeyPackages urls members : Task M (List Bytes)) := by
  refine .bind .getClient fun client => .bind (.awaitAll _) fun result => ?_
  cases result with
  | error failure => exact .fail _
  | ok replies => exact .lift _

/-- Every command treats the queued intent as its kind of command does. -/
theorem handleCommand_treats (envelope : Envelope) (slot : Slot M) :
    (handleCommand urls envelope : Task M Outcome).Segments (Treats envelope.command)
      (fun entry' shown' result slot' => Treats envelope.command entry' shown' slot' ∧
        Closes envelope.command result slot') slot none slot := by
  obtain ⟨command, expectedEpoch⟩ := envelope
  cases command with
  | createGroup =>
    refine Steady.treats (.bind .draw fun _ => .bind (.onClient _) fun _ => ?_) rfl none slot
    exact (Quiet.bind (.updateDsGroupState urls) fun _ => .pure _).steady
  | generateKeyPackage =>
    refine Steady.treats (.bind .draw fun _ => .bind (.onClient _) fun _ => ?_) rfl none slot
    exact (Quiet.bind .getClient fun _ => .bind (.request _) fun _ => .bind (.lift _) fun _ =>
      .pure _).steady
  | addMembers members =>
    refine Work.segments_bind.mpr (((fetchKeyPackages_quiet urls members).steady _ treats_same none
      slot slot rfl).imp ?_)
    rintro entry' shown' result slot' ⟨hsame, -⟩
    cases result with
    | error message => exact ⟨treats_same _ _ _ hsame, .error⟩
    | ok keyPackageBytesList =>
      refine startOrQueue_treats urls rfl rfl (fun message h => ?_) hsame
      simpa using congrArg String.toList h
  | joinFromWelcome =>
    refine Tending.treats (.asks_bind (.fetchWelcome urls) fun _ => ?_) rfl none slot
    exact .bind (.onClient _) fun _ => (Quiet.bind .getClient fun _ => .pure _).steady
  | sendApplicationMessage message =>
    refine Steady.treats (.bind .draw fun _ => .bind (.onClient _) fun _ => ?_) rfl none slot
    exact (Quiet.bind .getClient fun _ => .bind (.lift _) fun _ => .bind (.lift _) fun _ =>
      .bind (.request _) fun _ => .pure _).steady
  | receiveApplicationMessage =>
    exact Tending.treats (.bind (.receiveApplicationDelivery urls) fun _ =>
      (Quiet.pure _).tending) rfl none slot
  | selfUpdate =>
    refine startOrQueue_treats urls rfl trivial (fun message h => ?_) rfl
    simpa using congrArg String.toList h
  | removeMembers members =>
    refine startOrQueue_treats urls rfl rfl (fun message h => ?_) rfl
    simpa using congrArg String.toList h
  | receiveCommit => exact Tending.treats (.receiveCommitDelivery urls expectedEpoch 0 0) rfl none slot
  | processPending kinds maxMessages expectedEpoch =>
    exact Tending.treats (.bind (Tending.receives.processPending (.applyCommitBytes urls)
      (.pendingWelcomesPhase urls) (.receiveApplicationDelivery urls) kinds maxMessages
      expectedEpoch) fun _ => (Quiet.pure _).tending) rfl none slot
  | showGroupState =>
    refine Tending.treats (Quiet.tending ?_) rfl none slot
    exact .bind .getClient fun _ => .bind (.lift _) fun _ => .bind (.lift _) fun _ =>
      .bind (.lift _) fun _ => .pure _

end Commands

end MessagingBench.Worker
