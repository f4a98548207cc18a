import Mathlib.Data.List.Infix
import MessagingBench.Core.Program
import MessagingBench.Delivery.Runs
import MessagingBench.Worker.Client
import MessagingBench.Worker.Http

/-!
# Command handling of a worker

The asynchronous command code of `worker_api.rs`, written as programs that wait at
the same places as the source. The observations they record have no counterpart in
the source: they mark when a commit is created, rolled back or merged. Profiling and
benchmark context are not part of the model.
-/

namespace MessagingBench.Worker

open Delivery

/-- What `process_pending` may be asked to look for. -/
inductive PendingKind
  | commits
  | welcomes
  | applicationMessages
  deriving DecidableEq, Repr

/-- The commands of a worker. -/
inductive Command
  | createGroup
  | generateKeyPackage
  | addMembers (members : List String)
  | joinFromWelcome
  | sendApplicationMessage (message : String)
  | receiveApplicationMessage
  | selfUpdate
  | removeMembers (members : List String)
  | receiveCommit
  | processPending (kinds : Option (List PendingKind)) (maxMessages : Option Nat)
      (expectedEpoch : Option Epoch)
  | showGroupState
  deriving DecidableEq, Repr

/-- A commit that is still to be made. -/
inductive PendingIntent
  | addMembers (members : List String) (keyPackageBytesList : List Bytes)
  | removeMembers (members : List String)
  | selfUpdate
  deriving DecidableEq, Repr

/-- What a command works on. -/
structure Slot (M : Mls) where
  client : Client M
  queuedIntent : Option PendingIntent

/-- The command executions of all workers are numbered. -/
structure Job where
  worker : String
  number : Nat
  deriving DecidableEq, Repr

/-- A command as it is handed to a worker. -/
structure Envelope where
  command : Command
  expectedEpoch : Option Epoch
  deriving DecidableEq, Repr

/-- What is observed in a run. -/
inductive Event
  /-- A service processed an attempt of a call; `heard` if the response arrived. -/
  | served (call : Nat) (job : Job) (request : Request) (response : Response) (heard : Bool)
  /-- The delivery service accepted a commit. -/
  | accepted (commit : AcceptedCommit)
  /-- A call ended. -/
  | concluded (call : Nat) (job : Job) (request : Request) (result : Except String Reply)
  /-- A worker created a commit for an epoch of a group. -/
  | created (worker groupId : String) (epoch : Epoch) (commitBytes : Bytes)
  /-- A worker discards the commit it posted for an epoch of a group. -/
  | rolledBack (worker groupId : String) (epoch : Epoch) (commitBytes : Bytes)
  /-- A worker merged its own commit and reached an epoch. -/
  | merged (worker groupId : String) (epoch : Epoch) (added : List String) (welcome : Option Bytes)
  /-- A command execution ended. -/
  | answered (job : Job) (envelope : Envelope) (result : Except String String)
  deriving DecidableEq

/-- A call that ended in failure. -/
structure CallFailure where
  request : Request
  text : String
  deriving DecidableEq, Repr

/-- The programs of workers. -/
@[reducible] def signature (M : Mls) : Signature := ⟨Slot M, Call, CallFailure, Reply, Event⟩

/-- The base addresses of the services. -/
structure Urls where
  ds : String
  relay : String

/-- Code of a worker. -/
abbrev Task (M : Mls) (α : Type) : Type := Work (signature M) α

variable {M : Mls}

/-- The client of the slot. -/
def getClient : Task M (Client M) := do
  let slot ← Work.get
  pure slot.client

/-- Run a client operation in place. -/
def onClient {α : Type} (f : Client M → Except String α × Client M) : Task M α := do
  let slot ← Work.get
  Work.set { slot with client := (f slot.client).2 }
  Work.lift (f slot.client).1

/-- Queue an intent, or none. -/
def setIntent (intent : Option PendingIntent) : Task M Unit := do
  let slot ← Work.get
  Work.set { slot with queuedIntent := intent }

/-- Issue one call and wait for its result. -/
def request (call : Call) : Task M Reply := do
  match ← Work.awaitAll [call] with
  | .ok (reply :: _) => pure reply
  | .ok [] => Work.fail "no reply"
  | .error failure => Work.fail failure.text

/-- `ds_post_bytes` over the result of its call: a conflict is an error. -/
def unexpectedConflict : Reply → Except String Unit
  | .conflict message => .error ("Unexpected DS conflict: " ++ message)
  | _ => .ok ()

/-- The body of a response that must have one. -/
def asBytes : Reply → Except String Bytes
  | .bytes bytes => .ok bytes
  | _ => .error "error decoding response body"

section Texts

/-- The first position after an occurrence of a marker. -/
def afterMarker (marker : List Char) : List Char → Option (List Char)
  | [] => if marker = [] then some [] else none
  | c :: text =>
    if marker.isPrefixOf (c :: text) then some ((c :: text).drop marker.length)
    else afterMarker marker text

/-- The number that digits stand for, if it fits. -/
def parseU64 (digits : List Char) : Option Epoch :=
  let value := digits.foldl (fun n c => 10 * n + (c.toNat - 48)) 0
  if digits = [] ∨ 18446744073709551616 ≤ value then none else some (UInt64.ofNat value)

/-- The two epochs that a conflict names. -/
def parseGroupStateUpdateMismatch (message : List Char) : Option (Epoch × Epoch) := do
  let expectedRest ← afterMarker "expected epoch ".toList message
  let expected ← parseU64 (expectedRest.takeWhile Char.isDigit)
  let gotRest ← afterMarker ", got ".toList expectedRest
  let got ← parseU64 (gotRest.takeWhile Char.isDigit)
  pure (expected, got)

/-- The service is already ahead of the update. -/
def isStaleGroupStateUpdateError (message : String) (epoch : Epoch) : Bool :=
  match parseGroupStateUpdateMismatch message.toList with
  | some (expected, got) => got == epoch && decide (got < expected)
  | none => false

/-- Substring test. -/
def containsText (needle text : String) : Bool := decide (needle.toList <:+: text.toList)

/-- As `{:?}` prints characters. -/
def debugChar (c : Char) : String :=
  if c = '"' then "\\\""
  else if c = '\\' then "\\\\"
  else if c = '\n' then "\\n"
  else if c = '\r' then "\\r"
  else if c = '\t' then "\\t"
  else c.toString

/-- As `{:?}` prints texts. -/
def debugString (text : String) : String :=
  "\"" ++ String.join (text.toList.map debugChar) ++ "\""

/-- As `{:?}` prints lists of texts. -/
def debugList (names : List String) : String :=
  "[" ++ ", ".intercalate (names.map debugString) ++ "]"

/-- The text of a byte string; bytes that are not UTF-8 are replaced. -/
def lossyText (bytes : Bytes) : String :=
  match String.fromUTF8? ⟨bytes.toArray⟩ with
  | some text => text
  | none =>
    String.ofList (bytes.map fun b => if b < 128 then Char.ofNat b.toNat else Char.ofNat 65533)

/-- The bytes of a text. -/
def utf8Bytes (text : String) : Bytes := text.toByteArray.data.toList

/-- As `{:?}` prints options of numbers. -/
def debugOption (text : Option String) : String :=
  match text with
  | none => "None"
  | some value => "Some(" ++ value ++ ")"

end Texts

/-- A conflict is not an error here. -/
inductive DsPostResult
  | ok
  | conflict (message : String)
  deriving DecidableEq, Repr

section Epochs

variable (urls : Urls)

/-- Put the state the client is in; that the service is ahead is no failure. -/
def updateDsGroupState : Task M Unit := do
  let client ← getClient
  let groupId ← Work.lift client.groupIdHex
  let epoch ← Work.lift client.currentEpoch
  let members ← Work.lift client.memberNames
  let url := urls.ds ++ "/group/" ++ groupId ++ "/state/" ++ epoch.toNat.repr
  match ← Work.attempt (request
      ⟨"update_group_state", client.name, url, .putGroupState groupId epoch members⟩) with
  | .ok _ => pure ()
  | .error message =>
    if isStaleGroupStateUpdateError message epoch then pure () else Work.fail message

/-- Post a commit for the current epoch. -/
def publishEpochChange (commitBytes : Bytes) : Task M DsPostResult := do
  let client ← getClient
  let groupId ← Work.lift client.groupIdHex
  let epoch ← Work.lift client.currentEpoch
  Work.note (.created client.name groupId epoch commitBytes)
  let url := urls.ds ++ "/group/" ++ groupId ++ "/commit/" ++ client.name ++ "/" ++
    epoch.toNat.repr
  match ← request
      ⟨"submit_commit", client.name, url, .publishGroupCommit groupId client.name epoch commitBytes⟩
    with
  | .conflict message => pure (.conflict message)
  | _ => pure .ok

/-- Let the client make the commit of an intent. -/
def createCommit (intent : PendingIntent) : Task M Bytes := do
  let seed ← Work.draw
  match intent with
  | .addMembers members keyPackageBytesList =>
    onClient fun client => client.addMembers keyPackageBytesList members seed
  | .removeMembers members => onClient fun client => client.removeMembers members seed
  | .selfUpdate => onClient fun client => client.selfUpdate seed

/-- Discard the pending commit, recording which one. -/
def rollback (commitBytes : Bytes) : Task M Unit := do
  let client ← getClient
  let groupId ← Work.lift client.groupIdHex
  let epoch ← Work.lift client.currentEpoch
  Work.note (.rolledBack client.name groupId epoch commitBytes)
  onClient Client.rollbackPendingCommit

/-- Post the commit of an intent, and roll it back on a conflict. -/
def tryStartIntent (intent : PendingIntent) : Task M DsPostResult := do
  let commitBytes ← createCommit intent
  match ← publishEpochChange urls commitBytes with
  | .ok => pure .ok
  | .conflict message =>
    rollback commitBytes
    pure (.conflict message)

/-- What is said after a successful retry. -/
def PendingIntent.retriedText : PendingIntent → String
  | .addMembers members _ =>
    "queued add_members for " ++ debugList members ++ " was retried and published"
  | .removeMembers members =>
    "queued remove_members for " ++ debugList members ++ " was retried and published"
  | .selfUpdate => "queued self_update was retried and published"

/-- Try the queued intent once more. -/
def maybeRetryPendingIntent : Task M (Option String) := do
  let slot ← Work.get
  match slot.queuedIntent with
  | none => pure none
  | some intent =>
    match ← tryStartIntent urls intent with
    | .ok =>
      setIntent none
      pure (some intent.retriedText)
    | .conflict message =>
      setIntent (some intent)
      pure (some ("queued intent retry still conflicted and remains queued: " ++ message))

/-- The call that stores a welcome. -/
def welcomeCall (client recipient : String) (welcomeBytes : Bytes) : Call :=
  ⟨"store_welcome", client, urls.ds ++ "/welcome/" ++ recipient,
    .publishWelcome recipient welcomeBytes⟩

/-- Store the welcome of an add commit for every added member. -/
def publishWelcomes (recipients : List String) : Option Bytes → Task M Unit
  | none => pure ()
  | some welcomeBytes => do
    let client ← getClient
    match ← Work.awaitAll (recipients.map fun recipient =>
        welcomeCall urls client.name recipient welcomeBytes) with
    | .error failure => Work.fail failure.text
    | .ok replies => Work.lift (replies.forM unexpectedConflict)

/-- Record that the own commit was merged, with the epoch it led to. -/
def observeMerge (added : List String) (welcomeBytes : Option Bytes) : Task M Unit := do
  let client ← getClient
  let groupId ← Work.lift client.groupIdHex
  let epoch ← Work.lift client.currentEpoch
  Work.note (.merged client.name groupId epoch added welcomeBytes)

/-- The branch of `applyCommitBytes` for an own commit that leaves the client in the group. -/
def followUp (welcomeRecipients : List String) (welcomeBytes : Option Bytes) : Task M String := do
  observeMerge welcomeRecipients welcomeBytes
  publishWelcomes urls welcomeRecipients welcomeBytes
  updateDsGroupState urls
  pure "own commit accepted from DS; local state updated and welcome published"

/-- Process a commit, and what is to be done after it. -/
def applyCommitBytes (commitBytes : Bytes) : Task M String := do
  let seed ← Work.draw
  match ← onClient fun client => client.receiveCommit commitBytes seed with
  | .externalCommitApplied true =>
    setIntent none
    pure ("external commit received and processed; this client was removed and local group " ++
      "state was cleared")
  | .externalCommitApplied false =>
    updateDsGroupState urls
    match ← maybeRetryPendingIntent urls with
    | some text =>
      pure ("external commit received and processed; DS group state updated; " ++ text)
    | none => pure "external commit received and processed; DS group state updated"
  | .ownCommitAccepted true _ _ =>
    setIntent none
    pure "own commit accepted from DS; this client was removed and local group state was cleared"
  | .ownCommitAccepted false welcomeRecipients welcomeBytes =>
    followUp urls welcomeRecipients welcomeBytes

end Epochs

/-- The end of a piece of command code: a result, or another round of the receive loop. -/
inductive Outcome
  | finished (message : String)
  | again (staleAcked processed : Nat)
  deriving DecidableEq, Repr

section Receiving

variable (urls : Urls)

/-- A client outside of groups has reached no epoch. -/
def currentEpochReached (client : Client M) (epoch : Epoch) : Bool :=
  match client.currentEpoch with
  | .ok current => decide (epoch ≤ current)
  | .error _ => false

/-- Whether an epoch is expected, and has been reached. -/
def expectedReached (client : Client M) : Option Epoch → Bool
  | none => false
  | some expected => currentEpochReached client expected

/-- How errors name a delivery. -/
def deliveryText (delivery : PendingCommitDelivery) : String :=
  delivery.id ++ " group=" ++ delivery.groupId ++ " epoch=" ++ delivery.epoch.toNat.repr ++
    " sender=" ++ delivery.sender

/-- Ask for the next delivery. -/
def fetchPendingCommit : Task M PendingCommitDelivery := do
  let client ← getClient
  match ← request ⟨"fetch_pending_commit", client.name,
      urls.ds ++ "/commit/" ++ client.name ++ "/pending", .fetchPendingCommit client.name⟩ with
  | .delivery delivery => pure delivery
  | _ => Work.fail "error decoding response body"

/-- Acknowledge a delivery; it may fail. -/
def ackCommitDeliveryBestEffort (deliveryId : String) : Task M Bool := do
  let client ← getClient
  match ← Work.attempt (request ⟨"ack_commit", client.name,
      urls.ds ++ "/commit/" ++ client.name ++ "/ack/" ++ deliveryId,
      .ackCommit client.name deliveryId⟩) with
  | .ok _ => pure true
  | .error _ => pure false

/-- A delivery whose epoch the client has reached is only acknowledged. -/
def ackStaleDelivery (expectedEpoch : Option Epoch) (staleAcked processed : Nat)
    (delivery : PendingCommitDelivery) : Task M Outcome := do
  let acked ← ackCommitDeliveryBestEffort urls delivery.id
  let client ← getClient
  if acked then
    if expectedReached client expectedEpoch then
      pure (.finished ("commit delivery already applied; delivery_id=" ++ deliveryText delivery ++
        " stale_acked=" ++ (staleAcked + 1).repr))
    else pure (.again (staleAcked + 1) processed)
  else if expectedReached client expectedEpoch then
    pure (.finished ("commit already applied; stale delivery ack failed but current epoch has " ++
      "reached expected_epoch=" ++ ((expectedEpoch.map (·.toNat.repr)).getD "") ++
      " delivery_id=" ++ deliveryText delivery))
  else
    Work.fail ("stale commit delivery could not be acked before next receive: delivery_id=" ++
      deliveryText delivery)

/-- A delivery of a later epoch is applied, then acknowledged. -/
def applyDelivery (expectedEpoch : Option Epoch) (staleAcked processed : Nat)
    (delivery : PendingCommitDelivery) : Task M Outcome := do
  match hexDecode delivery.commitHex with
  | none => Work.fail ("decode pending commit delivery id=" ++ deliveryText delivery)
  | some commitBytes =>
    let result ← applyCommitBytes urls commitBytes
    let _ ← ackCommitDeliveryBestEffort urls delivery.id
    let client ← getClient
    if expectedEpoch.isSome && !expectedReached client expectedEpoch then
      pure (.again staleAcked (processed + 1))
    else
      pure (.finished (result ++ "; commit_delivery_id=" ++ deliveryText delivery ++
        " stale_acked=" ++ staleAcked.repr ++ " commits_processed=" ++ (processed + 1).repr))

/-- One round of the loop of `receive_commit_delivery`. -/
def receiveCommitDelivery (expectedEpoch : Option Epoch) (staleAcked processed : Nat) :
    Task M Outcome := do
  match ← Work.attempt (fetchPendingCommit urls) with
  | .error message =>
    let client ← getClient
    if expectedReached client expectedEpoch then
      pure (.finished ("commit already applied; no pending delivery and current epoch has " ++
        "reached expected_epoch=" ++ ((expectedEpoch.map (·.toNat.repr)).getD "") ++
        " stale_acked=" ++ staleAcked.repr))
    else Work.fail message
  | .ok delivery =>
    let client ← getClient
    if currentEpochReached client delivery.epoch then
      ackStaleDelivery urls expectedEpoch staleAcked processed delivery
    else applyDelivery urls expectedEpoch staleAcked processed delivery

/-- Acknowledge a message; it may fail. -/
def ackApplicationMessageBestEffort (relayUrl messageId : String) : Task M Unit := do
  let client ← getClient
  match ← Work.attempt (request ⟨"relay.ack_application_message", client.name,
      relayUrl ++ "/application-message/" ++ client.name ++ "/ack/" ++ messageId,
      .ackApplicationMessage client.name messageId⟩) with
  | _ => pure ()

/-- Whether an error may be that of a message received before. -/
def looksLikeDuplicateApplicationReceive (error : String) : Bool :=
  let lower := String.ofList (error.toList.map Char.toLower)
  containsText "replay" lower || containsText "duplicate" lower || containsText "already" lower ||
    containsText "generation" lower || containsText "out of order" lower ||
    containsText "stale" lower

/-- The relay URL without slashes at its end. -/
def Urls.relayBase : String :=
  String.ofList ((urls.relay.toList.reverse.dropWhile (· == '/')).reverse)

/-- Ask for the next message. -/
def fetchPendingApplicationMessage : Task M Relay.PendingApplicationMessage := do
  let client ← getClient
  match ← request ⟨"relay.fetch_pending_application_message", client.name,
      urls.relayBase ++ "/application-message/" ++ client.name ++ "/pending",
      .fetchPendingApplicationMessage client.name⟩ with
  | .message message => pure message
  | _ => Work.fail "error decoding response body"

/-- What a receive does with the result of the decryption. -/
def afterDecryption (delivery : Relay.PendingApplicationMessage) :
    Except String Bytes → Task M String
  | .ok plaintext => do
    ackApplicationMessageBestEffort urls.relayBase delivery.id
    pure ("application message received: " ++ lossyText plaintext ++ "; message_id=" ++
      delivery.id ++ " group=" ++ delivery.groupId ++ " sender=" ++ delivery.sender)
  | .error text =>
    if looksLikeDuplicateApplicationReceive text then do
      ackApplicationMessageBestEffort urls.relayBase delivery.id
      pure ("application message already processed: message_id=" ++ delivery.id ++ " group=" ++
        delivery.groupId ++ " sender=" ++ delivery.sender)
    else Work.fail text

/-- Fetch a message, decrypt it and acknowledge it. -/
def receiveApplicationDelivery : Task M String := do
  let delivery ← fetchPendingApplicationMessage urls
  match hexDecode delivery.messageHex with
  | none => Work.fail ("decode pending application message id=" ++ delivery.id ++ " group=" ++
      delivery.groupId ++ " sender=" ++ delivery.sender)
  | some messageBytes =>
    let result ← Work.attempt (onClient fun client => client.receiveApplicationMessage messageBytes)
    afterDecryption urls delivery result

end Receiving

section Pending

variable (urls : Urls)

/-- The counters of `process_pending`. -/
structure PendingProgress where
  remaining : Nat
  commitsProcessed : Nat
  welcomesProcessed : Nat
  applicationMessagesProcessed : Nat
  commitResults : List String
  errors : List String

/-- No limit was given. -/
def usizeMax : Nat := 18446744073709551615

/-- Nothing has been processed. -/
def PendingProgress.start (maxMessages : Option Nat) : PendingProgress :=
  ⟨maxMessages.getD usizeMax, 0, 0, 0, [], []⟩

/-- Apply pending commits in turn up to the first one that fails. -/
def processCommits : List PendingCommit → PendingProgress → Task M PendingProgress
  | [], progress => pure progress
  | pending :: rest, progress => do
    let text := "group=" ++ pending.groupId ++ " epoch=" ++ pending.epoch.toNat.repr ++
      " sender=" ++ pending.sender
    match hexDecode pending.commitHex with
    | none => Work.fail ("decode pending commit " ++ text)
    | some commitBytes =>
      match ← Work.attempt (applyCommitBytes urls commitBytes) with
      | .ok message =>
        processCommits rest { progress with
          commitResults := progress.commitResults ++
            (if containsText "queued " message then [message] else [])
          commitsProcessed := progress.commitsProcessed + 1
          remaining := progress.remaining - 1 }
      | .error message =>
        pure { progress with
          errors := progress.errors ++ ["commit " ++ text ++ " error=" ++ message] }

/-- Ask for the commits after the current epoch. -/
def fetchPendingCommits : Task M (List PendingCommit) := do
  let client ← getClient
  let afterEpoch : Epoch := match client.currentEpoch with
    | .ok epoch => epoch
    | .error _ => 0
  match ← request ⟨"fetch_pending_commits", client.name,
      urls.ds ++ "/commits/pending?client=" ++ client.name ++ "&after_epoch=" ++
        afterEpoch.toNat.repr,
      .fetchPendingCommits client.name afterEpoch⟩ with
  | .commits commits => pure commits
  | _ => Work.fail "error decoding response body"

variable (progress : PendingProgress)

/-- Process as many commits as are allowed. -/
def pendingCommitsPhase : Task M PendingProgress := do
  let commits ← fetchPendingCommits urls
  processCommits urls (commits.take progress.remaining) progress

/-- Take the stored welcome. -/
def fetchWelcome : Task M Bytes := do
  let client ← getClient
  let reply ← request ⟨"fetch_welcome", client.name, urls.ds ++ "/welcome/" ++ client.name,
    .fetchWelcome client.name⟩
  Work.lift (asBytes reply)

/-- Join with the stored welcome, if there is one. -/
def pendingWelcomesPhase : Task M PendingProgress := do
  match ← Work.attempt (fetchWelcome urls) with
  | .ok welcomeBytes =>
    onClient fun client => client.joinFromWelcome welcomeBytes
    pure { progress with
      welcomesProcessed := progress.welcomesProcessed + 1
      remaining := progress.remaining - 1 }
  | .error text =>
    if containsText "404 Not Found" text then pure progress
    else pure { progress with errors := progress.errors ++ ["welcome error=" ++ text] }

/-- Receive one message, if there is one. -/
def pendingMessagesPhase : Task M PendingProgress := do
  match ← Work.attempt (receiveApplicationDelivery urls) with
  | .ok _ =>
    pure { progress with
      applicationMessagesProcessed := progress.applicationMessagesProcessed + 1 }
  | .error text =>
    if containsText "404 Not Found" text then pure progress
    else pure { progress with errors := progress.errors ++ ["application_message error=" ++ text] }

/-- A phase runs if its kind is asked for and messages may still be processed. -/
def pendingPhase (kinds : List PendingKind) (kind : PendingKind)
    (phase : PendingProgress → Task M PendingProgress) (progress : PendingProgress) :
    Task M PendingProgress :=
  if 0 < progress.remaining ∧ kind ∈ kinds then phase progress else pure progress

/-- The answer to `process_pending`. -/
def PendingProgress.text (client : Client M) : String :=
  "commits_processed=" ++ progress.commitsProcessed.repr ++ " welcomes_processed=" ++
    progress.welcomesProcessed.repr ++ " application_messages_processed=" ++
    progress.applicationMessagesProcessed.repr ++ " final_epoch=" ++
    debugOption (client.currentEpoch.toOption.map (·.toNat.repr)) ++ " current_member_count=" ++
    debugOption (client.memberNames.toOption.map (·.length.repr)) ++ " commit_results=" ++
    debugList progress.commitResults

/-- It is an error if the expected epoch was not reached. -/
def epochErrors (client : Client M) (expectedEpoch : Option Epoch) : List String :=
  match expectedEpoch, client.currentEpoch with
  | some expected, .ok actual =>
    if actual < expected then
      ["expected_epoch_not_reached expected=" ++ expected.toNat.repr ++ " actual=" ++
        actual.toNat.repr]
    else []
  | _, _ => []

/-- The phases one after the other. -/
def processPending (kinds : Option (List PendingKind)) (maxMessages : Option Nat)
    (expectedEpoch : Option Epoch) : Task M String := do
  let kinds := kinds.getD [.commits, .welcomes, .applicationMessages]
  let progress ← pendingPhase kinds .commits (pendingCommitsPhase urls) (.start maxMessages)
  let progress ← pendingPhase kinds .welcomes (pendingWelcomesPhase urls) progress
  let progress ← pendingPhase kinds .applicationMessages (pendingMessagesPhase urls) progress
  let client ← getClient
  let errors := progress.errors ++ epochErrors client expectedEpoch
  if errors.isEmpty then
    pure ("process_pending processed; " ++ progress.text client ++ " errors=[]")
  else
    Work.fail ("process_pending errors; " ++ progress.text client ++ " errors=" ++ debugList errors)

end Pending

section Handling

variable (urls : Urls)

/-- The call that takes a key package. -/
def keyPackageCall (client member : String) : Call :=
  ⟨"fetch_keypackage", client, urls.ds ++ "/keypackage/" ++ member, .fetchKeyPackage member⟩

/-- The error of a failed key package fetch names the member. -/
def keyPackageFailure (failure : CallFailure) : String :=
  match failure.request with
  | .fetchKeyPackage member => "fetch key package for " ++ member
  | _ => failure.text

/-- The key packages of all members, fetched at the same time. -/
def fetchKeyPackages (members : List String) : Task M (List Bytes) := do
  let client ← getClient
  match ← Work.awaitAll (members.map (keyPackageCall urls client.name)) with
  | .error failure => Work.fail (keyPackageFailure failure)
  | .ok replies => Work.lift (replies.mapM asBytes)

/-- Start an intent; one that lost the epoch race is kept for a retry. -/
def startOrQueue (intent : PendingIntent) (published : String) (lost : String) : Task M Outcome := do
  match ← tryStartIntent urls intent with
  | .ok => pure (.finished published)
  | .conflict message =>
    setIntent (some intent)
    pure (.finished (lost ++ " lost the epoch race and was queued for retry: " ++ message))

/-- Encrypt a message and post it for all other members. -/
def sendApplicationMessage (message : String) : Task M Outcome := do
  let seed ← Work.draw
  let messageBytes ← onClient fun client => client.sendApplicationMessage (utf8Bytes message) seed
  let client ← getClient
  let groupId ← Work.lift client.groupIdHex
  let members ← Work.lift client.memberNames
  let recipients := members.filter (· != client.name)
  let _ ← request ⟨"relay.publish_application_message", client.name,
    urls.relayBase ++ "/group/" ++ groupId ++ "/application-message/" ++ client.name,
    .publishApplicationMessage groupId client.name recipients messageBytes⟩
  pure (.finished "application message broadcast to group")

/-- What a command does. -/
def handleCommand (envelope : Envelope) : Task M Outcome :=
  match envelope.command with
  | .createGroup => do
    let seed ← Work.draw
    onClient fun client => client.createGroup seed
    updateDsGroupState urls
    pure (.finished "group created and DS group state registered")
  | .generateKeyPackage => do
    let seed ← Work.draw
    let keyPackageBytes ← onClient fun client => client.generateKeyPackage seed
    let client ← getClient
    let reply ← request ⟨"store_keypackage", client.name, urls.ds ++ "/keypackage/" ++ client.name,
      .publishKeyPackage client.name keyPackageBytes⟩
    Work.lift (unexpectedConflict reply)
    pure (.finished ("key package uploaded for " ++ client.name))
  | .addMembers members => do
    let keyPackageBytesList ← fetchKeyPackages urls members
    startOrQueue urls (.addMembers members keyPackageBytesList)
      ("members " ++ debugList members ++
        " added locally in one commit; commit published, waiting for DS echo")
      ("add_members for " ++ debugList members)
  | .joinFromWelcome => do
    let welcomeBytes ← fetchWelcome urls
    onClient fun client => client.joinFromWelcome welcomeBytes
    let client ← getClient
    pure (.finished (client.name ++ " joined from welcome"))
  | .sendApplicationMessage message => sendApplicationMessage urls message
  | .receiveApplicationMessage => do
    let text ← receiveApplicationDelivery urls
    pure (.finished text)
  | .selfUpdate =>
    startOrQueue urls .selfUpdate "self_update commit published to group" "self_update"
  | .removeMembers members =>
    startOrQueue urls (.removeMembers members)
      ("members " ++ debugList members ++ " removed locally; group commit published")
      ("remove_members for " ++ debugList members)
  | .receiveCommit => receiveCommitDelivery urls envelope.expectedEpoch 0 0
  | .processPending kinds maxMessages expectedEpoch => do
    let text ← processPending urls kinds maxMessages expectedEpoch
    pure (.finished text)
  | .showGroupState => do
    let client ← getClient
    let groupId ← Work.lift client.groupIdHex
    let epoch ← Work.lift client.currentEpoch
    let members ← Work.lift client.memberNames
    pure (.finished ("group_id=" ++ groupId ++ ", epoch=" ++ epoch.toNat.repr ++ ", members=" ++
      debugList members))

end Handling

section Composition

/-- A property of code that is kept when code is put together. -/
structure Composes (P : (α : Type) → Task M α → Prop) : Prop where
  lift : ∀ {α : Type} (result : Except String α), P α (Work.lift result)
  getClient : P _ getClient
  bind : ∀ {α β : Type} {x : Task M α} {f : α → Task M β}, P α x → (∀ a, P β (f a)) → P β (x >>= f)
  attempt : ∀ {α : Type} {x : Task M α}, P α x → P _ (Work.attempt x)

variable {P : (α : Type) → Task M α → Prop} {urls : Urls}

namespace Composes

variable (h : Composes P) {α : Type}

include h

theorem pure (a : α) : P α (Pure.pure a) := h.lift (.ok a)

theorem fail (message : String) : P α (Work.fail message) := h.lift (.error message)

theorem updateDsGroupState (hput : ∀ call : Call, (∃ groupId epoch members,
    call.request = .putGroupState groupId epoch members) → P _ (request call)) :
    P _ (Worker.updateDsGroupState urls) := by
  refine h.bind h.getClient fun client => h.bind (h.lift _) fun groupId =>
    h.bind (h.lift _) fun epoch => h.bind (h.lift _) fun members =>
      h.bind (h.attempt (hput _ ⟨_, _, _, rfl⟩)) fun result => ?_
  cases result with
  | ok reply => exact h.pure ()
  | error message =>
    dsimp only
    split
    · exact h.pure ()
    · exact h.fail message

theorem followUp (recipients : List String) (welcome : Option Bytes)
    (hnote : ∀ event : Event, P _ (Work.note event))
    (hwelcomes : ∀ calls : List Call, (∀ call ∈ calls, ∃ recipient body,
      call.request = .publishWelcome recipient body) → P _ (Work.awaitAll calls))
    (hupdate : P _ (Worker.updateDsGroupState urls)) :
    P _ (Worker.followUp urls recipients welcome) := by
  have hmerge : P _ (observeMerge recipients welcome) :=
    h.bind h.getClient fun client => h.bind (h.lift _) fun groupId =>
      h.bind (h.lift _) fun epoch => hnote _
  have hpublish : P _ (publishWelcomes urls recipients welcome) := by
    cases welcome with
    | none => exact h.pure ()
    | some welcomeBytes =>
      refine h.bind h.getClient fun client => h.bind (hwelcomes _ fun call hcall => ?_)
        fun outcome => ?_
      · obtain ⟨recipient, -, rfl⟩ := List.mem_map.mp hcall
        exact ⟨recipient, welcomeBytes, rfl⟩
      · cases outcome with
        | error failure => exact h.fail _
        | ok replies => exact h.lift _
  exact h.bind hmerge fun _ => h.bind hpublish fun _ => h.bind hupdate fun _ => h.pure _

end Composes

/-- The requests that are made while receiving commits. -/
def Request.receives : Request → Bool
  | .fetchPendingCommit _ | .fetchPendingCommits _ _ | .ackCommit _ _ => true
  | _ => false

/-- A property that the code for receiving commits has if applying commits has it. -/
structure Receives (P : (α : Type) → Task M α → Prop) : Prop extends Composes P where
  receive : ∀ call : Call, call.request.receives = true → P _ (request call)

namespace Receives

variable (h : Receives P)

include h

theorem ackCommitDeliveryBestEffort (deliveryId : String) :
    P _ (Worker.ackCommitDeliveryBestEffort urls deliveryId) := by
  refine h.bind h.getClient fun client => h.bind (h.attempt (h.receive _ rfl)) fun result => ?_
  cases result with
  | ok reply => exact h.pure true
  | error message => exact h.pure false

theorem ackStaleDelivery (expectedEpoch : Option Epoch) (staleAcked processed : Nat)
    (delivery : PendingCommitDelivery) :
    P _ (Worker.ackStaleDelivery urls expectedEpoch staleAcked processed delivery) := by
  refine h.bind (h.ackCommitDeliveryBestEffort _) fun acked => h.bind h.getClient fun client => ?_
  split
  · split <;> exact h.pure _
  · split
    · exact h.pure _
    · exact h.fail _

variable (happly : ∀ commitBytes, P _ (applyCommitBytes urls commitBytes))

include happly

theorem applyDelivery (expectedEpoch : Option Epoch) (staleAcked processed : Nat)
    (delivery : PendingCommitDelivery) :
    P _ (Worker.applyDelivery urls expectedEpoch staleAcked processed delivery) := by
  unfold Worker.applyDelivery
  split
  · exact h.fail _
  · refine h.bind (happly _) fun result => h.bind (h.ackCommitDeliveryBestEffort _) fun _ =>
      h.bind h.getClient fun client => ?_
    split <;> exact h.pure _

theorem receiveCommitDelivery (expectedEpoch : Option Epoch) (staleAcked processed : Nat) :
    P _ (Worker.receiveCommitDelivery urls expectedEpoch staleAcked processed) := by
  have hfetch : P _ (fetchPendingCommit urls) := by
    refine h.bind h.getClient fun client => h.bind (h.receive _ rfl) fun reply => ?_
    split
    · exact h.pure _
    · exact h.fail _
  refine h.bind (h.attempt hfetch) fun result => ?_
  cases result with
  | error message =>
    refine h.bind h.getClient fun client => ?_
    split
    · exact h.pure _
    · exact h.fail _
  | ok delivery =>
    refine h.bind h.getClient fun client => ?_
    split
    · exact h.ackStaleDelivery expectedEpoch staleAcked processed delivery
    · exact h.applyDelivery happly expectedEpoch staleAcked processed delivery

/-- The loop over pending commits. -/
theorem processCommits (commits : List PendingCommit) (progress : PendingProgress) :
    P _ (Worker.processCommits urls commits progress) := by
  induction commits generalizing progress with
  | nil => exact h.pure progress
  | cons pending rest ih =>
    unfold Worker.processCommits
    dsimp only
    split
    · exact h.fail _
    · refine h.bind (h.attempt (happly _)) fun result => ?_
      cases result with
      | ok message => exact ih _
      | error message => exact h.pure _

theorem processPending (hwelcomes : ∀ progress, P _ (pendingWelcomesPhase urls progress))
    (hmessage : P _ (receiveApplicationDelivery urls)) (kinds : Option (List PendingKind))
    (maxMessages : Option Nat) (expectedEpoch : Option Epoch) :
    P _ (Worker.processPending urls kinds maxMessages expectedEpoch) := by
  have hphase {kinds : List PendingKind} {kind : PendingKind}
      {phase : PendingProgress → Task M PendingProgress} (hphase : ∀ progress, P _ (phase progress))
      (progress : PendingProgress) : P _ (pendingPhase kinds kind phase progress) := by
    unfold pendingPhase
    split
    · exact hphase progress
    · exact h.pure progress
  have hcommits (progress : PendingProgress) : P _ (pendingCommitsPhase urls progress) := by
    refine h.bind (h.bind h.getClient fun client => h.bind (h.receive _ rfl) fun reply => ?_)
      fun commits => h.processCommits happly _ progress
    split
    · exact h.pure _
    · exact h.fail _
  have hmessages (progress : PendingProgress) : P _ (pendingMessagesPhase urls progress) := by
    refine h.bind (h.attempt hmessage) fun result => ?_
    cases result with
    | ok text => exact h.pure _
    | error text =>
      dsimp only
      split <;> exact h.pure _
  refine h.bind (hphase hcommits _) fun progress => h.bind (hphase hwelcomes _) fun progress =>
    h.bind (hphase hmessages _) fun progress => h.bind h.getClient fun client => ?_
  dsimp only
  split
  · exact h.pure _
  · exact h.fail _

end Receives

end Composition

end MessagingBench.Worker
