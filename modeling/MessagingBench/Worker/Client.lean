import MessagingBench.Delivery.State

/-!
# The MLS client of a worker

`client.rs` over the operations it uses of OpenMLS. The library is a parameter: its
operations receive the client's key material, the group and a random seed, and they
return the changed key material and group also when they fail. What a result relies
on is stated as a law of the parameter where it is used.
-/

namespace MessagingBench.Worker

open Delivery (Bytes Epoch)

/-- The OpenMLS operations behind the client. -/
structure Mls where
  /-- Crypto provider with its storage, signature key pair and credential. -/
  Crypto : Type
  Group : Type
  fresh : String → Nat → Except String Crypto
  groupId : Group → Bytes
  epoch : Group → Epoch
  /-- The names of the members, in the order of their leaves. -/
  members : Group → List String
  newGroup : Crypto → Nat → Except String Group × Crypto
  buildKeyPackage : Crypto → Nat → Except String Bytes × Crypto
  /-- Validate key packages and create the commit and the welcome that add them. -/
  addMembers : Crypto → Group → List Bytes → Nat → Except String (Bytes × Bytes) × Crypto × Group
  /-- Create the commit that removes the members at the given positions. -/
  removeMembers : Crypto → Group → List Nat → Nat → Except String Bytes × Crypto × Group
  selfUpdate : Crypto → Group → Nat → Except String Bytes × Crypto × Group
  clearPendingCommit : Crypto → Group → Except String Unit × Crypto × Group
  mergePendingCommit : Crypto → Group → Except String Unit × Crypto × Group
  /-- Process the commit of another member and merge it. -/
  processCommit : Crypto → Group → Bytes → Except String Unit × Crypto × Group
  deleteGroup : Crypto → Group → Except String Unit × Crypto
  joinFromWelcome : Crypto → Bytes → Except String Group × Crypto
  createMessage : Crypto → Group → Bytes → Nat → Except String Bytes × Crypto × Group
  processMessage : Crypto → Group → Bytes → Except String Bytes × Crypto × Group

structure Client (M : Mls) where
  name : String
  crypto : M.Crypto
  group : Option M.Group
  pendingCommitBytes : Option Bytes
  pendingWelcomeBytes : Option Bytes
  pendingWelcomeRecipients : List String

inductive CommitReceiveOutcome
  | ownCommitAccepted (selfRemoved : Bool) (welcomeRecipients : List String)
      (welcomeBytes : Option Bytes)
  | externalCommitApplied (selfRemoved : Bool)

def notInGroup : String := "Client is not in a group"

namespace Client

variable {M : Mls}

def fresh (name : String) (seed : Nat) : Except String (Client M) :=
  (M.fresh name seed).map fun crypto =>
    { name := name
      crypto := crypto
      group := none
      pendingCommitBytes := none
      pendingWelcomeBytes := none
      pendingWelcomeRecipients := [] }

variable (client : Client M)

def requireGroup : Except String M.Group :=
  match client.group with
  | some group => .ok group
  | none => .error notInGroup

def groupIdHex : Except String String :=
  client.requireGroup.map fun group => hexEncode (M.groupId group)

def currentEpoch : Except String Epoch := client.requireGroup.map M.epoch

def memberNames : Except String (List String) := client.requireGroup.map M.members

def createGroup (seed : Nat) : Except String Unit × Client M :=
  match M.newGroup client.crypto seed with
  | (.ok group, crypto) => (.ok (), { client with crypto := crypto, group := some group })
  | (.error message, crypto) => (.error message, { client with crypto := crypto })

def generateKeyPackage (seed : Nat) : Except String Bytes × Client M :=
  match M.buildKeyPackage client.crypto seed with
  | (result, crypto) => (result, { client with crypto := crypto })

def clearPendingLocalState : Client M :=
  { client with
    pendingCommitBytes := none
    pendingWelcomeBytes := none
    pendingWelcomeRecipients := [] }

def storePendingEpochChange (commitBytes : Bytes) (welcomeBytes : Option Bytes)
    (welcomeRecipients : List String) : Client M :=
  { client with
    pendingCommitBytes := some commitBytes
    pendingWelcomeBytes := welcomeBytes
    pendingWelcomeRecipients := welcomeRecipients }

/-- Forget everything if the client is no longer a member; reports whether it did. -/
def cleanupIfRemoved (seed : Nat) : Except String Bool × Client M :=
  match client.group with
  | none => (.error notInGroup, client)
  | some group =>
    if (M.members group).any (· == client.name) then (.ok false, client)
    else
      match fresh client.name seed with
      | .ok reset => (.ok true, reset)
      | .error message => (.error message, client)

/-- Create an add commit; its bytes and the welcome stay pending. -/
def addMembers (keyPackageBytesList : List Bytes) (memberNames : List String) (seed : Nat) :
    Except String Bytes × Client M :=
  if keyPackageBytesList.length ≠ memberNames.length then
    (.error "Number of key packages does not match number of member names", client)
  else
    match client.group with
    | none => (.error notInGroup, client)
    | some group =>
      match M.addMembers client.crypto group keyPackageBytesList seed with
      | (.error message, crypto, group) =>
        (.error message, { client with crypto := crypto, group := some group })
      | (.ok (commit, welcome), crypto, group) =>
        (.ok commit, { client with crypto := crypto, group := some group }.storePendingEpochChange
          commit (some welcome) memberNames)

def findMemberIndexByName (group : M.Group) (target : String) : Except String Nat :=
  match (M.members group).idxOf? target with
  | some index => .ok index
  | none => .error ("Member '" ++ target ++ "' not found in group")

def removeMembers (targets : List String) (seed : Nat) : Except String Bytes × Client M :=
  match client.group with
  | none => (.error notInGroup, client)
  | some group =>
    match targets.mapM (findMemberIndexByName group) with
    | .error message => (.error message, client)
    | .ok indices =>
      match M.removeMembers client.crypto group indices seed with
      | (.error message, crypto, group) =>
        (.error message, { client with crypto := crypto, group := some group })
      | (.ok commit, crypto, group) =>
        (.ok commit, { client with crypto := crypto, group := some group }.storePendingEpochChange
          commit none [])

def selfUpdate (seed : Nat) : Except String Bytes × Client M :=
  match client.group with
  | none => (.error notInGroup, client)
  | some group =>
    match M.selfUpdate client.crypto group seed with
    | (.error message, crypto, group) =>
      (.error message, { client with crypto := crypto, group := some group })
    | (.ok commit, crypto, group) =>
      (.ok commit, { client with crypto := crypto, group := some group }.storePendingEpochChange
        commit none [])

def rollbackPendingCommit : Except String Unit × Client M :=
  match client.group with
  | none => (.error notInGroup, client)
  | some group =>
    match M.clearPendingCommit client.crypto group with
    | (.error _, crypto, group) => (.error "Could not clear pending commit",
        { client with crypto := crypto, group := some group })
    | (.ok (), crypto, group) =>
      (.ok (), { client with crypto := crypto, group := some group }.clearPendingLocalState)

/-- Join after leaving a stale group; a client that fails to join is in no group. -/
def joinFromWelcome (welcomeBytes : Bytes) : Except String Unit × Client M :=
  let left : Except String Unit × M.Crypto :=
    match client.group with
    | some stale => M.deleteGroup client.crypto stale
    | none => (.ok (), client.crypto)
  match left with
  | (.error message, crypto) =>
    (.error ("Could not delete stale group before rejoin: " ++ message),
      { client with crypto := crypto, group := none })
  | (.ok (), crypto) =>
    match M.joinFromWelcome crypto welcomeBytes with
    | (.error message, crypto) =>
      (.error message,
        { client with crypto := crypto, group := none }.clearPendingLocalState)
    | (.ok group, crypto) =>
      (.ok (), { client with crypto := crypto, group := some group }.clearPendingLocalState)

def sendApplicationMessage (plaintext : Bytes) (seed : Nat) : Except String Bytes × Client M :=
  match client.group with
  | none => (.error notInGroup, client)
  | some group =>
    match M.createMessage client.crypto group plaintext seed with
    | (result, crypto, group) => (result, { client with crypto := crypto, group := some group })

def receiveApplicationMessage (messageBytes : Bytes) : Except String Bytes × Client M :=
  match client.group with
  | none => (.error notInGroup, client)
  | some group =>
    match M.processMessage client.crypto group messageBytes with
    | (result, crypto, group) => (result, { client with crypto := crypto, group := some group })

/-- Apply a delivered commit: merge it if it is the pending own commit, process it
otherwise. -/
def receiveCommit (commitBytes : Bytes) (seed : Nat) :
    Except String CommitReceiveOutcome × Client M :=
  match client.group with
  | none => (.error notInGroup, client)
  | some group =>
    if client.pendingCommitBytes = some commitBytes then
      match M.mergePendingCommit client.crypto group with
      | (.error _, crypto, group) => (.error "Could not merge local pending commit",
          { client with crypto := crypto, group := some group })
      | (.ok (), crypto, group) =>
        match ({ client with crypto := crypto, group := some group }.clearPendingLocalState :
            Client M).cleanupIfRemoved seed with
        | (.error message, client') => (.error message, client')
        | (.ok selfRemoved, client') =>
          (.ok (.ownCommitAccepted selfRemoved client.pendingWelcomeRecipients
            client.pendingWelcomeBytes), client')
    else
      match M.processCommit client.crypto group commitBytes with
      | (.error message, crypto, group) =>
        (.error message, { client with crypto := crypto, group := some group })
      | (.ok (), crypto, group) =>
        match ({ client with crypto := crypto, group := some group } : Client M).cleanupIfRemoved
            seed with
        | (.error message, client') => (.error message, client')
        | (.ok selfRemoved, client') => (.ok (.externalCommitApplied selfRemoved), client')

end Client

end MessagingBench.Worker
