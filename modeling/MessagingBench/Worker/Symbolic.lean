import MessagingBench.Worker.Protocol

/-!
# A symbolic MLS

A small executable instance of the MLS operations. Messages spell out what real ones
protect: a commit carries its epoch and the member list it leads to, a welcome the
whole group. Runs on concrete inputs are evaluated with it.
-/

namespace MessagingBench.Worker.Symbolic

open Delivery (Bytes Epoch)

structure Group where
  id : Bytes
  epoch : Epoch
  members : List String
  /-- The member list of the pending commit. -/
  pending : Option (List String)

def encodeName (name : String) : Bytes := name.toList.map fun c => UInt8.ofNat c.toNat

def decodeName (bytes : Bytes) : String := String.ofList (bytes.map fun b => Char.ofNat b.toNat)

def encodeNames (names : List String) : Bytes := names.flatMap fun name => encodeName name ++ [0]

def decodeNames (bytes : Bytes) : List String := ((bytes.splitOn 0).dropLast).map decodeName

/-- A number in unary, ended by zero. -/
def unary (n : Nat) (rest : Bytes) : Bytes := List.replicate n 1 ++ 0 :: rest

def readUnary : Bytes → Nat × Bytes
  | [] => (0, [])
  | b :: rest => if b = 1 then ((readUnary rest).1 + 1, (readUnary rest).2) else (0, rest)

/-- A commit is marked by the seed it was made from. -/
def commitBytes (group : Group) (members : List String) (seed : Nat) : Bytes :=
  unary seed (unary group.epoch.toNat (encodeNames members))

def welcomeBytes (group : Group) (members : List String) : Bytes :=
  unary (group.epoch.toNat + 1) (group.id ++ encodeNames members)

def stage (crypto : String) (group : Group) (members : List String) (seed : Nat) :
    Except String Bytes × String × Group :=
  match group.pending with
  | some _ => (.error "Can't execute operation because a pending commit exists", crypto, group)
  | none =>
    (.ok (commitBytes group members seed), crypto, { group with pending := some members })

def advance (group : Group) (members : List String) : Group :=
  ⟨group.id, group.epoch + 1, members, none⟩

/-- The operations; the key material of a client is its name. -/
def mls : Mls where
  Crypto := String
  Group := Group
  fresh name _ := .ok name
  groupId := Group.id
  epoch := Group.epoch
  members := Group.members
  newGroup name seed := (.ok ⟨[UInt8.ofNat seed], 0, [name], none⟩, name)
  buildKeyPackage name _ := (.ok (encodeName name), name)
  addMembers crypto group keyPackages seed :=
    let members := group.members ++ keyPackages.map decodeName
    match stage crypto group members seed with
    | (.ok commit, crypto', group') => (.ok (commit, welcomeBytes group members), crypto', group')
    | (.error message, crypto', group') => (.error message, crypto', group')
  removeMembers crypto group positions seed :=
    stage crypto group (group.members.zipIdx.filterMap fun x =>
      if x.2 ∈ positions then none else some x.1) seed
  selfUpdate crypto group seed := stage crypto group group.members seed
  clearPendingCommit crypto group := (.ok (), crypto, { group with pending := none })
  mergePendingCommit crypto group :=
    match group.pending with
    | none => (.ok (), crypto, group)
    | some members => (.ok (), crypto, advance group members)
  processCommit crypto group bytes :=
    let (epoch, names) := readUnary (readUnary bytes).2
    if epoch = group.epoch.toNat then (.ok (), crypto, advance group (decodeNames names))
    else (.error "WrongEpoch", crypto, group)
  deleteGroup crypto _ := (.ok (), crypto)
  joinFromWelcome crypto bytes :=
    match readUnary bytes with
    | (epoch, id :: names) => (.ok ⟨[id], UInt64.ofNat epoch, decodeNames names, none⟩, crypto)
    | (_, []) => (.error "Could not deserialize welcome", crypto)
  createMessage crypto group plaintext _ := (.ok plaintext, crypto, group)
  processMessage crypto group bytes := (.ok bytes, crypto, group)

theorem readUnary_unary (n : Nat) (rest : Bytes) : readUnary (unary n rest) = (n, rest) := by
  induction n with
  | zero => rfl
  | succ n ih =>
    have hsucc : unary (n + 1) rest = 1 :: unary n rest := rfl
    rw [hsucc, readUnary, ih]
    rfl

theorem stage_seed {crypto : String} {group : Group} {members : List String} {seed : Nat}
    {commit : Bytes} (h : (stage crypto group members seed).1 = .ok commit) :
    (readUnary commit).1 = seed := by
  unfold stage at h
  split at h
  · cases h
  · cases h
    simp only [commitBytes, readUnary_unary]

/-- Symbolic commits spell out their seed. -/
theorem freshCommits : mls.FreshCommits fun commit => (readUnary commit).1 := by
  refine ⟨?_, fun _ _ _ _ _ => stage_seed, fun _ _ _ _ => stage_seed⟩
  intro crypto group keyPackages seed commit welcome h
  simp only [mls] at h
  split at h
  · rename_i hstage
    cases h
    exact stage_seed (congrArg Prod.fst hstage)
  · cases h

/-- Worker names and service addresses for concrete runs. -/
def crypto (names : List String) (name : String) : Option mls.Crypto :=
  if name ∈ names then some name else none

def urls : Urls := ⟨"http://ds", "http://relay"⟩

/-- The record of a run from empty services. -/
def record (names : List String) (schedule : List Action) : Log Event :=
  (execute (World.step urls) (World.init .perRecipient (crypto names)) schedule).log

/-- Alice adds bob and merges the commit up to the point where her welcome is stored. -/
def addBob : List Action :=
  [.start "alice" ⟨.createGroup, none⟩, .attempt "alice" 0 .answered [] 0, .proceed "alice",
    .start "bob" ⟨.generateKeyPackage, none⟩, .attempt "bob" 0 .answered [] 0, .proceed "bob",
    .start "alice" ⟨.addMembers ["bob"], none⟩, .attempt "alice" 0 .answered [] 0,
    .attempt "alice" 0 .answered [] 0, .proceed "alice",
    .start "alice" ⟨.receiveCommit, some 1⟩, .attempt "alice" 0 .answered [] 0,
    .attempt "alice" 0 .answered [] 0]

end MessagingBench.Worker.Symbolic
